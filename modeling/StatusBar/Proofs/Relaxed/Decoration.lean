import StatusBar.Proofs.Document.Spelling
import StatusBar.Proofs.Relaxed.Commas

/-!
# Comments, spaces and trailing commas

`Decorates` says that a text comes from another one by what a configuration may hold
besides a document: spaces and comments between tokens, and a comma between the last
element of a bracket and its end.  Whatever strictly is a document still holds it with all
this.
-/

namespace StatusBar.Relaxed

open Document (ConsistsOf InOrder IsQuotable IsToken Stage Token consistsOf_cons markKind?)
open Scan (isSpace skipSpace)
open Reading (mapError_eq_ok)

/-- The second text is the first one with spaces and comments before its tokens and after
the last, and with a comma after the last element of a bracket.  The stage says whether an
element has just ended. -/
inductive Decorates : Stage → (text decorated : List Char) → Prop where
  | finish (stage : Stage) : Decorates stage [] []
  /-- A comment ends with the text. -/
  | lastLine (stage : Stage) {body : List Char} (hbody : '\n' ∉ body) :
      Decorates stage [] ('/' :: '/' :: body)
  | space {stage : Stage} {c : Char} {text decorated : List Char} (hc : isSpace c = true)
      (h : Decorates stage text decorated) : Decorates stage (c :: text) (c :: decorated)
  | addSpace {stage : Stage} {c : Char} {text decorated : List Char} (hc : isSpace c = true)
      (h : Decorates stage text decorated) : Decorates stage text (c :: decorated)
  | addBlock {stage : Stage} {body text decorated : List Char} (hbody : ¬ ['*', '/'] <:+: body)
      (h : Decorates stage text decorated) :
      Decorates stage text ('/' :: '*' :: (body ++ '*' :: '/' :: decorated))
  /-- A comment ends before the end of its line. -/
  | addLine {stage : Stage} {body text decorated : List Char} (hbody : '\n' ∉ body)
      (h : Decorates stage text ('\n' :: decorated)) :
      Decorates stage text ('/' :: '/' :: (body ++ '\n' :: decorated))
  /-- A closing bracket comes next. -/
  | addComma {c : Char} {text rest decorated : List Char} (hskip : skipSpace text = c :: rest)
      (hc : markKind? c = some .closing) (h : Decorates .due text decorated) :
      Decorates .done text (',' :: decorated)
  | token {stage : Stage} (token : Token) {text decorated : List Char}
      (hends : token.EndsBefore text) (h : Decorates token.kind.after text decorated) :
      Decorates stage (token.chars ++ text) (token.chars ++ decorated)

/-! ### Without comments -/

/-- The second text is the first one with spaces, but no comments, and with commas added. -/
inductive Spaced : Stage → (text spaced : List Char) → Prop where
  | finish (stage : Stage) : Spaced stage [] []
  | space {stage : Stage} {c : Char} {text spaced : List Char} (hc : isSpace c = true)
      (h : Spaced stage text spaced) : Spaced stage (c :: text) (c :: spaced)
  | addSpace {stage : Stage} {c : Char} {text spaced : List Char} (hc : isSpace c = true)
      (h : Spaced stage text spaced) : Spaced stage text (c :: spaced)
  | addComma {c : Char} {text rest spaced : List Char} (hskip : skipSpace text = c :: rest)
      (hc : markKind? c = some .closing) (h : Spaced .due text spaced) :
      Spaced .done text (',' :: spaced)
  | token {stage : Stage} (token : Token) {text spaced : List Char}
      (hends : token.EndsBefore text) (h : Spaced token.kind.after text spaced) :
      Spaced stage (token.chars ++ text) (token.chars ++ spaced)

theorem Spaced.addGap {stage : Stage} {gap text spaced : List Char} (hgap : IsGap gap)
    (h : Spaced stage text spaced) :
  Spaced stage text (gap ++ spaced)
  := by
  induction gap with
  | nil => exact h
  | cons c gap ih =>
    apply addSpace (hgap c List.mem_cons_self)
    apply ih fun d hd => hgap d (List.mem_cons_of_mem c hd)

/-- Erasing the comments of a decorated text leaves at most spaces of them. -/
theorem Decorates.spaced {stage : Stage} {text decorated : List Char}
    (h : Decorates stage text decorated) {erase : List (Char × Bool) → List Char}
    (he : ErasesComments erase) :
  Spaced stage text (erase (marked .code decorated))
  := by
  induction h with
  | finish stage =>
    rw [he.nil]
    apply Spaced.finish
  | lastLine stage hbody =>
    rw [← List.append_nil (erase _)]
    apply Spaced.addGap (he.lastLine hbody)
    apply Spaced.finish
  | space hc _ ih =>
    rw [he.space hc]
    apply Spaced.space hc ih
  | addSpace hc _ ih =>
    rw [he.space hc]
    apply Spaced.addSpace hc ih
  | @addBlock _ _ _ decorated hbody _ ih =>
    obtain ⟨gap, hgap, heq⟩ := he.block hbody decorated
    rw [heq]
    apply Spaced.addGap hgap ih
  | @addLine _ _ _ decorated hbody _ ih =>
    obtain ⟨gap, hgap, heq⟩ := he.line hbody decorated
    rw [heq]
    apply Spaced.addGap hgap ih
  | addComma hskip hc _ ih =>
    rw [he.comma]
    apply Spaced.addComma hskip hc ih
  | token token hends _ ih =>
    rw [he.token]
    apply Spaced.token token hends ih

namespace Spaced

variable {stage : Stage} {text spaced : List Char}

/-- A spaced text goes on like the text itself, where no comma was added. -/
theorem head?_skipSpace (h : Spaced stage text spaced) (hstage : stage ≠ .done) :
  (skipSpace spaced).head? = (skipSpace text).head?
  := by
  induction h with
  | finish => rfl
  | space hc _ ih =>
    rw [Document.skipSpace_cons_of_isSpace hc, ih hstage, Document.skipSpace_cons_of_isSpace hc]
  | addSpace hc _ ih => rw [Document.skipSpace_cons_of_isSpace hc, ih hstage]
  | addComma => cases hstage rfl
  | token token =>
    rw [token.skipSpace_append, token.skipSpace_append, token.head?_append, token.head?_append]

/-- After a token, the next character that is not blank starts the next token. -/
theorem find?_eq (h : Spaced stage text spaced) (hstage : stage ≠ .done) {token : Token}
    {tokens : List Token} (htokens : ConsistsOf text (token :: tokens)) :
  spaced.find? (fun c => !Text.isBlank c) = token.chars.head?
  := by
  obtain ⟨text', hskip, -, -⟩ := consistsOf_cons.mp htokens
  apply find?_of_token
  rw [h.head?_skipSpace hstage, hskip, token.head?_append]

/-- No closing bracket comes after a separator. -/
theorem closesNext_eq_false (h : Spaced .due text spaced) {tokens : List Token}
    (htokens : ConsistsOf text tokens) (horder : InOrder .due tokens .done) :
  closesNext spaced = false
  := by
  cases tokens with
  | nil => cases horder
  | cons token tokens =>
    obtain ⟨hadmits, -⟩ := horder
    apply closesNext_of_admits (h.find?_eq (by decide) htokens) hadmits

/-- Without trailing commas, a spaced text consists of the tokens of the text itself. -/
theorem consistsOf (h : Spaced stage text spaced) {first : Stage} {tokens : List Token}
    (htokens : ConsistsOf text tokens) (horder : InOrder first tokens .done) :
  ConsistsOf (withoutTrailingCommas spaced) tokens
  := by
  induction h generalizing first tokens with
  | finish => exact htokens
  | space hc _ ih =>
    rw [consistsOf_withoutTrailingCommas_space hc]
    apply ih ((consistsOf_space hc).mp htokens) horder
  | addSpace hc _ ih =>
    rw [consistsOf_withoutTrailingCommas_space hc]
    apply ih htokens horder
  | @addComma c text rest spaced hskip hc h ih =>
    have hcloses : closesNext spaced = true := by
      apply closesNext_of_token (.mark c hc)
      rw [h.head?_skipSpace (by decide), hskip]
      rfl
    rw [withoutTrailingCommas_comma, if_pos hcloses]
    apply ih htokens horder
  | @token stage token text spaced hends h ih =>
    obtain ⟨tokens, rfl, htokens'⟩ := htokens.exists_of_append hends
    obtain ⟨-, horder⟩ := horder
    have hleft := ih htokens' horder
    have hcloses : token.kind = .separator → closesNext spaced = false := by
      intro hkind
      rw [hkind] at h horder
      apply h.closesNext_eq_false htokens' horder
    rw [withoutTrailingCommas_token token hcloses]
    apply consistsOf_cons.mpr
    use withoutTrailingCommas spaced, token.skipSpace_append _
    constructor
    · intro hword
      rw [hword] at horder
      obtain ⟨rest, hspells, hrest⟩ := hleft
      apply horder.stops hspells (Document.stops_of_skipSpace_eq_nil hrest)
    · exact hleft

end Spaced

/-! ### Documents with decorations -/

theorem read_eq_ok {text : String} {doc : Document} :
  read text = .ok doc ↔ Document.readChars (stripChars text.toList) = .ok doc
  := by
  rw [read, Document.read, mapError_eq_ok, strip, String.toList_ofList]

theorem Decorates.readChars_stripChars {text decorated : List Char} {doc : Document}
    (h : Decorates .due text decorated) (htext : Document.readChars text = .ok doc) :
  Document.readChars (stripChars decorated) = .ok doc
  := by
  obtain ⟨tokens, htokens, horder, hread⟩ := Document.exists_tokens_of_readChars htext
  apply hread
  rw [stripChars, withoutComments_eq_kept]
  apply (h.spaced erasesComments_kept).consistsOf htokens horder

/-- A document with spaces, comments and trailing commas added is still the same document. -/
theorem read_of_decorates {text decorated : String} {doc : Document}
    (htext : Document.read text = .ok doc)
    (h : Decorates .due text.toList decorated.toList) :
  read decorated = .ok doc
  := by
  apply read_eq_ok.mpr
  apply h.readChars_stripChars (mapError_eq_ok.mp htext)

/-- What looks like a comment or a trailing comma within a string stays, and a quote within
a comment goes. -/
theorem read_of_decorates_lookalikes :
  Document.read "\x7b\"/*,]\":1\x7d" = .ok (.object [("/*,]", .number (.integer 1))])
    ∧ Decorates .due "\x7b\"/*,]\":1\x7d".toList "\x7b/*\"*/\"/*,]\":1,\n\x7d//".toList
    ∧ read "\x7b/*\"*/\"/*,]\":1,\n\x7d//" = .ok (.object [("/*,]", .number (.integer 1))])
  := by
  have htext : Document.read "\x7b\"/*,]\":1\x7d"
      = .ok (.object [("/*,]", .number (.integer 1))]) := by
    apply mapError_eq_ok.mpr
    rfl
  have hbody : IsQuotable ['/', '*', ',', ']'] := by
    repeat apply IsQuotable.char (by decide) (by decide)
    apply IsQuotable.nil
  have hone : IsToken .word ['1'] := by
    apply IsToken.word
    apply List.all_eq_true.mp rfl
  have h : Decorates .due
      ['\x7b', '"', '/', '*', ',', ']', '"', ':', '1', '\x7d']
      ['\x7b', '/', '*', '"', '*', '/', '"', '/', '*', ',', ']', '"', ':', '1', ',', '\n', '\x7d',
        '/', '/'] := by
    apply Decorates.token (.mark '\x7b' rfl) (Token.endsBefore_mark rfl _)
    apply Decorates.addBlock (show ¬ ['*', '/'] <:+: ['"'] by decide)
    apply Decorates.token ⟨.quoted, _, .quoted hbody⟩ (by rintro ⟨⟩)
    apply Decorates.token (.mark ':' rfl) (Token.endsBefore_mark rfl _)
    apply Decorates.token ⟨.word, _, hone⟩ (fun _ => Document.stops_cons.mpr rfl)
    apply Decorates.addComma rfl rfl
    apply Decorates.addSpace rfl
    apply Decorates.token (.mark '\x7d' rfl) (Token.endsBefore_mark rfl _)
    apply Decorates.lastLine _ (show '\n' ∉ [] by simp)
  use htext, h
  apply read_of_decorates htext
  apply h

end StatusBar.Relaxed

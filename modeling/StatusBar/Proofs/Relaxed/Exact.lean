import StatusBar.Proofs.Relaxed.Closed
import StatusBar.Proofs.Relaxed.Decoration

/-!
# Which texts decorate a document

More is read than documents with comments, spaces and trailing commas.  A comment leaves
nothing where it was, so that it joins what it stands between; the last block comment need
not end; and a comma before a closing bracket is dropped even if no element is before it.
Nothing else is: a text that is read without any of this decorates a document.
-/

namespace StatusBar.Relaxed

open Document (ConsistsOf InOrder IsQuotable Stage Token isWordChar markKind? consistsOf_cons)
open Scan (isSpace skipSpace)
open Reading (mapError_eq_ok)

/-! ### Tokens outside of comments -/

theorem blanked_code {c : Char} {text : List Char} (hquote : c ≠ '"')
    (h : c = '/' → text.head? ≠ some '/' ∧ text.head? ≠ some '*') :
  blanked (c :: text) = c :: blanked text
  := by
  rw [blanked, marked]
  · rfl
  · exact hquote
  · rintro rest hc rfl
    apply (h hc).left rfl
  · rintro rest hc rfl
    apply (h hc).right rfl

/-- What follows a dropped comma is no word. -/
theorem isWordChar_of_closesNext {c : Char} {text rest : List Char} (h : closesNext text = true)
    (hrest : withoutTrailingCommas text = c :: rest) :
  isWordChar c = false
  := by
  cases text with
  | nil => cases h
  | cons d text =>
    by_cases hblank : Text.isBlank d = true
    · have hquote : d ≠ '"' := by
        rintro rfl
        cases hblank
      have hcomma : d ≠ ',' := by
        rintro rfl
        cases hblank
      rw [withoutTrailingCommas_of_ne hquote hcomma] at hrest
      cases hrest
      rw [Bool.eq_false_iff]
      intro hword
      rw [isBlank_eq_false_of_isWordChar hword] at hblank
      cases hblank
    · have hclosing : d = '\x7d' ∨ d = ']' := by simpa [closesNext, hblank] using h
      obtain rfl | rfl := hclosing
      all_goals
        rw [withoutTrailingCommas_of_ne (by decide) (by decide)] at hrest
        cases hrest
        rfl

/-- A character of a word was not pulled up by a dropped comma. -/
theorem head?_of_wordChar {c : Char} {text rest : List Char} (hc : isWordChar c = true)
    (h : withoutTrailingCommas text = c :: rest) :
  text.head? = some c
  := by
  cases text with
  | nil => cases h
  | cons d text =>
    by_cases hdropped : d = ',' ∧ closesNext text = true
    · obtain ⟨rfl, hcloses⟩ := hdropped
      rw [withoutTrailingCommas_comma, if_pos hcloses] at h
      rw [isWordChar_of_closesNext hcloses h] at hc
      cases hc
    · obtain ⟨rest', hrest⟩ := exists_eq_cons_of_kept hdropped
      rw [hrest] at h
      cases h
      rfl

/-- A character of a word is from outside of comments. -/
theorem exists_of_wordChar {c : Char} {text rest : List Char} (hc : isWordChar c = true)
    (h : withoutTrailingCommas (blanked text) = c :: rest) :
  ∃ text', text = c :: text' ∧ rest = withoutTrailingCommas (blanked text')
  := by
  have hplain : IsPlain [c] := isPlain_word (by simpa using hc)
  obtain ⟨hquote, hslash, hcomma⟩ := hplain c List.mem_cons_self
  have hspace : isSpace c = false := by
    rw [Bool.eq_false_iff]
    intro hspace
    rw [Document.isWordChar_eq_false_of_isSpace hspace] at hc
    cases hc
  have hhead := head?_blank_marked (head?_of_wordChar hc h) hspace
  obtain ⟨text', rfl⟩ := List.head?_eq_some_iff.mp hhead
  use text', rfl
  rw [blanked_code hquote (fun h => by cases hslash h), withoutTrailingCommas_of_ne hquote hcomma]
    at h
  cases h
  rfl

theorem exists_of_word {word text rest : List Char} (hword : ∀ c ∈ word, isWordChar c = true)
    (h : withoutTrailingCommas (blanked text) = word ++ rest) :
  ∃ text', text = word ++ text' ∧ rest = withoutTrailingCommas (blanked text')
  := by
  induction word generalizing text with
  | nil =>
    use text, rfl
    exact h.symm
  | cons c word ih =>
    obtain ⟨text', rfl, hrest⟩ := exists_of_wordChar (hword c List.mem_cons_self) h
    obtain ⟨text'', rfl, hrest⟩ := ih (fun d hd => hword d (List.mem_cons_of_mem c hd)) hrest.symm
    use text''
    use rfl

/-- A string is from outside of comments. -/
theorem exists_of_string {body text rest : List Char} (hbody : IsQuotable body)
    (h : withoutTrailingCommasFrom true (blank (marked .string text)) = body ++ '"' :: rest) :
  ∃ text', text = body ++ '"' :: text' ∧ rest = withoutTrailingCommas (blanked text')
  := by
  by_cases hend : ∃ body text', IsQuotable body ∧ text = body ++ '"' :: text'
  · obtain ⟨body', text', hbody', rfl⟩ := hend
    rw [marked_string hbody', erasesComments_blank.append, erasesComments_blank.outside,
      List.append_assoc, List.singleton_append, withoutTrailingCommasFrom_string hbody'] at h
    obtain ⟨rfl, hrest⟩ := hbody'.eq_of_append hbody h
    use text', rfl
    exact hrest.symm
  · -- What is kept of an open string is all of it, and has no end either.
    have hopen : ∀ body rest, IsQuotable body → text ≠ body ++ '"' :: rest :=
      fun body rest hbody heq => hend ⟨body, rest, hbody, heq⟩
    rw [erasesComments_blank.keeps_openString rfl hopen] at h
    cases hopen body rest hbody h

/-- A character outside of comments and strings that is not dropped. -/
theorem withoutTrailingCommas_blanked_cons {c : Char} {text : List Char} (hquote : c ≠ '"')
    (hc : c = '/' → text.head? ≠ some '/' ∧ text.head? ≠ some '*')
    (hcomma : c = ',' → closesNext (blanked text) = false) :
  withoutTrailingCommas (blanked (c :: text)) = c :: withoutTrailingCommas (blanked text)
  := by
  rw [blanked_code hquote hc]
  by_cases hc' : c = ','
  · rw [hc', withoutTrailingCommas_comma, hcomma hc']
    rfl
  · apply withoutTrailingCommas_of_ne hquote hc'

/-- What is outside of comments and not dropped stays. -/
theorem exists_eq_cons_of_code {c : Char} {text : List Char}
    (hc : c = '/' → text.head? ≠ some '/' ∧ text.head? ≠ some '*')
    (hcomma : c = ',' → closesNext (blanked text) = false) :
  ∃ rest, withoutTrailingCommas (blanked (c :: text)) = c :: rest
  := by
  by_cases hquote : c = '"'
  · use withoutTrailingCommasFrom true (blank (marked .string text))
    rw [hquote]
    rfl
  · use withoutTrailingCommas (blanked text)
    apply withoutTrailingCommas_blanked_cons hquote hc hcomma

/-- A token is from outside of comments, and was not dropped. -/
theorem exists_of_token (token : Token) {c : Char} {text rest : List Char}
    (hc : c = '/' → text.head? ≠ some '/' ∧ text.head? ≠ some '*')
    (hcomma : c = ',' → closesNext (blanked text) = false)
    (h : withoutTrailingCommas (blanked (c :: text)) = token.chars ++ rest) :
  ∃ text', c :: text = token.chars ++ text' ∧ rest = withoutTrailingCommas (blanked text')
  := by
  obtain ⟨kind, chars, htoken⟩ := token
  cases htoken with
  | @mark d _ hmark =>
    by_cases hquote : c = '"'
    · subst hquote
      cases h
      cases hmark
    · rw [withoutTrailingCommas_blanked_cons hquote hc hcomma] at h
      obtain ⟨rfl, hrest⟩ := List.cons.inj h
      use text, rfl
      exact hrest.symm
  | @quoted body hbody =>
    by_cases hquote : c = '"'
    · subst hquote
      have hbody' : withoutTrailingCommasFrom true (blank (marked .string text))
          = body ++ '"' :: rest := by
        simpa [blanked, marked, blank, withoutTrailingCommas, withoutTrailingCommasFrom] using h
      obtain ⟨text', rfl, hrest⟩ := exists_of_string hbody hbody'
      use text', by simp
    · rw [withoutTrailingCommas_blanked_cons hquote hc hcomma] at h
      cases hquote (List.cons.inj h).left
  | word hword => apply exists_of_word hword h

/-! ### What decorations never do -/

/-- Decorations close their comments. -/
theorem Decorates.blocksClosed {stage : Stage} {text decorated : List Char}
    (h : Decorates stage text decorated) :
  BlocksClosed decorated
  := by
  induction h with
  | finish => rfl
  | lastLine _ hbody => apply blocksClosed_lastLine hbody
  | space hc _ ih => apply (blocksClosed_space hc _).mpr ih
  | addSpace hc _ ih => apply (blocksClosed_space hc _).mpr ih
  | addBlock hbody _ ih => apply (blocksClosed_block hbody _).mpr ih
  | addLine hbody _ ih => apply (blocksClosed_line hbody _).mpr ih
  | addComma _ _ _ ih => apply (blocksClosed_token (.mark ',' rfl) _).mpr ih
  | token token _ _ ih => apply (blocksClosed_token token _).mpr ih

/-- Where a comma is added, an element has ended. -/
theorem Spaced.leadsWithComma_eq_false {stage : Stage} {text spaced : List Char}
    (h : Spaced stage text spaced) {first : Stage} {tokens : List Token}
    (htokens : ConsistsOf text tokens) (horder : InOrder first tokens .done) :
  leadsWithComma false spaced = false
  := by
  induction h generalizing first tokens with
  | finish => rfl
  | space hc _ ih =>
    rw [leadsWithComma_space hc]
    apply ih ((consistsOf_space hc).mp htokens) horder
  | addSpace hc _ ih =>
    rw [leadsWithComma_space hc]
    apply ih htokens horder
  | addComma _ _ _ ih => simpa [leadsWithComma, markKind?] using ih htokens horder
  | @token stage token text spaced hends h ih =>
    obtain ⟨tokens, rfl, htokens'⟩ := htokens.exists_of_append hends
    obtain ⟨-, horder⟩ := horder
    rw [leadsWithComma_token, ih htokens' horder, Bool.or_false, Bool.and_eq_false_imp]
    intro hkind
    rw [decide_eq_true_eq] at hkind
    rw [hkind] at h horder
    cases tokens with
    | nil => cases horder
    | cons next tokens =>
      obtain ⟨hadmits, -⟩ := horder
      rw [Bool.eq_false_iff]
      intro hcomma
      rw [commaNext_of_find? next (h.find?_eq (by decide) htokens') hcomma] at hadmits
      cases hadmits

/-- A text with its comments replaced by blank space. -/
def blankComments (text : String) : String :=
  String.ofList (blanked text.toList)

theorem read_blankComments {text : String} {doc : Document} :
  read (blankComments text) = .ok doc
    ↔ Document.readChars (withoutTrailingCommas (blanked text.toList)) = .ok doc
  := by
  rw [read_eq_ok, blankComments, String.toList_ofList, stripChars, withoutComments_blanked]

/-- Blanking its comments does not change what a decorated text holds. -/
theorem Decorates.read_blankComments {text decorated : String} {doc : Document}
    (h : Decorates .due text.toList decorated.toList) (htext : Document.read text = .ok doc) :
  read (blankComments decorated) = .ok doc
  := by
  obtain ⟨tokens, htokens, horder, hread⟩ :=
    Document.exists_tokens_of_readChars (mapError_eq_ok.mp htext)
  apply Relaxed.read_blankComments.mpr
  apply hread _ ((h.spaced erasesComments_blank).consistsOf htokens horder)

/-! ### The document in a text -/

/-- A text holds these tokens in order, and its block comments end.  No comma comes first
after an opening bracket, nor at the start of the text unless an element has just ended. -/
structure Holds (stage : Stage) (tokens : List Token) (decorated : List Char) : Prop where
  closed : BlocksClosed decorated
  consistsOf : ConsistsOf (withoutTrailingCommas (blanked decorated)) tokens
  order : ∃ first, InOrder first tokens .done
  leads : leadsWithComma false (blanked decorated) = false
  comma : stage = .done ∨ commaNext (blanked decorated) = false

namespace Holds

variable {stage : Stage} {tokens : List Token}

theorem of_gap {decorated text gap : List Char} (h : Holds stage tokens decorated)
    (hgap : IsGap gap) (heq : blanked decorated = gap ++ blanked text)
    (hclosed : BlocksClosed decorated ↔ BlocksClosed text) :
  Holds stage tokens text
  := by
  obtain ⟨hdecorated, htokens, horder, hleads, hcomma⟩ := h
  rw [heq] at htokens hleads hcomma
  constructor
  · apply hclosed.mp hdecorated
  · apply (consistsOf_withoutTrailingCommas_gap hgap).mp htokens
  · exact horder
  · rw [leadsWithComma_gap hgap] at hleads
    exact hleads
  · rw [commaNext_gap hgap] at hcomma
    exact hcomma

/-- Before a closing bracket, a comma follows an element. -/
theorem of_droppedComma {text : List Char} (h : Holds stage tokens (',' :: text))
    (hcloses : closesNext (blanked text) = true) :
  stage = .done ∧ Holds .due tokens text
    ∧ ∃ c rest, skipSpace (tokens.flatMap Token.chars) = c :: rest ∧ markKind? c = some .closing
  := by
  obtain ⟨hclosed, htokens, horder, hleads, hcomma⟩ := h
  have hblanked : blanked (',' :: text) = ',' :: blanked text := erasesComments_blank.comma text
  rw [hblanked] at htokens hleads hcomma
  rw [withoutTrailingCommas_comma, if_pos hcloses] at htokens
  constructor
  · rw [commaNext_comma] at hcomma
    simpa using hcomma
  constructor
  · constructor
    · apply (blocksClosed_token (.mark ',' rfl) text).mp hclosed
    · exact htokens
    · exact horder
    · simpa [leadsWithComma, markKind?] using hleads
    · right
      apply commaNext_of_closesNext hcloses
  · obtain ⟨token, tokens, rfl⟩ :=
      List.exists_cons_of_ne_nil (ne_nil_of_closesNext hcloses htokens)
    obtain ⟨c, chars, hchars, -⟩ := token.isToken.exists_eq_cons
    use c, chars ++ tokens.flatMap Token.chars
    constructor
    · rw [List.flatMap_cons, token.skipSpace_append, hchars]
      rfl
    · apply markKind?_of_closing (closing_of_closesNext hcloses htokens) hchars

theorem of_token {token : Token} {text : List Char}
    (h : Holds stage (token :: tokens) (token.chars ++ text))
    (htokens : ConsistsOf (withoutTrailingCommas (blanked text)) tokens) :
  Holds token.kind.after tokens text
  := by
  obtain ⟨hclosed, -, ⟨first, -, horder⟩, hleads, -⟩ := h
  have hblanked : blanked (token.chars ++ text) = token.chars ++ blanked text :=
    erasesComments_blank.token token text
  rw [hblanked, leadsWithComma_token, Bool.or_eq_false_iff] at hleads
  obtain ⟨hopening, hleads⟩ := hleads
  use (blocksClosed_token token text).mp hclosed, htokens, ⟨_, horder⟩, hleads
  cases hkind : token.kind with
  | opening =>
    right
    simpa [hkind] using hopening
  | separator =>
    right
    rw [hkind] at horder
    apply commaNext_of_due htokens horder
  | closing | quoted | word =>
    left
    rfl

/-- Outside of comments, what is not a dropped comma starts the first token. -/
theorem exists_token {c : Char} {text : List Char} (h : Holds stage tokens (c :: text))
    (hspace : isSpace c = false) (hc : c = '/' → text.head? ≠ some '/' ∧ text.head? ≠ some '*')
    (hcomma : c = ',' → closesNext (blanked text) = false) :
  ∃ token tokens' text', tokens = token :: tokens' ∧ c :: text = token.chars ++ text'
    ∧ token.EndsBefore (tokens'.flatMap Token.chars) ∧ Holds token.kind.after tokens' text'
  := by
  have htokens := h.consistsOf
  obtain ⟨rest, hrest⟩ := exists_eq_cons_of_code hc hcomma
  cases tokens with
  | nil =>
    rw [hrest, Document.consistsOf_nil, Document.skipSpace_cons_of_not_isSpace hspace] at htokens
    cases htokens
  | cons token tokens =>
    obtain ⟨left, hskip, hends, hleft⟩ := consistsOf_cons.mp htokens
    rw [hrest, Document.skipSpace_cons_of_not_isSpace hspace, ← hrest] at hskip
    obtain ⟨text', heq, rfl⟩ := exists_of_token token hc hcomma hskip
    rw [heq] at h
    use token, tokens, text', rfl, heq
    constructor
    · intro hword
      obtain ⟨first, -, horder⟩ := h.order
      rw [hword] at horder
      apply horder.stops horder.spells_flatMap Document.stops_nil
    · apply h.of_token hleft

end Holds

/-- A text is its tokens with decoration, if it holds them. -/
theorem Holds.decorates {decorated : List Char} {stage : Stage} {tokens : List Token}
    (h : Holds stage tokens decorated) :
  Decorates stage (tokens.flatMap Token.chars) decorated
  := by
  have he := erasesComments_blank
  -- A token or a comment is left out at once, so that the induction is on the length.
  induction hlength : decorated.length using Nat.strong_induction_on
    generalizing decorated stage tokens with
  | _ length ih =>
    subst hlength
    cases start_of_blocksClosed h.closed with
    | finish =>
      obtain rfl := eq_nil_of_gap (he.inside []) h.consistsOf
      apply Decorates.finish
    | @space c hc text =>
      apply Decorates.addSpace hc
      apply ih text.length (by simp) _ rfl
      apply h.of_gap (isGap_singleton hc) (he.space hc text) (blocksClosed_space hc text)
    | lastLine hbody =>
      obtain rfl := eq_nil_of_gap (he.lastLine hbody) h.consistsOf
      apply Decorates.lastLine _ hbody
    | @line body hbody text =>
      obtain ⟨gap, hgap, heq⟩ := he.line hbody text
      apply Decorates.addLine hbody
      have hshorter : ('\n' :: text).length < ('/' :: '/' :: (body ++ '\n' :: text)).length := by
        simp only [List.length_append, List.length_cons]
        omega
      apply ih ('\n' :: text).length hshorter _ rfl
      apply h.of_gap hgap heq (blocksClosed_line hbody text)
    | @block body hbody text =>
      obtain ⟨gap, hgap, heq⟩ := he.block hbody text
      apply Decorates.addBlock hbody
      have hshorter : text.length < ('/' :: '*' :: (body ++ '*' :: '/' :: text)).length := by
        simp only [List.length_append, List.length_cons]
        omega
      apply ih text.length hshorter _ rfl
      apply h.of_gap hgap heq (blocksClosed_block hbody text)
    | @code c text hspace hc =>
      by_cases hdropped : c = ',' ∧ closesNext (blanked text) = true
      · obtain ⟨rfl, hcloses⟩ := hdropped
        obtain ⟨rfl, htext, d, rest, hskip, hclosing⟩ := h.of_droppedComma hcloses
        apply Decorates.addComma hskip hclosing
        apply ih text.length (by simp) htext rfl
      · have hcomma : c = ',' → closesNext (blanked text) = false := by
          rintro rfl
          simpa using hdropped
        obtain ⟨token, tokens, text', rfl, heq, hends, htext⟩ := h.exists_token hspace hc hcomma
        rw [heq, List.flatMap_cons]
        apply Decorates.token token hends
        apply ih text'.length _ htext rfl
        rw [heq, List.length_append]
        apply Nat.lt_add_of_pos_left token.length_pos

/-- A text decorates a document just in case it is read as this document, also with its
comments blanked, its block comments end, and no comma comes first after an opening
bracket. -/
theorem exists_decorates_iff {decorated : String} {doc : Document} :
  (∃ text : String, Document.read text = .ok doc
      ∧ Decorates .due text.toList decorated.toList)
    ↔ read decorated = .ok doc
      ∧ read (blankComments decorated) = .ok doc
      ∧ BlocksClosed decorated.toList
      ∧ leadsWithComma false (blanked decorated.toList) = false
  := by
  constructor
  · rintro ⟨text, htext, h⟩
    constructor
    · apply read_eq_ok.mpr
      apply h.readChars_stripChars (mapError_eq_ok.mp htext)
    use h.read_blankComments htext, h.blocksClosed
    obtain ⟨tokens, htokens, horder, -⟩ :=
      Document.exists_tokens_of_readChars (mapError_eq_ok.mp htext)
    apply (h.spaced erasesComments_blank).leadsWithComma_eq_false htokens horder
  · rintro ⟨-, hblanked, hclosed, hleads⟩
    obtain ⟨tokens, htokens, horder, hread⟩ :=
      Document.exists_tokens_of_readChars (read_blankComments.mp hblanked)
    use String.ofList (tokens.flatMap Token.chars)
    rw [Document.read, mapError_eq_ok, String.toList_ofList]
    constructor
    · apply hread
      use [], horder.spells_flatMap
      rfl
    · apply Holds.decorates
      use hclosed, htokens, ⟨.due, horder⟩, hleads
      right
      apply commaNext_of_due htokens horder

/-- A comment between two numerals joins them. -/
theorem read_joined :
  ¬ ∀ (decorated : String) (doc : Document), read decorated = .ok doc →
    ∃ text : String, Document.read text = .ok doc
      ∧ Decorates .due text.toList decorated.toList
  := by
  intro h
  have hread : read "[1/**/2]" = .ok (.array [.number (.integer 12)]) := by
    apply read_eq_ok.mpr
    rfl
  obtain ⟨text, htext, hdecorates⟩ := h "[1/**/2]" _ hread
  have hblanked := read_blankComments.mp (hdecorates.read_blankComments htext)
  cases hblanked

-- The comma of a bracket without elements is dropped, and the last block comment need not end.
example : stripChars ['[', ',', ']'] = ['[', ']']
    ∧ leadsWithComma false (blanked ['[', ',', ']']) = true := by decide

example : stripChars ['1', '/', '*'] = ['1'] ∧ ¬ BlocksClosed ['1', '/', '*'] := by
  unfold BlocksClosed
  decide

end StatusBar.Relaxed

import StatusBar.Proofs.Relaxed.Decoration

/-!
# Texts that stay as they are

A text that strictly is a document holds no comment and no comma before a closing bracket: what
looks like one stands within a string.  So nothing is taken out of it, token by token, and what
is left of a text that is read stays as it is from then on.
-/

namespace StatusBar.Relaxed

open Document (ConsistsOf InOrder IsQuotable Stage Token consistsOf_cons consistsOf_nil)
open Scan (isSpace skipSpace)
open Reading (mapError_eq_ok)

variable {text : List Char} {tokens : List Token}

/-- A text is a gap and what is left once spaces are skipped. -/
theorem exists_gap_skipSpace (text : List Char) :
  ∃ gap, IsGap gap ∧ text = gap ++ skipSpace text
  := by
  use text.takeWhile isSpace
  constructor
  · exact fun c hc => List.mem_takeWhile_imp hc
  · exact (List.takeWhile_append_dropWhile).symm

/-- The first token of a text stands after a gap. -/
theorem exists_gap_of_consistsOf {token : Token} (h : ConsistsOf text (token :: tokens)) :
  ∃ gap rest, IsGap gap ∧ text = gap ++ (token.chars ++ rest) ∧ ConsistsOf rest tokens
  := by
  obtain ⟨gap, hgap, htext⟩ := exists_gap_skipSpace text
  obtain ⟨rest, hskip, -, hrest⟩ := consistsOf_cons.mp h
  rw [hskip] at htext
  use gap, rest

/-- A text without tokens is a gap. -/
theorem isGap_of_consistsOf (h : ConsistsOf text []) :
  IsGap text
  := by
  obtain ⟨gap, hgap, htext⟩ := exists_gap_skipSpace text
  rw [consistsOf_nil.mp h, List.append_nil] at htext
  rwa [htext]

/-- Tokens and the spaces around them hold no comments. -/
theorem withoutComments_eq_self (h : ConsistsOf text tokens) :
  withoutComments text = text
  := by
  have he := erasesComments_kept
  rw [withoutComments_eq_kept]
  induction tokens generalizing text with
  | nil =>
    have hmarked := marked_plain (isGap_of_consistsOf h).isPlain []
    rw [List.append_nil] at hmarked
    rw [hmarked, he.append, he.outside, he.nil, List.append_nil]
  | cons token tokens ih =>
    obtain ⟨gap, rest, hgap, rfl, hrest⟩ := exists_gap_of_consistsOf h
    rw [marked_plain hgap.isPlain, he.append, he.outside, he.token, ih hrest]

/-- Where an element has to follow, no closing bracket comes next. -/
theorem closesNext_of_due (h : ConsistsOf text tokens) (horder : InOrder .due tokens .done) :
  closesNext text = false
  := by
  cases tokens with
  | nil => cases horder
  | cons token tokens =>
    obtain ⟨rest, hskip, -, -⟩ := consistsOf_cons.mp h
    obtain ⟨hadmits, -⟩ := horder
    apply closesNext_of_admits (find?_of_token token _) hadmits
    rw [hskip, token.head?_append]

/-- Tokens in order hold no commas before closing brackets. -/
theorem withoutTrailingCommas_eq_self {first : Stage} (h : ConsistsOf text tokens)
    (horder : InOrder first tokens .done) :
  withoutTrailingCommas text = text
  := by
  induction tokens generalizing first text with
  | nil =>
    have hplain := withoutTrailingCommas_plain (isGap_of_consistsOf h).isPlain []
    rwa [List.append_nil, show withoutTrailingCommas [] = [] from rfl, List.append_nil] at hplain
  | cons token tokens ih =>
    obtain ⟨gap, rest, hgap, rfl, hrest⟩ := exists_gap_of_consistsOf h
    obtain ⟨-, horder⟩ := horder
    have hcloses : token.kind = .separator → closesNext rest = false := by
      intro hkind
      rw [hkind] at horder
      exact closesNext_of_due hrest horder
    rw [withoutTrailingCommas_plain hgap.isPlain, withoutTrailingCommas_token token hcloses,
      ih hrest horder]

/-- Nothing is taken out of a text that strictly is a document. -/
theorem stripChars_eq_self {doc : Document} (h : Document.readChars text = .ok doc) :
  stripChars text = text
  := by
  obtain ⟨tokens, htokens, horder, -⟩ := Document.exists_tokens_of_readChars h
  rw [stripChars, withoutComments_eq_self htokens, withoutTrailingCommas_eq_self htokens horder]

theorem strip_eq_self {text : String} {doc : Document} (h : Document.read text = .ok doc) :
  strip text = text
  := by
  rw [strip, stripChars_eq_self (mapError_eq_ok.mp h), String.ofList_toList]

/-- A text strictly is a document just in case it is read as that document and stays as it is
when comments and trailing commas are taken out.  Once they are taken out of a text that is read,
nothing more is. -/
theorem read_strict_iff (text : String) (doc : Document) :
  (Document.read text = .ok doc ↔ read text = .ok doc ∧ strip text = text)
    ∧ (read text = .ok doc → strip (strip text) = strip text)
  := by
  constructor
  · constructor
    · intro h
      have hstrip := strip_eq_self h
      use (congrArg Document.read hstrip).trans h, hstrip
    · rintro ⟨hread, hstrip⟩
      rwa [read, hstrip] at hread
  · exact strip_eq_self

/-- Strings hold an escaped quote before what looks like a comment, and a backslash before their
end; and a comment with a quote in it is taken out once. -/
theorem read_strict_iff_lookalikes :
  Document.read "\x7b\"\\\"//\": [\"/*,]\\\\\", 1]\x7d"
      = .ok (.object [("\"//", .array [.string "/*,]\\", .number (.integer 1)])])
    ∧ strip "\x7b\"\\\"//\": [\"/*,]\\\\\", 1]\x7d" = "\x7b\"\\\"//\": [\"/*,]\\\\\", 1]\x7d"
    ∧ read "[1,/*\"*/]" = .ok (.array [.number (.integer 1)])
    ∧ strip "[1,/*\"*/]" ≠ "[1,/*\"*/]"
    ∧ strip (strip "[1,/*\"*/]") = strip "[1,/*\"*/]"
  := by
  have hstrict : Document.read "\x7b\"\\\"//\": [\"/*,]\\\\\", 1]\x7d"
      = .ok (.object [("\"//", .array [.string "/*,]\\", .number (.integer 1)])]) := by
    apply mapError_eq_ok.mpr
    rfl
  have hrelaxed : read "[1,/*\"*/]" = .ok (.array [.number (.integer 1)]) := by
    apply read_eq_ok.mpr
    rfl
  obtain ⟨hiff, -⟩ := read_strict_iff "\x7b\"\\\"//\": [\"/*,]\\\\\", 1]\x7d"
    (.object [("\"//", .array [.string "/*,]\\", .number (.integer 1)])])
  obtain ⟨-, hagain⟩ := read_strict_iff "[1,/*\"*/]" (.array [.number (.integer 1)])
  exact ⟨hstrict, (hiff.mp hstrict).2, hrelaxed, by decide, hagain hrelaxed⟩

end StatusBar.Relaxed

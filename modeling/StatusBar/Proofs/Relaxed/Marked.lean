import StatusBar.Document.Relaxed
import StatusBar.Proofs.Document.Tokens

/-!
# Comments of a text

`marked` says of each character of a text whether it belongs to a comment.  What is read is
the text without these characters, except that the ends of lines stay.
-/

namespace StatusBar.Relaxed

open Document (IsQuotable Token isWordChar)
open Scan (isSpace skipSpace)

/-- The characters of a text, each with whether it belongs to a comment, from a place in the
given region on.  The end of a line comment is outside of it. -/
def marked : Region → List Char → List (Char × Bool)
  | _, [] => []
  | .code, '"' :: rest => ('"', false) :: marked .string rest
  | .code, '/' :: '/' :: rest => ('/', true) :: ('/', true) :: marked .lineComment rest
  | .code, '/' :: '*' :: rest => ('/', true) :: ('*', true) :: marked (.blockComment false) rest
  | .code, c :: rest => (c, false) :: marked .code rest
  | .string, '\\' :: c :: rest => ('\\', false) :: (c, false) :: marked .string rest
  | .string, '"' :: rest => ('"', false) :: marked .code rest
  | .string, c :: rest => (c, false) :: marked .string rest
  | .lineComment, '\n' :: rest => ('\n', false) :: marked .code rest
  | .lineComment, c :: rest => (c, true) :: marked .lineComment rest
  | .blockComment true, '/' :: rest => ('/', true) :: marked .code rest
  | .blockComment _, c :: rest => (c, true) :: marked (.blockComment (c = '*')) rest

/-- What stays of marked characters. -/
def kept (text : List (Char × Bool)) : List Char :=
  (text.filter fun (c, inComment) => !inComment || c = '\n').map Prod.fst

/-- Marked characters with a space for each that belongs to a comment, except that the ends
of lines stay. -/
def blank (text : List (Char × Bool)) : List Char :=
  text.map fun (c, inComment) => if inComment && c ≠ '\n' then ' ' else c

/-- A text with its comments replaced by blank space. -/
def blanked (text : List Char) : List Char :=
  blank (marked .code text)

/-- What is read of a text is what stays of it. -/
theorem withoutCommentsFrom_eq_kept (region : Region) (text : List Char) :
  withoutCommentsFrom region text = kept (marked region text)
  := by
  fun_induction withoutCommentsFrom region text
  all_goals simp_all [marked, kept]

theorem withoutComments_eq_kept (text : List Char) :
  withoutComments text = kept (marked .code text)
  := withoutCommentsFrom_eq_kept .code text

theorem marked_cons (region : Region) (c : Char) (text : List Char) :
  ∃ inComment rest, marked region (c :: text) = (c, inComment) :: rest
  := by
  generalize htext : c :: text = whole
  fun_cases marked region whole
  case case1 => cases htext
  all_goals
    cases htext
    simp

theorem marked_ne_nil (region : Region) {text : List Char} (h : text ≠ []) :
  marked region text ≠ []
  := by
  cases text with
  | nil => cases h rfl
  | cons c text =>
    obtain ⟨inComment, rest, heq⟩ := marked_cons region c text
    rw [heq]
    apply List.cons_ne_nil

/-- Characters that belong to a comment, or that do not. -/
def mark (inComment : Bool) (text : List Char) : List (Char × Bool) :=
  text.map fun c => (c, inComment)

/-! ### Plain characters -/

/-- These characters begin no string, no comment and nothing that may be dropped. -/
def IsPlain (part : List Char) : Prop :=
  ∀ c ∈ part, c ≠ '"' ∧ c ≠ '/' ∧ c ≠ ','

/-- These are spaces between tokens. -/
def IsGap (gap : List Char) : Prop :=
  ∀ c ∈ gap, isSpace c = true

theorem isGap_singleton {c : Char} (hc : isSpace c = true) :
  IsGap [c]
  := by
  simpa [IsGap] using hc

theorem IsGap.isPlain {gap : List Char} (h : IsGap gap) :
  IsPlain gap
  := by
  intro c hc
  obtain rfl | rfl | rfl | rfl := Document.isSpace_iff.mp (h c hc)
  all_goals decide

theorem isPlain_word {word : List Char} (h : ∀ c ∈ word, isWordChar c = true) :
  IsPlain word
  := by
  intro c hc
  have hword := h c hc
  refine ⟨?_, ?_, ?_⟩
  all_goals
    rintro rfl
    cases hword

theorem IsGap.skipSpace_append {gap : List Char} (h : IsGap gap) (text : List Char) :
  skipSpace (gap ++ text) = skipSpace text
  := by
  induction gap with
  | nil => rfl
  | cons c gap ih =>
    rw [List.cons_append, Document.skipSpace_cons_of_isSpace (h c List.mem_cons_self)]
    apply ih fun d hd => h d (List.mem_cons_of_mem c hd)

theorem IsGap.stops_append {gap text : List Char} (h : IsGap gap) (htext : Document.Stops text) :
  Document.Stops (gap ++ text)
  := by
  cases gap with
  | nil => exact htext
  | cons c gap =>
    apply Document.stops_cons.mpr
    exact Document.isWordChar_eq_false_of_isSpace (h c List.mem_cons_self)

/-! ### What is outside of comments -/

theorem marked_plain {part : List Char} (h : IsPlain part) (text : List Char) :
  marked .code (part ++ text) = mark false part ++ marked .code text
  := by
  induction part with
  | nil => rfl
  | cons c part ih =>
    obtain ⟨hquote, hslash, -⟩ := h c List.mem_cons_self
    have hpart := ih fun d hd => h d (List.mem_cons_of_mem c hd)
    simpa [mark, marked, hslash] using hpart

theorem marked_string {body : List Char} (h : IsQuotable body) (text : List Char) :
  marked .string (body ++ '"' :: text) = mark false (body ++ ['"']) ++ marked .code text
  := by
  induction h with
  | nil => rfl
  | char hquote hbackslash _ ih => simpa [mark, marked, hbackslash] using ih
  | escape c _ ih => simpa [mark, marked] using ih

/-- A token is outside of comments. -/
theorem marked_token (token : Token) (text : List Char) :
  marked .code (token.chars ++ text) = mark false token.chars ++ marked .code text
  := by
  obtain ⟨kind, chars, htoken⟩ := token
  cases htoken with
  | @mark c _ h =>
    have hquote : c ≠ '"' := by
      rintro rfl
      cases h
    have hslash : c ≠ '/' := by
      rintro rfl
      cases h
    simp [mark, marked, hslash]
  | @quoted body h =>
    have hbody := marked_string h text
    simpa [mark, marked] using hbody
  | word h => apply marked_plain (isPlain_word h)

/-! ### Comments -/

theorem marked_lineComment {body : List Char} (h : '\n' ∉ body) (text : List Char) :
  marked .lineComment (body ++ '\n' :: text) = mark true body ++ marked .code ('\n' :: text)
  := by
  induction body with
  | nil => simp [mark, marked]
  | cons c body ih =>
    have hc : c ≠ '\n' := by
      rintro rfl
      apply h List.mem_cons_self
    have hbody := ih fun hmem => h (List.mem_cons_of_mem c hmem)
    simpa [mark, marked, hc] using hbody

theorem marked_lastLine {body : List Char} (h : '\n' ∉ body) :
  marked .lineComment body = mark true body
  := by
  induction body with
  | nil => rfl
  | cons c body ih =>
    have hc : c ≠ '\n' := by
      rintro rfl
      apply h List.mem_cons_self
    have hbody := ih fun hmem => h (List.mem_cons_of_mem c hmem)
    simpa [mark, marked, hc] using hbody

/-- A block comment goes on up to its end. -/
theorem marked_blockComment {body : List Char} {afterStar : Bool}
    (h : ¬ ['*', '/'] <:+: body) (hstart : afterStar = true → body.head? ≠ some '/')
    (text : List Char) :
  ∃ afterStar', marked (.blockComment afterStar) (body ++ text)
    = mark true body ++ marked (.blockComment afterStar') text
  := by
  induction body generalizing afterStar with
  | nil =>
    use afterStar
    rfl
  | cons c body ih =>
    have hbody : ¬ ['*', '/'] <:+: body := by
      intro hends
      apply h
      apply hends.trans
      apply List.infix_cons (List.infix_refl body)
    have hnext : decide (c = '*') = true → body.head? ≠ some '/' := by
      intro hc hhead
      obtain ⟨rest, rfl⟩ := List.head?_eq_some_iff.mp hhead
      rw [decide_eq_true_eq] at hc
      subst hc
      apply h
      use [], rest
      rfl
    obtain ⟨afterStar', heq⟩ := ih hbody hnext
    use afterStar'
    have hslash : afterStar = true → c ≠ '/' := by
      rintro hstar rfl
      apply hstart hstar rfl
    simpa [mark, marked, hslash] using heq

/-- The end of a block comment. -/
theorem marked_endOfBlock (afterStar : Bool) (text : List Char) :
  marked (.blockComment afterStar) ('*' :: '/' :: text) = mark true ['*', '/'] ++ marked .code text
  := by
  simp [mark, marked]

theorem marked_line {body : List Char} (h : '\n' ∉ body) (text : List Char) :
  marked .code ('/' :: '/' :: (body ++ '\n' :: text))
    = mark true ('/' :: '/' :: body) ++ marked .code ('\n' :: text)
  := by
  simpa [mark, marked] using marked_lineComment h text

theorem marked_block {body : List Char} (h : ¬ ['*', '/'] <:+: body) (text : List Char) :
  marked .code ('/' :: '*' :: (body ++ '*' :: '/' :: text))
    = mark true ('/' :: '*' :: (body ++ ['*', '/'])) ++ marked .code text
  := by
  obtain ⟨afterStar, heq⟩ := @marked_blockComment body false h (by simp) ('*' :: '/' :: text)
  rw [marked_endOfBlock] at heq
  simpa [mark, marked] using heq

/-! ### Erasing comments -/

/-- Comments are erased: what is outside of them stays, and of their characters at most
spaces are left. -/
structure ErasesComments (erase : List (Char × Bool) → List Char) : Prop where
  append : ∀ text text', erase (text ++ text') = erase text ++ erase text'
  outside : ∀ text, erase (mark false text) = text
  inside : ∀ text, IsGap (erase (mark true text))

theorem erasesComments_kept :
  ErasesComments kept
  := by
  constructor
  · intro text text'
    simp [kept]
  · intro text
    simp [kept, mark, List.filter_map, Function.comp_def]
  · intro text c hc
    obtain ⟨-, rfl⟩ : c ∈ text ∧ c = '\n' := by simpa [kept, mark] using hc
    rfl

theorem erasesComments_blank :
  ErasesComments blank
  := by
  constructor
  · intro text text'
    simp [blank]
  · intro text
    simp [blank, mark, Function.comp_def]
  · intro text c hc
    simp only [blank, mark, List.map_map, List.mem_map, Function.comp_apply] at hc
    obtain ⟨d, -, rfl⟩ := hc
    by_cases hd : d = '\n'
    · simp [hd, isSpace]
    · simp [hd, isSpace]

namespace ErasesComments

variable {erase : List (Char × Bool) → List Char} (he : ErasesComments erase)
include he

theorem nil :
  erase (marked .code []) = []
  := he.outside []

theorem cons (c : Char) (text : List (Char × Bool)) :
  erase ((c, false) :: text) = c :: erase text
  := by
  have hcons := he.append (mark false [c]) text
  rwa [he.outside] at hcons

theorem token (token : Token) (text : List Char) :
  erase (marked .code (token.chars ++ text)) = token.chars ++ erase (marked .code text)
  := by
  rw [marked_token, he.append, he.outside]

theorem comma (text : List Char) :
  erase (marked .code (',' :: text)) = ',' :: erase (marked .code text)
  := he.token (.mark ',' rfl) text

theorem space {c : Char} (hc : isSpace c = true) (text : List Char) :
  erase (marked .code (c :: text)) = c :: erase (marked .code text)
  := by
  rw [← List.singleton_append, marked_plain (isGap_singleton hc).isPlain, he.append, he.outside]
  rfl

theorem line {body : List Char} (h : '\n' ∉ body) (text : List Char) :
  ∃ gap, IsGap gap ∧ erase (marked .code ('/' :: '/' :: (body ++ '\n' :: text)))
    = gap ++ erase (marked .code ('\n' :: text))
  := by
  use erase (mark true ('/' :: '/' :: body)), he.inside _
  rw [marked_line h, he.append]

theorem lastLine {body : List Char} (h : '\n' ∉ body) :
  IsGap (erase (marked .code ('/' :: '/' :: body)))
  := by
  have hmarked : marked .code ('/' :: '/' :: body) = mark true ('/' :: '/' :: body) := by
    simpa [mark, marked] using marked_lastLine h
  rw [hmarked]
  apply he.inside

theorem block {body : List Char} (h : ¬ ['*', '/'] <:+: body) (text : List Char) :
  ∃ gap, IsGap gap ∧ erase (marked .code ('/' :: '*' :: (body ++ '*' :: '/' :: text)))
    = gap ++ erase (marked .code text)
  := by
  use erase (mark true ('/' :: '*' :: (body ++ ['*', '/']))), he.inside _
  rw [marked_block h, he.append]

end ErasesComments

/-! ### Blank space leaves no comments -/

/-- What is outside of comments once they are blank space. -/
def Region.blanked : Region → Region
  | .string => .string
  | _ => .code

theorem head?_blank_marked {region : Region} {text : List Char} {c : Char}
    (h : (blank (marked region text)).head? = some c) (hc : isSpace c = false) :
  text.head? = some c
  := by
  cases text with
  | nil => cases h
  | cons d text =>
    obtain ⟨inComment, rest, heq⟩ := marked_cons region d text
    rw [heq] at h
    by_cases hd : inComment = true ∧ d ≠ '\n'
    · obtain rfl : ' ' = c := by simpa [blank, hd] using h
      cases hc
    · simpa [blank, hd] using h

theorem withoutCommentsFrom_code_cons {c : Char} {text : List Char} (hquote : c ≠ '"')
    (hslash : c = '/' → text.head? ≠ some '/' ∧ text.head? ≠ some '*') :
  withoutCommentsFrom .code (c :: text) = c :: withoutCommentsFrom .code text
  := by
  rw [withoutCommentsFrom]
  · exact hquote
  · rintro rest hc rfl
    apply (hslash hc).left rfl
  · rintro rest hc rfl
    apply (hslash hc).right rfl

theorem withoutCommentsFrom_blank (region : Region) (text : List Char) :
  withoutCommentsFrom region.blanked (blank (marked region text)) = blank (marked region text)
  := by
  fun_induction marked region text
  case case5 c rest hquote hline hblock ih =>
    have hslash : c = '/' → (blank (marked .code rest)).head? ≠ some '/'
        ∧ (blank (marked .code rest)).head? ≠ some '*' := by
      intro hc
      constructor
      · intro h
        obtain ⟨rest', rfl⟩ := List.head?_eq_some_iff.mp (head?_blank_marked h rfl)
        apply hline rest' hc rfl
      · intro h
        obtain ⟨rest', rfl⟩ := List.head?_eq_some_iff.mp (head?_blank_marked h rfl)
        apply hblock rest' hc rfl
    change withoutCommentsFrom .code (c :: blank (marked .code rest))
      = c :: blank (marked .code rest)
    rw [withoutCommentsFrom_code_cons hquote hslash]
    rw [show Region.blanked .code = .code from rfl] at ih
    rw [ih]
  case case8 c rest hescape hquote ih =>
    cases rest with
    | nil => simp [blank, marked, Region.blanked, withoutCommentsFrom]
    | cons d rest =>
      have hbackslash : c ≠ '\\' := fun hc => hescape d rest hc rfl
      simp_all [blank, withoutCommentsFrom, Region.blanked]
  case case12 c rest hslash ih =>
    by_cases hc : c = '\n'
    · simp_all [blank, withoutCommentsFrom, Region.blanked]
    · simp_all [blank, withoutCommentsFrom, Region.blanked]
  all_goals simp_all [blank, withoutCommentsFrom, Region.blanked]

/-- Blanked comments leave no comments. -/
theorem withoutComments_blanked (text : List Char) :
  withoutComments (blanked text) = blanked text
  := withoutCommentsFrom_blank .code text

end StatusBar.Relaxed

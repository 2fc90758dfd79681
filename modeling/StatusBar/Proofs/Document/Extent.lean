import StatusBar.Proofs.Document.Tokens
import StatusBar.Proofs.Document.Yields

/-!
# How far a reading goes

The readings below values look at no more than one token: that of a string ends with its
closing quote, and that of a numeral or of letters within the word it starts in.  What
comes after the token changes nothing, except that it could go on with the word.
-/

namespace StatusBar

open Document (IsQuotable isWordChar Stops stops_nil stops_cons)

/-- Whatever is read was taken from the start of the text, is of a certain form, and would
be read before any other rest as well. -/
def Reading.Takes {α : Type} (f : List Char → Except Failure (Parsed α))
    (form : List Char → Prop) : Prop :=
  ∀ text value rest, f text = .ok (value, rest) →
    ∃ taken, text = taken ++ rest ∧ form taken
      ∧ ∀ rest', f (taken ++ rest') = .ok (value, rest')

/-- What is read of a word and the text after it is the same for all texts that the word
ends before: a failure, or a value that leaves the same end of the word. -/
def Reading.Settled {α : Type} (f : List Char → Except Failure (Parsed α))
    (word : List Char) : Prop :=
  (∃ value left, left <:+ word
      ∧ ∀ text, Stops text → f (word ++ text) = .ok (value, left ++ text))
    ∨ ∀ text, Stops text → ∃ failure, f (word ++ text) = .error failure

/-- A value is read from a word at the start of the text, and would be before any other rest
that the word ends before. -/
def Reading.TakesWord {α : Type} (f : List Char → Except Failure (Parsed α))
    (text : List Char) (value : α) (rest : List Char) : Prop :=
  ∃ word, text = word ++ rest ∧ (∀ c ∈ word, isWordChar c = true)
    ∧ ∀ rest', Stops rest' → f (word ++ rest') = .ok (value, rest')

open Reading (bind_eq_ok Takes Settled TakesWord)

/-! ### Strings -/

namespace Scan

/-- These characters may stand in a string as they are. -/
def IsQuotablePart (part : List Char) : Prop :=
  ∀ body, IsQuotable body → IsQuotable (part ++ body)

theorem isQuotable_cons_of_hexDigit {c : Char} {n : Nat} (h : hexDigit? c = some n)
    {body : List Char} (hbody : IsQuotable body) :
  IsQuotable (c :: body)
  := by
  apply IsQuotable.char _ _ hbody
  · rintro rfl
    cases h
  · rintro rfl
    cases h

theorem takes_hexEscape :
  Takes hexEscape IsQuotablePart
  := by
  intro text n rest h
  unfold hexEscape at h
  split at h
  case h_1 a b c d rest' =>
    split at h
    case h_1 n' hnumber =>
      cases h
      use [a, b, c, d], rfl
      constructor
      · intro body hbody
        simp only [hexNumber?, Option.bind_eq_bind, Option.bind_eq_some_iff] at hnumber
        obtain ⟨_, ha, _, hb, _, hc, _, hd, -⟩ := hnumber
        apply isQuotable_cons_of_hexDigit ha
        apply isQuotable_cons_of_hexDigit hb
        apply isQuotable_cons_of_hexDigit hc
        apply isQuotable_cons_of_hexDigit hd hbody
      · intro rest'
        simp only [List.cons_append, List.nil_append, hexEscape, hnumber]
    case h_2 => cases h
  case h_2 =>
    split at h
    all_goals cases h

theorem takes_trailingEscape (leading : Nat) :
  Takes (trailingEscape leading) IsQuotablePart
  := by
  intro text c rest h
  unfold trailingEscape at h
  split at h
  case h_3 digits =>
    obtain ⟨⟨n, rest'⟩, hdigits, hnext⟩ := bind_eq_ok.mp h
    obtain ⟨taken, rfl, htaken, hall⟩ := takes_hexEscape digits n rest' hdigits
    dsimp only at hnext
    split at hnext
    case isTrue htrailing =>
      obtain ⟨rfl, rfl⟩ : surrogatePair leading n = c ∧ rest' = rest := by simpa using hnext
      use '\\' :: 'u' :: taken, rfl
      constructor
      · intro body hbody
        apply IsQuotable.escape 'u' (htaken body hbody)
      · intro rest'
        simp only [List.cons_append, trailingEscape, hall]
        apply bind_eq_ok.mpr
        use (n, rest'), rfl
        simp only [htrailing, if_true]
    case isFalse => cases hnext
  all_goals cases h

theorem takes_unicodeEscape :
  Takes unicodeEscape IsQuotablePart
  := by
  intro text c rest h
  obtain ⟨⟨n, rest'⟩, hdigits, hnext⟩ := bind_eq_ok.mp h
  obtain ⟨taken, rfl, htaken, hall⟩ := takes_hexEscape text n rest' hdigits
  dsimp only at hnext
  split at hnext
  case isTrue => cases hnext
  case isFalse htrailing =>
    split at hnext
    case isTrue hleading =>
      obtain ⟨taken', rfl, htaken', hall'⟩ := takes_trailingEscape n rest' c rest hnext
      use taken ++ taken', (List.append_assoc ..).symm
      constructor
      · intro body hbody
        rw [List.append_assoc]
        apply htaken _ (htaken' body hbody)
      · intro rest'
        rw [List.append_assoc]
        apply bind_eq_ok.mpr
        use (n, taken' ++ rest'), hall _
        simp only [htrailing, hleading, if_true, hall']
        rfl
    case isFalse hleading =>
      cases hnext
      use taken, rfl, htaken
      intro rest'
      apply bind_eq_ok.mpr
      use (n, rest'), hall _
      simp only [htrailing, hleading]
      rfl

theorem takes_escape :
  Takes escape fun taken => IsQuotablePart ('\\' :: taken)
  := by
  intro text c rest h
  unfold escape at h
  split at h
  case h_1 => cases h
  case h_2 digits =>
    obtain ⟨taken, rfl, htaken, hall⟩ := takes_unicodeEscape digits c rest h
    use 'u' :: taken, rfl
    constructor
    · intro body hbody
      apply IsQuotable.escape 'u' (htaken body hbody)
    · intro rest'
      apply hall
  case h_3 letter rest' hletter =>
    split at h
    case h_1 d hd =>
      cases h
      use [letter], rfl
      constructor
      · intro body hbody
        apply IsQuotable.escape letter hbody
      · intro rest'
        rw [List.singleton_append]
        unfold escape
        split
        case h_1 heq => cases heq
        case h_2 heq =>
          cases heq
          cases hletter rfl
        case h_3 heq =>
          cases heq
          rw [hd]
    case h_2 => cases h

/-- The bound of the reading does not matter, as long as it exceeds the body. -/
theorem stringWithin_eq_ok {bound : Nat} {text chars rest : List Char}
    (h : stringWithin bound text = .ok (chars, rest)) :
  ∃ body, text = body ++ '"' :: rest ∧ IsQuotable body
    ∧ ∀ bound' rest', body.length < bound' →
        stringWithin bound' (body ++ '"' :: rest') = .ok (chars, rest')
  := by
  induction bound generalizing text chars with
  | zero => cases h
  | succ bound ih =>
    unfold stringWithin at h
    split at h
    case h_1 => cases h
    case h_2 =>
      cases h
      use [], rfl, IsQuotable.nil
      intro bound' rest' hbound
      obtain ⟨bound', rfl⟩ := Nat.exists_eq_add_of_lt hbound
      simp [stringWithin]
    case h_3 escaped =>
      obtain ⟨⟨c, rest'⟩, hescape, hnext⟩ := bind_eq_ok.mp h
      obtain ⟨⟨more, rest''⟩, hmore, hnext⟩ := bind_eq_ok.mp hnext
      cases hnext
      obtain ⟨taken, rfl, htaken, hall⟩ := takes_escape escaped c rest' hescape
      obtain ⟨body, rfl, hbody, hwithin⟩ := ih hmore
      use '\\' :: taken ++ body, by simp, htaken body hbody
      intro bound' rest' hbound
      obtain ⟨bound', rfl⟩ := Nat.exists_eq_add_of_lt hbound
      have hlength : body.length < ('\\' :: taken ++ body).length + bound' := by
        rw [List.length_append, List.length_cons]
        omega
      have hmore' := hwithin (('\\' :: taken ++ body).length + bound') rest' hlength
      rw [List.append_assoc, List.cons_append, stringWithin.eq_def]
      dsimp only
      apply bind_eq_ok.mpr
      use (c, body ++ '"' :: rest'), hall _
      apply bind_eq_ok.mpr
      use (more, rest'), hmore'
      rfl
    case h_4 c rest' hquote hbackslash =>
      split at h
      case isTrue => cases h
      case isFalse hcontrol =>
        obtain ⟨⟨more, rest''⟩, hmore, hnext⟩ := bind_eq_ok.mp h
        cases hnext
        obtain ⟨body, rfl, hbody, hwithin⟩ := ih hmore
        use c :: body, rfl, hbody.char hquote hbackslash
        intro bound' rest' hbound
        obtain ⟨bound', rfl⟩ := Nat.exists_eq_add_of_lt hbound
        have hlength : body.length < (c :: body).length + bound' := by
          rw [List.length_cons]
          omega
        have hmore' := hwithin ((c :: body).length + bound') rest' hlength
        rw [List.cons_append, stringWithin]
        · simp only [hcontrol, hmore']
          rfl
        · exact hquote
        · exact hbackslash

/-- A string is read up to its closing quote. -/
theorem takes_string :
  Takes string fun taken => ∃ body, taken = body ++ ['"'] ∧ IsQuotable body
  := by
  intro text value rest h
  obtain ⟨⟨chars, rest'⟩, hwithin, hnext⟩ := bind_eq_ok.mp h
  cases hnext
  obtain ⟨body, rfl, hbody, hall⟩ := stringWithin_eq_ok hwithin
  use body ++ ['"'], by simp, ⟨body, rfl, hbody⟩
  intro rest'
  apply bind_eq_ok.mpr
  use (chars, rest')
  constructor
  · rw [List.append_assoc, List.singleton_append]
    apply hall
    rw [List.length_append, List.length_cons]
    omega
  · rfl

end Scan

/-! ### Words -/

/-- A character of a word that a word does not start with, nothing starts with that only
adds to its end. -/
theorem head?_append_ne {c : Char} {word text : List Char} (hc : isWordChar c = true)
    (hword : word.head? ≠ some c) (htext : Stops text) :
  (word ++ text).head? ≠ some c
  := by
  cases word with
  | nil =>
    intro hhead
    have hstops := htext c hhead
    rw [hc] at hstops
    cases hstops
  | cons d word => exact hword

namespace Reading.Settled

variable {α β : Type} {f g : List Char → Except Failure (Parsed α)} {word left : List Char}

theorem of_ok (value : α) (hleft : left <:+ word)
    (h : ∀ text, Stops text → f (word ++ text) = .ok (value, left ++ text)) :
  Settled f word
  := by
  left
  use value, left

theorem of_error (h : ∀ text, Stops text → ∃ failure, f (word ++ text) = .error failure) :
  Settled f word
  := by
  right
  exact h

/-- A reading may go on with another one further on in the word. -/
theorem of_eq (h : Settled g left) (hleft : left <:+ word)
    (heq : ∀ text, Stops text → f (word ++ text) = g (left ++ text)) :
  Settled f word
  := by
  obtain ⟨value, left', hleft', hok⟩ | herror := h
  · apply of_ok value (hleft'.trans hleft)
    intro text htext
    rw [heq text htext, hok text htext]
  · apply of_error
    intro text htext
    rw [heq text htext]
    apply herror text htext

/-- What a word starts with may decide how it is read: one way or another after certain
characters, and as by another reading else. -/
theorem of_heads (heads : List Char) (hwords : heads.all isWordChar)
    (hheads : ∀ c ∈ heads, ∀ left, Settled (fun text => f (c :: text)) left)
    (helse : Settled g word)
    (heq : ∀ text, (∀ c ∈ heads, text.head? ≠ some c) → f text = g text) :
  Settled f word
  := by
  by_cases hhead : ∃ c ∈ heads, word.head? = some c
  · obtain ⟨c, hc, hfirst⟩ := hhead
    obtain ⟨left, rfl⟩ := List.head?_eq_some_iff.mp hfirst
    apply (hheads c hc left).of_eq (List.suffix_cons c left)
    intro text htext
    rfl
  · apply helse.of_eq (List.suffix_refl word)
    intro text htext
    apply heq
    intro c hc
    apply head?_append_ne (List.all_eq_true.mp hwords c hc) _ htext
    intro hfirst
    exact hhead ⟨c, hc, hfirst⟩

/-- What is read may be wrapped up. -/
theorem map (h : Settled f word) (wrap : α → β) :
  Settled (fun text => do
    let (value, rest) ← f text
    return (wrap value, rest)) word
  := by
  obtain ⟨value, left, hleft, hok⟩ | herror := h
  · apply of_ok (wrap value) hleft
    intro text htext
    simp only [hok text htext]
    rfl
  · apply of_error
    intro text htext
    obtain ⟨failure, hfailure⟩ := herror text htext
    use failure
    simp only [hfailure]
    rfl

/-- A reading that the word settles takes the whole word if what it leaves goes on with no
word. -/
theorem takesWord (h : ∀ word, Settled f word) {text rest : List Char} {value : α}
    (hf : f text = .ok (value, rest)) (hrest : Stops rest) :
  TakesWord f text value rest
  := by
  have hword : ∀ c ∈ text.takeWhile isWordChar, isWordChar c = true :=
    fun c => List.mem_takeWhile_imp
  have hstops : Stops (text.dropWhile isWordChar) := by
    intro c hc
    rw [Option.mem_def, ← List.find?_not_eq_head?_dropWhile] at hc
    simpa using List.find?_some hc
  have happend := List.takeWhile_append_dropWhile (p := isWordChar) (l := text)
  generalize text.takeWhile isWordChar = word at hword happend
  generalize text.dropWhile isWordChar = left at hstops happend
  obtain ⟨value', left', hleft', hok⟩ | herror := h word
  · have hf' := hok left hstops
    rw [happend, hf] at hf'
    cases hf'
    cases left' with
    | nil =>
      use word, happend.symm, hword
      intro rest' hrest'
      apply hok rest' hrest'
    | cons c left' =>
      rw [List.cons_append, stops_cons, hword c (hleft'.subset List.mem_cons_self)] at hrest
      cases hrest
  · obtain ⟨failure, hfailure⟩ := herror left hstops
    rw [happend, hf] at hfailure
    cases hfailure

end Reading.Settled

/-- Letters are read within the word. -/
theorem Scan.settled_word {α : Type} (value : α) {letters : List Char}
    (hletters : ∀ c ∈ letters, isWordChar c = true) (word : List Char) :
  Settled (fun text => do return (value, ← Scan.word letters text)) word
  := by
  induction letters generalizing word with
  | nil =>
    apply Settled.of_ok value (List.suffix_refl word)
    intro text htext
    rfl
  | cons c letters ih =>
    cases word with
    | nil =>
      apply Settled.of_error
      rintro (_ | ⟨d, text⟩) htext
      · use ⟨.endInValue, [], 0⟩
        rfl
      · have hc : c ≠ d := by
          rintro rfl
          rw [stops_cons, hletters c List.mem_cons_self] at htext
          cases htext
        use ⟨.expectedWord, d :: text, 1⟩
        simp only [List.nil_append, Scan.word, if_neg hc]
        rfl
    | cons d word =>
      by_cases hc : c = d
      · have hword := ih (fun c' hc' => hletters c' (List.mem_cons_of_mem c hc')) word
        apply hword.of_eq (List.suffix_cons d word)
        intro text htext
        simp only [List.cons_append, Scan.word, if_pos hc]
      · apply Settled.of_error
        intro text htext
        use ⟨.expectedWord, d :: word ++ text, 1⟩
        simp only [List.cons_append, Scan.word, if_neg hc]
        rfl

namespace Numeral

theorem isWordChar_of_digit? {c : Char} {d : Nat} (h : digit? c = some d) :
  isWordChar c = true
  := by
  unfold digit? at h
  split at h
  case isTrue hdigit =>
    have hisDigit : c.isDigit = true := by
      rw [Char.isDigit, Bool.and_eq_true, decide_eq_true_eq, decide_eq_true_eq]
      exact hdigit
    simp [isWordChar, Char.isAlphanum, hisDigit]
  case isFalse => cases h

theorem startsWithDigit_eq_false {text : List Char} (h : Stops text) :
  startsWithDigit text = false
  := by
  cases text with
  | nil => rfl
  | cons c text =>
    rw [startsWithDigit, Option.isSome_eq_false_iff, Option.isNone_iff_eq_none,
      Option.eq_none_iff_forall_ne_some]
    intro d hd
    have hword := isWordChar_of_digit? hd
    rw [stops_cons.mp h] at hword
    cases hword

theorem startsWithDigit_append {text : List Char} (h : Stops text) (word : List Char) :
  startsWithDigit (word ++ text) = startsWithDigit word
  := by
  cases word with
  | nil => exact startsWithDigit_eq_false h
  | cons c word => rfl

theorem accumulate_of_stops {text : List Char} (h : Stops text) (limit number : Nat) :
  accumulate limit number text = (number, 0, text)
  := by
  have hdigit := startsWithDigit_eq_false h
  cases text with
  | nil => rfl
  | cons c text =>
    rw [startsWithDigit, Option.isSome_eq_false_iff, Option.isNone_iff_eq_none] at hdigit
    simp [accumulate, hdigit]

theorem dropDigits_of_stops {text : List Char} (h : Stops text) :
  dropDigits text = (0, text)
  := by
  have hdigit := startsWithDigit_eq_false h
  cases text with
  | nil => rfl
  | cons c text =>
    rw [startsWithDigit, Option.isSome_eq_false_iff, Option.isNone_iff_eq_none] at hdigit
    simp [dropDigits, hdigit]

/-- The digits that a significand or an exponent takes are within the word. -/
theorem accumulate_append (limit number : Nat) (word : List Char) :
  ∃ total count left, left <:+ word ∧ ∀ text, Stops text →
    accumulate limit number (word ++ text) = (total, count, left ++ text)
  := by
  induction word generalizing number with
  | nil =>
    use number, 0, [], List.suffix_refl []
    intro text htext
    apply accumulate_of_stops htext
  | cons c word ih =>
    cases hd : digit? c with
    | none =>
      use number, 0, c :: word, List.suffix_refl _
      intro text htext
      simp [accumulate, hd]
    | some d =>
      by_cases hlimit : number * 10 + d < limit
      · obtain ⟨total, count, left, hleft, htotal⟩ := ih (number * 10 + d)
        use total, count + 1, left, hleft.trans (List.suffix_cons c word)
        intro text htext
        simp [accumulate, hd, hlimit, htotal text htext]
      · use number, 0, c :: word, List.suffix_refl _
        intro text htext
        simp [accumulate, hd, hlimit]

theorem dropDigits_append (word : List Char) :
  ∃ count left, left <:+ word ∧ ∀ text, Stops text →
    dropDigits (word ++ text) = (count, left ++ text)
  := by
  induction word with
  | nil =>
    use 0, [], List.suffix_refl []
    intro text htext
    apply dropDigits_of_stops htext
  | cons c word ih =>
    cases hd : digit? c with
    | none =>
      use 0, c :: word, List.suffix_refl _
      intro text htext
      simp [dropDigits, hd]
    | some d =>
      obtain ⟨count, left, hleft, hcount⟩ := ih
      use count + 1, left, hleft.trans (List.suffix_cons c word)
      intro text htext
      simp [dropDigits, hd, hcount text htext]

theorem settled_float (negative : Bool) (significand : Nat) (exponent : Int) (word : List Char) :
  Settled (float negative significand exponent) word
  := by
  cases hscaled : scaled? significand exponent with
  | none =>
    apply Settled.of_error
    intro text htext
    use ⟨.numberOutOfRange, word ++ text, 0⟩
    rw [float, hscaled]
    rfl
  | some f =>
    apply Settled.of_ok (signed negative f) (List.suffix_refl word)
    intro text htext
    rw [float, hscaled]

theorem exists_exponentDigits_eq_error (negative : Bool) (significand : Nat) (exponent : Int)
    (below : Bool) {text : List Char} (hdigit : startsWithDigit text = false) :
  ∃ failure, exponentDigits negative significand exponent below text = .error failure
  := by
  cases text with
  | nil =>
    use ⟨.endInValue, [], 0⟩
    rfl
  | cons c rest =>
    use ⟨.invalidNumber, c :: rest, 1⟩
    simp only [exponentDigits, hdigit]
    rfl

theorem exponentDigits_of_digit (negative : Bool) (significand : Nat) (exponent : Int)
    (below : Bool) {text : List Char} (hdigit : startsWithDigit text = true) {power count : Nat}
    {rest : List Char} (hpower : accumulate exponentLimit 0 text = (power, count, rest)) :
  exponentDigits negative significand exponent below text
    = if startsWithDigit rest then
        if significand ≠ 0 ∧ !below then
          Reading.failAt .numberOutOfRange rest
        else
          .ok (signed negative 0.0, (dropDigits rest).2)
      else
        float negative significand (if below then exponent - power else exponent + power) rest
  := by
  cases text with
  | nil => cases hdigit
  | cons c text =>
    unfold exponentDigits
    rw [hdigit, hpower]
    rfl

theorem settled_exponentDigits (negative : Bool) (significand : Nat) (exponent : Int)
    (below : Bool) (word : List Char) :
  Settled (exponentDigits negative significand exponent below) word
  := by
  cases hdigit : startsWithDigit word with
  | false =>
    apply Settled.of_error
    intro text htext
    apply exists_exponentDigits_eq_error
    rw [startsWithDigit_append htext, hdigit]
  | true =>
    obtain ⟨power, count, left, hleft, hpower⟩ := accumulate_append exponentLimit 0 word
    have hread : ∀ text, Stops text →
        exponentDigits negative significand exponent below (word ++ text)
          = if startsWithDigit left then
              if significand ≠ 0 ∧ !below then
                Reading.failAt .numberOutOfRange (left ++ text)
              else
                .ok (signed negative 0.0, (dropDigits (left ++ text)).2)
            else
              float negative significand
                (if below then exponent - power else exponent + power) (left ++ text) := by
      intro text htext
      rw [← startsWithDigit_append htext left]
      apply exponentDigits_of_digit _ _ _ _ _ (hpower text htext)
      rw [startsWithDigit_append htext, hdigit]
    by_cases hleft' : startsWithDigit left
    · by_cases hrange : significand ≠ 0 ∧ !below
      · apply Settled.of_error
        intro text htext
        use ⟨.numberOutOfRange, left ++ text, 1⟩
        rw [hread text htext, if_pos hleft', if_pos hrange]
        rfl
      · obtain ⟨count, left', hleft'', hdrop⟩ := dropDigits_append left
        apply Settled.of_ok (signed negative 0.0) (hleft''.trans hleft)
        intro text htext
        rw [hread text htext, if_pos hleft', if_neg hrange, hdrop text htext]
    · apply (settled_float negative significand _ left).of_eq hleft
      intro text htext
      rw [hread text htext, if_neg hleft']

theorem settled_exponentPart (negative : Bool) (significand : Nat) (exponent : Int)
    (word : List Char) :
  Settled (exponentPart negative significand exponent) word
  := by
  have hdigits := settled_exponentDigits negative significand exponent
  apply Settled.of_heads ['+', '-'] rfl _ (hdigits false word)
  · intro text htext
    unfold exponentPart
    split
    case h_1 => cases htext '+' (by decide) rfl
    case h_2 => cases htext '-' (by decide) rfl
    case h_3 => rfl
  · rw [List.forall_mem_cons, List.forall_mem_singleton]
    exact ⟨hdigits false, hdigits true⟩

theorem settled_afterDigits (negative : Bool) (significand : Nat) (exponent : Int)
    (word : List Char) :
  Settled (afterDigits negative significand exponent) word
  := by
  have hpart := settled_exponentPart negative significand exponent
  apply Settled.of_heads ['e', 'E'] rfl _
    (settled_float negative significand exponent word)
  · intro text htext
    unfold afterDigits
    split
    case h_1 => cases htext 'e' (by decide) rfl
    case h_2 => cases htext 'E' (by decide) rfl
    case h_3 => rfl
  · rw [List.forall_mem_cons, List.forall_mem_singleton]
    exact ⟨hpart, hpart⟩

theorem settled_fraction (negative : Bool) (significand : Nat) (exponent : Int)
    (word : List Char) :
  Settled (fraction negative significand exponent) word
  := by
  obtain ⟨total, count, left, hleft, htotal⟩ := accumulate_append significandLimit significand word
  by_cases hmore : startsWithDigit left
  · obtain ⟨dropped, left', hleft', hdrop⟩ := dropDigits_append left
    apply (settled_afterDigits negative total (exponent - count) left').of_eq (hleft'.trans hleft)
    intro text htext
    simp only [fraction, htotal text htext, startsWithDigit_append htext, hmore, if_true,
      hdrop text htext]
  by_cases hcount : count = 0
  · apply Settled.of_error
    intro text htext
    simp only [fraction, htotal text htext, startsWithDigit_append htext, hmore, hcount, if_true]
    cases left ++ text with
    | nil =>
      use ⟨.endInValue, [], 0⟩
      rfl
    | cons c rest =>
      use ⟨.invalidNumber, c :: rest, 1⟩
      rfl
  · apply (settled_afterDigits negative total (exponent - count) left).of_eq hleft
    intro text htext
    simp only [fraction, htotal text htext, startsWithDigit_append htext, hmore, hcount, if_false]
    rfl

theorem settled_afterWhole (negative : Bool) (significand : Nat) (word : List Char) :
  Settled (afterWhole negative significand) word
  := by
  have hpart := settled_exponentPart negative significand 0
  have hinteger : Settled (fun text => .ok (integer negative significand, text)) word :=
    Settled.of_ok (integer negative significand) (List.suffix_refl word) fun _ _ => rfl
  apply Settled.of_heads ['.', 'e', 'E'] rfl _ hinteger
  · intro text htext
    unfold afterWhole
    split
    case h_1 => cases htext '.' (by decide) rfl
    case h_2 => cases htext 'e' (by decide) rfl
    case h_3 => cases htext 'E' (by decide) rfl
    case h_4 => rfl
  · rw [List.forall_mem_cons, List.forall_mem_cons, List.forall_mem_singleton]
    exact ⟨settled_fraction negative significand 0, hpart, hpart⟩

theorem settled_afterLongWhole (negative : Bool) (significand dropped : Nat) (word : List Char) :
  Settled (afterLongWhole negative significand dropped) word
  := by
  apply Settled.of_heads ['.'] rfl _
    (settled_afterDigits negative significand dropped word)
  · intro text htext
    unfold afterLongWhole
    split
    case h_1 => cases htext '.' (by decide) rfl
    case h_2 => rfl
  · rw [List.forall_mem_singleton]
    exact settled_fraction negative significand dropped

theorem settled_read_zero (negative : Bool) (word : List Char) :
  Settled (read negative) ('0' :: word)
  := by
  by_cases hdigit : startsWithDigit word
  · apply Settled.of_error
    intro text htext
    use ⟨.invalidNumber, word ++ text, 1⟩
    simp only [List.cons_append, read, startsWithDigit_append htext, hdigit, if_true]
    rfl
  · apply (settled_afterWhole negative 0 word).of_eq (List.suffix_cons '0' word)
    intro text htext
    simp only [List.cons_append, read, startsWithDigit_append htext, hdigit]
    rfl

theorem exists_read_eq_error (negative : Bool) {text : List Char} (hzero : text.head? ≠ some '0')
    (hdigit : startsWithDigit text = false) :
  ∃ failure, read negative text = .error failure
  := by
  unfold read
  split
  case h_1 =>
    use ⟨.endInValue, [], 0⟩
    rfl
  case h_2 => cases hzero rfl
  case h_3 =>
    use ⟨.invalidNumber, text, 1⟩
    simp only [hdigit]
    rfl

theorem read_of_digit (negative : Bool) {text : List Char} (hzero : text.head? ≠ some '0')
    (hdigit : startsWithDigit text = true) {significand count : Nat} {rest : List Char}
    (hsignificand : accumulate significandLimit 0 text = (significand, count, rest)) :
  read negative text
    = if startsWithDigit rest then
        afterLongWhole negative significand (dropDigits rest).1 (dropDigits rest).2
      else
        afterWhole negative significand rest
  := by
  unfold read
  split
  case h_1 => cases hdigit
  case h_2 => cases hzero rfl
  case h_3 =>
    rw [hdigit, hsignificand]
    rfl

/-- A numeral is read within the word. -/
theorem settled_read (negative : Bool) (word : List Char) :
  Settled (read negative) word
  := by
  by_cases hzero : word.head? = some '0'
  · obtain ⟨word, rfl⟩ := List.head?_eq_some_iff.mp hzero
    apply settled_read_zero
  cases hdigit : startsWithDigit word with
  | false =>
    apply Settled.of_error
    intro text htext
    apply exists_read_eq_error negative (head?_append_ne rfl hzero htext)
    rw [startsWithDigit_append htext, hdigit]
  | true =>
    obtain ⟨significand, count, left, hleft, hsignificand⟩ :=
      accumulate_append significandLimit 0 word
    have hread : ∀ text, Stops text → read negative (word ++ text)
        = if startsWithDigit left then
            afterLongWhole negative significand (dropDigits (left ++ text)).1
              (dropDigits (left ++ text)).2
          else
            afterWhole negative significand (left ++ text) := by
      intro text htext
      rw [← startsWithDigit_append htext left]
      apply read_of_digit negative (head?_append_ne rfl hzero htext) _ (hsignificand text htext)
      rw [startsWithDigit_append htext, hdigit]
    by_cases hlong : startsWithDigit left
    · obtain ⟨dropped, left', hleft', hdrop⟩ := dropDigits_append left
      apply (settled_afterLongWhole negative significand dropped left').of_eq
        (hleft'.trans hleft)
      intro text htext
      rw [hread text htext, if_pos hlong, hdrop text htext]
    · apply (settled_afterWhole negative significand left).of_eq hleft
      intro text htext
      rw [hread text htext, if_neg hlong]

end Numeral

end StatusBar

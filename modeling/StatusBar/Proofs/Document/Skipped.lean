import StatusBar.Document.Skip
import StatusBar.Proofs.Document.Extent
import StatusBar.Proofs.Document.Grammar

/-!
# Values are passed over

Passing over a value of the grammar ends exactly where the value does.  Every opening bracket and
every value without one takes a step, so that there are fewer steps than characters.
-/

namespace StatusBar.Skip

open Document (Stops stops_cons isWordChar)
open Grammar
open Numeral (startsWithDigit startsWithDigit_eq_false dropDigits)
open Reading (bind_eq_ok)
open Relaxed (IsGap)
open Scan (skipSpace word)

variable {text rest : List Char}

/-! ### Numerals -/

theorem startsWithDigit_of_isDigits (h : IsDigits text) (rest : List Char) :
  startsWithDigit (text ++ rest) = true
  := by
  obtain ⟨c, text, rfl⟩ := List.exists_cons_of_ne_nil h.ne_nil
  exact (h.isDigit c List.mem_cons_self).digit?_isSome

theorem digits_append (h : ∀ c ∈ text, IsDigit c) (hrest : startsWithDigit rest = false) :
  digits (text ++ rest) = rest
  := by
  induction text with
  | nil =>
    cases rest with
    | nil => rfl
    | cons c rest =>
      have hc : Numeral.digit? c = none := by simpa [startsWithDigit] using hrest
      simp [digits, dropDigits, hc]
  | cons c text ih =>
    obtain ⟨hc, h⟩ := List.forall_mem_cons.mp h
    obtain ⟨d, hd⟩ := Option.isSome_iff_exists.mp hc.digit?_isSome
    simpa [digits, dropDigits, hd] using ih h

/-- What comes after the digits of a numeral is no digit. -/
theorem startsWithDigit_exponent {exponent : List Char} (h : IsExponent exponent)
    (hrest : Stops rest) :
  startsWithDigit (exponent ++ rest) = false
  := by
  cases h with
  | none => exact startsWithDigit_eq_false hrest
  | digits hletter => obtain rfl | rfl := hletter <;> rfl

theorem startsWithDigit_fraction {fraction exponent : List Char} (hfraction : IsFraction fraction)
    (h : IsExponent exponent) (hrest : Stops rest) :
  startsWithDigit (fraction ++ (exponent ++ rest)) = false
  := by
  cases hfraction with
  | none =>
    rw [List.nil_append]
    exact startsWithDigit_exponent h hrest
  | digits => rfl

theorem exponentPart_eq_ok {sign : List Char} (hsign : sign = [] ∨ sign = ['+'] ∨ sign = ['-'])
    (h : IsDigits text) (hrest : Stops rest) :
  exponentPart (sign ++ text ++ rest) = .ok rest
  := by
  have hstarts := startsWithDigit_of_isDigits h rest
  have hdigits := digits_append h.isDigit (startsWithDigit_eq_false hrest)
  obtain rfl | rfl | rfl := hsign
  · obtain ⟨c, text, rfl⟩ := List.exists_cons_of_ne_nil h.ne_nil
    have hc := h.isDigit c List.mem_cons_self
    unfold exponentPart
    simp only [List.nil_append, List.cons_append] at hstarts hdigits ⊢
    split
    case h_1 heq =>
      cases heq
      exact absurd hc (by decide)
    case h_2 heq =>
      cases heq
      exact absurd hc (by decide)
    case h_3 => rw [if_pos hstarts, hdigits]
  · simp only [exponentPart, List.cons_append, List.nil_append, hstarts, hdigits, if_true]
  · simp only [exponentPart, List.cons_append, List.nil_append, hstarts, hdigits, if_true]

theorem fraction_eq_ok (h : IsDigits text) {exponent : List Char} (hexponent : IsExponent exponent)
    (hrest : Stops rest) :
  fraction (text ++ (exponent ++ rest)) = .ok rest
  := by
  have hstarts := startsWithDigit_of_isDigits h (exponent ++ rest)
  have hdigits := digits_append h.isDigit (startsWithDigit_exponent hexponent hrest)
  simp only [fraction, hstarts, hdigits, Bool.not_true, Bool.false_eq_true, if_false]
  cases hexponent with
  | none =>
    simp only [List.nil_append]
    split
    case h_1 => cases hrest 'e' rfl
    case h_2 => cases hrest 'E' rfl
    case h_3 => rfl
  | digits hletter hsign h =>
    rw [List.cons_append]
    obtain rfl | rfl := hletter
    all_goals exact exponentPart_eq_ok hsign h hrest

theorem afterWhole_eq_ok {fraction exponent : List Char} (hfraction : IsFraction fraction)
    (hexponent : IsExponent exponent) (hrest : Stops rest) :
  afterWhole (fraction ++ (exponent ++ rest)) = .ok rest
  := by
  cases hfraction with
  | digits h => exact fraction_eq_ok h hexponent hrest
  | none =>
    cases hexponent with
    | none =>
      unfold afterWhole
      simp only [List.nil_append]
      split
      case h_1 => cases hrest '.' rfl
      case h_2 => cases hrest 'e' rfl
      case h_3 => cases hrest 'E' rfl
      case h_4 => rfl
    | digits hletter hsign h =>
      rw [List.nil_append, List.cons_append]
      obtain rfl | rfl := hletter
      all_goals exact exponentPart_eq_ok hsign h hrest

/-- A numeral is passed over, of whatever size it is. -/
theorem numeral_eq_ok (h : IsNumeral text) (hrest : Stops rest) :
  numeral (text ++ rest) = .ok rest
  := by
  obtain ⟨hwhole, hfraction, hexponent⟩ := h
  have hafter := afterWhole_eq_ok hfraction hexponent hrest
  have hstops := startsWithDigit_fraction hfraction hexponent hrest
  rw [List.append_assoc, List.append_assoc]
  cases hwhole with
  | zero =>
    simp only [List.singleton_append, numeral, hstops, hafter]
    rfl
  | @digits c digits hc h =>
    have hwhole : ∀ d ∈ c :: digits, IsDigit d :=
      List.forall_mem_cons.mpr ⟨isDigit_of_leading hc, h⟩
    have hstarts := startsWithDigit_of_isDigits ⟨List.cons_ne_nil c digits, hwhole⟩
    unfold numeral
    split
    case h_1 heq =>
      cases heq
      exact absurd hc (by decide)
    case h_2 => rw [if_pos (hstarts _), digits_append hwhole hstops, hafter]

/-! ### Strings -/

theorem escape_of_letter {letter : Char} (h : (Scan.letterEscape? letter).isSome = true)
    (rest : List Char) :
  escape (letter :: rest) = .ok rest
  := by
  unfold escape
  split
  case h_1 heq => cases heq
  case h_2 heq =>
    cases heq
    cases h
  case h_3 heq =>
    cases heq
    rw [if_pos h]

theorem escape_of_number {d₁ d₂ d₃ d₄ : Char}
    (h : (Scan.hexNumber? d₁ d₂ d₃ d₄).isSome = true) (rest : List Char) :
  escape ('u' :: d₁ :: d₂ :: d₃ :: d₄ :: rest) = .ok rest
  := by
  obtain ⟨n, hn⟩ := Option.isSome_iff_exists.mp h
  simp only [escape, Scan.hexEscape, hn]
  rfl

theorem stringWithin_eq_ok {body : List Char} (h : IsStringBody body) {bound : Nat}
    (hbound : body.length < bound) (rest : List Char) :
  stringWithin bound (body ++ '"' :: rest) = .ok rest
  := by
  induction h generalizing bound with
  | nil =>
    obtain ⟨bound, rfl⟩ := Nat.exists_eq_add_of_lt hbound
    simp [stringWithin]
  | plain hquote hbackslash hcontrol _ ih =>
    obtain ⟨bound, rfl⟩ := Nat.exists_eq_add_of_lt hbound
    rw [List.cons_append, stringWithin]
    · rw [hcontrol, ih (by rw [List.length_cons]; omega)]
      rfl
    · exact hquote
    · exact hbackslash
  | letter hletter _ ih =>
    obtain ⟨bound, rfl⟩ := Nat.exists_eq_add_of_lt hbound
    rw [List.cons_append, stringWithin.eq_def]
    simp only [List.cons_append, escape_of_letter hletter]
    exact ih (by rw [List.length_cons, List.length_cons]; omega)
  | unicode hnumber _ ih =>
    obtain ⟨bound, rfl⟩ := Nat.exists_eq_add_of_lt hbound
    rw [List.cons_append, stringWithin.eq_def]
    simp only [List.cons_append, escape_of_number hnumber]
    exact ih (by simp only [List.length_cons]; omega)

/-- A string is passed over, also if it is none of characters. -/
theorem string_eq_ok {body : List Char} (h : IsStringBody body) (rest : List Char) :
  string (body ++ '"' :: rest) = .ok rest
  := by
  apply stringWithin_eq_ok h
  rw [List.length_append]
  omega

/-! ### Values -/

/-- Go on after a value: close brackets, and pass over the values that follow. -/
def onwards (bound : Nat) (within : List Bracket) (text : List Char) :
    Except Failure (List Char) := do
  let (still, rest) ← afterValue (within.length + 1) within text
  if still.isEmpty then
    return rest
  else
    valueWithin bound still rest

variable {bracket : Bracket} {within outer : List Bracket} {gap : List Char}

/-- The bound of closing brackets does not matter, as long as it exceeds their number. -/
theorem afterValue_of_lt {bound : Nat} (hbound : within.length < bound) (text : List Char) :
  afterValue bound within text = afterValue (within.length + 1) within text
  := by
  induction within generalizing bound text with
  | nil =>
    obtain ⟨bound, rfl⟩ := Nat.exists_eq_add_of_lt hbound
    rw [afterValue, afterValue]
  | cons bracket outer ih =>
    obtain ⟨bound, rfl⟩ := Nat.exists_eq_add_of_lt hbound
    have houter : outer.length < outer.length + 1 + bound := by omega
    rw [afterValue, afterValue]
    simp only [List.length_cons, ih houter]

/-- A value is a step, after which others may follow. -/
theorem valueWithin_of_step
    (h : step within text = afterValue (rest.length + within.length + 1) within rest)
    (bound : Nat) :
  valueWithin (bound + 1) within text = onwards bound within rest
  := by
  rw [valueWithin, h, afterValue_of_lt (by omega), onwards]

theorem onwards_nil (bound : Nat) (text : List Char) :
  onwards bound [] text = .ok text
  := rfl

theorem onwards_gap (hgap : IsGap gap) (bound : Nat) (text : List Char) :
  onwards bound (bracket :: outer) (gap ++ text) = onwards bound (bracket :: outer) text
  := by
  rw [onwards, onwards, afterValue, afterValue, hgap.skipSpace_append]

theorem onwards_closing (bound : Nat) (rest : List Char) :
  onwards bound (bracket :: outer) (bracket.closing :: rest) = onwards bound outer rest
  := by
  have hskip : skipSpace (bracket.closing :: rest) = bracket.closing :: rest := by
    cases bracket <;> rfl
  have hcomma : bracket.closing ≠ ',' := by
    cases bracket <;> decide
  rw [onwards, onwards, List.length_cons, afterValue, hskip]
  simp only [if_neg hcomma, if_true]

theorem onwards_comma {next : List Char} (hnext : bracket.next rest = .ok next) (bound : Nat) :
  onwards bound (bracket :: outer) (',' :: rest) = valueWithin bound (bracket :: outer) next
  := by
  have hskip : skipSpace (',' :: rest) = ',' :: rest := rfl
  rw [onwards, afterValue, hskip]
  simp only [if_true, hnext]
  rfl

/-- The spaces before a value do not matter. -/
theorem valueWithin_skipSpace (bound : Nat) (within : List Bracket) (text : List Char) :
  valueWithin (bound + 1) within (skipSpace text) = valueWithin (bound + 1) within text
  := by
  rw [valueWithin, valueWithin, step, step, Document.skipSpace_skipSpace]

/-- An opening bracket is a step to its first value. -/
theorem valueWithin_of_opening {c : Char} {left next : List Char}
    (h : step within text = afterOpening bracket within rest) (hskip : skipSpace rest = c :: left)
    (hc : c ≠ bracket.closing) (hnext : bracket.next (c :: left) = .ok next) (bound : Nat) :
  valueWithin (bound + 1) within text = valueWithin bound (bracket :: within) next
  := by
  rw [valueWithin, h, afterOpening, hskip]
  simp only [if_neg hc, hnext]
  rfl

/-- A bracket that is closed at once is a value. -/
theorem step_of_closing (h : step within text = afterOpening bracket within (gap ++ bracket.closing :: rest))
    (hgap : IsGap gap) :
  step within text = afterValue (rest.length + within.length + 1) within rest
  := by
  have hskip : skipSpace (bracket.closing :: rest) = bracket.closing :: rest := by
    cases bracket <;> rfl
  rw [h, afterOpening, hgap.skipSpace_append, hskip]
  simp only [if_true]

/-! ### Values without brackets -/

theorem step_of_word (h : IsWord text) (hgap : IsGap gap) :
  step within (gap ++ (text ++ rest)) = afterValue (rest.length + within.length + 1) within rest
  := by
  rw [step, hgap.skipSpace_append]
  cases h <;> rfl

theorem step_of_numeral (h : IsNumeral text) (hgap : IsGap gap) (hrest : Stops rest) :
  step within (gap ++ (text ++ rest)) = afterValue (rest.length + within.length + 1) within rest
  := by
  have hnumeral := numeral_eq_ok h hrest
  obtain ⟨c, left, rfl, hc⟩ := h.exists_eq_cons
  have hskip : skipSpace (gap ++ (c :: left ++ rest)) = c :: left ++ rest := by
    rw [hgap.skipSpace_append, List.cons_append,
      Document.skipSpace_cons_of_not_isSpace hc.not_isSpace]
  have hstarts : startsWithDigit (c :: left ++ rest) = true := hc.digit?_isSome
  unfold step
  rw [hskip]
  split
  case h_1 heq => cases heq
  case h_9 =>
    rw [if_pos hstarts, hnumeral]
    rfl
  all_goals
    injection ‹_ = _› with heq
    subst heq
    exact absurd hc (by decide)

theorem step_of_negative (h : IsNumeral text) (hgap : IsGap gap) (hrest : Stops rest) :
  step within (gap ++ ('-' :: text ++ rest))
    = afterValue (rest.length + within.length + 1) within rest
  := by
  have hskip : skipSpace ('-' :: text ++ rest) = '-' :: (text ++ rest) := rfl
  rw [step, hgap.skipSpace_append, hskip]
  simp only [numeral_eq_ok h hrest]
  rfl

theorem step_of_string {body : List Char} (h : IsStringBody body) (hgap : IsGap gap) :
  step within (gap ++ ('"' :: (body ++ ['"']) ++ rest))
    = afterValue (rest.length + within.length + 1) within rest
  := by
  have hskip : skipSpace ('"' :: (body ++ ['"']) ++ rest) = '"' :: (body ++ '"' :: rest) := by
    rw [List.cons_append, List.append_assoc]
    rfl
  rw [step, hgap.skipSpace_append, hskip]
  simp only [string_eq_ok h]
  rfl

/-! ### All values -/

/-- How a text of a part is passed over: in fewer steps than it has characters, up to what comes
after it within the brackets that are open.  Members are passed over from behind their first
name on. -/
def Passes : Part → List Char → Prop
  | .value, text =>
    ∃ steps < text.length, ∀ within gap rest bound, IsGap gap → Stops rest →
      valueWithin (bound + steps + 1) within (gap ++ (text ++ rest)) = onwards bound within rest
  | .element, text =>
    ∃ steps < text.length, ∀ bracket outer rest bound, Stops rest →
      valueWithin (bound + steps + 1) (bracket :: outer) (text ++ rest)
        = onwards bound (bracket :: outer) rest
  | .elements, text =>
    ∃ steps < text.length, ∀ outer rest bound,
      valueWithin (bound + steps + 1) (.list :: outer) (text ++ ']' :: rest)
        = onwards bound outer rest
  | .member, text =>
    ∃ steps < text.length, ∀ outer rest bound, Stops rest → ∃ next, name (text ++ rest) = .ok next
      ∧ valueWithin (bound + steps + 1) (.object :: outer) next
        = onwards bound (.object :: outer) rest
  | .members, text =>
    ∃ steps < text.length, ∀ outer rest bound, ∃ next, name (text ++ '\x7d' :: rest) = .ok next
      ∧ valueWithin (bound + steps + 1) (.object :: outer) next = onwards bound outer rest

theorem step_bracket (hgap : IsGap gap) :
  step within (gap ++ '[' :: rest) = afterOpening .list within rest
  := by
  rw [step, hgap.skipSpace_append]
  rfl

theorem step_brace (hgap : IsGap gap) :
  step within (gap ++ '\x7b' :: rest) = afterOpening .object within rest
  := by
  rw [step, hgap.skipSpace_append]
  rfl

/-- The spaces before a name do not matter. -/
theorem name_skipSpace (text : List Char) :
  name (skipSpace text) = name text
  := by
  rw [name, name, Document.skipSpace_skipSpace]

theorem name_eq_ok {before body after : List Char} (hbefore : IsGap before)
    (hbody : IsStringBody body) (hafter : IsGap after) (rest : List Char) :
  name (before ++ '"' :: (body ++ '"' :: (after ++ ':' :: rest))) = .ok rest
  := by
  have hquote : skipSpace ('"' :: (body ++ '"' :: (after ++ ':' :: rest)))
      = '"' :: (body ++ '"' :: (after ++ ':' :: rest)) := rfl
  have hcolon : skipSpace (':' :: rest) = ':' :: rest := rfl
  rw [name, hbefore.skipSpace_append, hquote]
  apply bind_eq_ok.mpr
  use after ++ ':' :: rest, string_eq_ok hbody _
  simp only [hafter.skipSpace_append, hcolon]

namespace Passes

variable {more before after : List Char}

/-- A value of one step is passed over. -/
theorem of_step (hne : text ≠ [])
    (h : ∀ within gap rest, IsGap gap → Stops rest → step within (gap ++ (text ++ rest))
      = afterValue (rest.length + within.length + 1) within rest) :
  Passes .value text
  := by
  use 0, List.length_pos_iff.mpr hne
  intro within gap rest bound hgap hrest
  exact valueWithin_of_step (h within gap rest hgap hrest) bound

theorem word (h : IsWord text) :
  Passes .value text
  := by
  apply of_step (by cases h <;> exact List.cons_ne_nil _ _)
  intro within gap rest hgap _
  exact step_of_word h hgap

theorem numeral (h : IsNumeral text) :
  Passes .value text
  := by
  obtain ⟨c, left, htext, -⟩ := h.exists_eq_cons
  apply of_step (htext ▸ List.cons_ne_nil c left)
  intro within gap rest
  exact step_of_numeral h

theorem negative (h : IsNumeral text) :
  Passes .value ('-' :: text)
  := by
  apply of_step (List.cons_ne_nil _ _)
  intro within gap rest
  exact step_of_negative h

theorem string {body : List Char} (h : IsStringBody body) :
  Passes .value ('"' :: (body ++ ['"']))
  := by
  apply of_step (List.cons_ne_nil _ _)
  intro within gap rest hgap _
  exact step_of_string h hgap

/-- A bracket that is closed at once is passed over. -/
theorem empty (bracket : Bracket) {opening : Char} (hgap : IsGap gap)
    (hstep : ∀ within gap rest, IsGap gap →
      step within (gap ++ opening :: rest) = afterOpening bracket within rest) :
  Passes .value (opening :: (gap ++ [bracket.closing]))
  := by
  apply of_step (List.cons_ne_nil _ _)
  intro within before rest hbefore _
  have hopening : step within (before ++ (opening :: (gap ++ [bracket.closing]) ++ rest))
      = afterOpening bracket within (gap ++ bracket.closing :: rest) := by
    rw [List.cons_append, List.append_assoc]
    exact hstep within before _ hbefore
  exact step_of_closing hopening hgap

theorem array (h : Derives .elements text) (helements : Passes .elements text) :
  Passes .value ('[' :: (text ++ [']']))
  := by
  obtain ⟨steps, hsteps, helements⟩ := helements
  use steps + 1, by simp only [List.length_append, List.length_cons]; omega
  intro within gap rest bound hgap _
  obtain ⟨c, left, hskip, hc, -⟩ := h.exists_skipSpace (']' :: rest)
  rw [List.cons_append, List.append_assoc, List.singleton_append, ← Nat.add_assoc,
    valueWithin_of_opening (step_bracket hgap) hskip hc rfl, ← hskip, valueWithin_skipSpace]
  exact helements within rest bound

theorem object (h : Derives .members text) (hmembers : Passes .members text) :
  Passes .value ('\x7b' :: (text ++ ['\x7d']))
  := by
  obtain ⟨steps, hsteps, hmembers⟩ := hmembers
  use steps + 1, by simp only [List.length_append, List.length_cons]; omega
  intro within gap rest bound hgap _
  obtain ⟨next, hnext, hvalue⟩ := hmembers within rest bound
  obtain ⟨c, left, hskip, -, hc⟩ := h.exists_skipSpace ('\x7d' :: rest)
  rw [← name_skipSpace, hskip] at hnext
  rw [List.cons_append, List.append_assoc, List.singleton_append, ← Nat.add_assoc,
    valueWithin_of_opening (step_brace hgap) hskip hc hnext]
  exact hvalue

theorem element (hbefore : IsGap before) (hvalue : Passes .value text) (hafter : IsGap after) :
  Passes .element (before ++ (text ++ after))
  := by
  obtain ⟨steps, hsteps, hvalue⟩ := hvalue
  use steps, by simp only [List.length_append]; omega
  intro bracket outer rest bound hrest
  rw [List.append_assoc, List.append_assoc, hvalue _ _ _ _ hbefore (hafter.stops_append hrest),
    onwards_gap hafter]

theorem lastElement (helement : Passes .element text) :
  Passes .elements text
  := by
  obtain ⟨steps, hsteps, helement⟩ := helement
  use steps, hsteps
  intro outer rest bound
  rw [helement .list outer _ bound (stops_cons.mpr rfl)]
  exact onwards_closing bound rest

theorem moreElements (helement : Passes .element text) (helements : Passes .elements more) :
  Passes .elements (text ++ ',' :: more)
  := by
  obtain ⟨steps, hsteps, helement⟩ := helement
  obtain ⟨steps', hsteps', helements⟩ := helements
  use steps' + 1 + steps, by simp only [List.length_append, List.length_cons]; omega
  intro outer rest bound
  rw [List.append_assoc, List.cons_append, ← Nat.add_assoc, ← Nat.add_assoc,
    helement .list outer _ _ (stops_cons.mpr rfl)]
  exact (onwards_comma rfl _).trans (helements outer rest bound)

theorem member (hbefore : IsGap before) {body : List Char} (hbody : IsStringBody body)
    (hafter : IsGap after) (helement : Passes .element text) :
  Passes .member (before ++ '"' :: (body ++ '"' :: (after ++ ':' :: text)))
  := by
  obtain ⟨steps, hsteps, helement⟩ := helement
  use steps, by simp only [List.length_append, List.length_cons]; omega
  intro outer rest bound hrest
  use text ++ rest
  constructor
  · simpa using name_eq_ok hbefore hbody hafter (text ++ rest)
  · exact helement .object outer rest bound hrest

theorem lastMember (hmember : Passes .member text) :
  Passes .members text
  := by
  obtain ⟨steps, hsteps, hmember⟩ := hmember
  use steps, hsteps
  intro outer rest bound
  obtain ⟨next, hnext, hvalue⟩ := hmember outer ('\x7d' :: rest) bound (stops_cons.mpr rfl)
  use next, hnext
  rw [hvalue]
  exact onwards_closing bound rest

theorem moreMembers (hmember : Passes .member text) (hmembers : Passes .members more) :
  Passes .members (text ++ ',' :: more)
  := by
  obtain ⟨steps, hsteps, hmember⟩ := hmember
  obtain ⟨steps', hsteps', hmembers⟩ := hmembers
  use steps' + 1 + steps, by simp only [List.length_append, List.length_cons]; omega
  intro outer rest bound
  obtain ⟨next', hnext', hvalue'⟩ := hmembers outer rest bound
  have hcomma := @onwards_comma _ .object outer _ hnext' (bound + steps' + 1)
  obtain ⟨next, hnext, hvalue⟩ := hmember outer (',' :: (more ++ '\x7d' :: rest))
    (bound + steps' + 1) (stops_cons.mpr rfl)
  use next
  constructor
  · rw [List.append_assoc]
    exact hnext
  · rw [← Nat.add_assoc, ← Nat.add_assoc, hvalue]
    exact hcomma.trans hvalue'

end Passes

/-- Whatever the grammar derives is passed over. -/
theorem passes {part : Part} (h : Derives part text) :
  Passes part text
  := by
  induction h with
  | word h => exact .word h
  | numeral h => exact .numeral h
  | negative h => exact .negative h
  | string h => exact .string h
  | emptyArray hgap => exact .empty .list hgap fun _ _ _ => step_bracket
  | emptyObject hgap => exact .empty .object hgap fun _ _ _ => step_brace
  | array h ih => exact .array h ih
  | object h ih => exact .object h ih
  | element hbefore _ hafter ih => exact .element hbefore ih hafter
  | lastElement _ ih => exact .lastElement ih
  | moreElements _ _ ih ih' => exact .moreElements ih ih'
  | member hbefore hname hafter _ ih => exact .member hbefore hname hafter ih
  | lastMember _ ih => exact .lastMember ih
  | moreMembers _ _ ih ih' => exact .moreMembers ih ih'

/-- A value is passed over, and nothing else. -/
theorem value_eq_ok (h : Derives .value text) (hgap : IsGap gap) (hrest : Stops rest) :
  value (gap ++ (text ++ rest)) = .ok rest
  := by
  obtain ⟨steps, hsteps, hvalue⟩ := passes h
  have hlength : steps ≤ (gap ++ (text ++ rest)).length := by
    simp only [List.length_append]
    omega
  obtain ⟨bound, hbound⟩ := Nat.exists_eq_add_of_le' hlength
  rw [value, hbound, hvalue [] gap rest bound hgap hrest, onwards_nil]

end StatusBar.Skip

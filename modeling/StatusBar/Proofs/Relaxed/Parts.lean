import StatusBar.Proofs.Relaxed.Decoration

/-!
# Items as documents of their own

What is read within brackets is read without them as well: a reading that may go deeper reads
all that it read before.  So every item of an array that a text holds is held by some text of
its own.  A text that strictly holds a document holds it as well where decorations are
allowed.
-/

namespace StatusBar

open Document (Token Stage Stops InOrder Spells ConsistsOf stops_cons isWordChar)
open Scan (isSpace skipSpace)

namespace Reading

variable {α : Type}

/-- Whatever the first reading returns, the second returns as well. -/
def Extends (f g : List Char → Except Failure (Parsed α)) : Prop :=
  ∀ text value rest, f text = .ok (value, rest) → g text = .ok (value, rest)

namespace Extends

section Items

variable {item item' : List Char → Except Failure (Parsed α)} (h : Extends item item')

include h

theorem itemsWithin (bound : Nat) :
  Extends (Reading.itemsWithin item bound) (Reading.itemsWithin item' bound)
  := by
  induction bound with
  | zero =>
    intro text values rest hitems
    cases hitems
  | succ bound ih =>
    intro text values rest hitems
    rw [Reading.itemsWithin.eq_def] at hitems ⊢
    dsimp only at hitems ⊢
    split at hitems
    case h_1 => cases hitems
    case h_2 => exact hitems
    case h_3 =>
      split at hitems
      case h_1 => cases hitems
      case h_2 => cases hitems
      case h_3 =>
        obtain ⟨⟨first, left⟩, hfirst, hnext⟩ := bind_eq_ok.mp hitems
        obtain ⟨⟨more, left'⟩, hmore, hnext⟩ := bind_eq_ok.mp hnext
        apply bind_eq_ok.mpr
        use (first, left), h _ _ _ hfirst
        apply bind_eq_ok.mpr
        use (more, left'), ih _ _ _ hmore
    case h_4 => cases hitems

theorem items :
  Extends (Reading.items item) (Reading.items item')
  := by
  intro text values rest hitems
  rw [Reading.items.eq_def] at hitems ⊢
  split at hitems
  case h_1 => cases hitems
  case h_2 => exact hitems
  case h_3 =>
    obtain ⟨⟨first, left⟩, hfirst, hnext⟩ := bind_eq_ok.mp hitems
    obtain ⟨⟨more, left'⟩, hmore, hnext⟩ := bind_eq_ok.mp hnext
    apply bind_eq_ok.mpr
    use (first, left), h _ _ _ hfirst
    apply bind_eq_ok.mpr
    use (more, left'), h.itemsWithin _ _ _ _ hmore

end Items

section Members

variable {entry entry' : α → List Char → Except Failure (Parsed α)}
  (h : ∀ state, Extends (entry state) (entry' state))

include h

theorem membersWithin (bound : Nat) (state : α) :
  Extends (Reading.membersWithin entry bound state) (Reading.membersWithin entry' bound state)
  := by
  induction bound generalizing state with
  | zero =>
    intro text result rest hmembers
    cases hmembers
  | succ bound ih =>
    intro text result rest hmembers
    rw [Reading.membersWithin.eq_def] at hmembers ⊢
    dsimp only at hmembers ⊢
    split at hmembers
    case h_1 => cases hmembers
    case h_2 => exact hmembers
    case h_3 =>
      split at hmembers
      case h_1 => cases hmembers
      case h_2 => cases hmembers
      case h_3 =>
        obtain ⟨⟨state', left⟩, hfirst, hnext⟩ := bind_eq_ok.mp hmembers
        apply bind_eq_ok.mpr
        use (state', left), h state _ _ _ hfirst
        apply ih state' _ _ _ hnext
      case h_4 => cases hmembers
    case h_4 => cases hmembers

theorem members (state : α) :
  Extends (Reading.members entry state) (Reading.members entry' state)
  := by
  intro text result rest hmembers
  rw [Reading.members.eq_def] at hmembers ⊢
  split at hmembers
  case h_1 => cases hmembers
  case h_2 => exact hmembers
  case h_3 =>
    obtain ⟨⟨state', left⟩, hfirst, hnext⟩ := bind_eq_ok.mp hmembers
    apply bind_eq_ok.mpr
    use (state', left), h state _ _ _ hfirst
    apply membersWithin h _ state' _ _ _ hnext
  case h_4 => cases hmembers

end Members

theorem member {value value' : List Char → Except Failure (Parsed Document)}
    (h : Extends value value') (members : Members) :
  Extends (Members.read value members) (Members.read value' members)
  := by
  intro text result rest hmember
  obtain ⟨⟨name, left⟩, hname, hnext⟩ := bind_eq_ok.mp hmember
  obtain ⟨left', hcolon, hnext⟩ := bind_eq_ok.mp hnext
  obtain ⟨⟨doc, left''⟩, hdoc, hnext⟩ := bind_eq_ok.mp hnext
  apply bind_eq_ok.mpr
  use (name, left), hname
  apply bind_eq_ok.mpr
  use left', hcolon
  apply bind_eq_ok.mpr
  use (doc, left''), h _ _ _ hdoc

end Extends

/-! ### Items in their own texts -/

section Items

variable {item : List Char → Except Failure (Parsed α)}

theorem exists_of_mem_itemsWithin {bound : Nat} {text rest : List Char} {values : List α}
    (h : itemsWithin item bound text = .ok (values, rest)) :
  Stops text
    ∧ ∀ value ∈ values, ∃ text' rest', item text' = .ok (value, rest') ∧ Stops rest'
  := by
  induction bound generalizing text values with
  | zero => cases h
  | succ bound ih =>
    unfold itemsWithin at h
    split at h
    case h_1 => cases h
    case h_2 hskip =>
      cases h
      use Document.stops_of_skipSpace_eq_cons hskip rfl
      rintro value ⟨⟩
    case h_3 hskip =>
      use Document.stops_of_skipSpace_eq_cons hskip rfl
      split at h
      case h_1 => cases h
      case h_2 => cases h
      case h_3 =>
        obtain ⟨⟨first, left⟩, hfirst, hnext⟩ := bind_eq_ok.mp h
        obtain ⟨⟨more, left'⟩, hmore, hnext⟩ := bind_eq_ok.mp hnext
        cases hnext
        obtain ⟨hleft, hmem⟩ := ih hmore
        rintro value (_ | ⟨_, hvalue⟩)
        · exact ⟨_, left, hfirst, hleft⟩
        · exact hmem value hvalue
    case h_4 => cases h

/-- An item of an array is read from where it stands, and what comes after it goes on with no
word. -/
theorem exists_of_mem_items {text rest : List Char} {values : List α}
    (h : items item text = .ok (values, rest)) {value : α} (hvalue : value ∈ values) :
  ∃ text' rest', item text' = .ok (value, rest') ∧ Stops rest'
  := by
  unfold items at h
  split at h
  case h_1 => cases h
  case h_2 =>
    cases h
    cases hvalue
  case h_3 =>
    obtain ⟨⟨first, left⟩, hfirst, hnext⟩ := bind_eq_ok.mp h
    obtain ⟨⟨more, left'⟩, hmore, hnext⟩ := bind_eq_ok.mp hnext
    cases hnext
    obtain ⟨hleft, hmem⟩ := exists_of_mem_itemsWithin hmore
    cases hvalue with
    | head => exact ⟨_, left, hfirst, hleft⟩
    | tail _ hvalue => exact hmem value hvalue

end Items

end Reading

namespace Document

open Reading (Extends bind_eq_ok)

/-- What is read with so many brackets may be read with more. -/
theorem extends_value (depth : Nat) :
  Extends (value depth) (value (depth + 1))
  := by
  induction depth with
  | zero =>
    intro text doc rest h
    rw [value.eq_def] at h ⊢
    split at h
    case h_7 => cases h
    case h_8 => cases h
    all_goals exact h
  | succ depth ih =>
    intro text doc rest h
    rw [value.eq_def] at h ⊢
    split at h
    case h_7 =>
      obtain ⟨⟨items, left⟩, hitems, hnext⟩ := bind_eq_ok.mp h
      apply bind_eq_ok.mpr
      use (items, left), ih.items _ _ _ hitems
    case h_8 =>
      obtain ⟨⟨members, left⟩, hmembers, hnext⟩ := bind_eq_ok.mp h
      apply bind_eq_ok.mpr
      use (members, left), Extends.members ih.member _ _ _ _ hmembers
    all_goals exact h

theorem exists_items_of_value {depth : Nat} {text rest : List Char} {items : List Document}
    (h : value (depth + 1) text = .ok (.array items, rest)) :
  ∃ left, Reading.items (value depth) left = .ok (items, rest)
  := by
  rw [value.eq_def] at h
  split at h
  case h_7 left _ =>
    obtain ⟨⟨items, left'⟩, hitems, hnext⟩ := bind_eq_ok.mp h
    cases hnext
    use left
  case h_9 =>
    split at h
    case isTrue =>
      obtain ⟨_, -, hnext⟩ := bind_eq_ok.mp h
      cases hnext
    case isFalse => cases h
  all_goals first
    | cases h
    | obtain ⟨_, -, hnext⟩ := bind_eq_ok.mp h
      cases hnext

/-- Every item of an array that is read is read of some text of its own. -/
theorem exists_readChars_of_mem {text : List Char} {items : List Document}
    (h : readChars text = .ok (.array items)) {item : Document} (hitem : item ∈ items) :
  ∃ text', readChars text' = .ok item
  := by
  obtain ⟨⟨doc, rest⟩, hvalue, hnext⟩ := bind_eq_ok.mp h
  dsimp only at hnext
  split at hnext
  case h_1 =>
    cases hnext
    obtain ⟨left, hitems⟩ := exists_items_of_value hvalue
    obtain ⟨text', rest', hread, hstops⟩ := Reading.exists_of_mem_items hitems hitem
    obtain ⟨tokens, -, horder, hall⟩ := byTokens_value 126 text' item rest' hread hstops
    use tokens.flatMap Token.chars
    apply bind_eq_ok.mpr
    use (item, []), extends_value 126 _ _ _ (hall _ _ horder.spells_flatMap)
    rfl
  case h_2 => cases hnext

end Document

namespace Relaxed

/-- Nothing need be added to a text. -/
theorem Decorates.of_skipSpace {stage : Stage} {text : List Char}
    (h : Decorates stage (skipSpace text) (skipSpace text)) :
  Decorates stage text text
  := by
  induction text with
  | nil => exact h
  | cons c text ih =>
    by_cases hspace : isSpace c
    · rw [Document.skipSpace_cons_of_isSpace hspace] at h
      exact .space hspace (ih h)
    · rwa [Document.skipSpace_cons_of_not_isSpace (by simpa using hspace)] at h

theorem decorates_self {text : List Char} {tokens : List Token} (h : ConsistsOf text tokens)
    (stage : Stage) :
  Decorates stage text text
  := by
  induction tokens generalizing text stage with
  | nil =>
    apply Decorates.of_skipSpace
    rw [Document.consistsOf_nil.mp h]
    exact .finish stage
  | cons token tokens ih =>
    obtain ⟨text', hskip, hends, htokens⟩ := Document.consistsOf_cons.mp h
    apply Decorates.of_skipSpace
    rw [hskip]
    exact .token token hends (ih htokens _)

/-- What is strictly a document is read as the same one where decorations are allowed. -/
theorem read_of_read {text : String} {doc : Document} (h : Document.read text = .ok doc) :
  read text = .ok doc
  := by
  obtain ⟨tokens, htokens, -, -⟩ :=
    Document.exists_tokens_of_readChars (Reading.mapError_eq_ok.mp h)
  exact read_of_decorates h (decorates_self htokens .due)

end Relaxed

end StatusBar

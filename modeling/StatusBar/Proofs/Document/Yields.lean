import StatusBar.Document.Relaxed
import StatusBar.Proofs.Document.Members

/-!
# What reading yields

`Reading.Yields` says that whatever a reading returns is good, and holds of readings one
after the other.  So every document that is read is `Regular`: its objects, at any depth,
name their members differently, since a name that comes twice replaces its value.
-/

namespace StatusBar

namespace Reading

variable {ε ε' α β : Type}

/-- What comes of two computations, one after the other, comes of the second. -/
theorem bind_eq_ok {first : Except ε α} {next : α → Except ε β} {result : β} :
  first >>= next = .ok result ↔ ∃ value, first = .ok value ∧ next value = .ok result
  := by
  cases first with
  | error failure =>
    constructor
    · intro h
      cases h
    · rintro ⟨value, h, -⟩
      cases h
  | ok value =>
    constructor
    · intro h
      use value, rfl, h
    · rintro ⟨value', h, hnext⟩
      cases h
      exact hnext

/-- Failures in other words are failures of the same. -/
theorem mapError_eq_ok {f : ε → ε'} {result : Except ε α} {value : α} :
  result.mapError f = .ok value ↔ result = .ok value
  := by
  cases result with
  | error failure =>
    constructor
    · intro h
      cases h
    · intro h
      cases h
  | ok value' =>
    constructor
    · intro h
      cases h
      rfl
    · intro h
      cases h
      rfl

/-- Whatever is read, if anything, is good. -/
structure Yields (result : Except Failure (Parsed α)) (good : α → Prop) : Prop where
  of_ok : ∀ value rest, result = .ok (value, rest) → good value

namespace Yields

variable {good : α → Prop}

theorem error (failure : Failure) :
  Yields (.error failure) good
  := by
  constructor
  intro value rest h
  cases h

theorem ok {value : α} (h : good value) (rest : List Char) :
  Yields (.ok (value, rest)) good
  := by
  constructor
  intro value rest hok
  cases hok
  exact h

/-- The second reading may rely on what the first one yields. -/
theorem bind {first : Except Failure (Parsed β)} {next : Parsed β → Except Failure (Parsed α)}
    {mid : β → Prop} (hfirst : Yields first mid)
    (hnext : ∀ value rest, mid value → Yields (next (value, rest)) good) :
  Yields (first >>= next) good
  := by
  constructor
  intro value rest h
  obtain ⟨⟨value', rest'⟩, hvalue', h⟩ := bind_eq_ok.mp h
  apply (hnext value' rest' (hfirst.of_ok value' rest' hvalue')).of_ok value rest h

/-- What comes first does not matter. -/
theorem after {first : Except Failure β} {next : β → Except Failure (Parsed α)}
    (hnext : ∀ value, Yields (next value) good) :
  Yields (first >>= next) good
  := by
  constructor
  intro value rest h
  obtain ⟨value', -, h⟩ := bind_eq_ok.mp h
  apply (hnext value').of_ok value rest h

end Yields

variable {entry : α → List Char → Except Failure (Parsed α)}
  {item : List Char → Except Failure (Parsed α)} {good : α → Prop}

/-- If every item is good, all of them are. -/
theorem yields_itemsWithin (hitem : ∀ text, Yields (item text) good) (bound : Nat)
    (text : List Char) :
  Yields (itemsWithin item bound text) fun items => ∀ item ∈ items, good item
  := by
  induction bound generalizing text with
  | zero => apply Yields.error
  | succ bound ih =>
    rw [itemsWithin]
    split
    · apply Yields.error
    · apply Yields.ok (List.forall_mem_nil _)
    · split
      · apply Yields.error
      · apply Yields.error
      · apply Yields.bind (hitem _)
        intro first rest hfirst
        apply Yields.bind (ih rest)
        intro more rest hmore
        apply Yields.ok (List.forall_mem_cons.mpr ⟨hfirst, hmore⟩)
    · apply Yields.error

theorem yields_items (hitem : ∀ text, Yields (item text) good) (text : List Char) :
  Yields (items item text) fun items => ∀ item ∈ items, good item
  := by
  rw [items]
  split
  · apply Yields.error
  · apply Yields.ok (List.forall_mem_nil _)
  · apply Yields.bind (hitem _)
    intro first rest hfirst
    apply Yields.bind (yields_itemsWithin hitem _ rest)
    intro more rest hmore
    apply Yields.ok (List.forall_mem_cons.mpr ⟨hfirst, hmore⟩)

/-- What every member keeps, all of them together keep. -/
theorem yields_membersWithin
    (hentry : ∀ state text, good state → Yields (entry state text) good)
    (bound : Nat) {state : α} (h : good state) (text : List Char) :
  Yields (membersWithin entry bound state text) good
  := by
  induction bound generalizing state text with
  | zero => apply Yields.error
  | succ bound ih =>
    rw [membersWithin]
    split
    · apply Yields.error
    · apply Yields.ok h
    · split
      · apply Yields.error
      · apply Yields.error
      · apply Yields.bind (hentry state _ h)
        intro state rest h
        apply ih h
      · apply Yields.error
    · apply Yields.error

theorem yields_members
    (hentry : ∀ state text, good state → Yields (entry state text) good)
    {state : α} (h : good state) (text : List Char) :
  Yields (members entry state text) good
  := by
  rw [members]
  split
  · apply Yields.error
  · apply Yields.ok h
  · apply Yields.bind (hentry state _ h)
    intro state rest h
    apply yields_membersWithin hentry _ h
  · apply Yields.error

end Reading

/-- The objects of a document, at any depth, name their members differently. -/
inductive Document.Regular : Document → Prop where
  | null : Regular .null
  | bool (value : Bool) : Regular (.bool value)
  | number (value : Number) : Regular (.number value)
  | string (value : String) : Regular (.string value)
  | array {items : List Document} (items_regular : ∀ item ∈ items, Regular item) :
    Regular (.array items)
  | object {members : Members} (distinct : members.Distinct)
    (values_regular : ∀ member ∈ members, Regular member.2) : Regular (.object members)

open Reading

/-- A value that is given comes beside the values that are there. -/
theorem Members.forall_mem_insert {good : Document → Prop} {members : Members}
    (h : ∀ member ∈ members, good member.2) (name : String) {value : Document}
    (hvalue : good value) :
  ∀ member ∈ members.insert name value, good member.2
  := by
  induction members with
  | nil => exact List.forall_mem_singleton.mpr hvalue
  | cons member members ih =>
    obtain ⟨name', value'⟩ := member
    obtain ⟨hfirst, hrest⟩ := List.forall_mem_cons.mp h
    rw [insert]
    split
    · exact List.forall_mem_cons.mpr ⟨hvalue, hrest⟩
    · exact List.forall_mem_cons.mpr ⟨hfirst, ih hrest⟩

theorem Document.Regular.insert {members : Members} (h : Regular (.object members))
    (name : String) {value : Document} (hvalue : value.Regular) :
  Regular (.object (members.insert name value))
  := by
  obtain _ | _ | _ | _ | _ | ⟨distinct, values⟩ := h
  exact .object (distinct.insert name value) (Members.forall_mem_insert values name hvalue)

/-- A member is given its value. -/
theorem Members.yields_read {value : List Char → Except Failure (Parsed Document)}
    (hvalue : ∀ text, Yields (value text) Document.Regular) (members : Members)
    (text : List Char) (h : Document.Regular (.object members)) :
  Yields (Members.read value members text) fun members => Document.Regular (.object members)
  := by
  apply Yields.after
  rintro ⟨name, rest⟩
  apply Yields.after
  intro rest
  apply Yields.bind (hvalue rest)
  intro value rest hvalue
  apply Yields.ok
  exact h.insert name hvalue

namespace Document

/-- If the values inside a bracket are regular, so is the value around it. -/
theorem yields_value_step (depth : Nat)
    (hbelow : ∀ below, depth = below + 1 → ∀ text, Yields (value below text) Regular)
    (text : List Char) :
  Yields (value depth text) Regular
  := by
  rw [value.eq_def]
  split
  · apply Yields.error
  · apply Yields.after
    intro rest
    exact Yields.ok .null _
  · apply Yields.after
    intro rest
    exact Yields.ok (.bool true) _
  · apply Yields.after
    intro rest
    exact Yields.ok (.bool false) _
  · apply Yields.after
    rintro ⟨text, rest⟩
    exact Yields.ok (.string text) _
  · apply Yields.after
    rintro ⟨number, rest⟩
    exact Yields.ok (.number number) _
  · split
    · apply Yields.error
    · apply Yields.bind (yields_items (hbelow _ rfl) _)
      intro items rest h
      exact Yields.ok (.array h) _
  · split
    · apply Yields.error
    · have hempty : Regular (.object []) := .object Members.Distinct.nil (List.forall_mem_nil _)
      apply Yields.bind (yields_members (Members.yields_read (hbelow _ rfl)) hempty _)
      intro members rest h
      exact Yields.ok h _
  · split
    · apply Yields.after
      rintro ⟨number, rest⟩
      exact Yields.ok (.number number) _
    · apply Yields.error

theorem yields_value (depth : Nat) (text : List Char) :
  Yields (value depth text) Regular
  := by
  induction depth generalizing text with
  | zero =>
    apply yields_value_step
    rintro below ⟨⟩
  | succ depth ih =>
    apply yields_value_step
    rintro below ⟨⟩
    exact ih

theorem regular_readChars {text : List Char} {doc : Document} (h : readChars text = .ok doc) :
  doc.Regular
  := by
  obtain ⟨⟨doc', rest⟩, hvalue, h⟩ := bind_eq_ok.mp h
  have hregular := (yields_value depthLimit text).of_ok doc' rest hvalue
  simp only at h
  split at h
  · cases h
    exact hregular
  · cases h

/-- The document that a text holds is regular. -/
theorem regular_of_read {text : String} {doc : Document} (h : Relaxed.read text = .ok doc) :
  doc.Regular
  := regular_readChars (mapError_eq_ok.mp h)

theorem Regular.distinct {members : Members} (h : Regular (.object members)) :
  members.Distinct
  := by
  obtain _ | _ | _ | _ | _ | ⟨distinct, -⟩ := h
  exact distinct

theorem Regular.get {doc : Document} (h : doc.Regular) (key : String) :
  (doc.get key).Regular
  := by
  rw [Document.get]
  cases hvalue : doc.get? key with
  | none => exact .null
  | some value =>
    cases doc with
    | object members =>
      obtain _ | _ | _ | _ | _ | ⟨distinct, values⟩ := h
      exact values (key, value) ((distinct.lookup_eq_some_iff key value).mp hvalue)
    | _ => cases hvalue

/-- The object that a text holds names its members differently. -/
theorem distinct_of_read {text : String} {members : Members}
    (h : Relaxed.read text = .ok (.object members)) :
  members.Distinct
  := (regular_of_read h).distinct

end Document

end StatusBar

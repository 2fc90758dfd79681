import StatusBar.Config
import StatusBar.Proofs.Document.Readings
import StatusBar.Proofs.Margins.Bytes
import StatusBar.Proofs.Text.Words

/-!
# Margins of a document

Which margins a document gives.  A side that it gives as an integer of 32 bits decides, then the
text of its margin, then the integer of its margin.  A text gives margins all at once or not at
all, and is complained about for the first of its words that is at fault.
-/

namespace StatusBar.Margins

/-! ### What a document says -/

/-- A document gives an integer of 32 bits. -/
def Gives (doc : Document) (key : String) (value : Int32) : Prop :=
  doc.get? key = some (.number (.integer value.toInt))

/-- A document gives no side. -/
def GivesNoSide (doc : Document) : Prop :=
  ∀ key ∈ sideKeys, ∀ value, ¬ Gives doc key value

/-- A side is what the document gives, or zero where it gives no integer of 32 bits. -/
def GivesSide (doc : Document) (key : String) (value : Int32) : Prop :=
  Gives doc key value ∨ value = 0 ∧ ∀ other, ¬ Gives doc key other

/-- One to four numbers expand to margins.  A side that is left out is like the one opposite of
it, and the right one like the top. -/
structure Expands (values : List Int32) (margins : Margins) : Prop where
  length : values.length ≤ 4
  top : values[0]? = some margins.top
  right : margins.right = values[1]?.getD margins.top
  bottom : margins.bottom = values[2]?.getD margins.top
  left : margins.left = values[3]?.getD margins.right

/-- A word gives an integer of 32 bits. -/
def WordGives (word : List Char) (value : Int32) : Prop :=
  StartsWith word value.toInt

/-- A text writes margins. -/
def Writes (text : String) (margins : Margins) : Prop :=
  ∃ words values, Text.SplitsInto text.toList words ∧ List.Forall₂ WordGives words values
    ∧ Expands values margins

/-- What is wrong with the first word of a text that is at fault. -/
def FirstFault (text : String) (error : NumeralError) : Prop :=
  ∃ before word after, Text.SplitsInto text.toList (before ++ word :: after)
    ∧ (∀ word ∈ before, ∃ value, WordGives word value) ∧ Faulty word error

/-- The margins after a document is read. -/
inductive Resolves (doc : Document) (margins : Margins) : Margins → Prop
  | sides {margins' : Margins} (hside : ¬ GivesNoSide doc)
    (htop : GivesSide doc "margin-top" margins'.top)
    (hright : GivesSide doc "margin-right" margins'.right)
    (hbottom : GivesSide doc "margin-bottom" margins'.bottom)
    (hleft : GivesSide doc "margin-left" margins'.left) : Resolves doc margins margins'
  | text {text : String} {margins' : Margins} (hside : GivesNoSide doc)
    (htext : doc.get? "margin" = some (.string text)) (hwrites : Writes text margins') :
    Resolves doc margins margins'
  | noMargins {text : String} (hside : GivesNoSide doc)
    (htext : doc.get? "margin" = some (.string text)) (hwrites : ∀ other, ¬ Writes text other) :
    Resolves doc margins margins
  | number {value : Int32} (hside : GivesNoSide doc) (hvalue : Gives doc "margin" value) :
    Resolves doc margins (uniform value)
  | silence (hside : GivesNoSide doc) (htext : ∀ text, doc.get? "margin" ≠ some (.string text))
    (hvalue : ∀ value, ¬ Gives doc "margin" value) : Resolves doc margins margins

/-! ### Sides -/

theorem int32?_eq_some_iff {node : Document} {value : Int32} :
  node.int32? = some value ↔ node = .number (.integer value.toInt)
  := by
  have hlow := value.minValue_le_toInt
  have hhigh := value.toInt_le
  rw [Document.int32?, Option.map_eq_some_iff]
  constructor
  · rintro ⟨integer, hinteger, rfl⟩
    rw [Document.integerWithin?.eq_def] at hinteger
    split at hinteger
    case h_2 => cases hinteger
    case h_1 integer' =>
      split at hinteger
      case isFalse => cases hinteger
      case isTrue hrange =>
        cases hinteger
        rw [Int32.toInt_minValue, Int32.toInt_maxValue] at hrange
        rw [Int32.toInt_ofInt_of_le (by omega) (by omega)]
  · rintro rfl
    use value.toInt
    rw [Document.integerWithin?, if_pos ⟨hlow, hhigh⟩]
    exact ⟨rfl, Int32.ofInt_toInt value⟩

theorem side?_eq_some_iff {doc : Document} {key : String} {value : Int32} :
  side? doc key = some value ↔ Gives doc key value
  := by
  rw [side?, int32?_eq_some_iff, Document.get_eq_iff (by simp), Gives]

theorem side?_eq_none_iff {doc : Document} {key : String} :
  side? doc key = none ↔ ∀ value, ¬ Gives doc key value
  := by
  simp only [Option.eq_none_iff_forall_ne_some, ne_eq, side?_eq_some_iff]

theorem getD_side?_iff {doc : Document} {key : String} {value : Int32} :
  (side? doc key).getD 0 = value ↔ GivesSide doc key value
  := by
  rw [GivesSide, ← side?_eq_some_iff, ← side?_eq_none_iff]
  cases side? doc key with
  | none => simp [eq_comm]
  | some value' => simp

theorem any_side?_iff {doc : Document} :
  (sideKeys.any fun key => (side? doc key).isSome) = false ↔ GivesNoSide doc
  := by
  simp only [List.any_eq_false, Bool.not_eq_true, Option.isSome_eq_false_iff,
    Option.isNone_iff_eq_none, side?_eq_none_iff, GivesNoSide]

theorem ofSideKeys?_eq_none_iff {doc : Document} :
  ofSideKeys? doc = none ↔ GivesNoSide doc
  := by
  rw [← any_side?_iff, ofSideKeys?]
  split
  case isTrue h =>
    rw [h]
    constructor <;> rintro ⟨⟩
  case isFalse h => simpa using h

theorem ofSideKeys?_eq_some_iff {doc : Document} {margins : Margins} :
  ofSideKeys? doc = some margins
    ↔ ¬ GivesNoSide doc ∧ GivesSide doc "margin-top" margins.top
      ∧ GivesSide doc "margin-right" margins.right ∧ GivesSide doc "margin-bottom" margins.bottom
      ∧ GivesSide doc "margin-left" margins.left
  := by
  obtain ⟨top, right, bottom, left⟩ := margins
  rw [← any_side?_iff, Bool.not_eq_false, ofSideKeys?]
  split
  case isFalse h => simp [h]
  case isTrue h =>
    rw [h]
    simp [← getD_side?_iff, sideKeys, ofSides?]

/-! ### Texts -/

/-- Numbers are arranged as margins if there are one to four. -/
theorem ofSides?_eq_some_iff {values : List Int32} {margins : Margins} :
  ofSides? values = some margins ↔ Expands values margins
  := by
  obtain ⟨top, right, bottom, left⟩ := margins
  constructor
  · intro h
    rw [ofSides?.eq_def] at h
    split at h
    case h_5 => cases h
    all_goals
      cases h
      exact ⟨by simp, rfl, rfl, rfl, rfl⟩
  · rintro ⟨hlength, htop, hright, hbottom, hleft⟩
    match values with
    | [] => cases htop
    | [_] | [_, _] | [_, _, _] | [_, _, _, _] =>
      cases htop
      cases hright
      cases hbottom
      cases hleft
      rfl
    | _ :: _ :: _ :: _ :: _ :: _ =>
      simp only [List.length_cons] at hlength
      omega

section

variable {α β ε : Type} {f : α → Except ε β}

theorem mapM_eq_ok_iff {items : List α} {results : List β} :
  items.mapM f = .ok results ↔ List.Forall₂ (fun item result => f item = .ok result) items results
  := by
  induction items generalizing results with
  | nil =>
    constructor
    · rintro ⟨⟩
      exact .nil
    · rintro ⟨⟩
      rfl
  | cons item items ih =>
    rw [List.mapM_cons]
    constructor
    · intro h
      cases hitem : f item with
      | error error =>
        rw [hitem] at h
        cases h
      | ok result =>
        cases hitems : items.mapM f with
        | error error =>
          rw [hitem, hitems] at h
          cases h
        | ok results' =>
          rw [hitem, hitems] at h
          cases h
          exact .cons hitem (ih.mp hitems)
    · rintro (_ | ⟨hitem, hitems⟩)
      rw [hitem, ih.mpr hitems]
      rfl

/-- The first error is the one that is returned. -/
theorem mapM_eq_error_iff {items : List α} {error : ε} :
  items.mapM f = .error error
    ↔ ∃ before item after, items = before ++ item :: after
      ∧ (∀ item ∈ before, ∃ result, f item = .ok result) ∧ f item = .error error
  := by
  constructor
  · intro h
    induction items with
    | nil => cases h
    | cons item items ih =>
      rw [List.mapM_cons] at h
      cases hitem : f item with
      | error error' =>
        rw [hitem] at h
        cases h
        exact ⟨[], item, items, rfl, List.forall_mem_nil _, hitem⟩
      | ok result =>
        cases hitems : items.mapM f with
        | ok results =>
          rw [hitem, hitems] at h
          cases h
        | error error' =>
          rw [hitem, hitems] at h
          cases h
          obtain ⟨before, item', after, rfl, hbefore, herror⟩ := ih hitems
          use item :: before, item', after, rfl
          exact ⟨List.forall_mem_cons.mpr ⟨⟨result, hitem⟩, hbefore⟩, herror⟩
  · rintro ⟨before, item, after, rfl, hbefore, herror⟩
    induction before with
    | nil =>
      rw [List.nil_append, List.mapM_cons, herror]
      rfl
    | cons first before ih =>
      obtain ⟨⟨result, hfirst⟩, hbefore⟩ := List.forall_mem_cons.mp hbefore
      rw [List.cons_append, List.mapM_cons, hfirst, ih hbefore]
      rfl

end

theorem mapM_leadingInteger_eq_ok_iff {words : List (List Char)} {values : List Int32} :
  words.mapM leadingInteger = .ok values ↔ List.Forall₂ WordGives words values
  := by
  rw [mapM_eq_ok_iff]
  simp only [leadingInteger_eq_ok_iff]
  rfl

theorem ofText_eq_some_iff {text : String} {margins : Margins} :
  ofText text = .ok (some margins) ↔ Writes text margins
  := by
  simp only [Writes, ← Text.words_eq_iff, exists_and_left, exists_eq_left',
    ← mapM_leadingInteger_eq_ok_iff, ← ofSides?_eq_some_iff]
  rw [ofText]
  cases (Text.words text.toList).mapM leadingInteger with
  | error error => simp [Functor.map, Except.map]
  | ok values => simp [Functor.map, Except.map]

theorem ofText_eq_error_iff {text : String} {error : NumeralError} :
  ofText text = .error error ↔ FirstFault text error
  := by
  simp only [FirstFault, WordGives, ← Text.words_eq_iff, ← leadingInteger_eq_ok_iff,
    ← leadingInteger_eq_error_iff, ← mapM_eq_error_iff]
  rw [ofText]
  cases (Text.words text.toList).mapM leadingInteger with
  | error error' => simp [Functor.map, Except.map]
  | ok values => simp [Functor.map, Except.map]

/-! ### The document -/

theorem ofDocument_of_text {doc : Document} (hside : GivesNoSide doc) {text : String}
    (htext : doc.get? "margin" = some (.string text)) :
  ofDocument doc = (ofText text).mapError fun error => (text, error)
  := by
  rw [ofDocument, ofSideKeys?_eq_none_iff.mpr hside, (Document.get_eq_iff (by simp)).mpr htext]

theorem ofDocument_of_no_text {doc : Document} (hside : GivesNoSide doc)
    (htext : ∀ text, doc.get? "margin" ≠ some (.string text)) :
  ofDocument doc = .ok ((side? doc "margin").map uniform)
  := by
  rw [ofDocument, ofSideKeys?_eq_none_iff.mpr hside]
  dsimp only
  split
  case h_1 text heq => cases htext text ((Document.get_eq_iff (by simp)).mp heq)
  case h_2 => rfl

/-- What a document resolves to is what the margins are updated to. -/
theorem Resolves.update_eq {doc : Document} {margins margins' : Margins}
    (h : Resolves doc margins margins') :
  update doc margins = margins'
  := by
  rw [update]
  cases h with
  | sides hside htop hright hbottom hleft =>
    rw [ofDocument, ofSideKeys?_eq_some_iff.mpr ⟨hside, htop, hright, hbottom, hleft⟩]
    rfl
  | text hside htext hwrites =>
    rw [ofDocument_of_text hside htext, ofText_eq_some_iff.mpr hwrites]
    rfl
  | @noMargins text hside htext hwrites =>
    rw [ofDocument_of_text hside htext]
    cases hof : ofText text with
    | error error => rfl
    | ok margins? =>
      cases margins? with
      | none => rfl
      | some other => cases hwrites other (ofText_eq_some_iff.mp hof)
  | number hside hvalue =>
    have htext : ∀ text, doc.get? "margin" ≠ some (.string text) := by
      intro text htext
      rw [hvalue] at htext
      cases htext
    rw [ofDocument_of_no_text hside htext, side?_eq_some_iff.mpr hvalue]
    rfl
  | silence hside htext hvalue =>
    rw [ofDocument_of_no_text hside htext, side?_eq_none_iff.mpr hvalue]
    rfl

theorem exists_resolves (doc : Document) (margins : Margins) :
  ∃ margins', Resolves doc margins margins'
  := by
  cases hof : ofSideKeys? doc with
  | some margins' =>
    obtain ⟨hside, htop, hright, hbottom, hleft⟩ := ofSideKeys?_eq_some_iff.mp hof
    exact ⟨margins', .sides hside htop hright hbottom hleft⟩
  | none =>
    have hside := ofSideKeys?_eq_none_iff.mp hof
    by_cases htext : ∃ text, doc.get? "margin" = some (.string text)
    · obtain ⟨text, htext⟩ := htext
      by_cases hwrites : ∃ other, Writes text other
      · obtain ⟨other, hwrites⟩ := hwrites
        exact ⟨other, .text hside htext hwrites⟩
      · exact ⟨margins, .noMargins hside htext (not_exists.mp hwrites)⟩
    · rw [not_exists] at htext
      cases hvalue : side? doc "margin" with
      | none => exact ⟨margins, .silence hside htext (side?_eq_none_iff.mp hvalue)⟩
      | some value => exact ⟨uniform value, .number hside (side?_eq_some_iff.mp hvalue)⟩

theorem update_eq_iff {doc : Document} {margins margins' : Margins} :
  update doc margins = margins' ↔ Resolves doc margins margins'
  := by
  constructor
  · rintro rfl
    obtain ⟨margins', h⟩ := exists_resolves doc margins
    rwa [h.update_eq]
  · exact Resolves.update_eq

/-- A document is complained about if its text decides and has a word that is at fault. -/
theorem ofDocument_eq_error_iff {doc : Document} {text : String} {error : NumeralError} :
  ofDocument doc = .error (text, error)
    ↔ GivesNoSide doc ∧ doc.get? "margin" = some (.string text) ∧ FirstFault text error
  := by
  constructor
  · intro h
    cases hof : ofSideKeys? doc with
    | some margins =>
      rw [ofDocument, hof] at h
      cases h
    | none =>
      have hside := ofSideKeys?_eq_none_iff.mp hof
      by_cases htext : ∃ text, doc.get? "margin" = some (.string text)
      · obtain ⟨text', htext⟩ := htext
        rw [ofDocument_of_text hside htext] at h
        cases herror : ofText text' with
        | ok margins? =>
          rw [herror] at h
          cases h
        | error error' =>
          rw [herror] at h
          cases h
          exact ⟨hside, htext, ofText_eq_error_iff.mp herror⟩
      · rw [ofDocument_of_no_text hside (not_exists.mp htext)] at h
        cases h
  · rintro ⟨hside, htext, hfault⟩
    rw [ofDocument_of_text hside htext, ofText_eq_error_iff.mpr hfault]
    rfl

theorem mem_marginWarnings_iff {doc : Document} {warning : Warning} :
  warning ∈ Settings.marginWarnings doc
    ↔ ∃ text error, ofDocument doc = .error (text, error) ∧ warning = .invalidMargins text error
  := by
  rw [Settings.marginWarnings]
  cases ofDocument doc with
  | ok margins? => simp
  | error fault =>
    obtain ⟨text, error⟩ := fault
    simp

theorem length_marginWarnings_le (doc : Document) :
  (Settings.marginWarnings doc).length ≤ 1
  := by
  rw [Settings.marginWarnings]
  split <;> simp

/-- The margins of a document are its sides, else what its text writes, else its number, else
the ones before.  The one complaint is about the first word of the text that is at fault, and
no word is cut within a character when it is read. -/
theorem resolved (doc : Document) (margins : Margins) :
  (∀ margins', update doc margins = margins' ↔ Resolves doc margins margins')
    ∧ (∀ warning, warning ∈ Settings.marginWarnings doc
      ↔ ∃ text error, (GivesNoSide doc ∧ doc.get? "margin" = some (.string text)
          ∧ FirstFault text error) ∧ warning = .invalidMargins text error)
    ∧ (Settings.marginWarnings doc).length ≤ 1
    ∧ ∀ word, Bytes.leadingInteger word
      = some (if word = [] then .error .empty else (leadingInteger word).mapError .numeral)
  := by
  refine ⟨fun margins' => update_eq_iff, ?_, length_marginWarnings_le doc,
    Bytes.leadingInteger_eq_some⟩
  intro warning
  simp only [mem_marginWarnings_iff, ofDocument_eq_error_iff]

end StatusBar.Margins

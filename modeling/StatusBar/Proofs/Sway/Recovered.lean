import StatusBar.Proofs.Document.Skipped
import StatusBar.Proofs.Document.Spelling
import StatusBar.Proofs.Sway.Written
import StatusBar.Sway.Payload

/-!
# Records are recovered

However a record is written, it is read back.  While its members are read, the fields given so
far are as in the record that is written, and the others as they were before.
-/

namespace StatusBar.Sway

open Document (Stops WritesString stops_cons writesString_stringChars)
open Grammar (Derives IsDigits IsNumeral IsStringBody)
open Reading (afterQuote afterQuote_eq_ok bind_eq_ok mapError_eq_ok)
open Relaxed (IsGap)
open Scan (skipSpace)

variable {rest gap text : List Char}

/-! ### Values of fields -/

theorem readText_eq_ok {value : String} (h : WritesString value text) (hgap : IsGap gap)
    (rest : List Char) :
  readText (gap ++ (text ++ rest)) = .ok (value, rest)
  := by
  obtain ⟨body, hbody, rfl⟩ := h
  have hskip : skipSpace ('"' :: (body ++ ['"']) ++ rest) = '"' :: (body ++ '"' :: rest) := by
    rw [List.cons_append, List.append_assoc]
    rfl
  rw [readText, hgap.skipSpace_append, hskip]
  exact Scan.string_of_writes hbody rest

theorem readBool_eq_ok {value : Bool} (h : WritesField (.bool value) text) (hgap : IsGap gap)
    (rest : List Char) :
  readBool (gap ++ (text ++ rest)) = .ok (value, rest)
  := by
  rw [readBool, hgap.skipSpace_append]
  cases h <;> rfl

/-- A string does not start with a closing bracket. -/
theorem skipSpace_of_string {value : String} (h : WritesString value text) (hgap : IsGap gap)
    (rest : List Char) :
  ∃ c left, skipSpace (gap ++ (text ++ rest)) = c :: left ∧ c ≠ ']' ∧ c ≠ '\x7d'
  := by
  obtain ⟨body, -, rfl⟩ := h
  rw [hgap.skipSpace_append]
  exact ⟨'"', _, rfl, by decide, by decide⟩

theorem readText_skipSpace (text : List Char) :
  readText (skipSpace text) = readText text
  := by
  rw [readText, readText, Document.skipSpace_skipSpace]

/-- The strings of an array are read one by one. -/
theorem readText_of_texts {values : List String} (h : WritesTexts values text)
    (rest : List Char) :
  ∃ value more left, values = value :: more
    ∧ (∃ c next, skipSpace (text ++ ']' :: rest) = c :: next ∧ c ≠ ']' ∧ c ≠ '\x7d')
    ∧ readText (skipSpace (text ++ ']' :: rest)) = .ok (value, left)
    ∧ left.length ≤ (text ++ ']' :: rest).length
    ∧ ∀ bound, left.length < bound → Reading.itemsWithin readText bound left = .ok (more, rest)
  := by
  induction h with
  | @last value before text after hbefore h hafter =>
    use value, [], after ++ ']' :: rest, rfl
    rw [List.append_assoc, List.append_assoc]
    use skipSpace_of_string h hbefore _
    rw [readText_skipSpace]
    use readText_eq_ok h hbefore _, by simp only [List.length_append, List.length_cons]; omega
    intro bound hbound
    obtain ⟨bound, rfl⟩ := Nat.exists_eq_add_of_lt hbound
    have hskip : skipSpace (after ++ ']' :: rest) = ']' :: rest := hafter.skipSpace_append _
    simp only [Reading.itemsWithin, hskip]
  | @more value values before text after more hbefore h hafter _ ih =>
    obtain ⟨next, others, left, rfl, hstarts, hnext, hleft, hothers⟩ := ih
    use value, next :: others, after ++ ',' :: (more ++ ']' :: rest), rfl
    rw [List.append_assoc, List.append_assoc, List.append_assoc]
    use skipSpace_of_string h hbefore _
    rw [readText_skipSpace]
    use readText_eq_ok h hbefore _, by simp only [List.length_append, List.length_cons]; omega
    intro bound hbound
    obtain ⟨bound, rfl⟩ := Nat.exists_eq_add_of_lt hbound
    have hskip : skipSpace (after ++ ',' :: (more ++ ']' :: rest)) = ',' :: (more ++ ']' :: rest) :=
      hafter.skipSpace_append _
    rw [Reading.itemsWithin_of_comma hskip hstarts]
    apply bind_eq_ok.mpr
    use (next, left), hnext
    apply bind_eq_ok.mpr
    have hless : left.length < (after ++ ',' :: (more ++ ']' :: rest)).length + bound := by
      simp only [List.length_append, List.length_cons] at hleft ⊢
      omega
    exact ⟨(others, rest), hothers _ hless, rfl⟩

theorem array_texts_injective :
  Function.Injective fun values : List String => Document.array (values.map .string)
  := by
  intro values values' h
  exact List.map_injective_iff.mpr (fun _ _ => Document.string.inj) (Document.array.inj h)

theorem readTexts_eq_ok {values : List String}
    (h : WritesField (.array (values.map .string)) text) (hgap : IsGap gap) (rest : List Char) :
  readTexts (gap ++ (text ++ rest)) = .ok (values, rest)
  := by
  generalize hdoc : Document.array (values.map .string) = doc at h
  cases h with
  | text | yes | no => cases hdoc
  | @none gap' hgap' =>
    have hvalues : values = [] := by simpa using hdoc
    have hskip : skipSpace (gap' ++ ']' :: rest) = ']' :: rest := hgap'.skipSpace_append _
    rw [hvalues, List.cons_append, List.append_assoc, readTexts, hgap.skipSpace_append]
    change Reading.items readText (gap' ++ ']' :: rest) = _
    simp only [Reading.items, hskip]
  | @texts values' text h =>
    have hvalues : values = values' := array_texts_injective hdoc
    obtain ⟨value, more, left, rfl, hstarts, hvalue, -, hmore⟩ := readText_of_texts h rest
    rw [hvalues, List.cons_append, List.append_assoc, readTexts, hgap.skipSpace_append]
    change Reading.items readText (text ++ ']' :: rest) = _
    rw [Reading.items_of_item hstarts]
    apply bind_eq_ok.mpr
    use (value, left), hvalue
    apply bind_eq_ok.mpr
    use (more, rest), hmore _ (by omega)
    rfl

/-! ### Fields -/

section Record

variable {α : Type} {document : α → Document}

/-- A field carries a member of the records: its value is read from any text that writes it, and
nothing else in the record changes. -/
structure Field.Carries (document : α → Document) (field : Field α)
    (member : String × Document) : Prop where
  name : field.name = member.1
  read : ∀ (record : α) (gap text rest : List Char), IsGap gap → WritesField member.2 text →
    ∃ record', field.read record (gap ++ (text ++ rest)) = .ok (record', rest)
      ∧ ∀ name, (document record').get? name
        = if name = member.1 then some member.2 else (document record).get? name
  chars : WritesField member.2 member.2.chars

/-- A schema carries records as documents: each of its fields carries a member, and the members
make up the record. -/
structure Schema.Carries (schema : Schema α) (document : α → Document) : Prop where
  distinct : (schema.fields.map Field.name).Nodup
  members : ∀ record, ∃ members, document record = .object members
    ∧ List.Forall₂ (Field.Carries document) schema.fields members
  ext : ∀ record record',
    (∀ name, (document record).get? name = (document record').get? name) → record = record'

/-- Something gives the member `name` of a record this value, and changes nothing else. -/
def Sets (document : α → Document) (name : String) (value : Document) (set : α → α) : Prop :=
  ∀ record, ∃ members : Members, document record = .object members
    ∧ document (set record) = .object (members.insert name value)

/-- A field is found by its name just if the member is that it carries. -/
theorem find?_rel {fields : List (Field α)} {members : Members}
    (h : List.Forall₂ (Field.Carries document) fields members) (name : String) :
  Option.Rel (fun field value => field.Carries document (name, value))
    (fields.find? fun field => field.name = name) (members.lookup name)
  := by
  induction h with
  | nil => exact .none
  | @cons field member fields members hfield _ ih =>
    obtain ⟨name', value⟩ := member
    have hname : field.name = name' := hfield.name
    rw [List.find?_cons, Members.lookup_cons]
    by_cases heq : name = name'
    · subst heq
      rw [decide_eq_true hname, if_pos rfl]
      exact .some hfield
    · rw [decide_eq_false (hname ▸ Ne.symm heq), if_neg heq]
      exact ih

namespace Schema.Carries

variable {schema : Schema α} (h : schema.Carries document)

include h

theorem find?_rel (record : α) (name : String) :
  Option.Rel (fun field value => field.Carries document (name, value))
    (schema.fields.find? fun field => field.name = name) ((document record).get? name)
  := by
  obtain ⟨members, hrecord, hfields⟩ := h.members record
  rw [hrecord]
  exact Sway.find?_rel hfields name

variable {record : α} {name : String}

theorem find?_of_some {value : Document} (hvalue : (document record).get? name = some value) :
  ∃ field, (schema.fields.find? fun field => field.name = name) = some field
    ∧ field.Carries document (name, value)
  := by
  have hrel := h.find?_rel record name
  rw [hvalue] at hrel
  generalize (schema.fields.find? fun field => field.name = name) = field? at hrel ⊢
  cases hrel with
  | some hfield => exact ⟨_, rfl, hfield⟩

theorem find?_of_none (hunknown : (document record).get? name = none) :
  (schema.fields.find? fun field => field.name = name) = none
  := by
  have hrel := h.find?_rel record name
  rw [hunknown] at hrel
  generalize (schema.fields.find? fun field => field.name = name) = field? at hrel ⊢
  cases hrel
  rfl

end Schema.Carries

section OfRead

variable {β : Type} {name : String} {readValue : List Char → Except Failure (Parsed β)}
  {set : β → α → α}

/-- A field carries its values if setting one changes nothing else. -/
theorem Field.carries_ofRead {value : β} {doc : Document}
    (hread : ∀ gap text rest, IsGap gap → WritesField doc text →
      readValue (gap ++ (text ++ rest)) = .ok (value, rest))
    (hchars : WritesField doc doc.chars)
    (hset : Sets document name doc (set value)) :
  (Field.ofRead name readValue set).Carries document (name, doc)
  := by
  constructor
  case name => rfl
  case chars => exact hchars
  case read =>
    intro record gap text rest hgap htext
    use set value record
    constructor
    · apply bind_eq_ok.mpr
      use (value, rest), hread gap text rest hgap htext
      rfl
    · intro name'
      obtain ⟨members, hrecord, hset⟩ := hset record
      rw [hset, hrecord]
      exact Members.lookup_insert members name doc name'

end OfRead

theorem Field.carries_text {name : String} {set : String → α → α} (value : String)
    (hset : Sets document name (.string value) (set value)) :
  (Field.ofRead name readText set).Carries document (name, .string value)
  := by
  apply Field.carries_ofRead _ (.text (writesString_stringChars value)) hset
  intro gap text rest hgap htext
  cases htext with
  | text h => exact readText_eq_ok h hgap rest

theorem Field.carries_bool {name : String} {set : Bool → α → α} (value : Bool)
    (hset : Sets document name (.bool value) (set value)) :
  (Field.ofRead name readBool set).Carries document (name, .bool value)
  := by
  have hchars : WritesField (.bool value) (Document.bool value).chars := by
    cases value
    · exact .no
    · exact .yes
  apply Field.carries_ofRead _ hchars hset
  intro gap text rest hgap htext
  exact readBool_eq_ok htext hgap rest

theorem Field.carries_texts {name : String} {set : List String → α → α} (values : List String)
    (hset : Sets document name (.array (values.map .string)) (set values)) :
  (Field.ofRead name readTexts set).Carries document (name, .array (values.map .string))
  := by
  apply Field.carries_ofRead _ (writesField_texts values) hset
  intro gap text rest hgap htext
  exact readTexts_eq_ok htext hgap rest

/-! ### Members -/

/-- The fields that are given are as in the one record, the others as in the other. -/
def Partly (document : α → Document) (goal initial : α) (given : List String) (record : α) :
    Prop :=
  ∀ name, (document record).get? name
    = if name ∈ given then (document goal).get? name else (document initial).get? name

variable {schema : Schema α} {goal initial record : α} {seen given : List String}

theorem Partly.give (hrecord : Partly document goal initial seen record) {record' : α}
    {name : String} {value : Document} (hvalue : (document goal).get? name = some value)
    (hset : ∀ name', (document record').get? name'
      = if name' = name then some value else (document record).get? name') :
  Partly document goal initial (name :: seen) record'
  := by
  intro name'
  rw [hset, hrecord]
  by_cases hname : name' = name
  · rw [if_pos hname, if_pos (hname ▸ List.mem_cons_self), hname, hvalue]
  · have hmem : name' ∈ name :: seen ↔ name' ∈ seen := by simp [hname]
    rw [if_neg hname]
    simp only [hmem]

/-- The name of a member is read first. -/
theorem afterQuote_of_string {β : Type} {name : String} {before label : List Char}
    (hbefore : IsGap before) (hname : WritesString name label)
    (f : List Char → Except Failure (Parsed β)) (rest : List Char) :
  ∃ left, afterQuote f (before ++ (label ++ rest)) = f left ∧ Scan.string left = .ok (name, rest)
  := by
  obtain ⟨body, hbody, rfl⟩ := hname
  use body ++ '"' :: rest
  constructor
  · rw [afterQuote, hbefore.skipSpace_append, List.cons_append, List.append_assoc]
    rfl
  · exact Scan.string_of_writes hbody rest

theorem colon_eq_ok (hgap : IsGap gap) (rest : List Char) :
  Reading.colon (gap ++ ':' :: rest) = .ok rest
  := by
  have hskip : skipSpace (gap ++ ':' :: rest) = ':' :: rest := hgap.skipSpace_append _
  simp only [Reading.colon, hskip]

/-- A member of another name is passed over. -/
theorem readMember_of_unknown {fields : List (Field α)} {name : String}
    (hfind : (fields.find? fun field => field.name = name) = none) (hgap : IsGap gap)
    (htext : Derives .element text) (hrest : Stops rest) (state : α × List String)
    {left : List Char} (hname : Scan.string left = .ok (name, gap ++ ':' :: (text ++ rest))) :
  ∃ behind, IsGap behind ∧ behind.length ≤ text.length
    ∧ readMember fields state left = .ok (state, behind ++ rest)
  := by
  cases htext with
  | @element before text behind hbefore htext hbehind =>
    use behind, hbehind, by simp only [List.length_append]; omega
    apply bind_eq_ok.mpr
    use (name, gap ++ ':' :: (before ++ (text ++ behind) ++ rest)), hname
    simp only [hfind]
    apply bind_eq_ok.mpr
    use before ++ (text ++ behind) ++ rest, colon_eq_ok hgap _
    apply bind_eq_ok.mpr
    use behind ++ rest
    constructor
    · simpa using Skip.value_eq_ok htext hbefore (hbehind.stops_append hrest)
    · rfl

/-- A field that is not given yet is read. -/
theorem readMember_of_field {fields : List (Field α)} {field : Field α} {name : String}
    (hfind : (fields.find? fun field => field.name = name) = some field) (hseen : name ∉ seen)
    (hgap : IsGap gap) {record' : α} {value left : List Char}
    (hname : Scan.string left = .ok (name, gap ++ ':' :: value))
    (hread : field.read record value = .ok (record', rest)) :
  readMember fields (record, seen) left = .ok ((record', name :: seen), rest)
  := by
  apply bind_eq_ok.mpr
  use (name, gap ++ ':' :: value), hname
  have hcontains : seen.contains name = false := by simpa using hseen
  simp only [hfind, hcontains]
  apply bind_eq_ok.mpr
  use value, colon_eq_ok hgap _
  apply bind_eq_ok.mpr
  use (record', rest), hread
  rfl

/-- A member is read, and its field, if it is one, is given from then on. -/
theorem Schema.Carries.readMember (h : schema.Carries document) {field? : Option String}
    (htext : WritesMember (document goal) field? text)
    (hrecord : Partly document goal initial seen record) (hfield : ∀ name ∈ field?, name ∉ seen)
    (rest : List Char) (hrest : Stops rest) :
  ∃ record' behind, IsGap behind ∧ behind.length ≤ text.length
    ∧ afterQuote (Sway.readMember schema.fields (record, seen)) (text ++ rest)
      = .ok ((record', field?.toList ++ seen), behind ++ rest)
    ∧ Partly document goal initial (field?.toList ++ seen) record'
  := by
  cases htext with
  | @field name value before label after gap text behind hvalue hbefore hname hafter hgap htext
      hbehind =>
    obtain ⟨field, hfind, hcarries⟩ := h.find?_of_some hvalue
    obtain ⟨record', hread, hrecord'⟩ := hcarries.read record gap text (behind ++ rest) hgap htext
    use record', behind, hbehind, by simp only [List.length_append, List.length_cons]; omega
    constructor
    · obtain ⟨left, hleft, hstring⟩ := afterQuote_of_string hbefore hname
        (Sway.readMember schema.fields (record, seen))
        (after ++ ':' :: (gap ++ (text ++ (behind ++ rest))))
      have hmember := readMember_of_field hfind (hfield name rfl) hafter hstring hread
      simpa using hleft.trans hmember
    · exact hrecord.give hvalue hrecord'
  | @unknown name before label after text hunknown hbefore hname hafter htext =>
    obtain ⟨left, hleft, hstring⟩ := afterQuote_of_string hbefore hname
      (Sway.readMember schema.fields (record, seen)) (after ++ ':' :: (text ++ rest))
    obtain ⟨behind, hbehind, hlength, hmember⟩ := readMember_of_unknown (h.find?_of_none hunknown)
      hafter htext hrest (record, seen) hstring
    use record, behind, hbehind, by simp only [List.length_append, List.length_cons]; omega
    constructor
    · simpa using hleft.trans hmember
    · exact hrecord

/-- Members are read one by one. -/
theorem Schema.Carries.readMembers (h : schema.Carries document)
    (htext : WritesMembers (document goal) given text)
    (hrecord : Partly document goal initial seen record) (hgiven : (given ++ seen).Nodup)
    (rest : List Char) :
  ∃ state left record' seen',
    afterQuote (Sway.readMember schema.fields (record, seen)) (text ++ '\x7d' :: rest)
      = .ok (state, left)
    ∧ left.length ≤ (text ++ '\x7d' :: rest).length
    ∧ (∀ bound, left.length < bound →
        Reading.membersWithin (Sway.readMember schema.fields) bound state left
          = .ok ((record', seen'), rest))
    ∧ Partly document goal initial seen' record' ∧ ∀ name, name ∈ seen' ↔ name ∈ given ++ seen
  := by
  induction htext generalizing record seen with
  | @last field? text htext =>
    have hfield : ∀ name ∈ field?, name ∉ seen := by
      intro name hname
      exact List.disjoint_of_nodup_append hgiven (Option.mem_toList.mpr hname)
    obtain ⟨record', behind, hbehind, hlength, hmember, hrecord'⟩ :=
      h.readMember htext hrecord hfield ('\x7d' :: rest) (stops_cons.mpr rfl)
    use (record', field?.toList ++ seen), behind ++ '\x7d' :: rest, record', field?.toList ++ seen,
      hmember, by simp only [List.length_append, List.length_cons]; omega
    constructor
    · intro bound hbound
      obtain ⟨bound, rfl⟩ := Nat.exists_eq_add_of_lt hbound
      have hskip : skipSpace (behind ++ '\x7d' :: rest) = '\x7d' :: rest :=
        hbehind.skipSpace_append _
      simp only [Reading.membersWithin, hskip]
    · exact ⟨hrecord', fun _ => Iff.rfl⟩
  | @more field? given text more htext _ ih =>
    have hperm : (field?.toList ++ given ++ seen).Perm (given ++ (field?.toList ++ seen)) := by
      rw [List.append_assoc]
      apply List.perm_append_comm_assoc
    have hfield : ∀ name ∈ field?, name ∉ seen := by
      intro name hname
      apply List.disjoint_of_nodup_append hgiven
      exact List.mem_append_left given (Option.mem_toList.mpr hname)
    obtain ⟨record', behind, hbehind, hlength, hmember, hrecord'⟩ :=
      h.readMember htext hrecord hfield (',' :: (more ++ '\x7d' :: rest)) (stops_cons.mpr rfl)
    obtain ⟨state, left, record'', seen', hnext, hleft, hmore, hrecord'', hseen⟩ :=
      ih hrecord' (hperm.nodup_iff.mp hgiven)
    use (record', field?.toList ++ seen), behind ++ ',' :: (more ++ '\x7d' :: rest), record'', seen'
    rw [List.append_assoc, List.cons_append]
    use hmember, by simp only [List.length_append, List.length_cons]; omega
    constructor
    · intro bound hbound
      obtain ⟨bound, rfl⟩ := Nat.exists_eq_add_of_lt hbound
      obtain ⟨quoted, hquote, hentry⟩ := afterQuote_eq_ok.mp hnext
      have hskip : skipSpace (behind ++ ',' :: (more ++ '\x7d' :: rest))
          = ',' :: (more ++ '\x7d' :: rest) := hbehind.skipSpace_append _
      simp only [Reading.membersWithin, hskip, hquote]
      apply bind_eq_ok.mpr
      use (state, left), hentry
      apply hmore
      simp only [List.length_append, List.length_cons] at hleft ⊢
      omega
    · use hrecord''
      intro name
      rw [hseen, hperm.mem_iff]

/-! ### Records -/

/-- What is between the braces of a record is read. -/
theorem Schema.Carries.readBody (h : schema.Carries document)
    (htext : WritesBody (document goal) given text) (hgiven : given.Nodup) (rest : List Char) :
  ∃ record seen,
    Reading.members (Sway.readMember schema.fields) (initial, []) (text ++ '\x7d' :: rest)
      = .ok ((record, seen), rest)
    ∧ Partly document goal initial seen record ∧ ∀ name, name ∈ seen ↔ name ∈ given
  := by
  have hinitial : Partly document goal initial [] initial := by
    intro name
    rw [if_neg (List.not_mem_nil)]
  cases htext with
  | empty hgap =>
    use initial, []
    constructor
    · have hskip : skipSpace (text ++ '\x7d' :: rest) = '\x7d' :: rest := hgap.skipSpace_append _
      simp only [Reading.members, hskip]
    · exact ⟨hinitial, fun _ => Iff.rfl⟩
  | members htext =>
    obtain ⟨state, left, record, seen, hfirst, -, hmore, hrecord, hseen⟩ :=
      h.readMembers htext hinitial (by rwa [List.append_nil]) rest
    use record, seen
    constructor
    · obtain ⟨quoted, hquote, hentry⟩ := afterQuote_eq_ok.mp hfirst
      simp only [Reading.members, hquote]
      apply bind_eq_ok.mpr
      use (state, left), hentry
      exact hmore _ (Nat.lt_succ_self _)
    · use hrecord
      intro name
      rw [hseen, List.append_nil]

/-- Once all fields are given that are not as they were, the record is the one that is written. -/
theorem Schema.Carries.eq_of_partly (h : schema.Carries document)
    (hrecord : Partly document goal initial seen record)
    (homitted : ∀ name ∉ seen, (document goal).get? name = (document initial).get? name) :
  record = goal
  := by
  apply h.ext
  intro name
  rw [hrecord]
  by_cases hname : name ∈ seen
  · rw [if_pos hname]
  · rw [if_neg hname, homitted name hname]

theorem Schema.Carries.readValue (h : schema.Carries document) {before : List Char}
    (hbefore : IsGap before) (htext : WritesBody (document goal) given text)
    (hgiven : given.Nodup)
    (homitted : ∀ name ∉ given, (document goal).get? name = (document schema.initial).get? name)
    (rest : List Char) :
  schema.readValue (before ++ '\x7b' :: (text ++ '\x7d' :: rest)) = .ok (goal, rest)
  := by
  obtain ⟨record, seen, hmembers, hrecord, hseen⟩ := h.readBody htext hgiven rest
  have hgoal : record = goal := by
    apply h.eq_of_partly hrecord
    intro name hname
    exact homitted name (mt (hseen name).mpr hname)
  have hskip : skipSpace (before ++ '\x7b' :: (text ++ '\x7d' :: rest))
      = '\x7b' :: (text ++ '\x7d' :: rest) := hbefore.skipSpace_append _
  rw [Schema.readValue, hskip]
  apply bind_eq_ok.mpr
  use ((record, seen), rest), hmembers
  rw [hgoal]
  rfl

/-- However a record is written, it is read back. -/
theorem Schema.Carries.readPayload (h : schema.Carries document) {payload : String}
    (hpayload : WritesRecord (document goal) (document schema.initial) payload.toList) :
  schema.readPayload payload = .ok goal
  := by
  rw [Schema.readPayload, mapError_eq_ok, Schema.read, mapError_eq_ok]
  generalize payload.toList = chars at hpayload
  cases hpayload with
  | @object given before text after hbefore htext hafter hgiven homitted =>
    apply bind_eq_ok.mpr
    use (goal, after), h.readValue hbefore htext hgiven homitted after
    have hskip : skipSpace after = [] := by
      rw [← List.append_nil after, hafter.skipSpace_append]
      rfl
    simp only [hskip]
    rfl

/-- Members of a record have the names of the fields, and may be written without spaces. -/
theorem names_of_carries {fields : List (Field α)} {members : Members}
    (h : List.Forall₂ (Field.Carries document) fields members) :
  members.map Prod.fst = fields.map Field.name
    ∧ ∀ member ∈ members, WritesField member.2 member.2.chars
  := by
  induction h with
  | nil => simp
  | cons hfield _ ih =>
    obtain ⟨hnames, hchars⟩ := ih
    rw [List.map_cons, List.map_cons, hfield.name, hnames]
    exact ⟨rfl, List.forall_mem_cons.mpr ⟨hfield.chars, hchars⟩⟩

/-- A record is written by its document without spaces. -/
theorem Schema.Carries.writesRecord (h : schema.Carries document) (record : α) :
  WritesRecord (document record) (document schema.initial) (document record).compact.toList
  := by
  obtain ⟨members, hrecord, hfields⟩ := h.members record
  obtain ⟨defaults, hinitial, hdefaults⟩ := h.members schema.initial
  obtain ⟨hnames, hchars⟩ := names_of_carries hfields
  rw [hrecord, hinitial]
  apply writesRecord_compact _ _ hchars
  · rw [Members.Distinct, hnames]
    exact h.distinct
  · rw [hnames, (names_of_carries hdefaults).left]

end Record

/-! ### The messages -/

theorem BarConfig.carries :
  BarConfig.schema.Carries BarConfig.document
  := by
  constructor
  case distinct => decide
  case members =>
    intro config
    refine ⟨_, rfl, ?_⟩
    apply List.Forall₂.cons (Field.carries_text config.id fun _ => ⟨_, rfl, rfl⟩)
    apply List.Forall₂.cons (Field.carries_text config.mode fun _ => ⟨_, rfl, rfl⟩)
    apply List.Forall₂.cons (Field.carries_text config.hiddenState fun _ => ⟨_, rfl, rfl⟩)
    apply List.Forall₂.cons (Field.carries_text config.position fun _ => ⟨_, rfl, rfl⟩)
    apply List.Forall₂.cons (Field.carries_texts config.outputs fun _ => ⟨_, rfl, rfl⟩)
    exact .nil
  case ext =>
    rintro ⟨id, mode, hiddenState, position, outputs⟩
      ⟨id', mode', hiddenState', position', outputs'⟩ h
    cases h "id"
    cases h "mode"
    cases h "hidden_state"
    cases h "position"
    obtain rfl : outputs = outputs' := array_texts_injective (Option.some.inj (h "outputs"))
    rfl

theorem BarStateUpdate.carries :
  BarStateUpdate.schema.Carries BarStateUpdate.document
  := by
  constructor
  case distinct => decide
  case members =>
    intro update
    refine ⟨_, rfl, ?_⟩
    apply List.Forall₂.cons (Field.carries_text update.id fun _ => ⟨_, rfl, rfl⟩)
    apply List.Forall₂.cons (Field.carries_bool update.visibleByModifier fun _ => ⟨_, rfl, rfl⟩)
    exact .nil
  case ext =>
    rintro ⟨id, visibleByModifier⟩ ⟨id', visibleByModifier'⟩ h
    cases h "id"
    cases h "visible_by_modifier"
    rfl

theorem ModeChange.carries :
  ModeChange.schema.Carries ModeChange.document
  := by
  constructor
  case distinct => decide
  case members =>
    intro change
    refine ⟨_, rfl, ?_⟩
    apply List.Forall₂.cons (Field.carries_text change.change fun _ => ⟨_, rfl, rfl⟩)
    exact .nil
  case ext =>
    rintro ⟨change⟩ ⟨change'⟩ h
    cases h "change"
    rfl

/-- A record is read back from its document without spaces, and from any text that writes it. -/
def Schema.Recovers {α : Type} (schema : Schema α) (document : α → Document) : Prop :=
  ∀ record, schema.readPayload (document record).compact = .ok record
    ∧ ∀ payload : String,
      WritesRecord (document record) (document schema.initial) payload.toList →
        schema.readPayload payload = .ok record

theorem Schema.Carries.recovers {α : Type} {schema : Schema α} {document : α → Document}
    (h : schema.Carries document) :
  schema.Recovers document
  := by
  intro record
  constructor
  · exact h.readPayload (h.writesRecord record)
  · intro payload hpayload
    exact h.readPayload hpayload

/-- The messages of the compositor are recovered, however they are written. -/
theorem messages_recovered :
  BarConfig.schema.Recovers BarConfig.document
    ∧ BarStateUpdate.schema.Recovers BarStateUpdate.document
    ∧ ModeChange.schema.Recovers ModeChange.document
  := ⟨BarConfig.carries.recovers, BarStateUpdate.carries.recovers, ModeChange.carries.recovers⟩

/-- A configuration of which most fields are as they would be anyway. -/
def sparseConfig : BarConfig :=
  { id := "😀", mode := "hide" }

/-- The configuration without the fields that may be left out, in another order, and after a
member of another name. -/
def sparsePayload : String :=
  "\x7b\"x\":[1e999,\"\\uD800\"],\"mode\" : \"hide\",\"\\u0069d\":\"\\uD83D\\uDE00\" \x7d"

theorem writesRecord_sparse :
  WritesRecord sparseConfig.document BarConfig.schema.initial.document sparsePayload.toList
  := by
  have hspace : IsGap [' '] := Relaxed.isGap_singleton rfl
  have hdigits : IsDigits ['9', '9', '9'] := by
    use List.cons_ne_nil _ _
    intro c hc
    obtain rfl : c = '9' := by simpa using hc
    decide
  have hlarge : IsNumeral (['1'] ++ ([] ++ 'e' :: ([] ++ ['9', '9', '9']))) :=
    .parts (.digits (by decide) (by simp)) .none (.digits (.inl rfl) (.inl rfl) hdigits)
  have hlone : IsStringBody ['\\', 'u', 'D', '8', '0', '0'] := .unicode rfl .nil
  have hvalue := Derives.array (.moreElements (.element isGap_nil (.numeral hlarge) isGap_nil)
    (.lastElement (.element isGap_nil (.string hlone) isGap_nil)))
  have hx := WritesMember.unknown (show sparseConfig.document.get? "x" = none from rfl) isGap_nil
    (writesString_stringChars "x") isGap_nil (.element isGap_nil hvalue isGap_nil)
  have hmode := WritesMember.field
    (show sparseConfig.document.get? "mode" = some (.string "hide") from rfl) isGap_nil
    (writesString_stringChars "mode") hspace hspace (.text (writesString_stringChars "hide"))
    isGap_nil
  have hname : WritesString "id" ['"', '\\', 'u', '0', '0', '6', '9', 'd', '"'] :=
    ⟨_, .cons (.unicode rfl) (.cons (.plain (by decide) (by decide) rfl) .nil), rfl⟩
  have hface : WritesString "😀"
      ['"', '\\', 'u', 'D', '8', '3', 'D', '\\', 'u', 'D', 'E', '0', '0', '"'] :=
    ⟨_, .cons (.pair (by decide) rfl rfl) .nil, rfl⟩
  have hid := WritesMember.field
    (show sparseConfig.document.get? "id" = some (.string "😀") from rfl) isGap_nil hname isGap_nil
    isGap_nil (.text hface) hspace
  have hbody := WritesBody.members (.more hx (.more hmode (.last hid)))
  apply WritesRecord.object isGap_nil hbody isGap_nil (by decide)
  intro name hgiven
  have hnotMode : name ≠ "mode" := by
    rintro rfl
    exact hgiven (by decide)
  have hnotId : name ≠ "id" := by
    rintro rfl
    exact hgiven (by decide)
  simp [sparseConfig, BarConfig.document, BarConfig.schema, Document.get?, Members.lookup_cons,
    hnotMode, hnotId]

/-- The configuration is recovered. -/
theorem messages_recovered_sparse :
  BarConfig.schema.readPayload sparsePayload = .ok sparseConfig
  := (messages_recovered.1 sparseConfig).2 sparsePayload writesRecord_sparse

end StatusBar.Sway

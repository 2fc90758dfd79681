import StatusBar.Proofs.Document.Grammar
import StatusBar.Proofs.Document.Members
import StatusBar.Proofs.Document.Written

/-!
# Records as they may be written

A record may be written in many ways: its fields in any order, those that are as they would be
anyway left out, members of other names among them, spaces around everything, and strings with
whatever escapes.  Without spaces and all in order is one of these ways.
-/

namespace StatusBar.Sway

open Document (WritesString writesString_stringChars)
open Grammar (Derives)
open Relaxed (IsGap)

/-- These characters write strings, with commas between them. -/
inductive WritesTexts : List String → List Char → Prop where
  | last {value : String} {before text after : List Char} (hbefore : IsGap before)
      (h : WritesString value text) (hafter : IsGap after) :
      WritesTexts [value] (before ++ (text ++ after))
  | more {value : String} {values : List String} {before text after more : List Char}
      (hbefore : IsGap before) (h : WritesString value text) (hafter : IsGap after)
      (hmore : WritesTexts values more) :
      WritesTexts (value :: values) (before ++ (text ++ (after ++ ',' :: more)))

/-- These characters write the value of a field. -/
inductive WritesField : Document → List Char → Prop where
  | text {value : String} {text : List Char} (h : WritesString value text) :
      WritesField (.string value) text
  | yes : WritesField (.bool true) ['t', 'r', 'u', 'e']
  | no : WritesField (.bool false) ['f', 'a', 'l', 's', 'e']
  | none {gap : List Char} (hgap : IsGap gap) : WritesField (.array []) ('[' :: (gap ++ [']']))
  | texts {values : List String} {text : List Char} (h : WritesTexts values text) :
      WritesField (.array (values.map .string)) ('[' :: (text ++ [']']))

/-- These characters write a member of a record: one of its fields, whose name is given, or a
member of another name with any value at all. -/
inductive WritesMember (record : Document) : (field? : Option String) → List Char → Prop where
  | field {name : String} {value : Document} {before label after gap text behind : List Char}
      (hvalue : record.get? name = some value) (hbefore : IsGap before)
      (hname : WritesString name label) (hafter : IsGap after) (hgap : IsGap gap)
      (h : WritesField value text) (hbehind : IsGap behind) :
      WritesMember record (some name)
        (before ++ (label ++ (after ++ ':' :: (gap ++ (text ++ behind)))))
  | unknown {name : String} {before label after text : List Char}
      (hunknown : record.get? name = none) (hbefore : IsGap before)
      (hname : WritesString name label) (hafter : IsGap after) (h : Derives .element text) :
      WritesMember record none (before ++ (label ++ (after ++ ':' :: text)))

/-- These characters write members of a record, with commas between them.  The names of the
fields among them are given in order. -/
inductive WritesMembers (record : Document) : (given : List String) → List Char → Prop where
  | last {field? : Option String} {text : List Char} (h : WritesMember record field? text) :
      WritesMembers record field?.toList text
  | more {field? : Option String} {given : List String} {text more : List Char}
      (h : WritesMember record field? text) (hmore : WritesMembers record given more) :
      WritesMembers record (field?.toList ++ given) (text ++ ',' :: more)

/-- These characters write a record within its braces. -/
inductive WritesBody (record : Document) : (given : List String) → List Char → Prop where
  | empty {gap : List Char} (hgap : IsGap gap) : WritesBody record [] gap
  | members {given : List String} {text : List Char} (h : WritesMembers record given text) :
      WritesBody record given text

/-- These characters write a record.  No field is given twice, and those that are not given are
as in the record of defaults. -/
inductive WritesRecord (record defaults : Document) : List Char → Prop where
  | object {given : List String} {before text after : List Char} (hbefore : IsGap before)
      (h : WritesBody record given text) (hafter : IsGap after) (hgiven : given.Nodup)
      (homitted : ∀ name ∉ given, record.get? name = defaults.get? name) :
      WritesRecord record defaults (before ++ '\x7b' :: (text ++ '\x7d' :: after))

/-! ### Without spaces -/

theorem isGap_nil :
  IsGap []
  := by
  rintro c ⟨⟩

/-- The strings of an array without spaces. -/
theorem writesTexts_chars (value : String) (values : List String) :
  WritesTexts (value :: values)
    (Document.stringChars value ++ Document.itemChars (values.map .string))
  := by
  induction values generalizing value with
  | nil => exact .last isGap_nil (writesString_stringChars value) isGap_nil
  | cons next values ih =>
    exact .more isGap_nil (writesString_stringChars value) isGap_nil (ih next)

theorem writesField_texts (values : List String) :
  WritesField (.array (values.map .string)) (Document.array (values.map .string)).chars
  := by
  cases values with
  | nil => exact .none isGap_nil
  | cons value values => exact .texts (writesTexts_chars value values)

variable {record : Document}

theorem writesMember_chars {name : String} {value : Document}
    (hvalue : record.get? name = some value) (h : WritesField value value.chars) :
  WritesMember record (some name) (Document.stringChars name ++ ':' :: value.chars)
  := by
  have hmember := WritesMember.field hvalue isGap_nil (writesString_stringChars name) isGap_nil
    isGap_nil h isGap_nil
  rwa [List.append_nil] at hmember

/-- Members of a record without spaces. -/
theorem writesMembers_chars {member : String × Document} {members : Members}
    (h : ∀ member' ∈ member :: members, record.get? member'.1 = some member'.2
      ∧ WritesField member'.2 member'.2.chars) :
  WritesMembers record ((member :: members).map Prod.fst)
    (Document.stringChars member.1 ++ ':' :: member.2.chars ++ Document.memberChars members)
  := by
  induction members generalizing member with
  | nil =>
    obtain ⟨hvalue, hchars⟩ := h member List.mem_cons_self
    rw [Document.memberChars, List.append_nil]
    exact .last (writesMember_chars hvalue hchars)
  | cons next members ih =>
    obtain ⟨⟨hvalue, hchars⟩, h⟩ := List.forall_mem_cons.mp h
    exact .more (writesMember_chars hvalue hchars) (ih h)

/-- A record is written if it is written without spaces, with all its fields in order. -/
theorem writesRecord_compact {record defaults : Members} (hdistinct : record.Distinct)
    (hnames : defaults.map Prod.fst = record.map Prod.fst)
    (hfields : ∀ member ∈ record, WritesField member.2 member.2.chars) :
  WritesRecord (.object record) (.object defaults) (Document.object record).compact.toList
  := by
  have hbody : ∃ text, (Document.object record).chars = '\x7b' :: (text ++ ['\x7d'])
      ∧ WritesBody (.object record) (record.map Prod.fst) text := by
    cases record with
    | nil => exact ⟨[], rfl, .empty isGap_nil⟩
    | cons member members =>
      use Document.stringChars member.1 ++ ':' :: member.2.chars ++ Document.memberChars members,
        rfl
      apply WritesBody.members
      apply writesMembers_chars
      intro member' hmember'
      exact ⟨(hdistinct.lookup_eq_some_iff _ _).mpr hmember', hfields member' hmember'⟩
  obtain ⟨text, hchars, hbody⟩ := hbody
  rw [Document.compact, String.toList_ofList, hchars]
  apply WritesRecord.object isGap_nil hbody isGap_nil hdistinct
  intro name hname
  have hrecord := (record.lookup_eq_none_iff name).mpr hname
  have hdefaults := (defaults.lookup_eq_none_iff name).mpr (hnames ▸ hname)
  exact hrecord.trans hdefaults.symm

end StatusBar.Sway

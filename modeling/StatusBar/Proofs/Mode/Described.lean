import StatusBar.Proofs.Mode.Merged
import StatusBar.Proofs.Mode.Presets

/-!
# Who describes a mode

A mode of a document is described by the document itself, if it is the default mode, then by the
member that goes by its name among the document's modes, and last by the preset of its name.
Each of its fields is what the foremost of these says that says something about the field.
-/

namespace StatusBar

/-! ### The foremost that says something -/

/-- What the foremost of some nodes says that says something, and `default` if none does. -/
inductive Foremost {α : Type} (supplies : Document → α → Prop) (default : α) :
    List Document → α → Prop
  | silence : Foremost supplies default [] default
  | here {node : Document} {nodes : List Document} {value : α} (hsupplies : supplies node value) :
    Foremost supplies default (node :: nodes) value
  | further {node : Document} {nodes : List Document} {value : α}
    (hsilent : ∀ value, ¬ supplies node value) (hnodes : Foremost supplies default nodes value) :
    Foremost supplies default (node :: nodes) value

section

variable {α : Type} {supplies : Document → α → Prop} {default value : α} {node : Document}
  {nodes : List Document}

/-- A node that is read overrides what follows it, and one that is not leaves it. -/
theorem Foremost.getD {read? : Option α} (hread : ∀ value, supplies node value ↔ read? = some value)
    (h : Foremost supplies default nodes value) :
  Foremost supplies default (node :: nodes) (read?.getD value)
  := by
  cases read? with
  | none =>
    apply Foremost.further _ h
    intro value hsupplies
    cases (hread value).mp hsupplies
  | some value =>
    apply Foremost.here
    apply (hread value).mpr rfl

/-- A value that no node supplies is the default, where none supplies any. -/
theorem Foremost.of_not_supplied (h : Foremost supplies default nodes value)
    (hvalue : ∀ node, ¬ supplies node value) :
  value = default ∧ ∀ node ∈ nodes, ∀ value, ¬ supplies node value
  := by
  induction h with
  | silence => exact ⟨rfl, List.forall_mem_nil _⟩
  | here hsupplies => cases hvalue _ hsupplies
  | further hsilent _ ih =>
    obtain ⟨hdefault, hnodes⟩ := ih hvalue
    use hdefault
    rw [List.forall_mem_cons]
    use hsilent

end

namespace Mode

/-- A node says that a flag is set or not. -/
def SuppliesFlag (key : String) (node : Document) (value : Bool) : Prop :=
  node.get? key = some (.bool value)

/-- A node names a layer.  What is no name of a layer names the bottom one. -/
def SuppliesLayer (node : Document) (layer? : Option Layer) : Prop :=
  ∃ text layer, node.get? "layer" = some (.string text) ∧ layer? = some layer
    ∧ (text = layer.name ∨ layer = .bottom ∧ text ∉ ["bottom", "top", "overlay"])

/-- A mode is described by some nodes, the foremost first, and a preset after them. -/
structure Described (nodes : List Document) (preset mode : Mode) : Prop where
  layer : Foremost SuppliesLayer preset.layer nodes mode.layer
  exclusive : Foremost (SuppliesFlag "exclusive") preset.exclusive nodes mode.exclusive
  passthrough : Foremost (SuppliesFlag "passthrough") preset.passthrough nodes mode.passthrough
  visible : Foremost (SuppliesFlag "visible") preset.visible nodes mode.visible

theorem suppliesFlag_iff (key : String) (node : Document) (value : Bool) :
  SuppliesFlag key node value ↔ (node.get key).bool? = some value
  := by
  rw [SuppliesFlag, Document.bool?_eq_some_iff, Document.get_eq_iff]
  rintro ⟨⟩

/-- The layer of a name, or the bottom one. -/
theorem getD_ofName?_iff (text : String) (layer : Layer) :
  (Layer.ofName? text).getD .bottom = layer
    ↔ text = layer.name ∨ layer = .bottom ∧ text ∉ ["bottom", "top", "overlay"]
  := by
  rw [Layer.ofName?.eq_def]
  split
  · cases layer <;> decide
  · cases layer <;> decide
  · cases layer <;> decide
  case h_4 hbottom htop hoverlay =>
    have hnames : text ∉ ["bottom", "top", "overlay"] := by
      simp only [List.mem_cons, List.not_mem_nil, or_false, not_or]
      exact ⟨hbottom, htop, hoverlay⟩
    cases layer with
    | bottom => simp [hnames]
    | top => simpa [Layer.name] using htop
    | overlay => simpa [Layer.name] using hoverlay

theorem suppliesLayer_iff (node : Document) (value : Option Layer) :
  SuppliesLayer node value ↔ (layer? (node.get "layer")).map some = some value
  := by
  have hnode : ∀ text, (node.get "layer").text? = some text
      ↔ node.get? "layer" = some (.string text) := by
    intro text
    rw [Document.text?_eq_some_iff, Document.get_eq_iff]
    rintro ⟨⟩
  rw [layer?, Option.map_map, Option.map_eq_some_iff]
  constructor
  · rintro ⟨text, layer, htext, rfl, hlayer⟩
    use text, (hnode text).mpr htext
    exact congrArg some ((getD_ofName?_iff text layer).mpr hlayer)
  · rintro ⟨text, htext, rfl⟩
    use text, (Layer.ofName? text).getD .bottom, (hnode text).mp htext, rfl
    exact (getD_ofName?_iff text _).mp rfl

/-- What is no object has no members that describe a mode. -/
theorem update_eq (node : Document) (mode : Mode) :
  update node mode
    = { layer := ((layer? (node.get "layer")).map some).getD mode.layer
        exclusive := (node.get "exclusive").bool?.getD mode.exclusive
        passthrough := (node.get "passthrough").bool?.getD mode.passthrough
        visible := (node.get "visible").bool?.getD mode.visible }
  := by
  cases node with
  | object members =>
    rw [update]
    cases layer? ((Document.object members).get "layer") <;> rfl
  | _ => rfl

/-- A mode that is updated by one node after the other is described by them, the last one
foremost. -/
theorem described_foldr (nodes : List Document) (preset : Mode) :
  Described nodes preset (nodes.foldr update preset)
  := by
  induction nodes with
  | nil => exact ⟨.silence, .silence, .silence, .silence⟩
  | cons node nodes ih =>
    rw [List.foldr_cons, update_eq]
    constructor
    · apply Foremost.getD (suppliesLayer_iff node) ih.layer
    · apply Foremost.getD (suppliesFlag_iff "exclusive" node) ih.exclusive
    · apply Foremost.getD (suppliesFlag_iff "passthrough" node) ih.passthrough
    · apply Foremost.getD (suppliesFlag_iff "visible" node) ih.visible

/-- A mode is without a layer only where nobody who describes it names one. -/
theorem Described.of_layer_eq_none {nodes : List Document} {preset mode : Mode}
    (h : Described nodes preset mode) (hnone : mode.layer = none) :
  preset.layer = none ∧ ∀ node ∈ nodes, ∀ layer, ¬ SuppliesLayer node layer
  := by
  have hvalue : ∀ node, ¬ SuppliesLayer node mode.layer := by
    rintro node ⟨text, layer, -, hlayer, -⟩
    rw [hnone] at hlayer
    cases hlayer
  obtain ⟨hpreset, hnodes⟩ := h.layer.of_not_supplied hvalue
  use hpreset.symm.trans hnone

end Mode

/-! ### The modes of a document -/

namespace Table

variable {α : Type} {table : Table α} {name : String}

theorem mem_keys_iff :
  name ∈ table.keys ↔ table.contains name
  := by
  rw [keys, contains, get?, List.lookup_isSome_iff, List.mem_map]
  apply exists_congr
  intro entry
  rw [beq_iff_eq, eq_comm]

variable [Decode α]

/-- An object updates what its members name, and anything else leaves the table. -/
theorem get?_update_of_regular {node : Document} (h : node.Regular) (table : Table α)
    (name : String) :
  (Decode.update node table).get? name
    = ((node.get? name).map fun value =>
        Decode.update value ((table.get? name).getD Decode.initial)).or (table.get? name)
  := by
  cases node with
  | object members => apply get?_update h.distinct
  | _ => rfl

end Table

namespace ModeTable

open Mode

/-- The nodes of a document that describe a mode, the foremost first. -/
def describing (doc : Document) (name : String) : List Document :=
  (if name = defaultName then [doc] else []) ++ ((doc.get "modes").get? name).toList

/-- The mode that every bar has under a name, and one that engages nothing if there is none. -/
def preset (name : String) : Mode :=
  (presets.get? name).getD {}

variable {doc : Document}

theorem mem_keys_presets (name : String) :
  name ∈ presets.keys ↔ name ∈ ["default", "dock", "hide", "invisible", "overlay"]
  := Iff.rfl

/-- A mode of a document is updated by the nodes that describe it, the foremost last. -/
theorem get?_resolve (h : doc.Regular) (name : String) :
  (resolve doc).get? name
    = if presets.contains name ∨ ((doc.get "modes").get? name).isSome then
        some ((describing doc name).foldr update (preset name))
      else none
  := by
  have htable := Table.get?_update_of_regular (h.get "modes") presets
  rw [resolve, Table.get?_modify, describing]
  by_cases hname : name = defaultName
  · have hpreset : presets.contains name := by
      rw [hname]
      decide
    rw [if_pos hname, if_pos hname, if_pos (.inl hpreset), htable, ← hname, preset]
    cases (doc.get "modes").get? name <;> rfl
  · rw [if_neg hname, if_neg hname, htable, preset, Table.contains]
    cases (doc.get "modes").get? name with
    | none => cases presets.get? name <;> rfl
    | some node =>
      rw [if_pos (.inr rfl)]
      rfl

theorem mem_keys_resolve (h : doc.Regular) (name : String) :
  name ∈ (resolve doc).keys
    ↔ name ∈ ["default", "dock", "hide", "invisible", "overlay"]
      ∨ ((doc.get "modes").get? name).isSome
  := by
  rw [← mem_keys_presets, Table.mem_keys_iff, Table.mem_keys_iff, Table.contains, get?_resolve h]
  split
  case isTrue hname => exact iff_of_true rfl hname
  case isFalse hname => exact iff_of_false Bool.false_ne_true hname

theorem described_resolve (h : doc.Regular) {name : String} {mode : Mode}
    (hmode : (resolve doc).get? name = some mode) :
  Described (describing doc name) (preset name) mode
  := by
  rw [get?_resolve h] at hmode
  split at hmode
  · cases hmode
    apply described_foldr
  · cases hmode

/-- A mode depends on what describes it alone. -/
theorem get?_resolve_congr {doc' : Document} (h : doc.Regular) (h' : doc'.Regular) {name : String}
    (hmember : (doc'.get "modes").get? name = (doc.get "modes").get? name)
    (hroot : name = defaultName → ∀ key ∈ ["layer", "exclusive", "passthrough", "visible"],
      doc'.get key = doc.get key) :
  (resolve doc').get? name = (resolve doc).get? name
  := by
  have hfoldr : (describing doc' name).foldr update (preset name)
      = (describing doc name).foldr update (preset name) := by
    rw [describing, describing, hmember]
    by_cases hname : name = defaultName
    · have hkeys := hroot hname
      simp only [List.forall_mem_cons] at hkeys
      obtain ⟨hlayer, hexclusive, hpassthrough, hvisible, -⟩ := hkeys
      rw [if_pos hname, if_pos hname, List.singleton_append, List.singleton_append,
        List.foldr_cons, List.foldr_cons, update_eq, update_eq doc, hlayer, hexclusive,
        hpassthrough, hvisible]
    · rw [if_neg hname, if_neg hname]
  rw [get?_resolve h', get?_resolve h, hmember, hfoldr]

/-- The mode table of a document has the presets' names and those of the members of its `modes`,
and each field of a mode is what the foremost says of the document itself, which describes the
default mode only, the member of the mode's name, and the preset of that name.  The other members
do not matter to it, and it is without a layer only where none of these names one. -/
theorem resolve_exact (doc : Document) (h : doc.Regular) :
  (∀ name, name ∈ (resolve doc).keys
      ↔ name ∈ ["default", "dock", "hide", "invisible", "overlay"]
        ∨ ((doc.get "modes").get? name).isSome)
    ∧ (∀ name mode, (resolve doc).get? name = some mode →
      Described (describing doc name) (preset name) mode
        ∧ (mode.layer = none → (preset name).layer = none
          ∧ ∀ node ∈ describing doc name, ∀ layer, ¬ SuppliesLayer node layer))
    ∧ ∀ doc' : Document, doc'.Regular → ∀ name,
      (doc'.get "modes").get? name = (doc.get "modes").get? name →
      (name = defaultName → ∀ key ∈ ["layer", "exclusive", "passthrough", "visible"],
        doc'.get key = doc.get key) →
      (resolve doc').get? name = (resolve doc).get? name
  := by
  constructor
  · apply mem_keys_resolve h
  constructor
  · intro name mode hmode
    have hdescribed := described_resolve h hmode
    use hdescribed
    apply hdescribed.of_layer_eq_none
  · intro doc' h' name hmember hroot
    apply get?_resolve_congr h h' hmember hroot

/-- A bar that is on an unknown layer, with a mode of its own that says nothing of its layer. -/
def lowBar (night : Document) : Document :=
  .object
    [("layer", .string "low"),
     ("modes",
      .object
        [("default", .object [("layer", .string "top"), ("exclusive", .bool false)]),
         ("night", night)])]

theorem regular_lowBar {night : Document} (h : night.Regular) :
  (lowBar night).Regular
  := by
  have hdefault : (Document.object
      [("layer", .string "top"), ("exclusive", .bool false)]).Regular :=
    .object (by decide) (by simp [Document.Regular.string, Document.Regular.bool])
  have hmodes : (Document.object [("default", .object
      [("layer", .string "top"), ("exclusive", .bool false)]), ("night", night)]).Regular := by
    apply Document.Regular.object
    · change ["default", "night"].Nodup
      decide
    · simp [hdefault, h]
  apply Document.Regular.object
  · change ["layer", "modes"].Nodup
    decide
  · simp [hmodes, Document.Regular.string]

/-- The default mode is on the bottom layer whatever the other mode is, and takes up no space.
The other mode is on no layer. -/
theorem resolve_exact_lowBar :
  let night := Document.object [("visible", .bool true)]
  (lowBar night).Regular ∧ (lowBar .null).Regular
    ∧ "night" ∈ (resolve (lowBar night)).keys
    ∧ Described
      [lowBar night, .object [("layer", .string "top"), ("exclusive", .bool false)]]
      ⟨some .bottom, true, false, true⟩ ⟨some .bottom, false, false, true⟩
    ∧ (∀ layer, ¬ SuppliesLayer night layer)
    ∧ (resolve (lowBar .null)).get? defaultName = (resolve (lowBar night)).get? defaultName
  := by
  intro night
  have hnight : night.Regular := .object (by decide) (by simp [Document.Regular.bool])
  have hbar := regular_lowBar hnight
  have hother := regular_lowBar .null
  obtain ⟨hnames, hmodes, hothers⟩ := resolve_exact (lowBar night) hbar
  use hbar, hother
  constructor
  · exact (hnames "night").mpr (.inr rfl)
  constructor
  · exact (hmodes "default" ⟨some .bottom, false, false, true⟩ (by decide)).1
  constructor
  · obtain ⟨-, hsilent⟩ := (hmodes "night" ⟨none, false, false, true⟩ (by decide)).2 rfl
    apply hsilent night
    exact .head _
  · apply hothers (lowBar .null) hother defaultName rfl
    intro _
    simp only [List.forall_mem_cons]
    exact ⟨rfl, rfl, rfl, rfl, List.forall_mem_nil _⟩

end ModeTable

end StatusBar

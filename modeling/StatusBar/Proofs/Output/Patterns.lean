import Mathlib.Data.List.Basic
import Mathlib.Tactic.Use
import StatusBar.Output

/-!
# Which outputs patterns choose

A list of patterns chooses an output if it is empty, or if one of its patterns is for the
output and none before that is against it.
-/

namespace StatusBar.Output

/-- A text is the name of an output, or its identifier if it has one. -/
def IsCalled (output : Output) (text : String) : Prop :=
  text = output.name ∨ output.identifier ≠ "" ∧ text = output.identifier

/-- A pattern is against an output: it is a `!` and what the output is called. -/
def ExcludedBy (output : Output) (pattern : String) : Prop :=
  ∃ text, pattern = "!" ++ text ∧ output.IsCalled text

/-- A pattern is for an output: it does not begin with `!`, and begins with `*` or is what
the output is called. -/
def IncludedBy (output : Output) (pattern : String) : Prop :=
  ¬ "!".toList <+: pattern.toList ∧ ("*".toList <+: pattern.toList ∨ output.IsCalled pattern)

/-- A list of patterns chooses an output. -/
def ChosenBy (output : Output) (patterns : List String) : Prop :=
  patterns = []
    ∨ ∃ before pattern after, patterns = before ++ pattern :: after
      ∧ output.IncludedBy pattern ∧ ∀ earlier ∈ before, ¬ output.ExcludedBy earlier

variable {output : Output} {pattern : String}

theorem isNamed_iff (output : Output) (text : String) :
  output.isNamed text ↔ output.IsCalled text
  := by
  simp [isNamed, IsCalled]

/-- A text begins with another if it goes on with some rest. -/
theorem after?_eq_some_iff (start text rest : String) :
  Text.after? start text = some rest ↔ text = start ++ rest
  := by
  rw [Text.after?, Option.map_eq_some_iff]
  constructor
  · rintro ⟨chars, hchars, rfl⟩
    apply String.toList_inj.mp
    rw [String.toList_append, String.toList_ofList]
    exact (List.isPrefixOf?_eq_some_iff_append_eq.mp hchars).symm
  · rintro rfl
    use rest.toList
    constructor
    · apply List.isPrefixOf?_eq_some_iff_append_eq.mpr
      rw [String.toList_append]
    · apply String.ofList_toList

theorem after?_eq_none_iff (start text : String) :
  Text.after? start text = none ↔ ¬ start.toList <+: text.toList
  := by
  rw [Text.after?, Option.map_eq_none_iff, ← Option.not_isSome_iff_eq_none,
    List.isSome_isPrefixOf?_eq_isPrefixOf, List.isPrefixOf_iff_prefix]

theorem beginsWith_iff (start text : String) :
  Text.beginsWith start text ↔ start.toList <+: text.toList
  := List.isPrefixOf_iff_prefix

theorem verdict?_of_after {text : String} (h : Text.after? "!" pattern = some text) :
  output.verdict? pattern = if output.isNamed text then some false else none
  := by
  rw [verdict?, h]

theorem verdict?_of_none (h : Text.after? "!" pattern = none) :
  output.verdict? pattern
    = if Text.beginsWith "*" pattern || output.isNamed pattern then some true else none
  := by
  rw [verdict?, h]

theorem verdict?_eq_false_iff :
  output.verdict? pattern = some false ↔ output.ExcludedBy pattern
  := by
  cases hafter : Text.after? "!" pattern with
  | none =>
    have hplain : ¬ output.ExcludedBy pattern := by
      rintro ⟨text, htext, -⟩
      rw [(after?_eq_some_iff "!" pattern text).mpr htext] at hafter
      cases hafter
    simp [verdict?_of_none hafter, hplain]
  | some text =>
    have hexcluded : output.ExcludedBy pattern ↔ output.IsCalled text := by
      simp [ExcludedBy, ← after?_eq_some_iff, hafter]
    simp [verdict?_of_after hafter, hexcluded, isNamed_iff]

theorem verdict?_eq_true_iff :
  output.verdict? pattern = some true ↔ output.IncludedBy pattern
  := by
  rw [IncludedBy, ← after?_eq_none_iff, ← beginsWith_iff, ← isNamed_iff]
  cases hafter : Text.after? "!" pattern with
  | none => simp [verdict?_of_none hafter, or_iff_not_imp_left]
  | some text => simp [verdict?_of_after hafter]

/-- The first pattern that speaks of an output is for it exactly if some pattern is, and
none before that is against it. -/
theorem findSome?_verdict?_iff (patterns : List String) :
  patterns.findSome? output.verdict? = some true
    ↔ ∃ before pattern after, patterns = before ++ pattern :: after
      ∧ output.IncludedBy pattern ∧ ∀ earlier ∈ before, ¬ output.ExcludedBy earlier
  := by
  induction patterns with
  | nil => simp
  | cons first patterns ih =>
    rw [List.findSome?_cons]
    constructor
    · intro h
      cases hfirst : output.verdict? first with
      | none =>
        rw [hfirst] at h
        obtain ⟨before, pattern, after, rfl, hincluded, hbefore⟩ := ih.mp h
        use first :: before, pattern, after, rfl, hincluded
        have hspeaks : ¬ output.ExcludedBy first := by
          rw [← verdict?_eq_false_iff, hfirst]
          rintro ⟨⟩
        exact List.forall_mem_cons.mpr ⟨hspeaks, hbefore⟩
      | some verdict =>
        rw [hfirst] at h
        cases h
        use [], first, patterns, rfl, verdict?_eq_true_iff.mp hfirst
        apply List.forall_mem_nil
    · rintro ⟨before, pattern, after, hpatterns, hincluded, hbefore⟩
      cases before with
      | nil =>
        obtain ⟨rfl, -⟩ := List.cons.inj hpatterns
        rw [verdict?_eq_true_iff.mpr hincluded]
      | cons earlier before =>
        obtain ⟨rfl, rfl⟩ := List.cons.inj hpatterns
        obtain ⟨hfirst, hbefore⟩ := List.forall_mem_cons.mp hbefore
        rw [← verdict?_eq_false_iff] at hfirst
        cases hverdict : output.verdict? first with
        | none =>
          apply ih.mpr
          exact ⟨before, pattern, after, rfl, hincluded, hbefore⟩
        | some verdict =>
          cases verdict with
          | true => rfl
          | false => cases hfirst hverdict

theorem matchesPatterns_iff (output : Output) (patterns : List String) :
  output.matchesPatterns patterns ↔ output.ChosenBy patterns
  := by
  rw [matchesPatterns, ChosenBy, Bool.or_eq_true, List.isEmpty_iff, ← findSome?_verdict?_iff]
  apply or_congr_right
  cases patterns.findSome? output.verdict? with
  | none => simp
  | some verdict => simp

instance (output : Output) (patterns : List String) : Decidable (output.ChosenBy patterns) :=
  decidable_of_iff _ (output.matchesPatterns_iff patterns)

example :
    ChosenBy ⟨"DP-1", "Dell"⟩ ["!DP-2", "Dell"]
      ∧ ¬ ChosenBy ⟨"DP-1", "Dell"⟩ ["!Dell", "*"] := by
  decide

end StatusBar.Output

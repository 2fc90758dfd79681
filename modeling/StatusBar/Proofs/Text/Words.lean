import Mathlib.Tactic.Use
import StatusBar.Text.Split

/-!
# Words of a text

A text is its words with blanks between and around them, and there is only one way to split it.
-/

namespace StatusBar.Text

/-- These characters separate words. -/
def IsBlankText (gap : List Char) : Prop :=
  ∀ c ∈ gap, isBlank c = true

/-- A text splits into words: each goes on up to the next blank or the end of the text. -/
inductive SplitsInto : List Char → List (List Char) → Prop
  | gap {gap : List Char} (hgap : IsBlankText gap) : SplitsInto gap []
  | word {gap word rest : List Char} {words : List (List Char)} (hgap : IsBlankText gap)
    (hne : word ≠ []) (hword : ∀ c ∈ word, isBlank c = false)
    (hrest : ∀ c ∈ rest.head?, isBlank c = true) (h : SplitsInto rest words) :
    SplitsInto (gap ++ word ++ rest) (word :: words)

theorem isBlankText_nil :
  IsBlankText []
  := List.forall_mem_nil _

theorem IsBlankText.cons {c : Char} {gap : List Char} (hc : isBlank c = true)
    (h : IsBlankText gap) :
  IsBlankText (c :: gap)
  := List.forall_mem_cons.mpr ⟨hc, h⟩

/-! ### Every text splits into words -/

theorem SplitsInto.cons_blank {c : Char} (hc : isBlank c = true) {text : List Char}
    {words : List (List Char)} (h : SplitsInto text words) :
  SplitsInto (c :: text) words
  := by
  cases h with
  | gap hgap => exact .gap (hgap.cons hc)
  | word hgap hne hword hrest h => exact .word (hgap.cons hc) hne hword hrest h

/-- A character is a word of its own before a gap, and goes on with the word that follows it. -/
theorem SplitsInto.exists_cons {c : Char} (hc : isBlank c = false) {text : List Char}
    {words : List (List Char)} (h : SplitsInto text words) :
  ∃ words', SplitsInto (c :: text) words'
  := by
  have halone : ∀ d ∈ [c], isBlank d = false := by simpa using hc
  cases h with
  | gap hgap =>
    use [[c]]
    apply @SplitsInto.word [] [c] text [] isBlankText_nil (List.cons_ne_nil c []) halone
    · exact fun d hd => hgap d (List.mem_of_mem_head? hd)
    · exact .gap hgap
  | @word gap word rest words hgap hne hword hrest h =>
    cases gap with
    | nil =>
      use (c :: word) :: words
      apply @SplitsInto.word [] (c :: word) rest words isBlankText_nil (List.cons_ne_nil c word)
      · exact List.forall_mem_cons.mpr ⟨hc, hword⟩
      · exact hrest
      · exact h
    | cons d gap =>
      use [c] :: word :: words
      apply @SplitsInto.word [] [c] _ _ isBlankText_nil (List.cons_ne_nil c []) halone
      · intro e he
        cases he
        apply hgap d List.mem_cons_self
      · exact .word hgap hne hword hrest h

theorem exists_splitsInto (text : List Char) :
  ∃ words, SplitsInto text words
  := by
  induction text with
  | nil => exact ⟨[], .gap isBlankText_nil⟩
  | cons c text ih =>
    obtain ⟨words, h⟩ := ih
    cases hc : isBlank c with
    | true => exact ⟨words, h.cons_blank hc⟩
    | false => exact h.exists_cons hc

/-! ### The words that are found -/

theorem words_gap {gap : List Char} (h : IsBlankText gap) (text : List Char) :
  words (gap ++ text) = words text
  := by
  induction gap with
  | nil => rfl
  | cons c gap ih =>
    obtain ⟨hc, hgap⟩ := List.forall_mem_cons.mp h
    rw [← ih hgap, List.cons_append, words, pieces, if_pos hc]
    rfl

/-- The piece that a word starts. -/
theorem pieces_word {word : List Char} (h : ∀ c ∈ word, isBlank c = false) {rest : List Char}
    (hrest : ∀ c ∈ rest.head?, isBlank c = true) :
  ∃ more, pieces isBlank (word ++ rest) = word :: more
    ∧ words rest = more.filter fun word => !word.isEmpty
  := by
  induction word with
  | nil =>
    cases rest with
    | nil => exact ⟨[], rfl, rfl⟩
    | cons c rest =>
      use pieces isBlank rest
      rw [List.nil_append, words, pieces, if_pos (hrest c rfl)]
      exact ⟨rfl, rfl⟩
  | cons c word ih =>
    obtain ⟨hc, hword⟩ := List.forall_mem_cons.mp h
    obtain ⟨more, hpieces, hmore⟩ := ih hword
    use more
    rw [List.cons_append, pieces, if_neg (by simp [hc]), hpieces]
    exact ⟨rfl, hmore⟩

theorem words_word {word : List Char} (hne : word ≠ []) (h : ∀ c ∈ word, isBlank c = false)
    {rest : List Char} (hrest : ∀ c ∈ rest.head?, isBlank c = true) :
  words (word ++ rest) = word :: words rest
  := by
  obtain ⟨more, hpieces, hmore⟩ := pieces_word h hrest
  rw [hmore, words, hpieces, List.filter_cons_of_pos (by simpa using hne)]

theorem SplitsInto.words_eq {text : List Char} {words : List (List Char)}
    (h : SplitsInto text words) :
  Text.words text = words
  := by
  induction h with
  | @gap gap hgap =>
    rw [← List.append_nil gap, words_gap hgap]
    rfl
  | word hgap hne hword hrest _ ih =>
    rw [List.append_assoc, words_gap hgap, words_word hne hword hrest, ih]

/-- The words of a text are those that it splits into. -/
theorem words_eq_iff {text : List Char} {words : List (List Char)} :
  Text.words text = words ↔ SplitsInto text words
  := by
  constructor
  · rintro rfl
    obtain ⟨words, h⟩ := exists_splitsInto text
    rwa [h.words_eq]
  · exact SplitsInto.words_eq

end StatusBar.Text

/-!
# Logged values

A value together with what was noted on the way to it, in order.  Notes add up when one
computation follows another, and `each` runs one for every element of a list.
-/

namespace StatusBar

/-- A value and the notes taken on the way to it. -/
structure Logged (ε α : Type) where
  value : α
  log : List ε
  deriving DecidableEq, Repr

namespace Logged

variable {ε ε' α β : Type}

instance : Monad (Logged ε) where
  pure value := ⟨value, []⟩
  bind first next :=
    let second := next first.value
    ⟨second.value, first.log ++ second.log⟩

/-- Take a note. -/
def note (entry : ε) : Logged ε Unit :=
  ⟨(), [entry]⟩

/-- A value with notes. -/
def withNotes (log : List ε) (value : α) : Logged ε α :=
  ⟨value, log⟩

/-- Run a computation for every element of a list. -/
def each (f : α → Logged ε β) (items : List α) : Logged ε (List β) :=
  let results := items.map f
  ⟨results.map (·.value), results.flatMap (·.log)⟩

/-- Change the notes. -/
def mapLog (f : ε → ε') (logged : Logged ε α) : Logged ε' α :=
  ⟨logged.value, logged.log.map f⟩

@[simp]
theorem value_pure (value : α) :
  (pure value : Logged ε α).value = value
  := rfl

@[simp]
theorem log_pure (value : α) :
  (pure value : Logged ε α).log = []
  := rfl

@[simp]
theorem value_bind (first : Logged ε α) (next : α → Logged ε β) :
  (first >>= next).value = (next first.value).value
  := rfl

@[simp]
theorem log_bind (first : Logged ε α) (next : α → Logged ε β) :
  (first >>= next).log = first.log ++ (next first.value).log
  := rfl

@[simp]
theorem value_each (f : α → Logged ε β) (items : List α) :
  (each f items).value = items.map fun item => (f item).value
  := by
  simp [each]

@[simp]
theorem log_each (f : α → Logged ε β) (items : List α) :
  (each f items).log = items.flatMap fun item => (f item).log
  := by
  simp [each, List.flatMap_map]

instance : LawfulMonad (Logged ε) :=
  LawfulMonad.mk' _
    (fun x => by simp [Functor.map])
    (fun x f => by simp [pure, bind])
    (fun x f g => by simp [bind, List.append_assoc])

@[simp]
theorem value_map (f : α → β) (logged : Logged ε α) :
  (f <$> logged).value = f logged.value
  := rfl

@[simp]
theorem log_map (f : α → β) (logged : Logged ε α) :
  (f <$> logged).log = logged.log
  := List.append_nil _

/-- What follows a computation matters for its value only. -/
theorem bind_congr {first : Logged ε α} {next next' : α → Logged ε β}
    (h : next first.value = next' first.value) :
  first >>= next = first >>= next'
  := by
  simp only [bind, h]

/-- The first computation comes before the others. -/
theorem each_cons (f : α → Logged ε β) (item : α) (items : List α) :
  each f (item :: items) = do
    let first ← f item
    let rest ← each f items
    return first :: rest
  := by
  simp [each, bind, pure]

/-- Where nothing happens to any element, nothing happens to the list. -/
theorem each_eq_pure {f : α → Logged ε α} {items : List α}
    (h : ∀ item ∈ items, f item = pure item) :
  each f items = pure items
  := by
  induction items with
  | nil => rfl
  | cons item items ih =>
    rw [each_cons, h item List.mem_cons_self, ih fun other hother => h other (.tail _ hother)]
    rfl

end Logged

end StatusBar

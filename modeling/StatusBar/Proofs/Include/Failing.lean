import StatusBar.Proofs.Include.Precedence

/-!
# Includes that fail

An entry that names no object is left out, with one warning, and everything else goes on as
it would without the entry.  `resolveWithout` is the resolution in which some entries are
absent, given by their places; that an entry fails can be told from the log alone.
-/

namespace StatusBar

namespace Logged

variable {ε α β : Type}

theorem each_append (f : α → Logged ε β) (items items' : List α) :
  each f (items ++ items') = do
    let first ← each f items
    let second ← each f items'
    return first ++ second
  := by
  simp [each, bind, pure]

/-- Whether items come with their indices does not matter to who does not look at these. -/
theorem each_zipIdx {f : α → Logged ε β} {g : α × Nat → Logged ε β} {items : List α}
    {start : Nat} (h : ∀ entry ∈ items.zipIdx start, g entry = f entry.1) :
  each g (items.zipIdx start) = each f items
  := by
  have hresults : (items.zipIdx start).map g = items.map f := by
    calc
      (items.zipIdx start).map g = (items.zipIdx start).map (f ∘ Prod.fst) :=
        List.map_congr_left h
      _ = items.map f := by rw [← List.map_map, List.zipIdx_map_fst]
  simp only [each, hresults]

/-- A computation goes as another one, but that one note is not taken. -/
def Loses (entry : ε) (whole part : Logged ε α) : Prop :=
  ∃ before after, whole.log = before ++ entry :: after ∧ part = ⟨whole.value, before ++ after⟩

namespace Loses

variable {entry : ε} {whole part : Logged ε α}

theorem bind (h : Loses entry whole part) (next : α → Logged ε β) :
  Loses entry (whole >>= next) (part >>= next)
  := by
  obtain ⟨before, after, hlog, rfl⟩ := h
  use before, after ++ (next whole.value).log
  constructor
  · rw [log_bind, hlog, List.append_assoc, List.cons_append]
  · change Logged.mk _ _ = _
    rw [List.append_assoc]
    rfl

theorem after (first : Logged ε β) {next next' : β → Logged ε α}
    (h : Loses entry (next first.value) (next' first.value)) :
  Loses entry (first >>= next) (first >>= next')
  := by
  obtain ⟨before, after, hlog, hpart⟩ := h
  use first.log ++ before, after
  constructor
  · rw [log_bind, hlog, List.append_assoc]
  · change Logged.mk _ _ = _
    rw [hpart, List.append_assoc]
    rfl

theorem map (h : Loses entry whole part) (f : α → β) :
  Loses entry (f <$> whole) (f <$> part)
  := h.bind fun value => ⟨f value, []⟩

/-- One of several computations loses its note, the others go as before. -/
theorem each {f : α → Logged ε β} {g : α × Nat → Logged ε β} {earlier later : List α} {item : α}
    (hitem : Loses entry (f item) (g (item, earlier.length)))
    (hothers : ∀ other index, index ≠ earlier.length → g (other, index) = f other) :
  Loses entry (Logged.each f (earlier ++ item :: later))
    (Logged.each g (earlier ++ item :: later).zipIdx)
  := by
  have hearlier : Logged.each g earlier.zipIdx = Logged.each f earlier := by
    apply each_zipIdx
    rintro ⟨other, index⟩ hentry
    apply hothers
    have hindex := (List.mem_zipIdx hentry).2.1
    omega
  have hlater : Logged.each g (later.zipIdx (earlier.length + 1)) = Logged.each f later := by
    apply each_zipIdx
    rintro ⟨other, index⟩ hentry
    apply hothers
    have hindex := (List.mem_zipIdx hentry).1
    omega
  rw [List.zipIdx_append, List.zipIdx_cons, Nat.zero_add, each_append, each_append, each_cons,
    each_cons, hearlier, hlater]
  apply after
  apply bind
  apply hitem.bind

end Loses

end Logged

namespace Environment

variable {env : Environment} {path : Path}

theorem readDocument_of_unreadable {cause : FileError}
    (h : env.files.readText path = .error cause) :
  env.readDocument path = .error (.unreadable path cause)
  := by
  rw [readDocument, h]
  rfl

theorem readDocument_of_text {text : String} (h : env.files.readText path = .ok text) :
  env.readDocument path = (Relaxed.read text).mapError (LoadError.malformed path)
  := by
  simp only [readDocument, h, Except.mapError, bind, Except.bind]

theorem readDocument_eq_ok_iff {doc : Document} :
  env.readDocument path = .ok doc
    ↔ ∃ text, env.files.readText path = .ok text ∧ Relaxed.read text = .ok doc
  := by
  rw [readDocument, Reading.bind_eq_ok]
  simp only [Reading.mapError_eq_ok]

theorem readDocument_eq_error_iff {error : LoadError} :
  env.readDocument path = .error error
    ↔ (∃ cause, env.files.readText path = .error cause ∧ error = .unreadable path cause)
      ∨ ∃ text fault, env.files.readText path = .ok text ∧ Relaxed.read text = .error fault
        ∧ error = .malformed path fault
  := by
  cases htext : env.files.readText path with
  | error cause =>
    rw [readDocument_of_unreadable htext]
    simp [eq_comm]
  | ok text =>
    rw [readDocument_of_text htext]
    cases hdoc : Relaxed.read text with
    | error fault => simp [Except.mapError, hdoc, eq_comm]
    | ok doc => simp [Except.mapError, hdoc]

end Environment

namespace Include

/-- An entry names no object to include, for a reason that its warning tells. -/
inductive Fails (env : Environment) (base : Path) (chain : List Path) (name : String) :
    Warning → Prop where
  | cycle (hchain : chain.any (env.files.canonical (env.expand base name)).same) :
    Fails env base chain name (.includeCycle (env.expand base name))
  | unreadable {cause : FileError}
    (hchain : ¬ chain.any (env.files.canonical (env.expand base name)).same)
    (htext : env.files.readText (env.expand base name) = .error cause) :
    Fails env base chain name
      (.includeFailed (env.expand base name) (.unreadable (env.expand base name) cause))
  | malformed {text : String} {fault : Fault}
    (hchain : ¬ chain.any (env.files.canonical (env.expand base name)).same)
    (htext : env.files.readText (env.expand base name) = .ok text)
    (hdoc : Relaxed.read text = .error fault) :
    Fails env base chain name
      (.includeFailed (env.expand base name) (.malformed (env.expand base name) fault))
  | notObject {text : String} {doc : Document}
    (hchain : ¬ chain.any (env.files.canonical (env.expand base name)).same)
    (htext : env.files.readText (env.expand base name) = .ok text)
    (hdoc : Relaxed.read text = .ok doc) (hobject : ¬ doc.isObject) :
    Fails env base chain name (.includeNotObject (env.expand base name))

variable {env : Environment} {base : Path} {chain : List Path} {name : String}

/-- An entry that fails yields one warning and no object, whatever is done with objects. -/
theorem Fails.fetch_eq {warning : Warning} (h : Fails env base chain name warning)
    (resolve : Path → List Path → Members → Logged Notice Members) :
  fetch env resolve base chain name = .withNotes [.warning warning] none
  := by
  cases h with
  | cycle hchain => rw [fetch, if_pos hchain]
  | unreadable hchain htext =>
    rw [fetch, if_neg hchain, Environment.readDocument_of_unreadable htext]
  | malformed hchain htext hdoc =>
    rw [fetch, if_neg hchain, Environment.readDocument_of_text htext, hdoc]
    rfl
  | @notObject text doc hchain htext hdoc hobject =>
    rw [fetch, if_neg hchain, Environment.readDocument_of_text htext, hdoc]
    cases doc with
    | object members => exact absurd rfl hobject
    | _ => rfl

/-- An entry that includes an object yields what the object amounts to. -/
theorem fetch_of_included? {path : Path} {object : Members}
    (h : included? env base chain name = some (path, object))
    (resolve : Path → List Path → Members → Logged Notice Members) :
  fetch env resolve base chain name = do
    let members ← resolve (path.parent?.getD base) (chain ++ [env.files.canonical path]) object
    Logged.note (.included path)
    return some members
  := by
  rw [included?] at h
  split at h
  case isTrue => cases h
  case isFalse hchain =>
    split at h
    case h_1 hread =>
      cases h
      rw [fetch, if_neg hchain, hread]
    case h_2 => cases h

/-! ### Absent entries -/

/-- The resolution of an object in which some entries are absent.  The place of an entry is
its index among the names of its object, after the place of the entry that includes that
object. -/
def resolveWithout (env : Environment) : (remaining : Nat) → (absent : List Nat → Bool) →
    (base : Path) → (chain : List Path) → Members → Logged Notice Members
  | remaining, absent, base, chain, members =>
    match members.lookup key with
    | none => pure members
    | some value =>
      match remaining with
      | 0 => .withNotes [.warning (.includeTooDeep depthLimit depthLimit)] (members.swapRemove key)
      | remaining + 1 => do
        let included ← Logged.each
          (fun entry =>
            if absent [entry.2] then
              pure none
            else
              fetch env (resolveWithout env remaining fun place => absent (entry.2 :: place))
                base chain entry.1)
          (names value).zipIdx
        return (included.filterMap id).foldl Members.addMissing (members.swapRemove key)

/-- The entries that are processed when an object is resolved, by their places: those of the
object, and those of the objects that they include, each with the directory that it is seen
from and the files that are being included. -/
inductive Processed (env : Environment) : (remaining : Nat) → (base : Path) →
    (chain : List Path) → Members → (place : List Nat) → (base' : Path) →
    (chain' : List Path) → (name : String) → Prop where
  | here {remaining : Nat} {base : Path} {chain : List Path} {members : Members}
    {value : Document} {earlier later : List String} {name : String}
    (hvalue : members.lookup key = some value) (hnames : names value = earlier ++ name :: later) :
    Processed env (remaining + 1) base chain members [earlier.length] base chain name
  | inside {remaining : Nat} {base : Path} {chain : List Path} {members : Members}
    {value : Document} {earlier later : List String} {name : String} {path : Path}
    {object : Members} {place : List Nat} {base' : Path} {chain' : List Path} {name' : String}
    (hvalue : members.lookup key = some value) (hnames : names value = earlier ++ name :: later)
    (hincluded : included? env base chain name = some (path, object))
    (hinside : Processed env remaining (path.parent?.getD base)
      (chain ++ [env.files.canonical path]) object place base' chain' name') :
    Processed env (remaining + 1) base chain members (earlier.length :: place) base' chain' name'

theorem Processed.place_ne_nil {remaining : Nat} {members : Members} {place : List Nat}
    {base' : Path} {chain' : List Path}
    (h : Processed env remaining base chain members place base' chain' name) :
  place ≠ []
  := by
  cases h with
  | here => exact List.cons_ne_nil _ _
  | inside => exact List.cons_ne_nil _ _

/-- Nothing is absent from the resolution itself. -/
theorem resolveWithout_nothing (remaining : Nat) :
  resolveWithout env remaining (fun _ => false) = resolve env remaining
  := by
  induction remaining with
  | zero =>
    funext base chain members
    cases hkey : members.lookup key with
    | none => rw [resolveWithout, resolve, hkey]
    | some value => rw [resolveWithout, resolve, hkey]
  | succ remaining ih =>
    funext base chain members
    rw [resolveWithout, resolve]
    cases members.lookup key with
    | none => rfl
    | some value =>
      simp only [ih]
      congr 1
      apply Logged.each_zipIdx
      intro entry _
      rfl

variable {remaining : Nat} {members : Members} {place : List Nat}

/-- A resolution loses what is lost at one of its entries. -/
theorem loses_resolveWithout_of_entry {value : Document} {earlier later : List String}
    {entry : Notice} (hvalue : members.lookup key = some value)
    (hnames : names value = earlier ++ name :: later)
    (hentry : Logged.Loses entry (fetch env (resolve env remaining) base chain name)
      (if place = [] then pure none
        else fetch env (resolveWithout env remaining (· == place)) base chain name)) :
  Logged.Loses entry (resolve env (remaining + 1) base chain members)
    (resolveWithout env (remaining + 1) (· == earlier.length :: place) base chain members)
  := by
  rw [resolve, resolveWithout, hvalue]
  apply Logged.Loses.bind
  rw [hnames]
  apply Logged.Loses.each
  · simpa [List.cons_beq_cons] using hentry
  · -- No place below another entry is the absent one.
    intro other index hindex
    have hindex := beq_eq_false_iff_ne.mpr hindex
    simp [List.cons_beq_cons, hindex, resolveWithout_nothing]

/-- Without an entry that fails, only its warning is lost. -/
theorem loses_resolveWithout {base' : Path} {chain' : List Path} {warning : Warning}
    (h : Processed env remaining base chain members place base' chain' name)
    (hfails : Fails env base' chain' name warning) :
  Logged.Loses (.warning warning) (resolve env remaining base chain members)
    (resolveWithout env remaining (· == place) base chain members)
  := by
  induction h with
  | here hvalue hnames =>
    apply loses_resolveWithout_of_entry hvalue hnames
    rw [hfails.fetch_eq]
    exact ⟨[], [], rfl, rfl⟩
  | inside hvalue hnames hincluded hinside ih =>
    apply loses_resolveWithout_of_entry hvalue hnames
    rw [if_neg hinside.place_ne_nil, fetch_of_included? hincluded, fetch_of_included? hincluded]
    apply (ih hfails).bind

end Include

end StatusBar

import StatusBar.Proofs.Include.Separate
import StatusBar.Proofs.Recursion.Calling

/-!
# Chains of includes

The resolution of a document calls itself for every document that it includes.  Here it is
given by its body, with the chain of files that are being included as a stack: a file is put
on it before its document is resolved, and taken off when that is done.  A file that is on the
chain already is not put on again, and no document is resolved with more than nine files on
it.  So the resolution comes to an end, whatever includes what, with the chain as it was, and
with what `resolve` comes to.
-/

namespace StatusBar

namespace Include

open Calling (Ends ask)

/-- What the resolution of a document is called for. -/
structure Inclusion where
  /-- The directory that its includes are seen from. -/
  base : Path
  /-- The files that are being included, the root first. -/
  chain : List Path
  document : Document

/-- What the resolution of a document comes back with. -/
structure Resolution where
  /-- The files that are being included still. -/
  chain : List Path
  result : Logged Notice Document
  /-- The files that were read on the way. -/
  reads : List Path

/-- An object that other files are merged into, one after the other. -/
structure Merging where
  chain : List Path
  members : Logged Notice Members
  reads : List Path

namespace Merging

/-- Take a note. -/
def note (state : Merging) (entry : Notice) : Merging :=
  { state with members := do
      let members ← state.members
      Logged.note entry
      return members }

/-- Note that a file is read. -/
def read (state : Merging) (path : Path) : Merging :=
  { state with reads := state.reads ++ [path] }

/-- Take the last file off the chain, and add what it holds if that is an object. -/
def add (state : Merging) (path : Path) (resolution : Resolution) : Merging where
  chain := resolution.chain.dropLast
  reads := state.reads ++ resolution.reads
  members := do
    let members ← state.members
    let document ← resolution.result
    match document with
    | .object added =>
      Logged.note (.included path)
      return Members.addMissing members added
    | _ =>
      Logged.note (.warning (.includeNotObject path))
      return members

end Merging

/-- Merge the file that a name includes into an object.  The resolution is called for what the
file holds, with the file on the chain. -/
def mergeOne (env : Environment) (base : Path) (state : Merging) (name : String) :
    Calling Inclusion Resolution Merging :=
  let path := env.expand base name
  let canonical := env.files.canonical path
  if state.chain.any canonical.same then
    pure (state.note (.warning (.includeCycle path)))
  else
    match env.readDocument path with
    | .error error => pure ((state.read path).note (.warning (.includeFailed path error)))
    | .ok document => do
      let resolution ← ask ⟨path.parent?.getD base, state.chain ++ [canonical], document⟩
      pure ((state.read path).add path resolution)

/-- The body of the resolution. -/
def resolution (env : Environment) (inclusion : Inclusion) :
    Calling Inclusion Resolution Resolution :=
  match inclusion.document with
  | .object members =>
    match members.lookup key with
    | none => pure ⟨inclusion.chain, pure (.object members), []⟩
    | some value =>
      let rest := Members.swapRemove key members
      let depth := inclusion.chain.length - 1
      if depthLimit ≤ depth then
        let warning := Warning.includeTooDeep depth depthLimit
        pure ⟨inclusion.chain, .withNotes [.warning warning] (.object rest), []⟩
      else do
        let merged ← (names value).foldlM (mergeOne env inclusion.base)
          ⟨inclusion.chain, pure rest, []⟩
        pure ⟨merged.chain, Document.object <$> merged.members, merged.reads⟩
  | document => pure ⟨inclusion.chain, pure document, []⟩

/-! ### What calls are like -/

/-- How many more files may be put on the chain. -/
def Inclusion.room (inclusion : Inclusion) : Nat :=
  depthLimit + 1 - inclusion.chain.length

/-- How a document is resolved with the files that are being included. -/
def resolveWithin (env : Environment) (inclusion : Inclusion) : Logged Notice Document :=
  match inclusion.document with
  | .object members =>
    Document.object <$>
      resolve env inclusion.room inclusion.base inclusion.chain members
  | document => pure document

/-- What the resolution is called for when a file is the root: the chain starts with it, holds
the canonical paths of files that are read, none of them twice, and is not too long. -/
structure Inclusion.Proper (env : Environment) (root : Path) (inclusion : Inclusion) :
    Prop where
  starts : inclusion.chain.head? = some (env.files.canonical root)
  distinct : inclusion.chain.Pairwise fun path path' => ¬ path.same path'
  read : ∀ path ∈ inclusion.chain, ∃ file document,
    env.readDocument file = .ok document ∧ env.files.canonical file = path
  length : inclusion.chain.length ≤ depthLimit + 1
  members : ∀ members : Members, inclusion.document = .object members → members.Distinct

/-- What the resolution comes back with: the chain as it was, and the document resolved; and
nothing is read if the chain is as long as it may be. -/
structure Inclusion.Resolved (env : Environment) (inclusion : Inclusion)
    (resolution : Resolution) : Prop where
  chain : resolution.chain = inclusion.chain
  result : resolution.result = resolveWithin env inclusion
  reads : depthLimit < inclusion.chain.length → resolution.reads = []

variable {env : Environment} {root : Path} {inclusion : Inclusion}

/-- What the resolution is called for when a document is included: its file is put on the
chain. -/
def Inclusion.push (env : Environment) (inclusion : Inclusion) (path : Path)
    (document : Document) : Inclusion :=
  ⟨path.parent?.getD inclusion.base, inclusion.chain ++ [env.files.canonical path], document⟩

theorem Inclusion.room_push (path : Path) (document : Document) :
  (inclusion.push env path document).room = inclusion.room - 1
  := by
  rw [push, room, room, List.length_append, List.length_singleton, Nat.sub_sub]

/-- A file that is read and not on the chain may be put on it. -/
theorem Inclusion.Proper.push (h : inclusion.Proper env root) {path : Path}
    {document : Document} (hroom : 0 < inclusion.room)
    (hnew : ¬ inclusion.chain.any (env.files.canonical path).same)
    (hread : env.readDocument path = .ok document) :
  (inclusion.push env path document).Proper env root
  := by
  constructor
  case starts =>
    change (inclusion.chain ++ [env.files.canonical path]).head? = _
    rw [List.head?_append, h.starts]
    rfl
  case distinct =>
    apply List.pairwise_append.mpr
    use h.distinct, List.pairwise_singleton _ _
    intro other hother last hlast hsame
    apply hnew
    rw [List.mem_singleton.mp hlast] at hsame
    apply List.any_eq_true.mpr
    use other, hother
    rw [Path.same, Bool.beq_comm]
    exact hsame
  case read =>
    intro other hother
    rcases List.mem_append.mp hother with hother | hlast
    · exact h.read other hother
    · exact ⟨path, document, hread, (List.mem_singleton.mp hlast).symm⟩
  case length =>
    change (inclusion.chain ++ [env.files.canonical path]).length ≤ depthLimit + 1
    rw [Inclusion.room] at hroom
    rw [List.length_append, List.length_singleton]
    omega
  case members =>
    rintro members rfl
    exact Environment.distinct_readDocument hread

/-! ### Merging -/

/-- What is merged into members, in the end, if some names are left. -/
def mergeNames (env : Environment) (remaining : Nat) (base : Path) (chain : List Path)
    (names : List String) (members : Logged Notice Members) : Logged Notice Members := do
  let members ← members
  let included ← Logged.each (fetch env (resolve env remaining) base chain) names
  return (included.filterMap id).foldl Members.addMissing members

theorem mergeNames_nil (remaining : Nat) (base : Path) (chain : List Path)
    (members : Logged Notice Members) :
  mergeNames env remaining base chain [] members = members
  := by
  rw [mergeNames]
  exact bind_pure members

theorem mergeNames_cons (remaining : Nat) (base : Path) (chain : List Path) (name : String)
    (names : List String) (members : Logged Notice Members) :
  mergeNames env remaining base chain (name :: names) members
    = mergeNames env remaining base chain names do
        let members ← members
        let object? ← fetch env (resolve env remaining) base chain name
        return object?.elim members members.addMissing
  := by
  rw [mergeNames, mergeNames, Logged.each_cons]
  simp only [bind_assoc, pure_bind]
  apply bind_congr
  intro members
  apply bind_congr
  intro object?
  apply bind_congr
  intro included
  cases object? <;> rfl

theorem resolve_succ {base : Path} {chain : List Path} {members : Members} {value : Document}
    (h : members.lookup key = some value) (remaining : Nat) :
  resolve env (remaining + 1) base chain members
    = mergeNames env remaining base chain (names value) (pure (members.swapRemove key))
  := by
  rw [resolve, h, mergeNames, pure_bind]

/-- Members into which files are being merged, with the chain as it is between two of them.  In
the end they are what is given. -/
structure Merges (env : Environment) (remaining : Nat) (base : Path) (chain : List Path)
    (merged : Logged Notice Members) (names : List String) (state : Merging) : Prop where
  balanced : state.chain = chain
  completes : mergeNames env remaining base chain names state.members = merged

variable {remaining : Nat} {base : Path} {chain : List Path} {merged : Logged Notice Members}
  {name : String} {later : List String} {state : Merging}

theorem Merges.read (h : Merges env remaining base chain merged later state) (path : Path) :
  Merges env remaining base chain merged later (state.read path)
  := ⟨h.balanced, h.completes⟩

/-- A name that includes nothing is noted. -/
theorem Merges.note (h : Merges env remaining base chain merged (name :: later) state)
    {entry : Notice}
    (hfetch : fetch env (resolve env remaining) base chain name = .withNotes [entry] none) :
  Merges env remaining base chain merged later (state.note entry)
  := by
  constructor
  case balanced => exact h.balanced
  case completes =>
    rw [← h.completes, mergeNames_cons, hfetch]
    rfl

/-- What a file amounts to whose document is resolved. -/
def amounts (path : Path) (result : Logged Notice Document) : Logged Notice (Option Members) := do
  let document ← result
  match document with
  | .object added =>
    Logged.note (.included path)
    return some added
  | _ => .withNotes [.warning (.includeNotObject path)] none

/-- A file is added, and taken off the chain. -/
theorem Merges.add (h : Merges env remaining base chain merged (name :: later) state)
    {path last : Path} {resolution : Resolution} (hchain : resolution.chain = chain ++ [last])
    (hfetch : fetch env (resolve env remaining) base chain name
      = amounts path resolution.result) :
  Merges env remaining base chain merged later (state.add path resolution)
  := by
  constructor
  case balanced =>
    change resolution.chain.dropLast = chain
    rw [hchain, List.dropLast_concat]
  case completes =>
    rw [← h.completes, mergeNames_cons, hfetch]
    congr 1
    apply bind_congr
    intro members
    rw [amounts, bind_assoc]
    apply bind_congr
    intro document
    cases document <;> rfl

/-- What is fetched under a name is what the document that it includes is resolved to. -/
theorem fetch_eq_amounts {path : Path} {document : Document}
    (hpath : path = env.expand inclusion.base name)
    (hchain : ¬ inclusion.chain.any (env.files.canonical path).same)
    (hread : env.readDocument path = .ok document) (hroom : inclusion.room = remaining + 1) :
  fetch env (resolve env remaining) inclusion.base inclusion.chain name
    = amounts path (resolveWithin env (inclusion.push env path document))
  := by
  subst hpath
  rw [fetch, if_neg hchain, hread, amounts]
  cases document with
  | object members =>
    have hresolve : resolveWithin env (inclusion.push env (env.expand inclusion.base name)
          (.object members))
        = Document.object <$> resolve env remaining
            ((env.expand inclusion.base name).parent?.getD inclusion.base)
            (inclusion.chain ++ [env.files.canonical (env.expand inclusion.base name)])
            members := by
      rw [resolveWithin, Inclusion.room_push, hroom, Nat.add_sub_cancel, Inclusion.push]
    rw [hresolve, bind_map_left]
  | _ => rfl

/-- Merging a file calls the resolution with the file on the chain, if at all, and leaves the
chain as it was. -/
theorem safe_mergeOne (h : inclusion.Proper env root) (hroom : inclusion.room = remaining + 1)
    (hstate : Merges env remaining inclusion.base inclusion.chain merged (name :: later) state) :
  (mergeOne env inclusion.base state name).Safe
    (fun inner => inner.Proper env root ∧ inner.room < inclusion.room) (Inclusion.Resolved env)
    (Merges env remaining inclusion.base inclusion.chain merged later)
  := by
  rw [mergeOne, hstate.balanced]
  split
  case isTrue hchain =>
    apply Calling.safe_pure
    apply hstate.note
    rw [fetch, if_pos hchain]
  case isFalse hchain =>
    cases hread : env.readDocument (env.expand inclusion.base name) with
    | error error =>
      apply Calling.safe_pure
      apply (hstate.read _).note
      rw [fetch, if_neg hchain, hread]
    | ok document =>
      have hless := @Inclusion.room_push env inclusion (env.expand inclusion.base name) document
      apply Calling.safe_ask_bind
      · use h.push (by omega) hchain hread
        change (inclusion.push env (env.expand inclusion.base name) document).room < inclusion.room
        omega
      · intro answer hanswer
        apply Calling.safe_pure
        apply (hstate.read _).add hanswer.chain
        rw [hanswer.result]
        exact fetch_eq_amounts rfl hchain hread hroom

/-- The files that an object includes are merged into it one after the other. -/
theorem safe_merging (h : inclusion.Proper env root) (hroom : inclusion.room = remaining + 1)
    (names : List String) (members : Logged Notice Members) :
  (names.foldlM (mergeOne env inclusion.base) ⟨inclusion.chain, members, []⟩).Safe
    (fun inner => inner.Proper env root ∧ inner.room < inclusion.room) (Inclusion.Resolved env)
    (Merges env remaining inclusion.base inclusion.chain
      (mergeNames env remaining inclusion.base inclusion.chain names members) [])
  := by
  apply Calling.safe_foldlM
  case hstep =>
    intro name later state hstate
    exact safe_mergeOne h hroom hstate
  case h => exact ⟨rfl, rfl⟩

/-! ### The resolution as a whole -/

theorem resolveWithin_object (env : Environment) (base : Path) (chain : List Path)
    (members : Members) :
  resolveWithin env ⟨base, chain, .object members⟩
    = Document.object <$> resolve env (depthLimit + 1 - chain.length) base chain members
  := rfl

/-- The body of the resolution calls it with a longer chain, if ever, and resolves the document
it is called for. -/
theorem safe_resolution (h : inclusion.Proper env root) :
  (resolution env inclusion).Safe
    (fun inner => inner.Proper env root ∧ inner.room < inclusion.room) (Inclusion.Resolved env)
    (inclusion.Resolved env)
  := by
  obtain ⟨base, chain, document⟩ := inclusion
  cases document with
  | object members =>
    have hlength : chain.length ≤ depthLimit + 1 := h.length
    simp only [resolution]
    cases hkey : members.lookup key with
    | none =>
      apply Calling.safe_pure
      constructor
      case chain => rfl
      case result =>
        rw [resolveWithin_object, resolve_of_none hkey]
        rfl
      case reads => exact fun _ => rfl
    | some value =>
      -- The depth is at its limit just if there is no room for one more file on the chain.
      by_cases hdeep : depthLimit ≤ chain.length - 1
      · have hfull : chain.length = depthLimit + 1 := by
          have hlimit : 0 < depthLimit := by decide
          omega
        simp only [if_pos hdeep]
        apply Calling.safe_pure
        constructor
        case chain => rfl
        case result =>
          rw [resolveWithin_object, hfull, Nat.sub_self, resolve_zero hkey]
          rfl
        case reads => exact fun _ => rfl
      · obtain ⟨remaining, hroom⟩ : ∃ remaining, depthLimit + 1 - chain.length = remaining + 1 :=
          ⟨depthLimit - chain.length, by omega⟩
        simp only [if_neg hdeep]
        apply (safe_merging h hroom _ _).bind
        intro state hstate
        apply Calling.safe_pure
        constructor
        case chain => exact hstate.balanced
        case result =>
          have hcompletes := hstate.completes
          rw [mergeNames_nil] at hcompletes
          rw [resolveWithin_object, hroom, resolve_succ hkey, ← hcompletes]
        case reads =>
          intro hfull
          change depthLimit < chain.length at hfull
          omega
  | _ => exact ⟨rfl, rfl, fun _ => rfl⟩

/-- What is resolved of a file's root, each on its own: the items of an array, or the root. -/
def parts (root : Document) : List Document :=
  match root with
  | .array items => items
  | root => [root]

theorem distinct_of_mem_parts {path : Path} {root : Document}
    (hread : env.readDocument path = .ok root) {members : Members}
    (hpart : .object members ∈ parts root) :
  members.Distinct
  := by
  cases root with
  | array items =>
    obtain ⟨text, -, hdoc⟩ := Environment.readDocument_eq_ok_iff.mp hread
    obtain ⟨content, hcontent⟩ := exists_content_of_mem (document?_toUTF8 hdoc) hpart
    obtain ⟨text', -, hdoc'⟩ := document?_eq_some_iff.mp hcontent
    exact Document.distinct_of_read hdoc'
  | object members' =>
    cases List.mem_singleton.mp hpart
    exact Environment.distinct_readDocument hread
  | _ => cases List.mem_singleton.mp hpart

/-- What a call of the resolution is like, and what it comes back with, when a file is the
root. -/
structure Bounded (env : Environment) (root : Path) (call : Call Inclusion Resolution) :
    Prop where
  level : call.level ≤ 9
  starts : call.request.chain.head? = some (env.files.canonical root)
  distinct : call.request.chain.Pairwise fun path path' => ¬ path.same path'
  read : ∀ path ∈ call.request.chain, ∃ file document,
    env.readDocument file = .ok document ∧ env.files.canonical file = path
  length : call.request.chain.length ≤ 9
  balanced : call.answer.chain = call.request.chain
  /-- Eight includes below the root, nothing more is read. -/
  unread : call.request.chain.length = 9 → call.answer.reads = []
  /-- There an object is kept but for its own includes, with one warning if it has any. -/
  kept : call.request.chain.length = 9 → ∀ members, call.request.document = .object members →
    ∃ kept : Members, call.answer.result.value = .object kept
      ∧ (∀ name ≠ key, kept.lookup name = members.lookup name)
      ∧ call.answer.result.log
        = if (members.lookup key).isSome then [.warning (.includeTooDeep 8 8)] else []
  /-- Nothing is left to include. -/
  emptied : ∀ members, call.request.document = .object members →
    ∃ resolved : Members, call.answer.result.value = .object resolved
      ∧ resolved.lookup key = none
  other : ¬ call.request.document.isObject → call.answer.result = pure call.request.document

theorem bounded_of_proper {call : Call Inclusion Resolution} (hlevel : call.level ≤ 9)
    (hproper : call.request.Proper env root) (hresolved : call.request.Resolved env call.answer) :
  Bounded env root call
  := by
  obtain ⟨level, ⟨base, chain, document⟩, ⟨chain', result, reads⟩⟩ := call
  obtain ⟨hchain, hresult, hreads⟩ := hresolved
  constructor
  case level => exact hlevel
  case starts => exact hproper.starts
  case distinct => exact hproper.distinct
  case read => exact hproper.read
  case length => exact hproper.length
  case balanced => exact hchain
  case unread =>
    intro hfull
    apply hreads
    change chain.length = 9 at hfull
    change depthLimit < chain.length
    rw [hfull]
    decide
  case kept =>
    rintro hfull members rfl
    change chain.length = 9 at hfull
    change result = resolveWithin env ⟨base, chain, .object members⟩ at hresult
    have hdistinct : Members.Distinct members := hproper.members members rfl
    -- There are nine files on the chain, so there is no room for another.
    rw [resolveWithin_object, hfull, depthLimit] at hresult
    change ∃ kept : Members, result.value = .object kept ∧ _ ∧ result.log = _
    rw [hresult, Logged.value_map, Logged.log_map]
    cases hkey : members.lookup key with
    | none =>
      rw [resolve_of_none hkey]
      exact ⟨members, rfl, fun _ _ => rfl, rfl⟩
    | some value =>
      rw [resolve_zero hkey]
      use Members.swapRemove key members, rfl
      constructor
      · intro name hname
        rw [hdistinct.lookup_swapRemove, if_neg hname]
      · rfl
  case emptied =>
    rintro members rfl
    change result = resolveWithin env ⟨base, chain, .object members⟩ at hresult
    have hdistinct : Members.Distinct members := hproper.members members rfl
    change ∃ resolved : Members, result.value = .object resolved ∧ _
    rw [hresult, resolveWithin_object, Logged.value_map]
    exact ⟨_, rfl, lookup_key_resolve hdistinct _⟩
  case other =>
    intro hobject
    cases document with
    | object members => exact absurd rfl hobject
    | _ => exact hresult

/-- The resolution of a root, or of an item of it, comes to an end, with the object that
`resolveRoot` gives and with the chain as it was, whatever includes what.  Every call of it is
made with a chain that starts with the root, in which no file comes twice, and of at most nine
files.  It leaves the chain as it was and the object without an include; and with nine files on
the chain it reads no more. -/
theorem includes_end (env : Environment) {path : Path} {root document : Document}
    (hread : env.readDocument path = .ok root) (hpart : document ∈ parts root) :
  ∃ reads calls,
    Ends (resolution env) ⟨path.parent?.getD ⟨"."⟩, [env.files.canonical path], document⟩
        ⟨[env.files.canonical path], resolveRoot env path document, reads⟩ calls
      ∧ ∀ call ∈ calls, Bounded env path call
  := by
  have hproper : Inclusion.Proper env path
      ⟨path.parent?.getD ⟨"."⟩, [env.files.canonical path], document⟩ := by
    constructor
    case starts => rfl
    case distinct => exact List.pairwise_singleton _ _
    case read =>
      intro file hfile
      exact ⟨path, root, hread, (List.mem_singleton.mp hfile).symm⟩
    case length => exact Nat.succ_le_succ (Nat.zero_le depthLimit)
    case members =>
      rintro members rfl
      exact distinct_of_mem_parts hread hpart
  obtain ⟨⟨chain, result, reads⟩, calls, hends, hresolved, hcalls⟩ :=
    Calling.exists_ends (fun _ => safe_resolution) hproper
  obtain rfl : chain = [env.files.canonical path] := hresolved.chain
  have hresult : result = resolveRoot env path document := by
    apply Eq.trans hresolved.result
    cases document <;> rfl
  rw [hresult] at hends
  use reads, calls, hends
  intro call hcall
  obtain ⟨hlevel, hcall, hanswer⟩ := hcalls call hcall
  exact bounded_of_proper hlevel hcall hanswer

/-- Two files that include the root in turn, one of them through the other. -/
theorem includes_end_sharing :
  sharing.readDocument ⟨"/bars"⟩ = .ok (.object barsObject)
    ∧ ∃ reads calls,
      Ends (resolution sharing) ⟨⟨"/"⟩, [⟨"/bars"⟩], .object barsObject⟩
          ⟨[⟨"/bars"⟩], resolveRoot sharing ⟨"/bars"⟩ (.object barsObject), reads⟩ calls
        ∧ ∀ call ∈ calls, Bounded sharing ⟨"/bars"⟩ call
  := by
  have hread : sharing.readDocument ⟨"/bars"⟩ = .ok (.object barsObject) :=
    Environment.readDocument_of_read (Document.object barsObject).compact rfl rfl
  have hcanonical : sharing.files.canonical ⟨"/bars"⟩ = ⟨"/bars"⟩ := by decide
  have hparent : (Path.mk "/bars").parent?.getD ⟨"."⟩ = ⟨"/"⟩ := by decide
  have hends := includes_end sharing hread (List.mem_singleton.mpr rfl)
  rw [hcanonical, hparent] at hends
  exact ⟨hread, hends⟩

end Include

end StatusBar

import Mathlib.Data.List.Nodup
import StatusBar.Proofs.Config.AltClick
import StatusBar.Proofs.Placement.Tree
import StatusBar.Proofs.Recursion.Calling

/-!
# How deep the walks over groups go

The search for a reference, the walk that collects the modules and the building of a tree call
themselves for the groups that they go into.  Here they are given by their bodies, with no
limit to how deep they go.  The search and the walk keep an account of all groups that were
gone into, which grows from branch to branch; the building of a tree keeps a stack of the
groups that a list is inside of, which shrinks again.  Either way a call is for a group that
is not on the account it is made with, and there are only as many of these as the sections
and the groups list.  So all three come to an end, and with what they come to when they may go
as deep as the number of groups says.
-/

namespace StatusBar

namespace Placement

open Calling (Safe Ends ask)

/-- The different group references that the sections and the groups of a document list. -/
def listedGroups (doc : Document) : List String :=
  (((Section.all ++ (memberNames doc).filter isGroupReference).flatMap (moduleList doc)).filter
    isGroupReference).eraseDups

/-- A list is that of a section or of a group. -/
def IsList (list : String) : Prop :=
  list ∈ Section.all ∨ isGroupReference list

/-- How many groups are listed that are not among those entered. -/
def unentered (doc : Document) (entered : List String) : Nat :=
  ((listedGroups doc).filter (· ∉ entered)).length

variable {doc : Document} {list reference : String}

theorem mem_listedGroups (hlist : IsList list) (hlisted : reference ∈ moduleList doc list)
    (hgroup : isGroupReference reference) :
  reference ∈ listedGroups doc
  := by
  apply List.mem_eraseDups.mpr
  apply List.mem_filter.mpr
  constructor
  · apply List.mem_flatMap.mpr
    use list
    constructor
    · apply List.mem_append.mpr
      apply hlist.imp_right
      intro hlist
      exact List.mem_filter.mpr ⟨mem_memberNames hlisted, hlist⟩
    · exact hlisted
  · exact hgroup

/-- To go as deep as there are groups in any list is to go as deep as there are in those of
sections and groups, or deeper. -/
theorem length_listedGroups_lt (doc : Document) :
  (listedGroups doc).length < walkDepth doc
  := by
  apply Nat.lt_succ_of_le
  apply (nodup_eraseDups _).length_le_of_subset
  intro group hgroup
  obtain ⟨hmem, hgroup⟩ := List.mem_filter.mp (List.mem_eraseDups.mp hgroup)
  obtain ⟨list, -, hlisted⟩ := List.mem_flatMap.mp hmem
  exact mem_groupReferences hlisted hgroup

/-- Where a listed group is entered, fewer are left. -/
theorem unentered_lt (hlist : IsList list) (hlisted : reference ∈ moduleList doc list)
    (hgroup : isGroupReference reference) {entered entered' : List String}
    (hsubset : entered ⊆ entered') (hnew : reference ∉ entered) (hentered : reference ∈ entered') :
  unentered doc entered' < unentered doc entered
  := length_filter_notMem_lt hsubset (mem_listedGroups hlist hlisted hgroup) hnew hentered

/-- A function that calls itself for the lists of groups.  Each of its calls is made with an
account of groups, and is for the list of a section or of a group.  The calls in the course of
one are made with accounts that leave fewer groups, and functions that may go so and so deep
answer as its body does. -/
structure Descends {Request Answer : Type} (doc : Document)
    (body : Request → Calling Request Answer Answer) (list : Request → String)
    (account : Request → List String) (good : Request → Answer → Prop)
    (answers : Nat → Request → Answer) : Prop where
  safe : ∀ request, IsList (list request) →
    (body request).Safe
      (fun inner => IsList (list inner)
        ∧ unentered doc (account inner) < unentered doc (account request))
      good (good request)
  answers : ∀ depth request,
    answers (depth + 1) request = (body request).value (answers depth)

/-- Every call of such a function comes to an end.  The calls go no deeper than one more than
there are groups listed, and the answer is that of the functions that may go as deep as a
walk. -/
theorem Descends.exists_ends {Request Answer : Type}
    {body : Request → Calling Request Answer Answer} {list : Request → String}
    {account : Request → List String} {good : Request → Answer → Prop}
    {answers : Nat → Request → Answer} (h : Descends doc body list account good answers)
    {request : Request} (hlist : IsList (list request)) :
  ∃ calls, Ends body request (answers (walkDepth doc) request) calls
    ∧ ∀ call ∈ calls, call.level ≤ (listedGroups doc).length + 1
  := by
  obtain ⟨answer, calls, hends, -, hcalls⟩ := Calling.exists_ends h.safe hlist
  have hlevel : ∀ call ∈ calls, call.level ≤ (listedGroups doc).length + 1 := by
    intro call hcall
    apply Nat.le_trans (hcalls call hcall).1
    apply Nat.succ_le_succ
    apply List.length_filter_le
  have hanswer : answer = answers (walkDepth doc) request := by
    apply hends.answer_eq h.answers
    intro call hcall
    exact Nat.le_trans (hlevel call hcall) (length_listedGroups_lt doc)
  rw [hanswer] at hends
  use calls, hends, hlevel

/-! ### The search for a reference -/

/-- What the search is called for: a list, and the groups entered so far, the latest first. -/
structure Lookup where
  list : String
  entered : List String

/-- Look for a wanted reference among some, and call the search for a group that is met for
the first time.  It answers as `seek` does: with the groups entered, or none if it finds one. -/
def searchAmong (wanted : String → Bool) : (references : List String) →
    (entered : List String) → Calling Lookup (Option (List String)) (Option (List String))
  | [], entered => pure (some entered)
  | reference :: references, entered =>
    if wanted reference then
      pure none
    else if isGroupReference reference && !entered.contains reference then do
      match ← ask ⟨reference, reference :: entered⟩ with
      | none => pure none
      | some entered => searchAmong wanted references entered
    else
      searchAmong wanted references entered

/-- The body of the search. -/
def search (doc : Document) (wanted : String → Bool) (lookup : Lookup) :
    Calling Lookup (Option (List String)) (Option (List String)) :=
  searchAmong wanted (moduleList doc lookup.list) lookup.entered

/-- A search that finds nothing leaves no group out of account. -/
def Lookup.Keeps (lookup : Lookup) (answer : Option (List String)) : Prop :=
  ∀ entered ∈ answer, lookup.entered ⊆ entered

theorem safe_searchAmong {wanted : String → Bool} {lookup : Lookup} (hlist : IsList lookup.list)
    {references entered : List String} (hlisted : references ⊆ moduleList doc lookup.list)
    (hentered : lookup.entered ⊆ entered) :
  (searchAmong wanted references entered).Safe
    (fun inner => IsList inner.list ∧ unentered doc inner.entered < unentered doc lookup.entered)
    Lookup.Keeps lookup.Keeps
  := by
  induction references generalizing entered with
  | nil =>
    intro entered' h
    cases h
    exact hentered
  | cons reference references ih =>
    obtain ⟨hreference, hreferences⟩ := List.cons_subset.mp hlisted
    rw [searchAmong]
    split
    case isTrue =>
      intro entered' h
      cases h
    case isFalse =>
      split
      case isTrue hnew =>
        obtain ⟨hgroup, hnew⟩ : isGroupReference reference ∧ reference ∉ entered := by
          simpa using hnew
        apply Calling.safe_ask_bind
        · use .inr hgroup
          apply unentered_lt hlist hreference hgroup _ (fun hmem => hnew (hentered hmem))
            List.mem_cons_self
          exact List.Subset.trans hentered (List.subset_cons_self _ _)
        · intro answer hanswer
          cases answer with
          | none =>
            intro entered' h
            cases h
          | some entered' =>
            apply ih hreferences
            have hcons := List.Subset.trans (List.subset_cons_self _ _) (hanswer entered' rfl)
            exact List.Subset.trans hentered hcons
      case isFalse => exact ih hreferences hentered

/-- The search that may go so and so deep answers as the body does. -/
theorem seek_succ (doc : Document) (wanted : String → Bool) (depth : Nat) (list : String)
    (entered : List String) :
  seek doc wanted (depth + 1) list entered
    = (search doc wanted ⟨list, entered⟩).value fun inner =>
        seek doc wanted depth inner.list inner.entered
  := by
  rw [seek, search]
  generalize moduleList doc list = references
  induction references generalizing entered with
  | nil => rfl
  | cons reference references ih =>
    rw [List.foldlM_cons, searchAmong]
    split
    case isTrue => rfl
    case isFalse =>
      split
      case isTrue =>
        rw [Calling.value_bind, Calling.value_ask]
        cases hseek : seek doc wanted depth reference (reference :: entered) with
        | none => rfl
        | some entered' => exact ih entered'
      case isFalse => exact ih entered

theorem descends_search (doc : Document) (wanted : String → Bool) :
  Descends doc (search doc wanted) Lookup.list Lookup.entered Lookup.Keeps
    fun depth lookup => seek doc wanted depth lookup.list lookup.entered
  := by
  constructor
  case safe =>
    intro lookup hlist
    exact safe_searchAmong hlist (List.Subset.refl _) (List.Subset.refl _)
  case answers =>
    intro depth lookup
    exact seek_succ doc wanted depth lookup.list lookup.entered

/-! ### The walk that collects the modules -/

/-- What the walk has collected: the groups entered, the latest first, and the modules. -/
structure Collected where
  entered : List String
  modules : List String

/-- Collect a reference: a module is added, and the walk is called for a group that is met for
the first time. -/
def collectOne (state : Collected) (reference : String) :
    Calling (String × Collected) Collected Collected :=
  if isGroupReference reference then
    if state.entered.contains reference then
      pure state
    else
      ask (reference, { state with entered := reference :: state.entered })
  else
    pure { state with modules := state.modules ++ [reference] }

/-- The body of the walk. -/
def collect (doc : Document) (request : String × Collected) :
    Calling (String × Collected) Collected Collected :=
  (moduleList doc request.1).foldlM collectOne request.2

/-- What has been collected when a walk begins with nothing met, after some modules. -/
def Walk.collected (state : Walk) (earlier : List String) : Collected where
  entered := state.entered
  modules := earlier ++ state.met.reverse.filter fun reference => !isGroupReference reference

/-- Whatever was met before a walk comes before what the walk meets. -/
theorem walk_append (depth : Nat) (list : String) (entered met earlier : List String) :
  walk doc depth list ⟨entered, met ++ earlier⟩
    = ⟨(walk doc depth list ⟨entered, met⟩).entered,
       (walk doc depth list ⟨entered, met⟩).met ++ earlier⟩
  := by
  induction depth generalizing list entered met with
  | zero => rfl
  | succ depth ih =>
    rw [walk_succ, walk_succ]
    generalize moduleList doc list = references
    induction references generalizing entered met with
    | nil => rfl
    | cons reference references ih' =>
      rw [List.foldl_cons, List.foldl_cons]
      by_cases hnew : isGroupReference reference ∧ reference ∉ entered
      · rw [visit_of_new hnew.1 hnew.2, visit_of_new hnew.1 hnew.2, ← List.cons_append, ih, ih']
      · rw [visit_of_not_new hnew, visit_of_not_new hnew, ← List.cons_append, ih']

/-- The walk that may go so and so deep, after some modules. -/
def collectWithin (doc : Document) (depth : Nat) (request : String × Collected) : Collected :=
  (walk doc depth request.1 ⟨request.2.entered, []⟩).collected request.2.modules

theorem collectWithin_collected (depth : Nat) (list : String) (state : Walk)
    (earlier : List String) :
  collectWithin doc depth (list, state.collected earlier)
    = (walk doc depth list state).collected earlier
  := by
  obtain ⟨entered, met⟩ := state
  have happend := @walk_append doc depth list entered [] met
  rw [List.nil_append] at happend
  rw [happend]
  simp [collectWithin, Walk.collected]

theorem value_collectOne (depth : Nat) (state : Walk) (earlier : List String)
    (reference : String) :
  (collectOne (state.collected earlier) reference).value (collectWithin doc depth)
    = (visit doc depth state reference).collected earlier
  := by
  rw [collectOne]
  split
  case isTrue hgroup =>
    have hmet : ∀ state : Walk, Walk.collected ⟨state.entered, reference :: state.met⟩ earlier
        = state.collected earlier := by
      intro state
      simp [Walk.collected, List.filter_append, hgroup]
    split
    case isTrue hold =>
      have hold : ¬ (isGroupReference reference ∧ reference ∉ state.entered) := by
        simpa [Walk.collected, hgroup] using hold
      rw [visit_of_not_new hold, Calling.value_pure, hmet]
    case isFalse hnew =>
      have hnew : reference ∉ state.entered := by simpa [Walk.collected] using hnew
      rw [visit_of_new hgroup hnew, Calling.value_ask, ← collectWithin_collected]
      congr 2
      exact (hmet ⟨reference :: state.entered, state.met⟩).symm
  case isFalse hmodule =>
    have hmodule' : ¬ (isGroupReference reference ∧ reference ∉ state.entered) :=
      fun h => hmodule h.1
    rw [visit_of_not_new hmodule', Calling.value_pure]
    simp [Walk.collected, List.filter_append, hmodule]

/-- The walk that may go so and so deep collects what the body does. -/
theorem collectWithin_succ (doc : Document) (depth : Nat) (request : String × Collected) :
  collectWithin doc (depth + 1) request = (collect doc request).value (collectWithin doc depth)
  := by
  obtain ⟨list, entered, modules⟩ := request
  have hvisits : ∀ (references : List String) (state : Walk),
      (references.foldl (visit doc depth) state).collected modules
        = references.foldl
          (fun state reference => (collectOne state reference).value (collectWithin doc depth))
          (state.collected modules) := by
    intro references
    induction references with
    | nil =>
      intro state
      rfl
    | cons reference references ih =>
      intro state
      rw [List.foldl_cons, List.foldl_cons, value_collectOne, ih]
  have hstart : Walk.collected ⟨entered, []⟩ modules = ⟨entered, modules⟩ := by
    simp [Walk.collected]
  rw [collectWithin, walk_succ, hvisits, hstart, collect, Calling.value_foldlM]

theorem descends_collect (doc : Document) :
  Descends doc (collect doc) Prod.fst (fun request => request.2.entered)
    (fun request answer => request.2.entered ⊆ answer.entered) (collectWithin doc)
  := by
  constructor
  case answers => exact collectWithin_succ doc
  case safe =>
    rintro ⟨list, request⟩ hlist
    rw [collect]
    apply Calling.safe_foldlM_of_mem
    case h => exact List.Subset.refl _
    case hstep =>
      intro reference hlisted state hstate
      rw [collectOne]
      split
      case isTrue hgroup =>
        split
        case isTrue => exact hstate
        case isFalse hnew =>
          have hnew : reference ∉ state.entered := by simpa using hnew
          constructor
          · use .inr hgroup
            apply unentered_lt hlist hlisted hgroup _ (fun hmem => hnew (hstate hmem))
              List.mem_cons_self
            exact List.Subset.trans hstate (List.subset_cons_self _ _)
          · intro answer hanswer
            have hcons := List.Subset.trans (List.subset_cons_self _ _) hanswer
            exact List.Subset.trans hstate hcons
      case isFalse => exact hstate

/-! ### The building of a tree -/

/-- What the building of nodes is called for: a list, the direction around it, and the groups
that it is inside of, the outermost first. -/
structure Site where
  list : String
  outer : Orientation
  stack : List String

/-- The stack of groups and the nodes built so far. -/
structure Built where
  stack : List String
  nodes : Logged Warning (List Node)

/-- Build the node of a reference.  A group that the list is inside of is left out, and for
any other one the building is called with the group on the stack, which is taken off then. -/
def buildOne (doc : Document) (list : String) (outer : Orientation) (state : Built)
    (reference : String) : Calling Site Built Built :=
  match GroupReference.ofText? reference with
  | none => pure { state with nodes := (· ++ [.module reference]) <$> state.nodes }
  | some parts =>
    if state.stack.contains reference then
      let warning := Warning.groupInsideItself reference list
      pure { state with nodes := ⟨state.nodes.value, state.nodes.log ++ [warning]⟩ }
    else do
      let orientation := (groupOrientation doc reference).resolve outer
      let below ← ask ⟨reference, orientation, state.stack ++ [reference]⟩
      pure
        ⟨below.stack.dropLast, do
          let nodes ← state.nodes
          let children ← below.nodes
          return nodes ++ [.group reference parts orientation children]⟩

/-- The body of the building. -/
def build (doc : Document) (site : Site) : Calling Site Built Built :=
  (moduleList doc site.list).foldlM (buildOne doc site.list site.outer) ⟨site.stack, pure []⟩

/-- The nodes of a list that may go so and so deep, with the stack as it was. -/
def buildWithin (doc : Document) (depth : Nat) (site : Site) : Built :=
  ⟨site.stack, Node.ofList doc depth site.stack.reverse site.outer site.list⟩

/-- The node of a reference, if it has one, comes after those built before. -/
theorem value_buildOne (depth : Nat) (list : String) (outer : Orientation) (stack : List String)
    (nodes : Logged Warning (List Node)) (reference : String) :
  (buildOne doc list outer ⟨stack, nodes⟩ reference).value (buildWithin doc depth)
    = ⟨stack, do
        let before ← nodes
        let node? ← Node.ofReference doc depth stack.reverse outer list reference
        return before ++ node?.toList⟩
  := by
  rw [buildOne]
  cases hparts : GroupReference.ofText? reference with
  | none =>
    rw [Node.ofReference_module hparts, Calling.value_pure]
    rfl
  | some parts =>
    by_cases hinside : reference ∈ stack
    · have hcontains : stack.contains reference = true := by simpa using hinside
      rw [Node.ofReference_inside hparts (List.mem_reverse.mpr hinside)]
      simp only [hcontains, if_true, Calling.value_pure]
      simp [Logged.withNotes, bind, pure]
    · have hcontains : stack.contains reference = false := by simpa using hinside
      rw [Node.ofReference_group hparts (List.mem_reverse.not.mpr hinside)]
      simp only [hcontains, Bool.false_eq_true, if_false, Calling.value_bind, Calling.value_ask,
        Calling.value_pure]
      simp [buildWithin]

/-- The nodes that may go so and so deep are those that the body builds. -/
theorem buildWithin_succ (doc : Document) (depth : Nat) (site : Site) :
  buildWithin doc (depth + 1) site = (build doc site).value (buildWithin doc depth)
  := by
  obtain ⟨list, outer, stack⟩ := site
  have hnodes : ∀ (references : List String) (nodes : Logged Warning (List Node)),
      references.foldl
          (fun state reference =>
            (buildOne doc list outer state reference).value (buildWithin doc depth))
          ⟨stack, nodes⟩
        = ⟨stack, do
            let before ← nodes
            let nodes? ←
              Logged.each (Node.ofReference doc depth stack.reverse outer list) references
            return before ++ nodes?.filterMap id⟩ := by
    intro references
    induction references with
    | nil =>
      intro nodes
      simp [Logged.each, bind, pure]
    | cons reference references ih =>
      intro nodes
      rw [List.foldl_cons, value_buildOne, ih, Logged.each_cons]
      congr 1
      simp only [bind_assoc, pure_bind]
      apply bind_congr
      intro before
      apply bind_congr
      intro node?
      apply bind_congr
      intro nodes?
      cases node? <;> simp
  rw [build, Calling.value_foldlM, hnodes, pure_bind]
  rfl

theorem descends_build (doc : Document) :
  Descends doc (build doc) Site.list Site.stack
    (fun site built => built.stack = site.stack) (buildWithin doc)
  := by
  constructor
  case answers => exact buildWithin_succ doc
  case safe =>
    rintro ⟨list, outer, stack⟩ hlist
    rw [build]
    apply Calling.safe_foldlM_of_mem
    case h => rfl
    case hstep =>
      rintro reference hlisted ⟨stack', nodes⟩ hstate
      change stack' = stack at hstate
      subst hstate
      rw [buildOne]
      split
      case h_1 => rfl
      case h_2 parts hparts =>
        split
        case isTrue => rfl
        case isFalse hnew =>
          have hnew : reference ∉ stack' := by simpa using hnew
          have hgroup : isGroupReference reference := by
            apply (isGroupReference_iff reference).mpr
            exact .inl (Option.isSome_iff_exists.mpr ⟨parts, hparts⟩)
          apply Calling.safe_ask_bind
          · use .inr hgroup
            apply unentered_lt hlist hlisted hgroup (List.subset_append_left _ _) hnew
            exact List.mem_append_right _ (List.mem_singleton_self _)
          · intro below hbelow
            apply Calling.safe_pure
            change below.stack.dropLast = stack'
            rw [hbelow]
            exact List.dropLast_concat

/-! ### All three -/

/-- Button codes change no list, so the same groups are listed. -/
theorem listedGroups_normalize (doc : Document) :
  listedGroups (AltClick.normalize doc) = listedGroups doc
  := by
  have hnames : memberNames (AltClick.normalize doc) = memberNames doc := by
    cases doc with
    | object members =>
      apply List.foldlRecOn (motive := fun kept : Members =>
        kept.map Prod.fst = members.map Prod.fst) _ _ rfl
      intro kept hkept name _
      rw [Members.names_modify, hkept]
    | _ => rfl
  have hlists : moduleList (AltClick.normalize doc) = moduleList doc :=
    funext (AltClick.moduleList_normalize doc)
  rw [listedGroups, listedGroups, hnames, hlists]

/-- Called for a section or a group of any document, with whatever account of groups, the
search, the walk and the building of nodes come to an end, and they answer as the functions
do that may only go as deep as a walk.  Their calls go no deeper than one more than there are
different group references in the lists of the sections and groups.  The stack is left as it
was, and a configuration lists the groups that its document did. -/
theorem walks_end (doc : Document) {list : String}
    (hlist : list ∈ Section.all ∨ isGroupReference list) :
  (∀ wanted entered, ∃ calls,
      Ends (search doc wanted) ⟨list, entered⟩ (seek doc wanted (walkDepth doc) list entered)
          calls
        ∧ ∀ call ∈ calls, call.level ≤ (listedGroups doc).length + 1)
    ∧ (∀ entered modules, ∃ calls,
      Ends (collect doc) (list, ⟨entered, modules⟩)
          ((walk doc (walkDepth doc) list ⟨entered, []⟩).collected modules) calls
        ∧ ∀ call ∈ calls, call.level ≤ (listedGroups doc).length + 1)
    ∧ (∀ outer stack, ∃ calls,
      Ends (build doc) ⟨list, outer, stack⟩
          ⟨stack, Node.ofList doc (walkDepth doc) stack.reverse outer list⟩ calls
        ∧ ∀ call ∈ calls, call.level ≤ (listedGroups doc).length + 1)
    ∧ listedGroups (Config.ofDocument doc).document = listedGroups doc
  := by
  constructor
  · intro wanted entered
    exact (descends_search doc wanted).exists_ends hlist
  constructor
  · intro entered modules
    exact (descends_collect doc).exists_ends hlist
  constructor
  · intro outer stack
    exact (descends_build doc).exists_ends hlist
  · exact listedGroups_normalize doc

/-- A bar with two groups that list each other, and another one that lists itself. -/
def cyclicGroups : Document :=
  .object
    [("modules-left", .array [.string "group/a"]),
     ("modules-right", .array [.string "group/self"]),
     ("group/a", .object [("modules", .array [.string "group/b", .string "clock"])]),
     ("group/b", .object [("modules", .array [.string "group/a"])]),
     ("group/self", .object [("modules", .array [.string "group/self", .string "cpu"])])]

/-- There are three groups, and no call goes deeper than four. -/
theorem walks_end_cyclicGroups :
  (∃ calls,
      Ends (search cyclicGroups (isListedAs "missing")) ⟨"modules-left", []⟩
          (some ["group/b", "group/a"]) calls
        ∧ ∀ call ∈ calls, call.level ≤ 4)
    ∧ (∃ calls,
      Ends (collect cyclicGroups) ("modules-left", ⟨[], []⟩) ⟨["group/b", "group/a"], ["clock"]⟩
          calls
        ∧ ∀ call ∈ calls, call.level ≤ 4)
    ∧ ∃ nodes calls,
      Ends (build cyclicGroups) ⟨"modules-right", .horizontal, []⟩ ⟨[], nodes⟩ calls
        ∧ Node.modulesOf nodes.value = ["cpu"]
        ∧ nodes.log = [.groupInsideItself "group/self" "group/self"]
        ∧ ∀ call ∈ calls, call.level ≤ 4
  := by
  have hcount : (listedGroups cyclicGroups).length = 3 := by decide +kernel
  have hseek : seek cyclicGroups (isListedAs "missing") (walkDepth cyclicGroups) "modules-left" []
      = some ["group/b", "group/a"] := by decide +kernel
  have hwalk : walk cyclicGroups (walkDepth cyclicGroups) "modules-left" ⟨[], []⟩
      = ⟨["group/b", "group/a"], ["clock", "group/a", "group/b", "group/a"]⟩ := by decide +kernel
  have hleft : "modules-left" ∈ Section.all := by decide
  have hright : "modules-right" ∈ Section.all := by decide
  obtain ⟨hsearch, hcollect, -, -⟩ := walks_end cyclicGroups (.inl hleft)
  obtain ⟨-, -, hbuild, -⟩ := walks_end cyclicGroups (.inl hright)
  constructor
  · have hends := hsearch (isListedAs "missing") []
    rw [hcount, hseek] at hends
    exact hends
  constructor
  · have hends := hcollect [] []
    rw [hcount, hwalk] at hends
    exact hends
  · obtain ⟨calls, hends, hlevel⟩ := hbuild .horizontal []
    rw [hcount] at hlevel
    exact ⟨_, calls, hends, by decide +kernel, by decide +kernel, hlevel⟩

end Placement

end StatusBar

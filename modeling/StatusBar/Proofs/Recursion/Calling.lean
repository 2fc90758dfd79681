import Mathlib.Data.List.Basic
import Mathlib.Tactic.Use

/-!
# Functions that call themselves

A function that calls itself is given by its body: a computation that stops at each of its
calls and goes on with the answer.  Nothing in a body says that the calls come to an end.
`Runs` answers every call by a run of the body, and notes the calls that are made and how
deep they are.  If a measure falls from every call to those that its body makes, each call
`Ends`, and the measure bounds how deep the calls go.
-/

namespace StatusBar

/-- A computation that makes calls. -/
inductive Calling (Request Answer α : Type) where
  | done (value : α)
  | call (request : Request) (next : Answer → Calling Request Answer α)

/-- A call that was made, and its answer.  The first call is at level one, and what is called
in the course of a call is one level deeper. -/
structure Call (Request Answer : Type) where
  level : Nat
  request : Request
  answer : Answer

namespace Calling

variable {Request Answer α β : Type}

/-- One computation after the other. -/
def bind : Calling Request Answer α → (α → Calling Request Answer β) → Calling Request Answer β
  | done value, after => after value
  | call request next, after => call request fun answer => (next answer).bind after

instance : Monad (Calling Request Answer) where
  pure := done
  bind := bind

/-- A call, and no more. -/
def ask (request : Request) : Calling Request Answer Answer :=
  call request done

/-- What a computation comes to if its calls have the answers that a function gives. -/
def value (answer : Request → Answer) : Calling Request Answer α → α
  | done value => value
  | call request next => (next (answer request)).value answer

theorem value_pure (answer : Request → Answer) (a : α) :
  (pure a : Calling Request Answer α).value answer = a
  := rfl

theorem value_ask (answer : Request → Answer) (request : Request) :
  (ask request).value answer = answer request
  := rfl

theorem value_bind (answer : Request → Answer) (first : Calling Request Answer α)
    (after : α → Calling Request Answer β) :
  (first >>= after).value answer = (after (first.value answer)).value answer
  := by
  change (first.bind after).value answer = _
  induction first with
  | done value => rfl
  | call request next ih => exact ih (answer request)

theorem value_foldlM (answer : Request → Answer) (step : β → α → Calling Request Answer β)
    (items : List α) (state : β) :
  (items.foldlM step state).value answer
    = items.foldl (fun state item => (step state item).value answer) state
  := by
  induction items generalizing state with
  | nil => rfl
  | cons item items ih => rw [List.foldlM_cons, value_bind, ih, List.foldl_cons]

/-! ### What a computation asks and comes to -/

/-- All calls of a computation are allowed, and it comes to a value of a kind, as long as the
answers are good. -/
def Safe (allowed : Request → Prop) (good : Request → Answer → Prop) (kind : α → Prop) :
    Calling Request Answer α → Prop
  | done value => kind value
  | call request next =>
    allowed request ∧ ∀ answer, good request answer → (next answer).Safe allowed good kind

variable {allowed : Request → Prop} {good : Request → Answer → Prop}

theorem safe_pure {kind : α → Prop} {value : α} (h : kind value) :
  (pure value : Calling Request Answer α).Safe allowed good kind
  := h

theorem safe_ask_bind {kind : α → Prop} {request : Request}
    {after : Answer → Calling Request Answer α} (hallowed : allowed request)
    (h : ∀ answer, good request answer → (after answer).Safe allowed good kind) :
  (ask request >>= after).Safe allowed good kind
  := ⟨hallowed, h⟩

theorem Safe.bind {kind : α → Prop} {kind' : β → Prop} {first : Calling Request Answer α}
    {after : α → Calling Request Answer β} (h : first.Safe allowed good kind)
    (hafter : ∀ value, kind value → (after value).Safe allowed good kind') :
  (first >>= after).Safe allowed good kind'
  := by
  change (first.bind after).Safe allowed good kind'
  induction first with
  | done value => exact hafter value h
  | call request next ih =>
    obtain ⟨hallowed, hnext⟩ := h
    use hallowed
    intro answer hanswer
    exact ih answer (hnext answer hanswer)

/-- A loop is safe if every round keeps an invariant, which may speak of the items to come. -/
theorem safe_foldlM {invariant : List α → β → Prop} {step : β → α → Calling Request Answer β}
    (hstep : ∀ item items state, invariant (item :: items) state →
      (step state item).Safe allowed good (invariant items))
    {items : List α} {state : β} (h : invariant items state) :
  (items.foldlM step state).Safe allowed good (invariant [])
  := by
  induction items generalizing state with
  | nil => exact h
  | cons item items ih =>
    rw [List.foldlM_cons]
    apply (hstep item items state h).bind
    intro state' h'
    exact ih h'

/-- A loop is safe if every round keeps what holds of the state. -/
theorem safe_foldlM_of_mem {kind : β → Prop} {step : β → α → Calling Request Answer β}
    {items : List α} (hstep : ∀ item ∈ items, ∀ state, kind state →
      (step state item).Safe allowed good kind)
    {state : β} (h : kind state) :
  (items.foldlM step state).Safe allowed good kind
  := by
  induction items generalizing state with
  | nil => exact h
  | cons item items ih =>
    obtain ⟨hitem, hitems⟩ := List.forall_mem_cons.mp hstep
    rw [List.foldlM_cons]
    apply (hitem state h).bind
    intro state' h'
    exact ih hitems h'

/-! ### Runs -/

/-- A computation within a call at some level comes to a value, every call being answered by
a run of the body.  The calls are listed as they begin. -/
inductive Runs (body : Request → Calling Request Answer Answer) :
    (level : Nat) → Calling Request Answer Answer → (value : Answer) →
    (calls : List (Call Request Answer)) → Prop where
  | done (level : Nat) (value : Answer) : Runs body level (done value) value []
  | call {level : Nat} {request : Request} {next : Answer → Calling Request Answer Answer}
    {answer value : Answer} {inner later : List (Call Request Answer)}
    (hinner : Runs body (level + 1) (body request) answer inner)
    (hnext : Runs body level (next answer) value later) :
    Runs body level (call request next) value
      (⟨level + 1, request, answer⟩ :: (inner ++ later))

/-- A call that is made from outside comes to an end, with one answer and one list of calls,
itself the first. -/
structure Ends (body : Request → Calling Request Answer Answer) (request : Request)
    (answer : Answer) (calls : List (Call Request Answer)) : Prop where
  runs : Runs body 0 (ask request) answer calls
  unique : ∀ answer' calls', Runs body 0 (ask request) answer' calls' →
    answer' = answer ∧ calls' = calls

variable {body : Request → Calling Request Answer Answer}

/-- A run is determined by where it begins. -/
theorem Runs.unique {level : Nat} {computation : Calling Request Answer Answer}
    {value value' : Answer} {calls calls' : List (Call Request Answer)}
    (h : Runs body level computation value calls)
    (h' : Runs body level computation value' calls') :
  value' = value ∧ calls' = calls
  := by
  induction h generalizing value' calls' with
  | done =>
    cases h'
    exact ⟨rfl, rfl⟩
  | call _ _ ihinner ihnext =>
    cases h' with
    | call hinner' hnext' =>
      obtain ⟨rfl, rfl⟩ := ihinner hinner'
      obtain ⟨rfl, rfl⟩ := ihnext hnext'
      exact ⟨rfl, rfl⟩

/-- Functions that go further and further down answer as the run does, as soon as one goes as
far as the calls. -/
theorem Runs.eq_value {answers : Nat → Request → Answer}
    (hanswers : ∀ depth request,
      answers (depth + 1) request = (body request).value (answers depth))
    {level depth : Nat} {computation : Calling Request Answer Answer} {value : Answer}
    {calls : List (Call Request Answer)} (h : Runs body level computation value calls)
    (hlevel : ∀ call ∈ calls, call.level ≤ level + depth) :
  value = computation.value (answers depth)
  := by
  induction h generalizing depth with
  | done => rfl
  | @call level request next answer value inner later hinner hnext ihinner ihnext =>
    obtain ⟨hfirst, hothers⟩ := List.forall_mem_cons.mp hlevel
    obtain ⟨hlevel, hlater⟩ := List.forall_mem_append.mp hothers
    -- The call itself is made at the next level, so the functions go down by one at least.
    obtain ⟨depth, rfl⟩ : ∃ less, depth = less + 1 :=
      Nat.exists_eq_succ_of_ne_zero (by change level + 1 ≤ level + depth at hfirst; omega)
    have hanswer : answer = answers (depth + 1) request := by
      rw [hanswers]
      apply ihinner
      intro call hcall
      have hdeeper := hlevel call hcall
      omega
    rw [Calling.value, ← hanswer]
    exact ihnext hlater

/-- A safe computation runs if all that it may call does. -/
theorem Safe.exists_runs {kind : Answer → Prop} {noted : Call Request Answer → Prop}
    {level : Nat}
    (hcalls : ∀ request, allowed request → ∃ answer inner,
      Runs body (level + 1) (body request) answer inner ∧ good request answer
        ∧ ∀ call ∈ (⟨level + 1, request, answer⟩ : Call Request Answer) :: inner, noted call)
    {computation : Calling Request Answer Answer} (h : computation.Safe allowed good kind) :
  ∃ value calls, Runs body level computation value calls ∧ kind value
    ∧ ∀ call ∈ calls, noted call
  := by
  induction computation with
  | done value =>
    use value, [], .done level value, h
    exact List.forall_mem_nil _
  | call request next ih =>
    obtain ⟨hallowed, hnext⟩ := h
    obtain ⟨answer, inner, hinner, hgood, hnoted⟩ := hcalls request hallowed
    obtain ⟨value, later, hlater, hkind, hnoted'⟩ := ih answer (hnext answer hgood)
    use value, ⟨level + 1, request, answer⟩ :: (inner ++ later), .call hinner hlater, hkind
    rw [← List.cons_append]
    exact List.forall_mem_append.mpr ⟨hnoted, hnoted'⟩

/-- If a measure falls from every call to those that its body makes, then the body of every
call runs to its end, and the calls go no deeper than a bound of the measure. -/
theorem exists_runs {measure : Request → Nat}
    (hbody : ∀ request, allowed request →
      (body request).Safe (fun inner => allowed inner ∧ measure inner < measure request) good
        (good request))
    (level : Nat) {request : Request} (h : allowed request) {bound : Nat}
    (hbound : measure request < bound) :
  ∃ answer inner, Runs body level (body request) answer inner ∧ good request answer
    ∧ ∀ call ∈ (⟨level, request, answer⟩ : Call Request Answer) :: inner,
      call.level < level + bound ∧ allowed call.request ∧ good call.request call.answer
  := by
  induction bound generalizing level request with
  | zero => cases hbound
  | succ bound ih =>
    have hcalls : ∀ inner, allowed inner ∧ measure inner < measure request →
        ∃ answer calls, Runs body (level + 1) (body inner) answer calls ∧ good inner answer
          ∧ ∀ call ∈ (⟨level + 1, inner, answer⟩ : Call Request Answer) :: calls,
            call.level < level + 1 + bound ∧ allowed call.request
              ∧ good call.request call.answer := by
      rintro inner ⟨hinner, hless⟩
      apply ih (level + 1) hinner
      omega
    obtain ⟨answer, inner, hinner, hgood, hnoted⟩ := (hbody request h).exists_runs hcalls
    use answer, inner, hinner, hgood
    have hdeeper : level + (bound + 1) = level + 1 + bound := by omega
    rw [List.forall_mem_cons, hdeeper]
    constructor
    · have hlevel : level < level + 1 + bound := by omega
      exact ⟨hlevel, h, hgood⟩
    · exact hnoted

/-- If a measure falls from every call to those that its body makes, then every call comes to
an end.  All calls on the way satisfy what the body asks of calls and grants to answers, and
they go as deep as the measure says. -/
theorem exists_ends {measure : Request → Nat}
    (hbody : ∀ request, allowed request →
      (body request).Safe (fun inner => allowed inner ∧ measure inner < measure request) good
        (good request))
    {request : Request} (h : allowed request) :
  ∃ answer calls, Ends body request answer calls ∧ good request answer
    ∧ ∀ call ∈ calls, call.level ≤ measure request + 1
      ∧ allowed call.request ∧ good call.request call.answer
  := by
  obtain ⟨answer, inner, hinner, hgood, hnoted⟩ :=
    exists_runs hbody 1 h (Nat.lt_succ_self _)
  have hrun : Runs body 0 (ask request) answer (⟨1, request, answer⟩ :: (inner ++ [])) :=
    .call hinner (.done 0 answer)
  rw [List.append_nil] at hrun
  use answer, ⟨1, request, answer⟩ :: inner, ⟨hrun, fun _ _ h' => hrun.unique h'⟩, hgood
  intro call hcall
  obtain ⟨hlevel, hallowed, hanswer⟩ := hnoted call hcall
  exact ⟨by omega, hallowed, hanswer⟩

/-- What a call ends with is what functions answer that go down as far as its calls. -/
theorem Ends.answer_eq {answers : Nat → Request → Answer}
    (hanswers : ∀ depth request,
      answers (depth + 1) request = (body request).value (answers depth))
    {request : Request} {answer : Answer} {calls : List (Call Request Answer)}
    (h : Ends body request answer calls) {depth : Nat}
    (hlevel : ∀ call ∈ calls, call.level ≤ depth) :
  answer = answers depth request
  := by
  apply h.runs.eq_value hanswers
  rw [Nat.zero_add]
  exact hlevel

end Calling

end StatusBar

import Quickwit.Search.Proto
import Mathlib.Data.List.Basic

/-!
# The memory cushion of a leaf search on a split

`leaf_search_single_split` waits until the memory usage lets a leaf request start
(`use_memory_with_limit`), and holds a cushion of `LEAF_REQUEST_MEMORY_CUSHION` bytes while it
opens the split, builds the query and the reader, and warms up; it drops the cushion before the
CPU-bound search. An error returns early and a cancellation drops the future at an await; either
way the guard is dropped with the other locals.

An execution is modelled by where it stands (`SingleSplitStage`), its guard and two ghost counters
of the cushions it took and gave back (`SingleSplitExec`); one step resumes it with the outcome of
what it awaits (`SingleSplitExec.step`). Any number of executions share the memory usage and
interleave, and new ones start at any time (`LeafSystem.step`).

* `SingleSplitExec.step_cases`: a step admits an execution, or moves it on to a later stage
  (`SingleSplitStage.rank`), keeping or dropping its guard.
* `LeafSystem.Inv.run`: in every reachable state the usage is its base value plus one cushion per
  execution that was admitted and has neither finished its warmup nor ended, and every execution
  gave back every cushion it took but the one it holds.
* `LeafSystem.run_getElem`: an execution sees only its own events; what a step does to it does
  not depend on the usage (`SingleSplitExec.advance_of_step`). So however the executions
  interleave, each computes `leafSearchSingleSplit` of its own outcomes
  (`leafSystem_result_of_interleaving`).
* `LeafSystem.usage_le_run`: what the admission is for. Starting at or under the threshold, the
  usage never passes it by more than one cushion (`leafSystem_usage_bounded`), and an execution
  waiting while nothing holds a cushion can always be admitted (`leafSystem_admits_when_idle`).
-/

namespace Quickwit.Search

/-- Modelled from the spec: the guard `use_memory_with_limit` of quickwit_common returns (not under
src); dropping it gives its bytes back to the memory usage. -/
structure MemoryUsageGuard where
  numBytes : ℕ
  deriving DecidableEq, Repr

variable {Hits : Type}

/-- Where an execution of `leaf_search_single_split` stands. -/
inductive SingleSplitStage (Hits : Type)
  /-- Awaiting `use_memory_with_limit`. -/
  | useMemory
  /-- Awaiting `open_index`. -/
  | openIndex
  /-- The index is open; the query, `index_config.query(..)?`, is next. -/
  | query
  /-- The query is built; the reader, `reader_builder()..try_into()?`, is next. -/
  | reader
  /-- Awaiting `warmup`. -/
  | warmup
  /-- Awaiting the search on the blocking pool. -/
  | search
  /-- Returned `res`. -/
  | returned (res : Except SearchError (LeafSearchResponse Hits))
  /-- Dropped at an await. -/
  | cancelled

namespace SingleSplitStage

/-- The stages that hold the cushion: admitted, and neither done with the warmup nor ended. -/
def holdsCushion : SingleSplitStage Hits → Bool
  | openIndex | query | reader | warmup => true
  | useMemory | search | returned _ | cancelled => false

/-- The execution has ended: it returned, or was dropped. -/
def ended : SingleSplitStage Hits → Bool
  | returned _ | cancelled => true
  | useMemory | openIndex | query | reader | warmup | search => false

def isUseMemory : SingleSplitStage Hits → Bool
  | useMemory => true
  | openIndex | query | reader | warmup | search | returned _ | cancelled => false

/-- How far an execution has gone through the stages of `leaf_search_single_split`. -/
def rank : SingleSplitStage Hits → ℕ
  | useMemory => 0
  | openIndex => 1
  | query => 2
  | reader => 3
  | warmup => 4
  | search => 5
  | returned _ | cancelled => 6

theorem holdsCushion_of_ended {st : SingleSplitStage Hits} (h : st.ended) :
    st.holdsCushion = false := by
  cases st <;> simp_all [ended, holdsCushion]

end SingleSplitStage

/-- An execution: its split, its stage, its guard, and the number of cushions it took and gave
back (ghost state). -/
structure SingleSplitExec (Hits : Type) where
  splitId : String
  stage : SingleSplitStage Hits
  memoryCushion : Option MemoryUsageGuard
  acquired : ℕ
  released : ℕ

/-- What an execution awaits resolves with; or the execution is dropped. -/
inductive SingleSplitEvent (Hits : Type)
  /-- `use_memory_with_limit` lets it start. -/
  | useMemory
  /-- `open_index(..).await?`: the index, or the error `?` converts. -/
  | openIndex (res : Except SearchError Unit)
  | query (res : Except SearchError Unit)
  | reader (res : Except SearchError Unit)
  /-- `warmup(..).await?`. -/
  | warmup (res : Except SearchError Unit)
  | search (res : Except JoinError (Except SearchError (LeafSearchResponse Hits)))
  /-- The future is dropped at its await. -/
  | cancel

/-- The result of the search task: a panic becomes an internal error naming the split. -/
def searchResult (splitId : String) :
    Except JoinError (Except SearchError (LeafSearchResponse Hits)) →
      Except SearchError (LeafSearchResponse Hits)
  | .error _ => .error (.internalError ("Leaf search panicked. split=" ++ splitId))
  | .ok res => res

namespace SingleSplitExec

/-- A new execution, before `use_memory_with_limit`. -/
def start (splitId : String) : SingleSplitExec Hits := ⟨splitId, .useMemory, none, 0, 0⟩

/-- Drop the guard, if the execution holds one, and go on to `stage`. -/
def release (usage : ℕ) (x : SingleSplitExec Hits) (stage : SingleSplitStage Hits) :
    ℕ × SingleSplitExec Hits :=
  match x.memoryCushion with
  | some memoryCushion =>
    (usage - memoryCushion.numBytes,
      { x with stage, memoryCushion := none, released := x.released + 1 })
  | none => (usage, { x with stage })

@[simp] theorem release_stage (usage : ℕ) (x : SingleSplitExec Hits)
    (stage : SingleSplitStage Hits) : (x.release usage stage).2.stage = stage := by
  unfold release; split <;> rfl

/-- Return early with an error: the locals, the guard among them, are dropped. -/
def bail (usage : ℕ) (x : SingleSplitExec Hits) (err : SearchError) : ℕ × SingleSplitExec Hits :=
  x.release usage (.returned (.error err))

/-- Resume an execution with the outcome of what it awaits, given the cushion
`LEAF_REQUEST_MEMORY_CUSHION` and the threshold `memory_threshold_to_start_leaf_request()` (not
under src). `none` when the event cannot happen. `use_memory_with_limit` (not under src) lets it
start once the usage is at most the threshold, as the comment of leaf.rs puts it ("only start
running a leaf request IFF the memory usage is below a given value"), then adds the cushion. -/
def step (cushion threshold usage : ℕ) (x : SingleSplitExec Hits) :
    SingleSplitEvent Hits → Option (ℕ × SingleSplitExec Hits)
  | .useMemory =>
    match x.stage with
    | .useMemory =>
      if usage ≤ threshold then
        some (usage + cushion, { x with
          stage := .openIndex, memoryCushion := some ⟨cushion⟩, acquired := x.acquired + 1 })
      else none
    | _ => none
  | .openIndex res =>
    match x.stage, res with
    | .openIndex, .error e => some (x.bail usage e)
    | .openIndex, .ok () => some (usage, { x with stage := .query })
    | _, _ => none
  | .query res =>
    match x.stage, res with
    | .query, .error e => some (x.bail usage e)
    | .query, .ok () => some (usage, { x with stage := .reader })
    | _, _ => none
  | .reader res =>
    match x.stage, res with
    | .reader, .error e => some (x.bail usage e)
    | .reader, .ok () => some (usage, { x with stage := .warmup })
    | _, _ => none
  | .warmup res =>
    match x.stage, res with
    | .warmup, .error e => some (x.bail usage e)
    | .warmup, .ok () => some (x.release usage .search)
    | _, _ => none
  | .search res =>
    match x.stage with
    | .search => some (x.release usage (.returned (searchResult x.splitId res)))
    | _ => none
  | .cancel =>
    match x.stage with
    | .useMemory | .openIndex | .warmup | .search => some (x.release usage .cancelled)
    | _ => none

variable {cushion threshold usage usage' : ℕ} {x x' : SingleSplitExec Hits}
  {e : SingleSplitEvent Hits}

/-- **What a step of an execution can do.** It is admitted, or it moves to a later stage, keeping
or dropping its guard; past the admission it does not read the threshold or the usage. -/
theorem step_cases (h : x.step cushion threshold usage e = some (usage', x')) :
    (e = .useMemory ∧ x.stage = .useMemory ∧ usage ≤ threshold ∧ usage' = usage + cushion ∧
      x' = { x with
        stage := .openIndex, memoryCushion := some ⟨cushion⟩, acquired := x.acquired + 1 }) ∨
    (∃ st, st.holdsCushion = true ∧ x.stage.holdsCushion = true ∧ x.stage.rank < st.rank ∧
      usage' = usage ∧ x' = { x with stage := st } ∧ ∀ t u, x.step cushion t u e = some (u, x')) ∨
    (∃ st, st.holdsCushion = false ∧ st.isUseMemory = false ∧ x.stage.rank < st.rank ∧
      (st = .cancelled → e = .cancel) ∧ usage' = (x.release usage st).1 ∧
      x' = (x.release usage st).2 ∧ ∀ t u, x.step cushion t u e = some (x.release u st)) := by
  cases e <;> simp only [step] at h <;> split at h <;> (try split_ifs at h) <;>
    first | contradiction | injection h with h
  all_goals first
    | exact .inr (.inr ⟨_, by rfl, by rfl, by simp [SingleSplitStage.rank, *], by simp,
        congrArg Prod.fst h.symm, congrArg Prod.snd h.symm, fun _ _ => by simp [step, bail, *]⟩)
    | cases h
      first
        | exact .inl ⟨rfl, ‹_›, ‹_›, rfl, rfl⟩
        | exact .inr (.inl ⟨_, by rfl, by simp [SingleSplitStage.holdsCushion, *],
            by simp [SingleSplitStage.rank, *], rfl, rfl, fun _ _ => by simp [step, *]⟩)

/-- The invariant of an execution: it holds a guard of one cushion exactly in the stages that hold
the cushion; it took at most one cushion, none before its admission, and gave back every cushion
it took but the one it holds. -/
structure Wf (cushion : ℕ) (x : SingleSplitExec Hits) : Prop where
  memoryCushion_eq : x.memoryCushion = if x.stage.holdsCushion then some ⟨cushion⟩ else none
  acquired_le : x.acquired ≤ 1
  acquired_useMemory : x.stage.isUseMemory → x.acquired = 0
  released_add : x.released + (if x.stage.holdsCushion then 1 else 0) = x.acquired

theorem wf_start (splitId : String) : (start splitId : SingleSplitExec Hits).Wf cushion :=
  ⟨rfl, Nat.zero_le _, fun _ => rfl, rfl⟩

/-- Dropping the guard gives its cushion back, exactly once. -/
theorem Wf.release {st : SingleSplitStage Hits} (hx : x.Wf cushion) (hst : st.holdsCushion = false)
    (hst' : st.isUseMemory = false) (hu : x.stage.holdsCushion → cushion ≤ usage) :
    (x.release usage st).2.Wf cushion ∧
      (x.release usage st).1 + cushion * (if x.stage.holdsCushion then 1 else 0) = usage := by
  obtain ⟨hmem, hle, -, hrel⟩ := hx
  unfold SingleSplitExec.release
  cases hh : x.stage.holdsCushion <;> simp only [hh] at hmem hrel hu <;> simp only [hmem]
  · refine ⟨⟨?_, hle, ?_, ?_⟩, ?_⟩ <;> simp_all
  · have := hu trivial
    refine ⟨⟨?_, hle, ?_, ?_⟩, ?_⟩ <;> simp_all

/-- **A step keeps an execution well formed.** -/
theorem Wf.step (hx : x.Wf cushion) (hu : x.stage.holdsCushion → cushion ≤ usage)
    (h : x.step cushion threshold usage e = some (usage', x')) :
    x'.Wf cushion ∧ usage' + cushion * (if x.stage.holdsCushion then 1 else 0) =
      usage + cushion * (if x'.stage.holdsCushion then 1 else 0) := by
  rcases step_cases h with ⟨-, hs, -, rfl, rfl⟩ | ⟨st, hst, hxs, -, rfl, rfl, -⟩ |
    ⟨st, hst, hst', -, -, rfl, rfl, -⟩
  · obtain ⟨-, -, hum, hrel⟩ := hx
    simp only [hs, SingleSplitStage.isUseMemory, SingleSplitStage.holdsCushion] at hum hrel ⊢
    simp only [true_implies, Bool.false_eq_true, if_false, Nat.add_zero] at hum hrel
    refine ⟨⟨?_, ?_, ?_, ?_⟩, ?_⟩ <;>
      simp [SingleSplitStage.holdsCushion, SingleSplitStage.isUseMemory] <;> omega
  · obtain ⟨hmem, hle, hum, hrel⟩ := hx
    have hne : st.isUseMemory = false := by
      cases st <;> simp_all [SingleSplitStage.holdsCushion, SingleSplitStage.isUseMemory]
    refine ⟨⟨?_, hle, ?_, ?_⟩, ?_⟩ <;> simp_all
  · obtain ⟨hwf, husage⟩ := hx.release hst hst' hu
    exact ⟨hwf, by rw [release_stage, hst]; simpa using husage⟩

/-- A step raises the usage only at an admission, by one cushion, from at most the threshold. -/
theorem usage_step (h : x.step cushion threshold usage e = some (usage', x')) :
    usage' ≤ usage ∨ usage ≤ threshold ∧ usage' = usage + cushion := by
  rcases step_cases h with ⟨-, -, hle, rfl, -⟩ | ⟨-, -, -, -, rfl, -, -⟩ |
    ⟨st, -, -, -, -, rfl, -, -⟩
  · exact .inr ⟨hle, rfl⟩
  · exact .inl le_rfl
  · left
    unfold release
    split <;> omega

/-- An execution's own step, whatever the usage: its admission always passes. -/
def advance (cushion : ℕ) (x : SingleSplitExec Hits) (e : SingleSplitEvent Hits) :
    Option (SingleSplitExec Hits) :=
  (x.step cushion 0 0 e).map Prod.snd

theorem release_snd (st : SingleSplitStage Hits) (u v : ℕ) :
    (x.release u st).2 = (x.release v st).2 := by
  unfold release; split <;> rfl

/-- The usage only decides whether the admission may happen. -/
theorem advance_of_step (h : x.step cushion threshold usage e = some (usage', x')) :
    x.advance cushion e = some x' := by
  rcases step_cases h with ⟨rfl, hs, -, -, rfl⟩ | ⟨-, -, -, -, -, -, hstep⟩ |
    ⟨st, -, -, -, -, -, rfl, hstep⟩
  · simp [advance, step, hs]
  · simp [advance, hstep]
  · simp only [advance, hstep, Option.map_some']
    exact congrArg some (release_snd st 0 usage)

end SingleSplitExec

/-! ## Concurrent executions -/

/-- The executions of leaf searches on splits, and the memory usage they share. -/
structure LeafSystem (Hits : Type) where
  usage : ℕ
  execs : List (SingleSplitExec Hits)

/-- What can happen next: a new execution starts, or one takes a step. -/
inductive LeafEvent (Hits : Type)
  /-- `leaf_search` launches an execution on a split. -/
  | spawn (splitId : String)
  /-- Execution `i` takes a step. -/
  | exec (i : ℕ) (e : SingleSplitEvent Hits)

namespace LeafSystem

/-- No execution, and the usage at its base value. -/
def init (base : ℕ) : LeafSystem Hits := ⟨base, []⟩

def step (cushion threshold : ℕ) (s : LeafSystem Hits) : LeafEvent Hits → Option (LeafSystem Hits)
  | .spawn splitId => some ⟨s.usage, s.execs ++ [.start splitId]⟩
  | .exec i e =>
    match s.execs[i]? with
    | some x =>
      (x.step cushion threshold s.usage e).map fun (usage, x') => ⟨usage, s.execs.set i x'⟩
    | none => none

def run (cushion threshold : ℕ) (s : LeafSystem Hits) (es : List (LeafEvent Hits)) :
    Option (LeafSystem Hits) :=
  es.foldlM (step cushion threshold) s

/-- The invariant: the usage is its base value plus one cushion per execution in a stage that
holds one, and every execution is well formed. -/
structure Inv (cushion base : ℕ) (s : LeafSystem Hits) : Prop where
  usage_eq : s.usage = base + cushion * s.execs.countP (·.stage.holdsCushion)
  wf : ∀ x ∈ s.execs, x.Wf cushion

variable {cushion threshold base : ℕ} {s s' : LeafSystem Hits} {e : LeafEvent Hits}

theorem inv_init : (init base : LeafSystem Hits).Inv cushion base :=
  ⟨by simp [init], by simp [init]⟩

theorem usage_set {u u' n a b : ℕ} (hn : a ≤ n) (hu : u = base + cushion * n)
    (h : u' + cushion * a = u + cushion * b) : u' = base + cushion * (n - a + b) := by
  obtain ⟨m, rfl⟩ := Nat.exists_eq_add_of_le' hn
  rw [Nat.add_sub_cancel]
  simp only [Nat.mul_add] at *
  omega

/-- **What a step of the system can do.** It starts an execution, or execution `i` takes a step,
which sets the usage. -/
theorem step_cases (h : s.step cushion threshold e = some s') :
    (∃ splitId, e = .spawn splitId ∧ s' = ⟨s.usage, s.execs ++ [.start splitId]⟩) ∨
    ∃ i, ∃ hi : i < s.execs.length, ∃ e' usage' x', e = .exec i e' ∧
      s.execs[i].step cushion threshold s.usage e' = some (usage', x') ∧
      s' = ⟨usage', s.execs.set i x'⟩ := by
  cases e with
  | spawn splitId => exact .inl ⟨splitId, rfl, (Option.some.inj h).symm⟩
  | exec i e =>
    simp only [step] at h
    split at h
    · rename_i x hx
      obtain ⟨⟨usage', x'⟩, hstep, rfl⟩ := Option.map_eq_some'.1 h
      obtain ⟨hi, rfl⟩ := List.getElem?_eq_some_iff.1 hx
      exact .inr ⟨i, hi, e, usage', x', rfl, hstep, rfl⟩
    · cases h

/-- **A step keeps the invariant.** -/
theorem Inv.step (hs : s.Inv cushion base) (h : s.step cushion threshold e = some s') :
    s'.Inv cushion base := by
  rcases step_cases h with ⟨splitId, -, rfl⟩ | ⟨i, hi, e, usage', x', -, hstep, rfl⟩
  · refine ⟨by simpa [SingleSplitExec.start, SingleSplitStage.holdsCushion] using hs.usage_eq,
      fun x hx => ?_⟩
    rcases List.mem_append.1 hx with hx | hx
    · exact hs.wf x hx
    · rw [List.mem_singleton.1 hx]; exact SingleSplitExec.wf_start _
  · have hle := List.boole_getElem_le_countP (·.stage.holdsCushion) s.execs i hi
    have hu : s.execs[i].stage.holdsCushion → cushion ≤ s.usage := fun hh => by
      rw [hs.usage_eq]
      simp only [hh, if_true] at hle
      have := Nat.le_mul_of_pos_right cushion hle
      omega
    obtain ⟨hwf, hdelta⟩ := (hs.wf _ (List.getElem_mem hi)).step hu hstep
    refine ⟨?_, fun y hy => ?_⟩
    · rw [List.countP_set _ _ _ _ hi]
      exact usage_set hle hs.usage_eq hdelta
    · rcases List.mem_or_eq_of_mem_set hy with hy | rfl
      · exact hs.wf y hy
      · exact hwf

/-- One execution took at most one cushion and gave back what it took once it ended. -/
theorem Inv.exec (hs : s.Inv cushion base) {x : SingleSplitExec Hits} (hx : x ∈ s.execs) :
    x.acquired ≤ 1 ∧ x.released ≤ x.acquired ∧ (x.stage.ended → x.released = x.acquired) ∧
      (x.stage = .search → x.memoryCushion = none) := by
  obtain ⟨hmem, hle, -, hrel⟩ := hs.wf x hx
  refine ⟨hle, by omega, fun hend => ?_,
    fun hsearch => by simpa [hsearch, SingleSplitStage.holdsCushion] using hmem⟩
  simpa [SingleSplitStage.holdsCushion_of_ended hend] using hrel

theorem Inv.usage_of_ended (hs : s.Inv cushion base) (h : ∀ x ∈ s.execs, x.stage.ended) :
    s.usage = base := by
  have : s.execs.countP (·.stage.holdsCushion) = 0 :=
    List.countP_eq_zero.2 fun x hx => by simp [SingleSplitStage.holdsCushion_of_ended (h x hx)]
  rw [hs.usage_eq, this, Nat.mul_zero, Nat.add_zero]

theorem Inv.run {es : List (LeafEvent Hits)} (hs : s.Inv cushion base)
    (h : run cushion threshold s es = some s') : s'.Inv cushion base := by
  induction es generalizing s with
  | nil => cases h; exact hs
  | cons e es ih =>
    obtain ⟨s₁, h₁, h₂⟩ := Option.bind_eq_some.1 h
    exact ih (hs.step h₁) h₂

/-- What every event of a run keeps holds at its end. -/
theorem run_preserves {P : LeafSystem Hits → Prop} {es : List (LeafEvent Hits)}
    (hstep : ∀ e ∈ es, ∀ t t', P t → t.step cushion threshold e = some t' → P t') (hs : P s)
    (h : run cushion threshold s es = some s') : P s' := by
  induction es generalizing s with
  | nil => cases h; exact hs
  | cons e es ih =>
    obtain ⟨s₁, h₁, h₂⟩ := Option.bind_eq_some.1 h
    exact ih (fun e' he' => hstep e' (List.mem_cons_of_mem _ he'))
      (hstep e (List.mem_cons_self _ _) _ _ hs h₁) h₂

/-! ## What the admission is for -/

theorem usage_le_step (hs : s.usage ≤ threshold + cushion)
    (h : s.step cushion threshold e = some s') : s'.usage ≤ threshold + cushion := by
  rcases step_cases h with ⟨-, -, rfl⟩ | ⟨i, hi, e, usage', x', -, hstep, rfl⟩
  · exact hs
  · rcases SingleSplitExec.usage_step hstep with hle | ⟨hle, rfl⟩ <;> dsimp only <;> omega

theorem usage_le_run {es : List (LeafEvent Hits)} (hs : s.usage ≤ threshold + cushion)
    (h : run cushion threshold s es = some s') : s'.usage ≤ threshold + cushion := by
  induction es generalizing s with
  | nil => cases h; exact hs
  | cons e es ih =>
    obtain ⟨s₁, h₁, h₂⟩ := Option.bind_eq_some.1 h
    exact ih (usage_le_step hs h₁) h₂

/-! ## The outcomes of an execution's calls -/

/-- What the calls of an execution return. -/
structure Outcomes (Hits : Type) where
  openIndex : Except SearchError Unit
  query : Except SearchError Unit
  reader : Except SearchError Unit
  warmup : Except SearchError Unit
  search : Except JoinError (Except SearchError (LeafSearchResponse Hits))

/-- The events of an execution run alone to its end. -/
def Outcomes.events (o : Outcomes Hits) : List (SingleSplitEvent Hits) :=
  .useMemory :: .openIndex o.openIndex ::
    match o.openIndex, o.query, o.reader, o.warmup with
    | .error _, _, _, _ => []
    | .ok (), .error _, _, _ => [.query o.query]
    | .ok (), .ok (), .error _, _ => [.query o.query, .reader o.reader]
    | .ok (), .ok (), .ok (), .error _ => [.query o.query, .reader o.reader, .warmup o.warmup]
    | .ok (), .ok (), .ok (), .ok () =>
      [.query o.query, .reader o.reader, .warmup o.warmup, .search o.search]

end LeafSystem

/-- `leaf_search_single_split` from its admission to its end, on the outcomes of its calls. -/
def leafSearchSingleSplit (splitId : String) (o : LeafSystem.Outcomes Hits) :
    Except SearchError (LeafSearchResponse Hits) := do
  o.openIndex
  o.query
  o.reader
  o.warmup
  searchResult splitId o.search

namespace LeafSystem

variable {cushion threshold base : ℕ} {s s' : LeafSystem Hits}

theorem run_events_start {cushion threshold usage : ℕ} (splitId : String) (o : Outcomes Hits)
    (h : usage ≤ threshold) :
    run cushion threshold ⟨usage, [.start splitId]⟩ (o.events.map (.exec 0)) =
      some ⟨usage, [⟨splitId, .returned (leafSearchSingleSplit splitId o), none, 1, 1⟩]⟩ := by
  obtain ⟨oi, q, r, w, search⟩ := o
  rcases oi with _ | ⟨⟩ <;> [skip; rcases q with _ | ⟨⟩] <;> [skip; skip; rcases r with _ | ⟨⟩] <;>
    [skip; skip; skip; rcases w with _ | ⟨⟩] <;>
    simp only [run, Outcomes.events, List.map_cons, List.map_nil, List.foldlM_cons, List.foldlM_nil,
      bind, Option.bind, step, SingleSplitExec.step, SingleSplitExec.start, h, if_true,
      SingleSplitExec.bail, SingleSplitExec.release, List.getElem?_cons_zero, List.set_cons_zero,
      Option.map_some', Nat.add_sub_cancel, leafSearchSingleSplit] <;> rfl

/-! ## Interleavings -/

/-- The events of execution `i` in a run, in their order. -/
def eventsOf (i : ℕ) : List (LeafEvent Hits) → List (SingleSplitEvent Hits)
  | [] => []
  | .spawn _ :: es => eventsOf i es
  | .exec j e :: es => if j = i then e :: eventsOf i es else eventsOf i es

theorem eventsOf_map_exec (i : ℕ) (evs : List (SingleSplitEvent Hits)) :
    eventsOf i (evs.map (.exec i)) = evs := by
  induction evs with
  | nil => rfl
  | cons e evs ih => simp [eventsOf, ih]

/-- **An execution sees only its own events**, whatever the others did in between. -/
theorem run_getElem {es : List (LeafEvent Hits)} (h : run cushion threshold s es = some s')
    {i : ℕ} (hi : i < s.execs.length) :
    ∃ x', s'.execs[i]? = some x' ∧
      (eventsOf i es).foldlM (SingleSplitExec.advance cushion) s.execs[i] = some x' := by
  induction es generalizing s with
  | nil => cases h; exact ⟨_, List.getElem?_eq_getElem hi, rfl⟩
  | cons e es ih =>
    obtain ⟨s₁, h₁, h₂⟩ := Option.bind_eq_some.1 h
    rcases step_cases h₁ with ⟨splitId, rfl, rfl⟩ | ⟨j, hj, e', usage', x', rfl, hstep, rfl⟩
    · obtain ⟨x', hx', hrun⟩ := ih h₂ (by simp only [List.length_append]; omega)
      exact ⟨x', hx', by simpa only [eventsOf, List.getElem_append_left hi] using hrun⟩
    · obtain ⟨x'', hx'', hrun⟩ := ih h₂ (by simpa only [List.length_set] using hi)
      refine ⟨x'', hx'', ?_⟩
      by_cases hji : j = i
      · subst hji
        simpa [eventsOf, SingleSplitExec.advance_of_step hstep] using hrun
      · simpa only [eventsOf, hji, if_false, List.getElem_set_ne hji] using hrun

theorem run_spawns (splitIds : List String) (usage : ℕ) (execs : List (SingleSplitExec Hits)) :
    run cushion threshold ⟨usage, execs⟩ (splitIds.map .spawn) =
      some ⟨usage, execs ++ splitIds.map .start⟩ := by
  induction splitIds generalizing execs with
  | nil => simp [run]
  | cons splitId splitIds ih =>
    show run cushion threshold ⟨usage, execs ++ [.start splitId]⟩ (splitIds.map .spawn) = _
    rw [ih, List.map_cons, List.append_assoc, List.singleton_append]

theorem advance_outcomes (cushion : ℕ) (splitId : String) (o : Outcomes Hits) :
    o.events.foldlM (SingleSplitExec.advance cushion) (.start splitId) =
      some ⟨splitId, .returned (leafSearchSingleSplit splitId o), none, 1, 1⟩ := by
  obtain ⟨x', hx', hrun⟩ :=
    run_getElem (@run_events_start _ cushion 0 0 splitId o le_rfl) (i := 0) (by simp)
  simp only [List.getElem?_cons_zero, Option.some.injEq] at hx'
  subst hx'
  simpa only [eventsOf_map_exec] using hrun

theorem run_spawns_append {splitIds : List String} {es : List (LeafEvent Hits)}
    (h : run cushion threshold (.init base) (splitIds.map .spawn ++ es) = some s) :
    run cushion threshold ⟨base, splitIds.map .start⟩ es = some s := by
  have hspawns : run cushion threshold (.init base : LeafSystem Hits) (splitIds.map .spawn) =
      some ⟨base, splitIds.map .start⟩ :=
    run_spawns splitIds base []
  rwa [run, List.foldlM_append, ← run, hspawns] at h

/-- After the spawns, an execution that saw its outcomes' events has returned their result. -/
theorem run_spawns_getElem {splitIds : List String} {es : List (LeafEvent Hits)}
    (h : run cushion threshold (.init base) (splitIds.map .spawn ++ es) = some s) {i : ℕ}
    (hi : i < splitIds.length) {o : Outcomes Hits} (hev : eventsOf i es = o.events) :
    s.execs[i]? =
      some ⟨splitIds[i], .returned (leafSearchSingleSplit splitIds[i] o), none, 1, 1⟩ := by
  obtain ⟨x', hx', hrun⟩ := run_getElem (run_spawns_append h) (i := i) (by simpa using hi)
  simp only [List.getElem_map, hev, advance_outcomes, Option.some.injEq] at hrun
  rw [hx', hrun]

end LeafSystem

/-- **The cushion of a leaf search is given back on every path.** The usage is the base plus one
cushion per execution admitted and not yet past its warmup; all are given back once all ended. -/
theorem leafSearchSingleSplit_cushion (cushion threshold base : ℕ) :
    ∀ (es : List (LeafEvent Hits)) (s : LeafSystem Hits),
      LeafSystem.run cushion threshold (.init base) es = some s →
      s.usage = base + cushion * s.execs.countP (·.stage.holdsCushion) ∧
      (∀ x ∈ s.execs, x.acquired ≤ 1 ∧ x.released ≤ x.acquired ∧
        (x.stage.ended → x.released = x.acquired) ∧ (x.stage = .search → x.memoryCushion = none)) ∧
      ((∀ x ∈ s.execs, x.stage.ended) → s.usage = base) := fun _ _ h =>
  have hs := LeafSystem.inv_init.run h
  ⟨hs.usage_eq, fun _ hx => hs.exec hx, hs.usage_of_ended⟩

/-- An execution admitted with a cushion of 3 over a base of 5 is counted once. -/
theorem leafSearchSingleSplit_cushion_admitted :
    LeafSystem.run 3 10 (.init 5) [.spawn "a", .exec 0 .useMemory] =
      some (⟨8, [⟨"a", .openIndex, some ⟨3⟩, 1, 0⟩]⟩ : LeafSystem Unit) ∧
    8 = 5 + 3 * [(⟨"a", .openIndex, some ⟨3⟩, 1, 0⟩ : SingleSplitExec Unit)].countP
      (·.stage.holdsCushion) :=
  ⟨rfl, (leafSearchSingleSplit_cushion 3 10 5 [.spawn "a", .exec 0 .useMemory] _ rfl).1⟩

/-- **The admission bounds the memory of the fetches**: the usage never passes the threshold by
more than one cushion. -/
theorem leafSystem_usage_bounded (cushion threshold base : ℕ) (hbase : base ≤ threshold) :
    ∀ (es : List (LeafEvent Hits)) (s : LeafSystem Hits),
      LeafSystem.run cushion threshold (.init base) es = some s →
      s.usage ≤ threshold + cushion ∧
      (threshold < cushion → s.execs.countP (·.stage.holdsCushion) ≤ 1) := fun _ s h => by
  have hle := LeafSystem.usage_le_run (show base ≤ threshold + cushion by omega) h
  refine ⟨hle, fun hlt => ?_⟩
  rw [(LeafSystem.inv_init.run h).usage_eq] at hle
  by_contra hn
  have := Nat.mul_le_mul_left cushion (show 2 ≤ s.execs.countP (·.stage.holdsCushion) by omega)
  omega

/-- With a threshold of zero, a second execution waits while the first holds its cushion. -/
theorem leafSystem_usage_bounded_zero :
    LeafSystem.run 3 0 (.init 0) [.spawn "a", .spawn "b", .exec 0 .useMemory] =
      some (⟨3, [⟨"a", .openIndex, some ⟨3⟩, 1, 0⟩, ⟨"b", .useMemory, none, 0, 0⟩]⟩ :
        LeafSystem Unit) ∧
    3 ≤ 0 + 3 ∧ (0 < 3 → [(⟨"a", .openIndex, some ⟨3⟩, 1, 0⟩ : SingleSplitExec Unit),
      ⟨"b", .useMemory, none, 0, 0⟩].countP (·.stage.holdsCushion) ≤ 1) :=
  ⟨rfl, leafSystem_usage_bounded 3 0 0 le_rfl [.spawn "a", .spawn "b", .exec 0 .useMemory]
    ⟨3, [⟨"a", .openIndex, some ⟨3⟩, 1, 0⟩, ⟨"b", .useMemory, none, 0, 0⟩]⟩ rfl⟩

/-- **The admission never deadlocks**: once no execution holds a cushion, every waiting one can
be admitted. -/
theorem leafSystem_admits_when_idle (cushion threshold base : ℕ) (hbase : base ≤ threshold) :
    ∀ (es : List (LeafEvent Hits)) (s : LeafSystem Hits),
      LeafSystem.run cushion threshold (.init base) es = some s →
      (∀ y ∈ s.execs, y.stage.holdsCushion = false) →
      ∀ i y, s.execs[i]? = some y → y.stage = .useMemory →
        ∃ s', s.step cushion threshold (.exec i .useMemory) = some s' :=
  fun _ s h hidle i y hy hst => by
  have husage : s.usage = base := by
    rw [(LeafSystem.inv_init.run h).usage_eq,
      List.countP_eq_zero.2 fun y hy => by simp [hidle y hy]]
    rfl
  simp [LeafSystem.step, hy, SingleSplitExec.step, hst, husage, hbase]

/-- Once the first execution has returned, the second is admitted under a threshold of zero. -/
theorem leafSystem_admits_when_idle_zero :
    LeafSystem.run 3 0 (.init 0) [.spawn "a", .spawn "b", .exec 0 .useMemory, .exec 0 .cancel] =
      some (⟨0, [⟨"a", .cancelled, none, 1, 1⟩, ⟨"b", .useMemory, none, 0, 0⟩]⟩ :
        LeafSystem Unit) ∧
    (∀ y ∈ [(⟨"a", .cancelled, none, 1, 1⟩ : SingleSplitExec Unit), ⟨"b", .useMemory, none, 0, 0⟩],
      y.stage.holdsCushion = false) ∧
    ([(⟨"a", .cancelled, none, 1, 1⟩ : SingleSplitExec Unit), ⟨"b", .useMemory, none, 0, 0⟩][1]? =
      some ⟨"b", .useMemory, none, 0, 0⟩) ∧
    (SingleSplitStage.useMemory : SingleSplitStage Unit) = .useMemory ∧
    ∃ s', (⟨0, [⟨"a", .cancelled, none, 1, 1⟩, ⟨"b", .useMemory, none, 0, 0⟩]⟩ :
      LeafSystem Unit).step 3 0 (.exec 1 .useMemory) = some s' :=
  ⟨rfl, by decide, rfl, rfl, leafSystem_admits_when_idle 3 0 0 le_rfl
    [.spawn "a", .spawn "b", .exec 0 .useMemory, .exec 0 .cancel]
    ⟨0, [⟨"a", .cancelled, none, 1, 1⟩, ⟨"b", .useMemory, none, 0, 0⟩]⟩ rfl (by decide) 1 _ rfl rfl⟩

/-- **The result of an execution does not depend on the interleaving**, and it takes and gives
back one cushion. -/
theorem leafSystem_result_of_interleaving (cushion threshold base : ℕ) (splitIds : List String)
    (es : List (LeafEvent Hits)) (s : LeafSystem Hits) (i : ℕ) (hi : i < splitIds.length)
    (o : LeafSystem.Outcomes Hits) :
    LeafSystem.run cushion threshold (.init base) (splitIds.map .spawn ++ es) = some s →
    LeafSystem.eventsOf i es = o.events →
    s.execs[i]? = some ⟨splitIds[i], .returned (leafSearchSingleSplit splitIds[i] o), none, 1, 1⟩ :=
  fun h hev => LeafSystem.run_spawns_getElem h hi hev

/-- Two executions whose `open_index` fail, admitted and ended in opposite orders. -/
theorem leafSystem_result_of_interleaving_two :
    1 < ["a", "b"].length ∧
    LeafSystem.run 3 3 (.init 0) (["a", "b"].map .spawn ++
        [.exec 0 .useMemory, .exec 1 .useMemory, .exec 1 (.openIndex (.error (.internalError "b"))),
          .exec 0 (.openIndex (.error (.internalError "a")))]) =
      some (⟨0, [⟨"a", .returned (.error (.internalError "a")), none, 1, 1⟩,
        ⟨"b", .returned (.error (.internalError "b")), none, 1, 1⟩]⟩ : LeafSystem Unit) ∧
    LeafSystem.eventsOf 1 [.exec 0 .useMemory, .exec 1 .useMemory,
        .exec 1 (.openIndex (.error (.internalError "b"))),
        .exec 0 (.openIndex (.error (.internalError "a")))] =
      (⟨.error (.internalError "b"), .ok (), .ok (), .ok (), .ok (.ok ⟨(), []⟩)⟩ :
        LeafSystem.Outcomes Unit).events ∧
    (⟨0, [⟨"a", .returned (.error (.internalError "a")), none, 1, 1⟩,
        ⟨"b", .returned (.error (.internalError "b")), none, 1, 1⟩]⟩ : LeafSystem Unit).execs[1]? =
      some ⟨["a", "b"][1], .returned (leafSearchSingleSplit ["a", "b"][1]
        ⟨.error (.internalError "b"), .ok (), .ok (), .ok (), .ok (.ok ⟨(), []⟩)⟩), none, 1, 1⟩ :=
  ⟨by decide, rfl, rfl, leafSystem_result_of_interleaving 3 3 0 ["a", "b"]
    [.exec 0 .useMemory, .exec 1 .useMemory, .exec 1 (.openIndex (.error (.internalError "b"))),
      .exec 0 (.openIndex (.error (.internalError "a")))]
    ⟨0, [⟨"a", .returned (.error (.internalError "a")), none, 1, 1⟩,
      ⟨"b", .returned (.error (.internalError "b")), none, 1, 1⟩]⟩ 1 (by decide)
    ⟨.error (.internalError "b"), .ok (), .ok (), .ok (), .ok (.ok ⟨(), []⟩)⟩ rfl rfl⟩

end Quickwit.Search

import Quickwit.Search.Leaf

/-!
# The leaf executions run to their end

`leaf_search` awaits its executions with `join_all`, so it returns once every execution has ended.
Under any scheduler they do:

* `SingleSplitExec.rank_lt_of_step`: every step moves an execution on through the stages of
  `leaf_search_single_split` (`SingleSplitStage.rank`), so the executions take at most six steps
  each (`leafSystem_steps_le`).
* `SingleSplitExec.enabled`: an execution that has not ended can always go on, but for its
  admission; so in every reachable state where one has not ended, some execution can take a step
  that is not a cancellation (`leafSystem_progress`).
* `LeafSystem.NoneCancelled`: `leaf_search` drops none of its executions. Then once no execution
  can go on, every one has returned: `join_all` yields one result per execution and the memory
  usage is back at its base value (`leafSystem_joinAll_of_quiescent`). With the bound on the
  steps, every schedule that runs the executions for as long as one can go on ends there.
-/

namespace Quickwit.Search

variable {Hits : Type}

theorem SingleSplitStage.rank_le (st : SingleSplitStage Hits) : st.rank ≤ 6 := by
  cases st <;> simp [rank]

namespace SingleSplitExec

variable {cushion threshold usage usage' : ℕ} {x x' : SingleSplitExec Hits}
  {e : SingleSplitEvent Hits}

/-- Every step moves an execution on. -/
theorem rank_lt_of_step (h : x.step cushion threshold usage e = some (usage', x')) :
    x.stage.rank < x'.stage.rank := by
  rcases step_cases h with ⟨-, hs, -, -, rfl⟩ | ⟨st, -, -, hlt, -, rfl, -⟩ |
    ⟨st, -, -, hlt, -, -, rfl, -⟩
  · simp [hs, SingleSplitStage.rank]
  · exact hlt
  · rwa [release_stage]

/-- An execution that has not ended can go on; its admission needs the usage at most the
threshold. -/
theorem enabled (hx : x.stage.ended = false) (hu : x.stage = .useMemory → usage ≤ threshold) :
    ∃ e, e ≠ .cancel ∧ (x.step cushion threshold usage e).isSome := by
  cases hs : x.stage with
  | useMemory => exact ⟨.useMemory, nofun, by simp [step, hs, hu hs]⟩
  | openIndex => exact ⟨.openIndex (.ok ()), nofun, by simp [step, hs]⟩
  | query => exact ⟨.query (.ok ()), nofun, by simp [step, hs]⟩
  | reader => exact ⟨.reader (.ok ()), nofun, by simp [step, hs]⟩
  | warmup => exact ⟨.warmup (.ok ()), nofun, by simp [step, hs]⟩
  | search => exact ⟨.search (.error ⟨""⟩), nofun, by simp [step, hs]⟩
  | returned res => simp [hs, SingleSplitStage.ended] at hx
  | cancelled => simp [hs, SingleSplitStage.ended] at hx

end SingleSplitExec

/-! ## A bound on the steps -/

/-- Whether an event starts an execution. -/
def LeafEvent.isSpawn : LeafEvent Hits → Bool
  | .spawn _ => true
  | .exec _ _ => false

namespace LeafSystem

variable {cushion threshold : ℕ} {s s' : LeafSystem Hits} {e : LeafEvent Hits}

/-- How far executions have gone together: the sum of their ranks. -/
def stagesDone : List (SingleSplitExec Hits) → ℕ
  | [] => 0
  | x :: xs => x.stage.rank + stagesDone xs

theorem stagesDone_le (xs : List (SingleSplitExec Hits)) : stagesDone xs ≤ 6 * xs.length := by
  induction xs with
  | nil => rfl
  | cons x xs ih =>
    have := x.stage.rank_le
    simp only [stagesDone, List.length_cons]
    omega

theorem stagesDone_append (xs ys : List (SingleSplitExec Hits)) :
    stagesDone (xs ++ ys) = stagesDone xs + stagesDone ys := by
  induction xs with
  | nil => simp [stagesDone]
  | cons x xs ih => rw [List.cons_append, stagesDone, stagesDone, ih, Nat.add_assoc]

theorem stagesDone_set :
    ∀ (xs : List (SingleSplitExec Hits)) (i : ℕ) (hi : i < xs.length) (x : SingleSplitExec Hits),
      stagesDone (xs.set i x) + xs[i].stage.rank = stagesDone xs + x.stage.rank
  | _ :: _, 0, _, _ => by
    simp only [List.set_cons_zero, stagesDone, List.getElem_cons_zero]
    omega
  | _ :: xs, i + 1, hi, x => by
    simp only [List.set_cons_succ, stagesDone, List.getElem_cons_succ]
    have := stagesDone_set xs i (by simpa using hi) x
    omega

theorem stagesDone_step (h : s.step cushion threshold e = some s') :
    stagesDone s.execs + (if e.isSpawn then 0 else 1) ≤ stagesDone s'.execs ∧
      s'.execs.length = s.execs.length + (if e.isSpawn then 1 else 0) := by
  rcases step_cases h with ⟨splitId, rfl, rfl⟩ | ⟨i, hi, e', usage', x', rfl, hstep, rfl⟩
  · have h0 : stagesDone [(SingleSplitExec.start splitId : SingleSplitExec Hits)] = 0 := rfl
    simp [LeafEvent.isSpawn, stagesDone_append, h0]
  · have hset := stagesDone_set s.execs i hi x'
    have hlt := SingleSplitExec.rank_lt_of_step hstep
    simp only [LeafEvent.isSpawn, Bool.false_eq_true, if_false, List.length_set]
    omega

theorem stagesDone_run {es : List (LeafEvent Hits)} (h : run cushion threshold s es = some s') :
    stagesDone s.execs + es.countP (!·.isSpawn) ≤ stagesDone s'.execs ∧
      s'.execs.length = s.execs.length + es.countP (·.isSpawn) := by
  induction es generalizing s with
  | nil => cases h; simp
  | cons e es ih =>
    obtain ⟨s₁, h₁, h₂⟩ := Option.bind_eq_some.1 h
    obtain ⟨hd, hl⟩ := stagesDone_step h₁
    obtain ⟨hd', hl'⟩ := ih h₂
    cases he : e.isSpawn <;>
      simp only [he, List.countP_cons, Bool.false_eq_true, Bool.not_false, Bool.not_true, if_true,
        if_false] at hd hl ⊢ <;> omega

end LeafSystem

/-- **Every execution ends within six steps**, however the executions interleave: `join_all` waits
for a bounded number of steps. -/
theorem leafSystem_steps_le (cushion threshold base : ℕ) (es : List (LeafEvent Hits))
    (s : LeafSystem Hits) :
    LeafSystem.run cushion threshold (.init base) es = some s →
    es.countP (!·.isSpawn) ≤ 6 * es.countP (·.isSpawn) := fun h => by
  obtain ⟨hd, hl⟩ := LeafSystem.stagesDone_run h
  have h6 := LeafSystem.stagesDone_le s.execs
  have h0 : LeafSystem.stagesDone (LeafSystem.init base : LeafSystem Hits).execs = 0 := rfl
  have hl0 : (LeafSystem.init base : LeafSystem Hits).execs.length = 0 := rfl
  omega

/-- An execution that fails to open its index takes two steps. -/
theorem leafSystem_steps_le_openIndex :
    LeafSystem.run 3 3 (.init 0)
        [.spawn "a", .exec 0 .useMemory, .exec 0 (.openIndex (.error (.internalError "x")))] =
      some (⟨0, [⟨"a", .returned (.error (.internalError "x")), none, 1, 1⟩]⟩ : LeafSystem Unit) ∧
    [(.spawn "a" : LeafEvent Unit), .exec 0 .useMemory,
        .exec 0 (.openIndex (.error (.internalError "x")))].countP (!·.isSpawn) ≤
      6 * [(.spawn "a" : LeafEvent Unit), .exec 0 .useMemory,
        .exec 0 (.openIndex (.error (.internalError "x")))].countP (·.isSpawn) :=
  ⟨rfl, leafSystem_steps_le 3 3 0
    [.spawn "a", .exec 0 .useMemory, .exec 0 (.openIndex (.error (.internalError "x")))]
    ⟨0, [⟨"a", .returned (.error (.internalError "x")), none, 1, 1⟩]⟩ rfl⟩

/-! ## No deadlock -/

namespace LeafSystem

variable {cushion threshold base : ℕ} {s : LeafSystem Hits}

theorem exec_enabled {i : ℕ} {x : SingleSplitExec Hits} (hx : s.execs[i]? = some x)
    {e : SingleSplitEvent Hits} (h : (x.step cushion threshold s.usage e).isSome) :
    (s.step cushion threshold (.exec i e)).isSome := by
  obtain ⟨r, hr⟩ := Option.isSome_iff_exists.1 h
  simp [step, hx, hr]

/-- Over the threshold, some execution holds a cushion. -/
theorem Inv.exists_holdsCushion (hs : s.Inv cushion base) (hbase : base ≤ threshold)
    (hu : threshold < s.usage) : ∃ y ∈ s.execs, y.stage.holdsCushion := by
  by_contra hno
  push_neg at hno
  have : s.execs.countP (·.stage.holdsCushion) = 0 :=
    List.countP_eq_zero.2 fun y hy => by simpa using hno y hy
  rw [hs.usage_eq, this] at hu
  omega

/-- Some execution that has not ended can take a step that is not a cancellation. -/
theorem Inv.exists_step (hs : s.Inv cushion base) (hbase : base ≤ threshold)
    {x : SingleSplitExec Hits} (hx : x ∈ s.execs) (hend : x.stage.ended = false) :
    ∃ i e, e ≠ .cancel ∧ (s.step cushion threshold (.exec i e)).isSome := by
  obtain ⟨y, hy, hyend, hyu⟩ : ∃ y ∈ s.execs, y.stage.ended = false ∧
      (y.stage = .useMemory → s.usage ≤ threshold) := by
    by_cases hu : s.usage ≤ threshold
    · exact ⟨x, hx, hend, fun _ => hu⟩
    · obtain ⟨y, hy, hyh⟩ := hs.exists_holdsCushion hbase (Nat.lt_of_not_le hu)
      refine ⟨y, hy, ?_, fun hst => ?_⟩
      · cases hyend : y.stage.ended
        · rfl
        · simp [SingleSplitStage.holdsCushion_of_ended hyend] at hyh
      · simp [hst, SingleSplitStage.holdsCushion] at hyh
  obtain ⟨i, hi⟩ := List.mem_iff_getElem?.1 hy
  obtain ⟨e, he, hstep⟩ := SingleSplitExec.enabled hyend hyu
  exact ⟨i, e, he, exec_enabled hi hstep⟩

end LeafSystem

/-- **The executions never deadlock**: while some execution has not ended, some execution can take
a step that is not a cancellation. -/
theorem leafSystem_progress (cushion threshold base : ℕ) (hbase : base ≤ threshold) :
    ∀ (es : List (LeafEvent Hits)) (s : LeafSystem Hits),
      LeafSystem.run cushion threshold (.init base) es = some s →
      (∃ x ∈ s.execs, x.stage.ended = false) →
      ∃ i e, e ≠ .cancel ∧ (s.step cushion threshold (.exec i e)).isSome :=
  fun _ _ h ⟨_, hx, hend⟩ => (LeafSystem.inv_init.run h).exists_step hbase hx hend

/-- Under a threshold of zero, the second execution waits while the first goes on. -/
theorem leafSystem_progress_waiting :
    0 ≤ 0 ∧
    LeafSystem.run 3 0 (.init 0) [.spawn "a", .spawn "b", .exec 0 .useMemory] =
      some (⟨3, [⟨"a", .openIndex, some ⟨3⟩, 1, 0⟩, ⟨"b", .useMemory, none, 0, 0⟩]⟩ :
        LeafSystem Unit) ∧
    (∃ x ∈ [(⟨"a", .openIndex, some ⟨3⟩, 1, 0⟩ : SingleSplitExec Unit),
        ⟨"b", .useMemory, none, 0, 0⟩], x.stage.ended = false) ∧
    ∃ i e, e ≠ .cancel ∧ ((⟨3, [⟨"a", .openIndex, some ⟨3⟩, 1, 0⟩, ⟨"b", .useMemory, none, 0, 0⟩]⟩ :
      LeafSystem Unit).step 3 0 (.exec i e)).isSome :=
  ⟨le_rfl, rfl, ⟨_, List.mem_cons_self _ _, rfl⟩, leafSystem_progress 3 0 0 le_rfl
    [.spawn "a", .spawn "b", .exec 0 .useMemory]
    ⟨3, [⟨"a", .openIndex, some ⟨3⟩, 1, 0⟩, ⟨"b", .useMemory, none, 0, 0⟩]⟩ rfl
    ⟨_, List.mem_cons_self _ _, rfl⟩⟩

/-! ## `join_all` completes -/

/-- Whether an event drops an execution. -/
def LeafEvent.isCancel : LeafEvent Hits → Bool
  | .exec _ .cancel => true
  | .spawn _ | .exec _ _ => false

/-- Only a cancellation drops an execution. -/
theorem SingleSplitExec.stage_ne_cancelled_of_step {cushion threshold usage usage' : ℕ}
    {x x' : SingleSplitExec Hits} {e : SingleSplitEvent Hits}
    (h : x.step cushion threshold usage e = some (usage', x')) (he : e ≠ .cancel) :
    x'.stage ≠ .cancelled := by
  rcases SingleSplitExec.step_cases h with ⟨-, -, -, -, rfl⟩ | ⟨st, hst, -, -, -, rfl, -⟩ |
    ⟨st, -, -, -, hcan, -, rfl, -⟩
  · nofun
  · rintro (hc : st = .cancelled)
    simp [hc, SingleSplitStage.holdsCushion] at hst
  · rw [SingleSplitExec.release_stage]
    exact fun hc => he (hcan hc)

namespace LeafSystem

variable {cushion threshold : ℕ} {s s' : LeafSystem Hits} {e : LeafEvent Hits}

/-- No execution has been dropped. -/
def NoneCancelled (s : LeafSystem Hits) : Prop := ∀ x ∈ s.execs, x.stage ≠ .cancelled

theorem NoneCancelled.step (hs : s.NoneCancelled) (he : e.isCancel = false)
    (h : s.step cushion threshold e = some s') : s'.NoneCancelled := by
  rcases step_cases h with ⟨splitId, rfl, rfl⟩ | ⟨i, hi, e', usage', x', rfl, hstep, rfl⟩
  · intro x hx
    rcases List.mem_append.1 hx with hx | hx
    · exact hs x hx
    · rw [List.mem_singleton.1 hx]; nofun
  · intro y hy
    rcases List.mem_or_eq_of_mem_set hy with hy | rfl
    · exact hs y hy
    · exact SingleSplitExec.stage_ne_cancelled_of_step hstep fun h => by
        simp [h, LeafEvent.isCancel] at he

theorem NoneCancelled.run {es : List (LeafEvent Hits)} (hs : s.NoneCancelled)
    (hes : ∀ e ∈ es, e.isCancel = false) (h : run cushion threshold s es = some s') :
    s'.NoneCancelled :=
  run_preserves (fun e he _ _ ht h₁ => ht.step (hes e he) h₁) hs h

/-- Once every execution has returned, `join_all` yields one result per execution. -/
theorem joinAll_of_ended (h : ∀ x ∈ s.execs, x.stage.ended ∧ x.stage ≠ .cancelled) :
    ∃ results, s.joinAll = some results ∧ results.length = s.execs.length := by
  obtain ⟨usage, execs⟩ := s
  rw [joinAll]
  induction execs with
  | nil => exact ⟨[], rfl, rfl⟩
  | cons x xs ih =>
    obtain ⟨r, hr⟩ : ∃ r, x.result? = some r := by
      obtain ⟨hend, hcan⟩ := h x (List.mem_cons_self _ _)
      unfold SingleSplitExec.result?
      cases hst : x.stage with
      | returned r => exact ⟨r, rfl⟩
      | cancelled => exact absurd hst hcan
      | _ => rw [hst] at hend; cases hend
    obtain ⟨results, hres, hlen⟩ := ih fun y hy => h y (List.mem_cons_of_mem _ hy)
    exact ⟨r :: results, by rw [List.mapM_cons, hr, hres]; rfl, by simp [hlen]⟩

end LeafSystem

/-- **`join_all` is ready once the executions are quiescent**: with none dropped, every execution
has returned, and the usage is back at its base value. -/
theorem leafSystem_joinAll_of_quiescent (cushion threshold base : ℕ) (hbase : base ≤ threshold)
    (es : List (LeafEvent Hits)) (s : LeafSystem Hits) :
    LeafSystem.run cushion threshold (.init base) es = some s →
    (∀ e ∈ es, e.isCancel = false) →
    (∀ i e, e ≠ .cancel → s.step cushion threshold (.exec i e) = none) →
    (∃ results, s.joinAll = some results ∧ results.length = s.execs.length) ∧ s.usage = base := by
  intro h hes hstuck
  have hs := LeafSystem.inv_init.run h
  have hended : ∀ x ∈ s.execs, x.stage.ended := fun x hx => by
    by_contra hend
    obtain ⟨i, e, he, hstep⟩ := hs.exists_step hbase hx (by simpa using hend)
    simp [hstuck i e he] at hstep
  have hcan : s.NoneCancelled := LeafSystem.NoneCancelled.run (fun _ hx => by cases hx) hes h
  exact ⟨LeafSystem.joinAll_of_ended fun x hx => ⟨hended x hx, hcan x hx⟩,
    hs.usage_of_ended hended⟩

/-- An execution that failed to open its index leaves nothing to do. -/
theorem leafSystem_joinAll_of_quiescent_openIndex :
    0 ≤ 3 ∧
    LeafSystem.run 3 3 (.init 0)
        [.spawn "a", .exec 0 .useMemory, .exec 0 (.openIndex (.error (.internalError "x")))] =
      some (⟨0, [⟨"a", .returned (.error (.internalError "x")), none, 1, 1⟩]⟩ : LeafSystem Unit) ∧
    (∀ e ∈ [(.spawn "a" : LeafEvent Unit), .exec 0 .useMemory,
      .exec 0 (.openIndex (.error (.internalError "x")))], e.isCancel = false) ∧
    (∀ i e, e ≠ .cancel → (⟨0, [⟨"a", .returned (.error (.internalError "x")), none, 1, 1⟩]⟩ :
      LeafSystem Unit).step 3 3 (.exec i e) = none) ∧
    (∃ results, (⟨0, [⟨"a", .returned (.error (.internalError "x")), none, 1, 1⟩]⟩ :
        LeafSystem Unit).joinAll = some results ∧ results.length = 1) ∧
      (⟨0, [⟨"a", .returned (.error (.internalError "x")), none, 1, 1⟩]⟩ :
        LeafSystem Unit).usage = 0 :=
  have hrun : LeafSystem.run 3 3 (.init 0)
      [.spawn "a", .exec 0 .useMemory, .exec 0 (.openIndex (.error (.internalError "x")))] =
    some (⟨0, [⟨"a", .returned (.error (.internalError "x")), none, 1, 1⟩]⟩ : LeafSystem Unit) :=
    rfl
  have hes : ∀ e ∈ [(.spawn "a" : LeafEvent Unit), .exec 0 .useMemory,
      .exec 0 (.openIndex (.error (.internalError "x")))], e.isCancel = false := by decide
  have hstuck : ∀ i e, e ≠ .cancel → (⟨0, [⟨"a", .returned (.error (.internalError "x")), none, 1,
      1⟩]⟩ : LeafSystem Unit).step 3 3 (.exec i e) = none := fun i e _ => by
    rcases i with _ | i <;> cases e <;> simp [LeafSystem.step, SingleSplitExec.step]
  ⟨by decide, hrun, hes, hstuck,
    leafSystem_joinAll_of_quiescent 3 3 0 (by decide) _ _ hrun hes hstuck⟩

end Quickwit.Search

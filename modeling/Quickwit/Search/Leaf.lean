import Quickwit.Search.SingleSplit

/-!
# The fan-out of a leaf search

`leaf_search` runs `leaf_search_single_split` on every split, awaits them all with `join_all`,
splits the outcomes into responses and errors with `partition_map`, merges the responses on the
blocking pool, and appends one retryable `SplitSearchError` per failed split to the merged
response.

The outcomes of the executions are the input, one per split in split order, which `join_all`
keeps. The merge collector is the parameter `mergeTask`, what the blocking task returns on the
responses, and the impls of error.rs are the parameter `impls`.

* `leafSearch_partitions_splits`: `leaf_search` fails only as its merge task does. When
  `merge_fruits` returns `R`, it was given the responses of the splits that succeeded, in split
  order, and `leaf_search` returns `R` with one retryable failure per failed split appended, in
  split order, with the split's id and error.
* `leafSearch_of_interleaving`: however the executions of `leafSearchSingleSplit` interleave,
  `join_all` yields their results in split order, so `leaf_search` answers as on the sequential
  results, and the memory usage is back at its base value.
-/

namespace Quickwit.Search

variable {Hits : Type}

/-- The context `leaf_search` puts on a failure of the merge task. -/
def mergeContext : String := "Failed to merge split search responses."

/-- The merge step of `leaf_search`: `merge_fruits` on the blocking pool, awaited with the merge
context and `??`. `mergeTask` is what the task returns: a `JoinError` if it panicked, or what
`merge_fruits` returned. -/
def mergeStep (impls : SearchErrorImpls)
    (mergeTask : List (LeafSearchResponse Hits) →
      Except JoinError (Except SearchError (LeafSearchResponse Hits)))
    (splitSearchResponses : List (LeafSearchResponse Hits)) :
    Except SearchError (LeafSearchResponse Hits) :=
  match mergeTask splitSearchResponses with
  | .error joinError =>
    .error (impls.ofAnyhow ((AnyhowError.ofMsg joinError.msg).withContext mergeContext))
  | .ok res => res

/-- The failure recorded for a split: its id, its error as `format!("{:?}", err)`, retryable. -/
def splitSearchError (impls : SearchErrorImpls) (splitId : String) (err : SearchError) :
    SplitSearchError :=
  ⟨splitId, impls.debug err, true⟩

/-- `leaf_search`, on the outcome of `leaf_search_single_split` on each split, in split order. -/
def leafSearch (impls : SearchErrorImpls)
    (mergeTask : List (LeafSearchResponse Hits) →
      Except JoinError (Except SearchError (LeafSearchResponse Hits)))
    (executions : List (SplitIdAndFooterOffsets × Except SearchError (LeafSearchResponse Hits))) :
    Except SearchError (LeafSearchResponse Hits) :=
  let splitSearchResults := executions.map fun (split, res) => res.mapError (split.splitId, ·)
  let (splitSearchResponses, errors) := splitSearchResults.partitionMap fun
    | .ok splitSearchResp => .inl splitSearchResp
    | .error err => .inr err
  match mergeStep impls mergeTask splitSearchResponses with
  | .error e => .error e
  | .ok mergedSearchResponse =>
    .ok { mergedSearchResponse with
      failedSplits := mergedSearchResponse.failedSplits ++
        errors.map fun (splitId, err) => splitSearchError impls splitId err }

/-! ## What is merged and what is failed -/

section Partition

variable (impls : SearchErrorImpls)
  (executions : List (SplitIdAndFooterOffsets × Except SearchError (LeafSearchResponse Hits)))

/-- The responses of the splits that succeeded, in split order. -/
def okResponses : List (LeafSearchResponse Hits) :=
  executions.filterMap fun p => p.2.toOption

/-- The errors of the splits that failed, with their ids, in split order. -/
def splitErrors : List (String × SearchError) :=
  executions.filterMap fun
    | (_, .ok _) => none
    | (split, .error err) => some (split.splitId, err)

/-- One failure per split that failed, in split order. -/
def splitFailures : List SplitSearchError :=
  (splitErrors executions).map fun (splitId, err) => splitSearchError impls splitId err

theorem partitionMap_eq_filterMap {α β γ : Type} (f : α → β ⊕ γ) (l : List α) :
    l.partitionMap f =
      (l.filterMap fun a => (f a).getLeft?, l.filterMap fun a => (f a).getRight?) := by
  suffices ∀ acc₁ acc₂, List.partitionMap.go f l acc₁ acc₂ =
      (acc₁.toList ++ l.filterMap fun a => (f a).getLeft?,
        acc₂.toList ++ l.filterMap fun a => (f a).getRight?) from
    (this #[] #[]).trans (by simp)
  induction l with
  | nil => simp [List.partitionMap.go]
  | cons a l ih =>
    intro acc₁ acc₂
    cases h : f a <;> simp [List.partitionMap.go, h, ih, List.filterMap_cons]

/-- `partition_map` sends the responses to the merge and keeps the errors with their ids. -/
theorem partitionMap_splitSearchResults :
    (executions.map fun (split, res) => res.mapError (split.splitId, ·)).partitionMap
        (fun | .ok splitSearchResp => .inl splitSearchResp | .error err => .inr err) =
      (okResponses executions, splitErrors executions) := by
  rw [partitionMap_eq_filterMap, List.filterMap_map, List.filterMap_map, okResponses, splitErrors]
  congr 1 <;> refine List.filterMap_congr fun ⟨split, res⟩ _ => ?_ <;> cases res <;> rfl

/-- `leaf_search` is the merge of the responses that succeeded, with the failures appended. -/
theorem leafSearch_eq
    (mergeTask : List (LeafSearchResponse Hits) →
      Except JoinError (Except SearchError (LeafSearchResponse Hits))) :
    leafSearch impls mergeTask executions = (mergeStep impls mergeTask (okResponses executions)).map
      fun r => { r with failedSplits := r.failedSplits ++ splitFailures impls executions } := by
  simp only [leafSearch, partitionMap_splitSearchResults]
  cases mergeStep impls mergeTask (okResponses executions) <;> rfl

theorem splitFailures_fields :
    (splitFailures impls executions).map (fun f => (f.splitId, f.error, f.retryableError)) =
      executions.filterMap fun p => match p.2 with
        | .ok _ => none
        | .error err => some (p.1.splitId, impls.debug err, true) := by
  rw [splitFailures, splitErrors, List.map_filterMap, List.map_filterMap]
  exact List.filterMap_congr fun ⟨_, res⟩ _ => by cases res <;> rfl

/-- The splits merged and the splits failed are all the splits: `N - K` and `K`. -/
theorem length_okResponses_splitFailures :
    (splitFailures impls executions).length = executions.countP (fun p => !p.2.isOk) ∧
      (okResponses executions).length =
        executions.length - executions.countP (fun p => !p.2.isOk) := by
  have hok : (okResponses executions).length = executions.countP (fun p => p.2.isOk) := by
    rw [okResponses, List.length_filterMap_eq_countP]
    exact List.countP_congr fun ⟨_, res⟩ _ => by cases res <;> rfl
  have hfail : (splitFailures impls executions).length =
      executions.countP (fun p => !p.2.isOk) := by
    rw [splitFailures, List.length_map, splitErrors, List.length_filterMap_eq_countP]
    exact List.countP_congr fun ⟨_, res⟩ _ => by cases res <;> rfl
  have := List.length_eq_countP_add_countP (fun p => p.2.isOk) executions
  simp only [Bool.not_eq_true, Bool.decide_eq_false] at this
  exact ⟨hfail, by rw [hok]; omega⟩

end Partition

/-- **Every split is merged or listed as failed, exactly once**, and `leaf_search` fails only as
its merge task does. -/
theorem leafSearch_partitions_splits (impls : SearchErrorImpls)
    (mergeTask : List (LeafSearchResponse Hits) →
      Except JoinError (Except SearchError (LeafSearchResponse Hits)))
    (executions : List (SplitIdAndFooterOffsets × Except SearchError (LeafSearchResponse Hits))) :
    (∀ j, mergeTask (executions.filterMap fun p => p.2.toOption) = .error j →
      leafSearch impls mergeTask executions =
        .error (impls.ofAnyhow ((AnyhowError.ofMsg j.msg).withContext mergeContext))) ∧
    (∀ e, mergeTask (executions.filterMap fun p => p.2.toOption) = .ok (.error e) →
      leafSearch impls mergeTask executions = .error e) ∧
    ∀ R, mergeTask (executions.filterMap fun p => p.2.toOption) = .ok (.ok R) →
      ∃ failures, leafSearch impls mergeTask executions =
          .ok { R with failedSplits := R.failedSplits ++ failures } ∧
        failures.map (fun f => (f.splitId, f.error, f.retryableError)) =
          executions.filterMap (fun p => match p.2 with
            | .ok _ => none
            | .error err => some (p.1.splitId, impls.debug err, true)) ∧
        failures.length = executions.countP (fun p => !p.2.isOk) ∧
        (executions.filterMap fun p => p.2.toOption).length =
          executions.length - executions.countP (fun p => !p.2.isOk) := by
  obtain ⟨hfail, hok⟩ := length_okResponses_splitFailures impls executions
  refine ⟨fun j hj => ?_, fun e he => ?_, fun R hR =>
    ⟨_, ?_, splitFailures_fields impls executions, hfail, hok⟩⟩ <;>
    rw [leafSearch_eq, mergeStep, okResponses]
  · rw [hj]; rfl
  · rw [he]; rfl
  · rw [hR]; rfl

/-- Of two splits, the second fails: one response is merged and one failure listed. -/
theorem leafSearch_partitions_splits_two :
    (fun rs : List (LeafSearchResponse ℕ) =>
        (.ok (.ok ⟨rs.length, []⟩) : Except JoinError (Except SearchError (LeafSearchResponse ℕ))))
        (([(⟨"a", 0, 1⟩, .ok ⟨7, []⟩), (⟨"b", 0, 1⟩, .error (.internalError "x"))] :
          List (SplitIdAndFooterOffsets × Except SearchError (LeafSearchResponse ℕ))).filterMap
          fun p => p.2.toOption) = .ok (.ok ⟨1, []⟩) ∧
    ∃ failures, leafSearch ⟨fun _ => .internalError "", fun _ => "x"⟩
          (fun rs => .ok (.ok ⟨rs.length, []⟩))
          [(⟨"a", 0, 1⟩, .ok ⟨7, []⟩), (⟨"b", 0, 1⟩, .error (.internalError "x"))] =
        .ok { (⟨1, []⟩ : LeafSearchResponse ℕ) with failedSplits := [] ++ failures } ∧
      failures.map (fun f => (f.splitId, f.error, f.retryableError)) =
        ([(⟨"a", 0, 1⟩, .ok ⟨7, []⟩), (⟨"b", 0, 1⟩, .error (.internalError "x"))] :
          List (SplitIdAndFooterOffsets × Except SearchError (LeafSearchResponse ℕ))).filterMap
          (fun p => match p.2 with
            | .ok _ => none
            | .error err => some (p.1.splitId, (fun _ => "x" : SearchError → String) err, true)) ∧
      failures.length = ([(⟨"a", 0, 1⟩, .ok ⟨7, []⟩), (⟨"b", 0, 1⟩, .error (.internalError "x"))] :
          List (SplitIdAndFooterOffsets × Except SearchError (LeafSearchResponse ℕ))).countP
          (fun p => !p.2.isOk) ∧
      (([(⟨"a", 0, 1⟩, .ok ⟨7, []⟩), (⟨"b", 0, 1⟩, .error (.internalError "x"))] :
          List (SplitIdAndFooterOffsets × Except SearchError (LeafSearchResponse ℕ))).filterMap
          fun p => p.2.toOption).length =
        2 - ([(⟨"a", 0, 1⟩, .ok ⟨7, []⟩), (⟨"b", 0, 1⟩, .error (.internalError "x"))] :
          List (SplitIdAndFooterOffsets × Except SearchError (LeafSearchResponse ℕ))).countP
          (fun p => !p.2.isOk) :=
  ⟨rfl, (leafSearch_partitions_splits ⟨fun _ => .internalError "", fun _ => "x"⟩
    (fun rs => .ok (.ok ⟨rs.length, []⟩))
    [(⟨"a", 0, 1⟩, .ok ⟨7, []⟩), (⟨"b", 0, 1⟩, .error (.internalError "x"))]).2.2 ⟨1, []⟩ rfl⟩

/-! ## Over the concurrent executions -/

/-- What an execution returned, once it has. -/
def SingleSplitExec.result? (x : SingleSplitExec Hits) :
    Option (Except SearchError (LeafSearchResponse Hits)) :=
  match x.stage with
  | .returned res => some res
  | .useMemory | .openIndex | .query | .reader | .warmup | .search | .cancelled => none

namespace LeafSystem

/-- `join_all` on the executions: their results in the order they were spawned, once every one has
returned. -/
def joinAll (s : LeafSystem Hits) : Option (List (Except SearchError (LeafSearchResponse Hits))) :=
  s.execs.mapM SingleSplitExec.result?

variable {cushion threshold : ℕ} {s s' : LeafSystem Hits}

theorem length_run_of_exec {es : List (LeafEvent Hits)}
    (hes : ∀ e ∈ es, ∀ splitId, e ≠ .spawn splitId)
    (h : run cushion threshold s es = some s') : s'.execs.length = s.execs.length := by
  refine run_preserves (P := fun t => t.execs.length = s.execs.length)
    (fun e he t t' ht h₁ => ?_) rfl h
  rcases step_cases h₁ with ⟨splitId, rfl, -⟩ | ⟨i, -, e', usage', x', -, -, rfl⟩
  · exact absurd rfl (hes _ he splitId)
  · exact (List.length_set _ _ _).trans ht

/-- Once every execution has returned, `join_all` yields what they returned. -/
theorem joinAll_of_returned {α : Type} {runs : List α} {splitId : α → String}
    {res : α → Except SearchError (LeafSearchResponse Hits)}
    (h : s.execs = runs.map fun r => ⟨splitId r, .returned (res r), none, 1, 1⟩) :
    s.joinAll = some (runs.map res) := by
  rw [joinAll, h]
  clear h
  induction runs with
  | nil => rfl
  | cons r runs ih =>
    simp only [List.map_cons, List.mapM_cons, ih]
    rfl

end LeafSystem

/-- **`leaf_search` answers alike under every interleaving**: `join_all` yields the results in
split order, and the usage is back at its base value. -/
theorem leafSearch_of_interleaving (impls : SearchErrorImpls)
    (mergeTask : List (LeafSearchResponse Hits) →
      Except JoinError (Except SearchError (LeafSearchResponse Hits)))
    (cushion threshold base : ℕ) (runs : List (SplitIdAndFooterOffsets × LeafSystem.Outcomes Hits))
    (es : List (LeafEvent Hits)) (s : LeafSystem Hits) :
    (∀ e ∈ es, ∀ splitId, e ≠ .spawn splitId) →
    LeafSystem.run cushion threshold (.init base) (runs.map (fun r => .spawn r.1.splitId) ++ es) =
      some s →
    (∀ i (hi : i < runs.length), LeafSystem.eventsOf i es = runs[i].2.events) →
    s.usage = base ∧
    s.joinAll = some (runs.map fun r => leafSearchSingleSplit r.1.splitId r.2) ∧
    s.joinAll.map (fun results => leafSearch impls mergeTask ((runs.map Prod.fst).zip results)) =
      some (leafSearch impls mergeTask
        (runs.map fun r => (r.1, leafSearchSingleSplit r.1.splitId r.2))) := by
  intro hes h hev
  replace h : LeafSystem.run cushion threshold (.init base)
      ((runs.map (·.1.splitId)).map .spawn ++ es) = some s := by
    rw [List.map_map]; exact h
  -- every execution has returned the result of its own outcomes
  have hexecs : s.execs = runs.map fun r =>
      ⟨r.1.splitId, .returned (leafSearchSingleSplit r.1.splitId r.2), none, 1, 1⟩ := by
    have hlen : s.execs.length = runs.length := by
      simpa using LeafSystem.length_run_of_exec hes (LeafSystem.run_spawns_append h)
    refine List.ext_getElem? fun i => ?_
    by_cases hi : i < runs.length
    · have := LeafSystem.run_spawns_getElem h (i := i) (by simpa using hi) (hev i hi)
      simpa [List.getElem?_eq_getElem hi] using this
    · rw [List.getElem?_eq_none (by omega), List.getElem?_eq_none (by simpa using hi)]
  have hjoin := LeafSystem.joinAll_of_returned hexecs
  refine ⟨(LeafSystem.inv_init.run h).usage_of_ended fun x hx => ?_, hjoin, ?_⟩
  · rw [hexecs] at hx
    obtain ⟨r, -, rfl⟩ := List.mem_map.1 hx
    rfl
  · rw [hjoin]
    simp only [Option.map_some', List.zip_map']

/-- Two splits whose `open_index` fail, their executions admitted and ended in opposite orders. -/
theorem leafSearch_of_interleaving_two :
    (∀ e ∈ [.exec 0 .useMemory, .exec 1 .useMemory,
        .exec 1 (.openIndex (.error (.internalError "b"))),
        (.exec 0 (.openIndex (.error (.internalError "a"))) : LeafEvent Unit)],
        ∀ splitId, e ≠ .spawn splitId) ∧
    LeafSystem.run 3 3 (.init 0)
        ([(⟨"a", 0, 1⟩, ⟨.error (.internalError "a"), .ok (), .ok (), .ok (), .ok (.ok ⟨(), []⟩)⟩),
          (⟨"b", 0, 1⟩,
            ⟨.error (.internalError "b"), .ok (), .ok (), .ok (), .ok (.ok ⟨(), []⟩)⟩)].map
          (fun (r : SplitIdAndFooterOffsets × LeafSystem.Outcomes Unit) =>
            (.spawn r.1.splitId : LeafEvent Unit)) ++
        [.exec 0 .useMemory, .exec 1 .useMemory, .exec 1 (.openIndex (.error (.internalError "b"))),
          .exec 0 (.openIndex (.error (.internalError "a")))]) =
      some (⟨0, [⟨"a", .returned (.error (.internalError "a")), none, 1, 1⟩,
        ⟨"b", .returned (.error (.internalError "b")), none, 1, 1⟩]⟩ : LeafSystem Unit) ∧
    (∀ i (hi : i < 2), LeafSystem.eventsOf i
        [.exec 0 .useMemory, .exec 1 .useMemory, .exec 1 (.openIndex (.error (.internalError "b"))),
          (.exec 0 (.openIndex (.error (.internalError "a"))) : LeafEvent Unit)] =
      ([(⟨"a", 0, 1⟩, ⟨.error (.internalError "a"), .ok (), .ok (), .ok (), .ok (.ok ⟨(), []⟩)⟩),
        (⟨"b", 0, 1⟩, ⟨.error (.internalError "b"), .ok (), .ok (), .ok (), .ok (.ok ⟨(), []⟩)⟩)] :
          List (SplitIdAndFooterOffsets × LeafSystem.Outcomes Unit))[i].2.events) ∧
    (0 = 0 ∧
      LeafSystem.joinAll (⟨0, [⟨"a", .returned (.error (.internalError "a")), none, 1, 1⟩,
        ⟨"b", .returned (.error (.internalError "b")), none, 1, 1⟩]⟩ : LeafSystem Unit) =
        some [leafSearchSingleSplit "a"
            ⟨.error (.internalError "a"), .ok (), .ok (), .ok (), .ok (.ok ⟨(), []⟩)⟩,
          leafSearchSingleSplit "b"
            ⟨.error (.internalError "b"), .ok (), .ok (), .ok (), .ok (.ok ⟨(), []⟩)⟩] ∧
      (LeafSystem.joinAll (⟨0, [⟨"a", .returned (.error (.internalError "a")), none, 1, 1⟩,
        ⟨"b", .returned (.error (.internalError "b")), none, 1, 1⟩]⟩ : LeafSystem Unit)).map
        (fun results => leafSearch ⟨fun _ => .internalError "", fun _ => ""⟩
          (fun _ => .ok (.ok ⟨(), []⟩))
          ([(⟨"a", 0, 1⟩ : SplitIdAndFooterOffsets), ⟨"b", 0, 1⟩].zip results)) =
      some (leafSearch ⟨fun _ => .internalError "", fun _ => ""⟩ (fun _ => .ok (.ok ⟨(), []⟩))
        [(⟨"a", 0, 1⟩, leafSearchSingleSplit "a"
            ⟨.error (.internalError "a"), .ok (), .ok (), .ok (), .ok (.ok ⟨(), []⟩)⟩),
          (⟨"b", 0, 1⟩, leafSearchSingleSplit "b"
            ⟨.error (.internalError "b"), .ok (), .ok (), .ok (), .ok (.ok ⟨(), []⟩)⟩)])) :=
  ⟨by simp, rfl, fun | 0, _ => rfl | 1, _ => rfl | _ + 2, hi => absurd hi (by omega),
    leafSearch_of_interleaving ⟨fun _ => .internalError "", fun _ => ""⟩
      (fun _ => .ok (.ok ⟨(), []⟩)) 3 3 0
      [(⟨"a", 0, 1⟩, ⟨.error (.internalError "a"), .ok (), .ok (), .ok (), .ok (.ok ⟨(), []⟩)⟩),
        (⟨"b", 0, 1⟩, ⟨.error (.internalError "b"), .ok (), .ok (), .ok (), .ok (.ok ⟨(), []⟩)⟩)]
      [.exec 0 .useMemory, .exec 1 .useMemory, .exec 1 (.openIndex (.error (.internalError "b"))),
        .exec 0 (.openIndex (.error (.internalError "a")))]
      ⟨0, [⟨"a", .returned (.error (.internalError "a")), none, 1, 1⟩,
        ⟨"b", .returned (.error (.internalError "b")), none, 1, 1⟩]⟩
      (by simp) rfl (fun | 0, _ => rfl | 1, _ => rfl | _ + 2, hi => absurd hi (by simp))⟩

end Quickwit.Search

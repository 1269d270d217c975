import Quickwit.Search.Proto

/-!
# The split footer cache

`get_split_footer_from_cache_or_fetch` looks the split up in the process-wide footer cache and, on
a miss, reads the footer range of the split file from the storage and puts what it read in the
cache. The key of the cache is the split id alone.

The function is modelled twice: as sequential code over the cache
(`getSplitFooterFromCacheOrFetch`), and as a call suspended at its storage read (`FooterFetch`),
so that any number of calls interleave with each other and with evictions (`FooterSystem.step`).

Under the callers' guarantee that every call for a split id uses the same footer range
(`UsesRange`), every reachable state is `Sound` (`Sound.run`): every entry of the cache, and every
footer a call returned, is the storage's slice of the split's footer range. A call that hits returns
its entry and never reads the storage (`FooterSystem.run_hit`), and a failed read returns an
error and leaves the cache as it was (`FooterSystem.step_getSlice_error`).
-/

namespace Quickwit.Search

/-- `OwnedBytes`. -/
abbrev OwnedBytes := List UInt8

/-- A `Storage`, immutable: its uri, and what `get_slice(path, start..end)` answers. A read may
also fail for a transient cause, which `FooterEvent.getSlice` chooses. -/
structure Storage where
  uri : String
  getSlice : String → ℕ → ℕ → Except String OwnedBytes

/-- Modelled from the spec: `MemorySizedCache<String>` of quickwit_storage (not under src), a map
from split ids to footers with `get` and `put`. Its capacity bound only removes entries, which
`FooterEvent.evict` does at any time. -/
structure FooterCache where
  entries : String → Option OwnedBytes

namespace FooterCache

/-- The empty cache `global_split_footer_cache` starts with. -/
def empty : FooterCache := ⟨fun _ => none⟩

def get (cache : FooterCache) (splitId : String) : Option OwnedBytes := cache.entries splitId

def put (cache : FooterCache) (splitId : String) (bytes : OwnedBytes) : FooterCache :=
  ⟨Function.update cache.entries splitId (some bytes)⟩

def evict (cache : FooterCache) (splitId : String) : FooterCache :=
  ⟨Function.update cache.entries splitId none⟩

@[simp] theorem get_empty (k : String) : empty.get k = none := rfl

@[simp] theorem get_put (cache : FooterCache) (k k' : String) (b : OwnedBytes) :
    (cache.put k' b).get k = if k = k' then some b else cache.get k := by
  simp [get, put, Function.update_apply]

@[simp] theorem get_evict (cache : FooterCache) (k k' : String) :
    (cache.evict k').get k = if k = k' then none else cache.get k := by
  simp [get, evict, Function.update_apply]

end FooterCache

/-- The context `get_split_footer_from_cache_or_fetch` puts on a failed read. -/
def fetchFooterContext (storage : Storage) (splitId : String) : String :=
  "Failed to fetch hotcache and footer from " ++ storage.uri ++ " for split `" ++ splitId ++ "`"

/-- The outcome of the footer read of `split`: the storage's answer, or a transient failure. -/
def Storage.readFooter (storage : Storage) (split : SplitIdAndFooterOffsets)
    (transient : Option String) : Except String OwnedBytes :=
  match transient with
  | none => storage.getSlice (splitFile split.splitId) split.splitFooterStart split.splitFooterEnd
  | some e => .error e

/-- The end of a call after its read: a failed read returns the error with its context and leaves
the cache; a read footer is put in the cache and returned. -/
def afterGetSlice (storage : Storage) (cache : FooterCache) (split : SplitIdAndFooterOffsets) :
    Except String OwnedBytes → Except AnyhowError OwnedBytes × FooterCache
  | .error e =>
    (.error ((AnyhowError.ofMsg e).withContext (fetchFooterContext storage split.splitId)), cache)
  | .ok footerData => (.ok footerData, cache.put split.splitId footerData)

/-- `get_split_footer_from_cache_or_fetch`, on the cache it finds and the outcome `read` of the
storage read it awaits on a miss: the result, and the cache it leaves. -/
def getSplitFooterFromCacheOrFetch (storage : Storage) (cache : FooterCache)
    (split : SplitIdAndFooterOffsets) (read : Except String OwnedBytes) :
    Except AnyhowError OwnedBytes × FooterCache :=
  match cache.get split.splitId with
  | some footerData => (.ok footerData, cache)
  | none => afterGetSlice storage cache split read

/-! ## Calls suspended at the storage read -/

/-- A call of `get_split_footer_from_cache_or_fetch`, by where it stands. -/
inductive FooterFetch
  /-- Started: about to look the split up in the cache. -/
  | cacheGet (split : SplitIdAndFooterOffsets)
  /-- Missed, and awaiting the read of the footer from the storage. -/
  | getSlice (split : SplitIdAndFooterOffsets)
  /-- Returned `res`. -/
  | returned (split : SplitIdAndFooterOffsets) (res : Except AnyhowError OwnedBytes)

/-- The split a call is for. -/
def FooterFetch.split : FooterFetch → SplitIdAndFooterOffsets
  | .cacheGet split | .getSlice split | .returned split _ => split

/-- What can happen next: a new call, a step of call `i`, or an eviction. -/
inductive FooterEvent
  /-- A call for `split` begins. -/
  | call (split : SplitIdAndFooterOffsets)
  /-- Call `i` looks its split up in the cache. -/
  | cacheGet (i : ℕ)
  /-- The storage read of call `i` completes: the storage's answer, or a transient failure. -/
  | getSlice (i : ℕ) (transient : Option String)
  /-- The cache drops the entry of a split id. -/
  | evict (splitId : String)

/-- The cache and the calls, in the order they began. -/
structure FooterSystem where
  cache : FooterCache
  calls : List FooterFetch

namespace FooterSystem

/-- No call yet, and the empty cache. -/
def init : FooterSystem := ⟨FooterCache.empty, []⟩

/-- One event; `none` when it cannot happen in `s`. The cache lookup and the put are atomic; a call
suspends only at its read. -/
def step (storage : Storage) (s : FooterSystem) : FooterEvent → Option FooterSystem
  | .call split => some ⟨s.cache, s.calls ++ [.cacheGet split]⟩
  | .cacheGet i =>
    match s.calls[i]? with
    | some (.cacheGet split) =>
      match s.cache.get split.splitId with
      | some footerData => some ⟨s.cache, s.calls.set i (.returned split (.ok footerData))⟩
      | none => some ⟨s.cache, s.calls.set i (.getSlice split)⟩
    | _ => none
  | .getSlice i transient =>
    match s.calls[i]? with
    | some (.getSlice split) =>
      let (res, cache) := afterGetSlice storage s.cache split (storage.readFooter split transient)
      some ⟨cache, s.calls.set i (.returned split res)⟩
    | _ => none
  | .evict splitId => some ⟨s.cache.evict splitId, s.calls⟩

/-- A run of events; `none` when one of them cannot happen. -/
def run (storage : Storage) (s : FooterSystem) (events : List FooterEvent) : Option FooterSystem :=
  events.foldlM (step storage) s

@[simp] theorem run_nil (storage : Storage) (s : FooterSystem) : run storage s [] = some s := rfl

theorem run_cons (storage : Storage) (s : FooterSystem) (e : FooterEvent) (es : List FooterEvent) :
    run storage s (e :: es) = (step storage s e).bind (run storage · es) := rfl

variable {storage : Storage} {s s' : FooterSystem} {e : FooterEvent}

/-- **What a step can do.** A step adds a call, moves one call on from its cache lookup or from its
read (keeping its split), or evicts an entry; only the end of a read puts in the cache. -/
theorem step_cases (h : step storage s e = some s') :
    (∃ split, e = .call split ∧ s' = ⟨s.cache, s.calls ++ [.cacheGet split]⟩) ∨
    (∃ i split b, e = .cacheGet i ∧ s.calls[i]? = some (.cacheGet split) ∧
      s.cache.get split.splitId = some b ∧
      s' = ⟨s.cache, s.calls.set i (.returned split (.ok b))⟩) ∨
    (∃ i split, e = .cacheGet i ∧ s.calls[i]? = some (.cacheGet split) ∧
      s.cache.get split.splitId = none ∧ s' = ⟨s.cache, s.calls.set i (.getSlice split)⟩) ∨
    (∃ i t split, e = .getSlice i t ∧ s.calls[i]? = some (.getSlice split) ∧
      s' = ⟨(afterGetSlice storage s.cache split (storage.readFooter split t)).2,
        s.calls.set i (.returned split (afterGetSlice storage s.cache split
          (storage.readFooter split t)).1)⟩) ∨
    (∃ k, e = .evict k ∧ s' = ⟨s.cache.evict k, s.calls⟩) := by
  cases e with
  | call split => exact .inl ⟨split, rfl, (Option.some.inj h).symm⟩
  | cacheGet i =>
    simp only [step] at h
    split at h <;> try contradiction
    rename_i split hi
    split at h <;> cases h
    · exact .inr (.inl ⟨i, split, _, rfl, hi, ‹_›, rfl⟩)
    · exact .inr (.inr (.inl ⟨i, split, rfl, hi, ‹_›, rfl⟩))
  | getSlice i t =>
    simp only [step] at h
    split at h <;> cases h
    exact .inr (.inr (.inr (.inl ⟨i, t, _, rfl, ‹_›, rfl⟩)))
  | evict k => exact .inr (.inr (.inr (.inr ⟨k, rfl, (Option.some.inj h).symm⟩)))

end FooterSystem

/-! ## Soundness under fixed footer ranges -/

/-- The callers' guarantee: the footer range of `split` is the one `footerRange` gives its id. -/
def UsesRange (footerRange : String → ℕ × ℕ) (split : SplitIdAndFooterOffsets) : Prop :=
  (split.splitFooterStart, split.splitFooterEnd) = footerRange split.splitId

/-- An event that keeps the guarantee: a call it begins uses the range of its split id. -/
def FooterEvent.UsesRange (footerRange : String → ℕ × ℕ) : FooterEvent → Prop
  | .call split => Search.UsesRange footerRange split
  | _ => True

/-- The footer of split id `k`, as the storage has it. -/
def Storage.footer (storage : Storage) (footerRange : String → ℕ × ℕ) (k : String) :
    Except String OwnedBytes :=
  storage.getSlice (splitFile k) (footerRange k).1 (footerRange k).2

/-- The invariant of the calls and the cache: every call uses the range of its split id, and every
entry of the cache and every footer returned is the storage's footer of its split id. -/
structure FooterSystem.Sound (storage : Storage) (footerRange : String → ℕ × ℕ) (s : FooterSystem) :
    Prop where
  calls_usesRange : ∀ c ∈ s.calls, UsesRange footerRange c.split
  cache_footer : ∀ k b, s.cache.get k = some b → storage.footer footerRange k = .ok b
  returned_footer : ∀ split b, FooterFetch.returned split (.ok b) ∈ s.calls →
    storage.footer footerRange split.splitId = .ok b

variable {storage : Storage} {footerRange : String → ℕ × ℕ}

theorem Storage.readFooter_none {split : SplitIdAndFooterOffsets}
    (h : UsesRange footerRange split) :
    storage.readFooter split none = storage.footer footerRange split.splitId := by
  rw [UsesRange] at h
  simp only [Storage.readFooter, Storage.footer, ← h]

/-- The cache a read leaves is sound, and so is what it returns, when the cache it found was. -/
theorem afterGetSlice_sound {cache : FooterCache} {split : SplitIdAndFooterOffsets}
    {t : Option String} (hsplit : UsesRange footerRange split)
    (hcache : ∀ k b, cache.get k = some b → storage.footer footerRange k = .ok b) :
    let r := afterGetSlice storage cache split (storage.readFooter split t)
    (∀ k b, r.2.get k = some b → storage.footer footerRange k = .ok b) ∧
      ∀ b, r.1 = .ok b → storage.footer footerRange split.splitId = .ok b := by
  have hread : ∀ b, storage.readFooter split t = .ok b →
      storage.footer footerRange split.splitId = .ok b := by
    intro b hb
    cases t with
    | none => rwa [Storage.readFooter_none hsplit] at hb
    | some e => cases hb
  cases hr : storage.readFooter split t with
  | error e => exact ⟨hcache, fun b hb => by cases hb⟩
  | ok b =>
    refine ⟨fun k b' hk => ?_, fun b' hb' => ?_⟩
    · simp only [afterGetSlice, FooterCache.get_put] at hk
      split_ifs at hk with hkk
      · cases hk; subst hkk; exact hread b hr
      · exact hcache k b' hk
    · cases hb'; exact hread b hr

namespace FooterSystem

variable {s s' : FooterSystem} {e : FooterEvent}

theorem usesRange_set {c c' : FooterFetch} {i : ℕ}
    (hs : ∀ d ∈ s.calls, UsesRange footerRange d.split) (hi : s.calls[i]? = some c)
    (hc : c'.split = c.split) :
    ∀ d ∈ s.calls.set i c', UsesRange footerRange d.split := by
  intro d hd
  rcases List.mem_or_eq_of_mem_set hd with hd | rfl
  · exact hs d hd
  · rw [hc]; exact hs c (List.getElem?_mem hi)

theorem returned_footer_set {c' : FooterFetch} {i : ℕ}
    (hret : ∀ split b, FooterFetch.returned split (.ok b) ∈ s.calls →
      storage.footer footerRange split.splitId = .ok b)
    (hc : ∀ split b, c' = .returned split (.ok b) →
      storage.footer footerRange split.splitId = .ok b) :
    ∀ split b, FooterFetch.returned split (.ok b) ∈ s.calls.set i c' →
      storage.footer footerRange split.splitId = .ok b := by
  intro split b hd
  rcases List.mem_or_eq_of_mem_set hd with hd | hd
  · exact hret split b hd
  · exact hc split b hd.symm

/-- **A step keeps the footer cache sound.** -/
theorem Sound.step (hs : Sound storage footerRange s) (he : e.UsesRange footerRange)
    (h : step storage s e = some s') : Sound storage footerRange s' := by
  obtain ⟨hrange, hcache, hret⟩ := hs
  rcases step_cases h with ⟨split, rfl, rfl⟩ | ⟨i, split, b, rfl, hi, hb, rfl⟩ |
    ⟨i, split, rfl, hi, -, rfl⟩ | ⟨i, t, split, rfl, hi, rfl⟩ | ⟨k, rfl, rfl⟩
  · refine ⟨fun d hd => ?_, hcache, fun sp b hd => ?_⟩ <;>
      rcases List.mem_append.1 hd with hd | hd
    · exact hrange d hd
    · rw [List.mem_singleton.1 hd]; exact he
    · exact hret sp b hd
    · cases List.mem_singleton.1 hd
  · refine ⟨usesRange_set hrange hi rfl, hcache, returned_footer_set hret fun sp b' hd => ?_⟩
    obtain ⟨rfl, hd⟩ := FooterFetch.returned.inj hd
    cases hd
    exact hcache _ _ hb
  · exact ⟨usesRange_set hrange hi rfl, hcache, returned_footer_set hret fun _ _ hd => by cases hd⟩
  · obtain ⟨hc, hr⟩ := afterGetSlice_sound (t := t) (hrange _ (List.getElem?_mem hi)) hcache
    refine ⟨usesRange_set hrange hi rfl, hc, returned_footer_set hret fun sp b' hd => ?_⟩
    obtain ⟨rfl, hres⟩ := FooterFetch.returned.inj hd
    exact hr b' hres
  · refine ⟨hrange, fun k' b hk => ?_, hret⟩
    simp only [FooterCache.get_evict] at hk
    split_ifs at hk
    exact hcache k' b hk

theorem Sound.run {es : List FooterEvent} (hs : Sound storage footerRange s)
    (he : ∀ e ∈ es, e.UsesRange footerRange) (h : run storage s es = some s') :
    Sound storage footerRange s' := by
  induction es generalizing s with
  | nil => cases h; exact hs
  | cons e es ih =>
    simp only [run_cons] at h
    obtain ⟨s₁, h₁, h₂⟩ := Option.bind_eq_some.1 h
    exact ih (hs.step (he e (List.mem_cons_self _ _)) h₁)
      (fun e' h' => he e' (List.mem_cons_of_mem _ h')) h₂

theorem sound_init : Sound storage footerRange init :=
  ⟨by simp [init], by simp [init], by simp [init]⟩

/-! ## Hits and failed reads -/

/-- A returned call is never touched again. -/
theorem step_returned {i : ℕ} {split : SplitIdAndFooterOffsets} {r : Except AnyhowError OwnedBytes}
    (hi : s.calls[i]? = some (.returned split r)) (h : step storage s e = some s') :
    s'.calls[i]? = some (.returned split r) := by
  have hset : ∀ j c c', s.calls[j]? = some c → (∀ x, c ≠ .returned split x) →
      (s.calls.set j c')[i]? = some (.returned split r) := fun j c c' hj hc => by
    rw [List.getElem?_set_ne fun hji =>
      hc r (by rw [hji, hi] at hj; exact (Option.some.inj hj).symm)]
    exact hi
  rcases step_cases h with ⟨split, rfl, rfl⟩ | ⟨j, sp, b, rfl, hj, -, rfl⟩ |
    ⟨j, sp, rfl, hj, -, rfl⟩ | ⟨j, t, sp, rfl, hj, rfl⟩ | ⟨k, rfl, rfl⟩
  · rw [List.getElem?_append_left (List.getElem?_eq_some_iff.1 hi).1]; exact hi
  · exact hset j _ _ hj (fun _ => nofun)
  · exact hset j _ _ hj (fun _ => nofun)
  · exact hset j _ _ hj (fun _ => nofun)
  · exact hi

theorem run_returned {es : List FooterEvent} {i : ℕ} {split : SplitIdAndFooterOffsets}
    {r : Except AnyhowError OwnedBytes} (hi : s.calls[i]? = some (.returned split r))
    (h : run storage s es = some s') : s'.calls[i]? = some (.returned split r) := by
  induction es generalizing s with
  | nil => cases h; exact hi
  | cons e es ih =>
    obtain ⟨s₁, h₁, h₂⟩ := Option.bind_eq_some.1 h
    exact ih (step_returned hi h₁) h₂

theorem step_cacheGet_hit {i : ℕ} {split : SplitIdAndFooterOffsets} {b : OwnedBytes}
    (hi : s.calls[i]? = some (.cacheGet split)) (hb : s.cache.get split.splitId = some b) :
    step storage s (.cacheGet i) = some ⟨s.cache, s.calls.set i (.returned split (.ok b))⟩ := by
  simp only [step, hi, hb]

/-- **A hit never reads the storage**: it returns the entry, leaves the cache and stays returned. -/
theorem run_hit {i : ℕ} {split : SplitIdAndFooterOffsets} {b : OwnedBytes}
    (hi : s.calls[i]? = some (.cacheGet split)) (hb : s.cache.get split.splitId = some b) :
    ∃ s₁, step storage s (.cacheGet i) = some s₁ ∧ s₁.cache = s.cache ∧
      ∀ es s', run storage s₁ es = some s' → s'.calls[i]? = some (.returned split (.ok b)) := by
  refine ⟨⟨s.cache, s.calls.set i (.returned split (.ok b))⟩, step_cacheGet_hit hi hb, rfl,
    fun es s' h => run_returned ?_ h⟩
  simp [List.getElem?_set, (List.getElem?_eq_some_iff.1 hi).1]

/-- **A failed read changes nothing but the call**, which returns the error with its context. -/
theorem step_getSlice_error {i : ℕ} {t : Option String} {split : SplitIdAndFooterOffsets}
    {err : String} (hi : s.calls[i]? = some (.getSlice split))
    (hr : storage.readFooter split t = .error err) :
    step storage s (.getSlice i t) = some ⟨s.cache, s.calls.set i (.returned split (.error
      ((AnyhowError.ofMsg err).withContext (fetchFooterContext storage split.splitId))))⟩ := by
  simp only [step, hi, hr, afterGetSlice]

theorem step_getSlice_ok {i : ℕ} {t : Option String} {split : SplitIdAndFooterOffsets}
    {b : OwnedBytes} (hi : s.calls[i]? = some (.getSlice split))
    (hr : storage.readFooter split t = .ok b) (h : step storage s (.getSlice i t) = some s') :
    s'.cache.get split.splitId = some b := by
  simp only [step, hi, hr, afterGetSlice, Option.some.injEq] at h
  simp [← h]

/-- An entry stays in the cache until it is evicted: only a read puts, and it puts a footer. -/
theorem cache_isSome_step {k : String} (hk : (s.cache.get k).isSome) (he : e ≠ .evict k)
    (h : step storage s e = some s') : (s'.cache.get k).isSome := by
  rcases step_cases h with ⟨-, -, rfl⟩ | ⟨-, -, -, -, -, -, rfl⟩ | ⟨-, -, -, -, -, rfl⟩ |
    ⟨i, t, split, -, -, rfl⟩ | ⟨k', rfl, rfl⟩
  · exact hk
  · exact hk
  · exact hk
  · cases storage.readFooter split t with
    | error => exact hk
    | ok b => simp only [afterGetSlice, FooterCache.get_put]; split_ifs <;> simp [hk]
  · rw [FooterCache.get_evict, if_neg (fun hkk : k = k' => he (hkk ▸ rfl))]
    exact hk

theorem cache_isSome_run {es : List FooterEvent} {k : String} (hk : (s.cache.get k).isSome)
    (he : FooterEvent.evict k ∉ es) (h : run storage s es = some s') : (s'.cache.get k).isSome := by
  induction es generalizing s with
  | nil => cases h; exact hk
  | cons e es ih =>
    obtain ⟨s₁, h₁, h₂⟩ := Option.bind_eq_some.1 h
    rw [List.mem_cons, not_or] at he
    exact ih (cache_isSome_step hk (Ne.symm he.1) h₁) he.2 h₂

end FooterSystem

/-- **The footer cache serves the storage's footers.** Under fixed footer ranges, every entry and
every footer returned is the storage's slice; a hit never reads; a failed read leaves the cache. -/
theorem getSplitFooter_cache_sound (storage : Storage) (footerRange : String → ℕ × ℕ) :
    (∀ es s, (∀ e ∈ es, e.UsesRange footerRange) → FooterSystem.run storage .init es = some s →
      (∀ k b, s.cache.get k = some b → storage.footer footerRange k = .ok b) ∧
      ∀ split b, .returned split (.ok b) ∈ s.calls →
        storage.footer footerRange split.splitId = .ok b) ∧
    (∀ (s : FooterSystem) i split b, s.calls[i]? = some (.cacheGet split) →
      s.cache.get split.splitId = some b →
      ∃ s₁, FooterSystem.step storage s (.cacheGet i) = some s₁ ∧ s₁.cache = s.cache ∧
        ∀ es s', FooterSystem.run storage s₁ es = some s' →
          s'.calls[i]? = some (.returned split (.ok b))) ∧
    (∀ (s : FooterSystem) i t split err, s.calls[i]? = some (.getSlice split) →
      storage.readFooter split t = .error err →
      FooterSystem.step storage s (.getSlice i t) = some ⟨s.cache, s.calls.set i (.returned split
        (.error
          ((AnyhowError.ofMsg err).withContext (fetchFooterContext storage split.splitId))))⟩) :=
  ⟨fun _ _ he h =>
      have hs := FooterSystem.sound_init.run he h
      ⟨hs.cache_footer, hs.returned_footer⟩,
    fun _ _ _ _ hi hb => FooterSystem.run_hit hi hb,
    fun _ _ _ _ _ hi hr => FooterSystem.step_getSlice_error hi hr⟩

/-- A miss, its read and a hit: the cache and both calls hold the storage's footer. -/
theorem getSplitFooter_cache_sound_hit :
    (∀ e ∈ [.call ⟨"a", 0, 1⟩, .cacheGet 0, .getSlice 0 none, .call ⟨"a", 0, 1⟩, .cacheGet 1],
      FooterEvent.UsesRange (fun _ => (0, 1)) e) ∧
    FooterSystem.run ⟨"ram:///", fun _ _ _ => .ok [7]⟩ .init
        [.call ⟨"a", 0, 1⟩, .cacheGet 0, .getSlice 0 none, .call ⟨"a", 0, 1⟩, .cacheGet 1] =
      some ⟨FooterCache.empty.put "a" [7],
        [.returned ⟨"a", 0, 1⟩ (.ok [7]), .returned ⟨"a", 0, 1⟩ (.ok [7])]⟩ ∧
    (∀ k b, (FooterCache.empty.put "a" [7]).get k = some b →
      Storage.footer ⟨"ram:///", fun _ _ _ => .ok [7]⟩ (fun _ => (0, 1)) k = .ok b) ∧
    ∀ split b, FooterFetch.returned split (.ok b) ∈
        [FooterFetch.returned ⟨"a", 0, 1⟩ (.ok [7]), .returned ⟨"a", 0, 1⟩ (.ok [7])] →
      Storage.footer ⟨"ram:///", fun _ _ _ => .ok [7]⟩ (fun _ => (0, 1)) split.splitId = .ok b :=
  have hes : ∀ e ∈ [.call ⟨"a", 0, 1⟩, .cacheGet 0, .getSlice 0 none, .call ⟨"a", 0, 1⟩,
      .cacheGet 1], FooterEvent.UsesRange (fun _ => (0, 1)) e := by
    simp [FooterEvent.UsesRange, UsesRange]
  have hrun : FooterSystem.run ⟨"ram:///", fun _ _ _ => .ok [7]⟩ .init
      [.call ⟨"a", 0, 1⟩, .cacheGet 0, .getSlice 0 none, .call ⟨"a", 0, 1⟩, .cacheGet 1] =
    some ⟨FooterCache.empty.put "a" [7],
      [.returned ⟨"a", 0, 1⟩ (.ok [7]), .returned ⟨"a", 0, 1⟩ (.ok [7])]⟩ := rfl
  ⟨hes, hrun, (getSplitFooter_cache_sound _ _).1 _ _ hes hrun⟩

/-- **A footer read once is not read again until it is evicted**: every later call for the split
id hits. -/
theorem getSplitFooter_no_refetch (storage : Storage) :
    ∀ (s s₁ s₂ : FooterSystem) i t split b es,
      s.calls[i]? = some (.getSlice split) → storage.readFooter split t = .ok b →
      FooterSystem.step storage s (.getSlice i t) = some s₁ →
      FooterSystem.run storage s₁ es = some s₂ → FooterEvent.evict split.splitId ∉ es →
      ∃ b', s₂.cache.get split.splitId = some b' ∧
        ∀ j split', s₂.calls[j]? = some (.cacheGet split') → split'.splitId = split.splitId →
          FooterSystem.step storage s₂ (.cacheGet j) =
            some ⟨s₂.cache, s₂.calls.set j (.returned split' (.ok b'))⟩ :=
  fun _ s₁ s₂ _ _ split _ _ hi hr h₁ h₂ he => by
    have hk : (s₁.cache.get split.splitId).isSome := by
      rw [FooterSystem.step_getSlice_ok hi hr h₁]; rfl
    obtain ⟨b', hb'⟩ := Option.isSome_iff_exists.1 (FooterSystem.cache_isSome_run hk he h₂)
    exact ⟨b', hb', fun j split' hj hid => FooterSystem.step_cacheGet_hit hj (hid ▸ hb')⟩

/-- A second call for the split read by a first one hits. -/
theorem getSplitFooter_no_refetch_second :
    (⟨FooterCache.empty, [.getSlice ⟨"a", 0, 1⟩]⟩ : FooterSystem).calls[0]? =
      some (.getSlice ⟨"a", 0, 1⟩) ∧
    Storage.readFooter ⟨"ram:///", fun _ _ _ => .ok [7]⟩ ⟨"a", 0, 1⟩ none = .ok [7] ∧
    FooterSystem.step ⟨"ram:///", fun _ _ _ => .ok [7]⟩
      ⟨FooterCache.empty, [.getSlice ⟨"a", 0, 1⟩]⟩ (.getSlice 0 none) =
      some ⟨FooterCache.empty.put "a" [7], [.returned ⟨"a", 0, 1⟩ (.ok [7])]⟩ ∧
    FooterSystem.run ⟨"ram:///", fun _ _ _ => .ok [7]⟩
      ⟨FooterCache.empty.put "a" [7], [.returned ⟨"a", 0, 1⟩ (.ok [7])]⟩ [.call ⟨"a", 0, 1⟩] =
      some ⟨FooterCache.empty.put "a" [7],
        [.returned ⟨"a", 0, 1⟩ (.ok [7]), .cacheGet ⟨"a", 0, 1⟩]⟩ ∧
    FooterEvent.evict "a" ∉ [.call ⟨"a", 0, 1⟩] ∧
    ∃ b', (FooterCache.empty.put "a" [7]).get "a" = some b' ∧
      ∀ j split', [FooterFetch.returned ⟨"a", 0, 1⟩ (.ok [7]), .cacheGet ⟨"a", 0, 1⟩][j]? =
          some (.cacheGet split') → split'.splitId = "a" →
        FooterSystem.step ⟨"ram:///", fun _ _ _ => .ok [7]⟩
          ⟨FooterCache.empty.put "a" [7], [.returned ⟨"a", 0, 1⟩ (.ok [7]), .cacheGet ⟨"a", 0, 1⟩]⟩
          (.cacheGet j) = some ⟨FooterCache.empty.put "a" [7],
            [FooterFetch.returned ⟨"a", 0, 1⟩ (.ok [7]), .cacheGet ⟨"a", 0, 1⟩].set j
              (.returned split' (.ok b'))⟩ :=
  ⟨rfl, rfl, rfl, rfl, by simp, getSplitFooter_no_refetch ⟨"ram:///", fun _ _ _ => .ok [7]⟩
    ⟨FooterCache.empty, [.getSlice ⟨"a", 0, 1⟩]⟩ _ _ 0 none ⟨"a", 0, 1⟩ [7] [.call ⟨"a", 0, 1⟩]
    rfl rfl rfl rfl (by simp)⟩

end Quickwit.Search

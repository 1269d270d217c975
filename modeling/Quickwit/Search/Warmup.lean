import Quickwit.Search.Proto
import Mathlib.Data.List.Perm.Basic
import Mathlib.Data.List.Nodup

/-!
# Warmup

Tantivy cannot fetch data while it searches, so `warmup` downloads in advance everything the query
and the collector will read: `warm_up_terms` the postings of the query's terms, then
`warm_up_fastfields` the columns of the fast fields the collector asks for.

The tantivy calls are modelled by what they can do to the warmup: opening the inverted index or the
fast-field data of a field on a segment may fail (`SegmentReader`), and every read may fail
(`readResult`). A run of warmup returns the reads it awaited together with its result. The schema
errors name the field through `{:?}`, Rust's `Debug` of a string, which is a parameter (`debugStr`).

* The term map is the `BTreeMap` of the query's terms, as its entries in its order. Itertools'
  `group_by` splits it into runs of terms of one field (`groupBy`). The results on the reads do not
  use that the order keeps the terms of a field together; with it, there is one run per field
  (`groupBy_terms_of_sorted`).
* `warmup_reads`: if a requested name is not a fast field of the schema, warmup fails and reads no
  column; otherwise, when every lookup and read succeeds, it succeeds after reading exactly one
  posting list per segment and term, on the inverted index of the term's own field and with
  positions as flagged, and one column per segment and requested field (`warmupReads`).
* `warmup_eq_ok_iff`: conversely, warmup succeeds only if every name is a fast field and every
  lookup and read succeeded; which error a failed join returns is all the model chooses
  (`tryJoinAll_eq_ok_iff`).
* `warmup_reads_nodup`: whatever fails, warmup awaits a part of its plan (`warmup_perm_sublist`),
  and, as the terms of the map, the names of the set and the segments are distinct, no read twice.
-/

namespace Quickwit.Search

/-! ## Schema, segments and reads -/

/-- A tantivy `Field`: the index of a field in the schema. -/
structure Field where
  fieldId : ℕ
  deriving DecidableEq, Repr

/-- A tantivy `Term`: its field and the bytes of its value. -/
structure Term where
  field : Field
  value : List UInt8
  deriving DecidableEq, Repr

/-- A `FieldEntry` of a schema, by its name and whether it is a fast field. -/
structure FieldEntry where
  name : String
  isFast : Bool
  deriving DecidableEq, Repr

/-- A tantivy `Schema`: its field entries, a `Field` being the index of its entry. Names are unique,
as `SchemaBuilder` asserts. -/
structure Schema where
  fields : List FieldEntry
  names_nodup : (fields.map FieldEntry.name).Nodup

namespace Schema

def getField (schema : Schema) (name : String) : Option Field :=
  (schema.fields.findIdx? (·.name == name)).map Field.mk

def getFieldEntry (schema : Schema) (field : Field) : FieldEntry :=
  schema.fields.getD field.fieldId ⟨"", false⟩

/-- Whether `name` is a field of the schema, and a fast one. -/
def isFastFieldName (schema : Schema) (name : String) : Bool :=
  match schema.getField name with
  | some field => (schema.getFieldEntry field).isFast
  | none => false

end Schema

/-- An `InvertedIndexReader`: the segment and the field whose postings it reads. -/
structure InvertedIndexReader where
  segmentOrd : ℕ
  field : Field
  deriving DecidableEq, Repr

/-- A `FileSlice` of the fast-field data of a field in a segment. -/
structure FileSlice where
  segmentOrd : ℕ
  field : Field
  idx : ℕ
  deriving DecidableEq, Repr

/-- A `SegmentReader`, through the two calls warmup makes on it; each fails with the io error that
`invertedIndexError` or `fastFieldDataError` gives, if any. -/
structure SegmentReader where
  segmentOrd : ℕ
  invertedIndexError : Field → Option String
  fastFieldDataError : Field → ℕ → Option String

namespace SegmentReader

def invertedIndex (segmentReader : SegmentReader) (field : Field) :
    Except String InvertedIndexReader :=
  match segmentReader.invertedIndexError field with
  | some e => .error e
  | none => .ok ⟨segmentReader.segmentOrd, field⟩

def fastFieldData (segmentReader : SegmentReader) (field : Field) (idx : ℕ) :
    Except String FileSlice :=
  match segmentReader.fastFieldDataError field idx with
  | some e => .error e
  | none => .ok ⟨segmentReader.segmentOrd, field, idx⟩

end SegmentReader

/-- A tantivy `Searcher`, by its schema and its segment readers. -/
structure Searcher where
  schema : Schema
  segmentReaders : List SegmentReader

/-- A read warmup awaits. -/
inductive WarmUpRead
  /-- `warm_postings(term, position_needed)` on an inverted index. -/
  | warmPostings (invIdx : InvertedIndexReader) (term : Term) (positionNeeded : Bool)
  /-- `read_bytes_async()` on a slice of fast-field data. -/
  | readBytes (slice : FileSlice)
  deriving DecidableEq, Repr

/-! ## The functions of leaf.rs -/

/-- Itertools' `group_by`: the runs of consecutive elements with the same key, with their key. -/
def groupBy {α β : Type} [DecidableEq β] (key : α → β) : List α → List (β × List α)
  | [] => []
  | a :: as =>
    match groupBy key as with
    | (k, run) :: rest =>
      if key a = k then (k, a :: run) :: rest else (key a, [a]) :: (k, run) :: rest
    | [] => [(key a, [a])]

/-- A loop over `xs` pushing the futures each element builds, left by `?` at the first error. -/
def pushAll {α : Type} (f : α → Except String (List WarmUpRead)) :
    List α → Except String (List WarmUpRead)
  | [] => .ok []
  | x :: xs => do
    let futures ← f x
    let rest ← pushAll f xs
    pure (futures ++ rest)

/-- `try_join_all` on the futures of `reads`: every read is issued, and the join fails if one of
them fails. Which error it returns depends on the order the reads complete; the model takes the
first failing one in the list. -/
def tryJoinAll (readResult : WarmUpRead → Except String Unit) (reads : List WarmUpRead) :
    List WarmUpRead × Except AnyhowError Unit :=
  (reads, (reads.forM readResult).mapError AnyhowError.ofMsg)

/-- The futures of the nested loops of `warm_up_terms`: for every run of terms of a field and every
segment, `inverted_index(field)?`, then one `warm_postings` per term of the run. -/
def termFutures (segmentReaders : List SegmentReader) (groups : List (Field × List (Term × Bool))) :
    Except String (List WarmUpRead) :=
  groups |> pushAll fun (field, terms) =>
    segmentReaders |> pushAll fun segmentReader => do
      let invIdx ← segmentReader.invertedIndex field
      pure (terms.map fun (term, positionNeeded) => .warmPostings invIdx term positionNeeded)

/-- `warm_up_terms`, on the entries of the query's term map. -/
def warmUpTerms (searcher : Searcher) (terms : List (Term × Bool))
    (readResult : WarmUpRead → Except String Unit) : List WarmUpRead × Except AnyhowError Unit :=
  match termFutures searcher.segmentReaders (groupBy (·.1.field) terms) with
  | .error e => ([], .error (.ofMsg e))
  | .ok futures => tryJoinAll readResult futures

/-- The error of a name that is not in the schema; `debugStr` is `{:?}` on a string (Rust's `Debug`
of `str`), which the model does not render. -/
def missingFieldMsg (debugStr : String → String) (name : String) : String :=
  "Couldn\x27t get field named " ++ debugStr name ++ " from schema."

/-- The error of a name that is not a fast field. -/
def notFastFieldMsg (debugStr : String → String) (name : String) : String :=
  "Field " ++ debugStr name ++ " is not a fast field."

/-- The first loop of `warm_up_fastfields`: the field of every name, or the error of the first name
that is not a fast field of the schema. -/
def fastFieldsOf (debugStr : String → String) (schema : Schema) :
    List String → Except AnyhowError (List Field)
  | [] => .ok []
  | name :: names =>
    match schema.getField name with
    | none => .error (.ofMsg (missingFieldMsg debugStr name))
    | some field =>
      if (schema.getFieldEntry field).isFast then
        (fastFieldsOf debugStr schema names).map (field :: ·)
      else .error (.ofMsg (notFastFieldMsg debugStr name))

/-- The futures of the second loop of `warm_up_fastfields`: for every field and segment,
`fast_field_data(field, 0)?`, then its read. -/
def fastFieldFutures (segmentReaders : List SegmentReader) (fastFields : List Field) :
    Except String (List WarmUpRead) :=
  fastFields |> pushAll fun field =>
    segmentReaders |> pushAll fun segmentReader => do
      let fastFieldSlice ← segmentReader.fastFieldData field 0
      pure [.readBytes fastFieldSlice]

/-- `warm_up_fastfields`, on the names of the set in its order. -/
def warmUpFastfields (debugStr : String → String) (searcher : Searcher)
    (fastFieldNames : List String) (readResult : WarmUpRead → Except String Unit) :
    List WarmUpRead × Except AnyhowError Unit :=
  match fastFieldsOf debugStr searcher.schema fastFieldNames with
  | .error e => ([], .error e)
  | .ok fastFields =>
    match fastFieldFutures searcher.segmentReaders fastFields with
    | .error e => ([], .error (.ofMsg e))
    | .ok futures => tryJoinAll readResult futures

/-- `warmup`: the terms, then the fast fields; the reads it awaited, and its result. -/
def warmup (debugStr : String → String) (searcher : Searcher) (terms : List (Term × Bool))
    (fastFieldNames : List String)
    (readResult : WarmUpRead → Except String Unit) : List WarmUpRead × Except AnyhowError Unit :=
  match warmUpTerms searcher terms readResult with
  | (termReads, .error e) => (termReads, .error e)
  | (termReads, .ok ()) =>
    let (fastFieldReads, res) := warmUpFastfields debugStr searcher fastFieldNames readResult
    (termReads ++ fastFieldReads, res)

/-! ## The runs of `group_by` -/

section GroupBy

variable {α β : Type} [DecidableEq β] (key : α → β)

theorem flatMap_groupBy (l : List α) : (groupBy key l).flatMap Prod.snd = l := by
  induction l with
  | nil => rfl
  | cons a as ih =>
    simp only [groupBy]
    split <;> rename_i h <;> rw [h] at ih
    · simp only [List.flatMap_cons] at ih
      split_ifs <;> simp [← ih]
    · simp [← ih]

/-- A key can head several runs: the runs are consecutive, not grouped. -/
example : groupBy id [1, 1, 2, 1] = [(1, [1, 1]), (2, [2]), (1, [1])] := rfl

/-- Every run is nonempty, and its elements have the key of the run. -/
theorem mem_groupBy {l : List α} {g : β × List α} (hg : g ∈ groupBy key l) :
    g.2 ≠ [] ∧ ∀ a ∈ g.2, key a = g.1 := by
  induction l generalizing g with
  | nil => cases hg
  | cons b bs ih =>
    rcases h : groupBy key bs with _ | ⟨⟨k, run⟩, rest⟩ <;> rw [h] at ih <;>
      simp only [groupBy, h] at hg
    · obtain rfl := List.mem_singleton.1 hg
      simp
    · split_ifs at hg with hk
      · rcases List.mem_cons.1 hg with rfl | hg
        · simpa [hk] using (ih (List.mem_cons_self _ _)).2
        · exact ih (List.mem_cons_of_mem _ hg)
      · rcases List.mem_cons.1 hg with rfl | hg
        · simp
        · exact ih hg

theorem exists_key_of_mem_groupBy {l : List α} {g : β × List α} (hg : g ∈ groupBy key l) :
    ∃ a ∈ l, key a = g.1 := by
  obtain ⟨a, ha⟩ := List.exists_mem_of_ne_nil _ (mem_groupBy key hg).1
  refine ⟨a, ?_, (mem_groupBy key hg).2 a ha⟩
  rw [← flatMap_groupBy key l]
  exact List.mem_flatMap.2 ⟨g, hg, ha⟩

/-- The first run has the key of the first element. -/
theorem groupBy_cons (a : α) (as : List α) :
    ∃ run rest, groupBy key (a :: as) = (key a, run) :: rest := by
  simp only [groupBy]
  split
  · split_ifs with h
    · exact ⟨_, _, by rw [h]⟩
    · exact ⟨_, _, rfl⟩
  · exact ⟨_, _, rfl⟩

/-- On a list ordered by key, through an injective rank `ord`, the runs have increasing keys. -/
theorem pairwise_groupBy_of_sorted (ord : β → ℕ) (hord : Function.Injective ord) :
    ∀ {l : List α}, (l.map (ord ∘ key)).Pairwise (· ≤ ·) →
      ((groupBy key l).map (ord ∘ Prod.fst)).Pairwise (· < ·)
  | [], _ => .nil
  | [a], _ => by simp [groupBy]
  | a :: b :: bs, hl => by
    obtain ⟨hab, hbs⟩ := List.pairwise_cons.1 hl
    have ih := pairwise_groupBy_of_sorted ord hord hbs
    obtain ⟨run, rest, hgrp⟩ := groupBy_cons key b bs
    rw [hgrp] at ih
    rw [groupBy, hgrp]
    dsimp only
    split_ifs with hk
    · simpa only [List.map_cons, Prod.fst] using ih
    · have hlt : ord (key a) < ord (key b) :=
        Nat.lt_of_le_of_ne (hab _ (List.mem_cons_self _ _)) fun h => hk (hord h)
      refine List.pairwise_cons.2 ⟨fun k hk' => ?_, ih⟩
      rcases List.mem_cons.1 hk' with rfl | hk'
      · exact hlt
      · exact hlt.trans (List.pairwise_cons.1 ih |>.1 k hk')

/-- Filtering runs of distinct keys by the key of one of them gives that run. -/
theorem flatMap_filter_runs {runs : List (β × List α)}
    (hrun : ∀ g ∈ runs, ∀ a ∈ g.2, key a = g.1) (hkeys : (runs.map Prod.fst).Nodup)
    {g : β × List α} (hg : g ∈ runs) :
    runs.flatMap (fun g' => g'.2.filter (key · = g.1)) = g.2 := by
  induction runs with
  | nil => cases hg
  | cons g' runs ih =>
    obtain ⟨hg', hkeys⟩ := List.nodup_cons.1 hkeys
    have hfilter : ∀ g'' ∈ g' :: runs, g''.1 ≠ g.1 → g''.2.filter (key · = g.1) = [] :=
      fun g'' hg'' hne => List.filter_eq_nil_iff.2 fun a ha => by
        simpa [hrun g'' hg'' a ha] using hne
    rw [List.flatMap_cons]
    by_cases hk : g'.1 = g.1
    · obtain rfl : g = g' := (List.mem_cons.1 hg).resolve_right fun h =>
        hg' (hk ▸ List.mem_map_of_mem Prod.fst h)
      have hrest : runs.flatMap (fun g'' => g''.2.filter (key · = g.1)) = [] :=
        List.flatMap_eq_nil_iff.2 fun g'' hg'' => hfilter g'' (List.mem_cons_of_mem _ hg'')
          fun h => hg' (h ▸ List.mem_map_of_mem Prod.fst hg'')
      rw [hrest, List.append_nil, List.filter_eq_self.2 fun a ha => by
        simp [hrun g (List.mem_cons_self _ _) a ha]]
    · rw [hfilter g' (List.mem_cons_self _ _) hk, List.nil_append]
      exact ih (fun g'' hg'' => hrun g'' (List.mem_cons_of_mem _ hg'')) hkeys
        ((List.mem_cons.1 hg).resolve_left fun h => hk (h ▸ rfl))

theorem groupBy_eq_filter {l : List α} (hkeys : ((groupBy key l).map Prod.fst).Nodup)
    {g : β × List α} (hg : g ∈ groupBy key l) : g.2 = l.filter (key · = g.1) := by
  conv_rhs => rw [← flatMap_groupBy key l, List.filter_flatMap]
  exact (flatMap_filter_runs key (fun g' hg' => (mem_groupBy key hg').2) hkeys hg).symm

end GroupBy

/-! ## The loops -/

section Loops

variable {α : Type} {f : α → Except String (List WarmUpRead)}

theorem pushAll_eq_ok (g : α → List WarmUpRead) {xs : List α} (h : ∀ x ∈ xs, f x = .ok (g x)) :
    pushAll f xs = .ok (xs.flatMap g) := by
  induction xs with
  | nil => rfl
  | cons x xs ih =>
    simp only [pushAll, h x (List.mem_cons_self _ _),
      ih fun y hy => h y (List.mem_cons_of_mem _ hy)]
    rfl

theorem pushAll_cons_eq_ok {x : α} {xs : List α} {l : List WarmUpRead} :
    pushAll f (x :: xs) = .ok l ↔
      ∃ l₁ l₂, f x = .ok l₁ ∧ pushAll f xs = .ok l₂ ∧ l₁ ++ l₂ = l := by
  simp only [pushAll]
  cases f x <;> cases pushAll f xs <;> simp [bind, Except.bind, pure, Except.pure]

theorem mem_of_pushAll {xs : List α} {l : List WarmUpRead} {r : WarmUpRead}
    (h : pushAll f xs = .ok l) (hr : r ∈ l) : ∃ x ∈ xs, ∃ l', f x = .ok l' ∧ r ∈ l' := by
  induction xs generalizing l with
  | nil => cases h; cases hr
  | cons x xs ih =>
    obtain ⟨l₁, l₂, h₁, h₂, rfl⟩ := pushAll_cons_eq_ok.1 h
    rcases List.mem_append.1 hr with hr | hr
    · exact ⟨x, List.mem_cons_self _ _, l₁, h₁, hr⟩
    · obtain ⟨y, hy, l', hf, hr⟩ := ih h₂ hr
      exact ⟨y, List.mem_cons_of_mem _ hy, l', hf, hr⟩

theorem ok_of_pushAll {xs : List α} {l : List WarmUpRead} (h : pushAll f xs = .ok l) {x : α}
    (hx : x ∈ xs) : ∃ l', f x = .ok l' := by
  induction xs generalizing l with
  | nil => cases hx
  | cons y ys ih =>
    obtain ⟨l₁, l₂, h₁, h₂, -⟩ := pushAll_cons_eq_ok.1 h
    rcases List.mem_cons.1 hx with rfl | hx
    · exact ⟨l₁, h₁⟩
    · exact ih h₂ hx

end Loops

/-- The join succeeds exactly when every read does. -/
theorem tryJoinAll_eq_ok_iff {readResult : WarmUpRead → Except String Unit}
    {reads : List WarmUpRead} :
    (tryJoinAll readResult reads).2 = .ok () ↔ ∀ r ∈ reads, readResult r = .ok () := by
  induction reads with
  | nil => simp only [List.not_mem_nil, false_implies, implies_true, iff_true]; rfl
  | cons r reads ih =>
    simp only [tryJoinAll, List.forM_cons', List.mem_cons, forall_eq_or_imp] at ih ⊢
    cases readResult r with
    | error e => simp only [reduceCtorEq, false_and, iff_false]; nofun
    | ok u => cases u; simpa only [true_and] using ih

theorem flatMap_comm_perm {α β γ : Type} (xs : List α) (ys : List β) (f : α → β → List γ) :
    (xs.flatMap fun x => ys.flatMap (f x)).Perm (ys.flatMap fun y => xs.flatMap (f · y)) := by
  induction xs with
  | nil => simp
  | cons x xs ih =>
    simp only [List.flatMap_cons]
    exact (ih.append_left _).trans (List.flatMap_append_perm ys (f x) _)

/-! ## The reads of warmup -/

/-- The read of the postings of a term on a segment: on the inverted index of the term's own field,
with positions as the term map flags them. -/
def termRead (segmentReader : SegmentReader) (p : Term × Bool) : WarmUpRead :=
  .warmPostings ⟨segmentReader.segmentOrd, p.1.field⟩ p.1 p.2

/-- The read of the column of a fast field on a segment, `fast_field_data(field, 0)`. -/
def fastFieldRead (field : Field) (segmentReader : SegmentReader) : WarmUpRead :=
  .readBytes ⟨segmentReader.segmentOrd, field, 0⟩

/-- The reads warmup is to await: one posting list per segment and term, and one column per
segment and requested fast field. -/
def warmupReads (searcher : Searcher) (terms : List (Term × Bool)) (fastFieldNames : List String) :
    List WarmUpRead :=
  searcher.segmentReaders.flatMap (fun segmentReader => terms.map (termRead segmentReader)) ++
    (fastFieldNames.filterMap searcher.schema.getField).flatMap fun field =>
      searcher.segmentReaders.map (fastFieldRead field)

section Reads

variable {debugStr : String → String} {searcher : Searcher} {terms : List (Term × Bool)}
  {fastFieldNames : List String}
  {readResult : WarmUpRead → Except String Unit}

/-- The futures of `warm_up_terms` read the postings of every term on every segment. -/
theorem termFutures_perm
    (h : ∀ seg ∈ searcher.segmentReaders, ∀ p ∈ terms, seg.invertedIndexError p.1.field = none) :
    ∃ futures, termFutures searcher.segmentReaders (groupBy (·.1.field) terms) = .ok futures ∧
      futures.Perm (searcher.segmentReaders.flatMap fun seg => terms.map (termRead seg)) := by
  refine ⟨_, pushAll_eq_ok (fun grp => searcher.segmentReaders.flatMap fun seg =>
    grp.2.map (termRead seg)) fun grp hgrp => pushAll_eq_ok _ fun seg hseg => ?_, ?_⟩
  · obtain ⟨p, hp, hkey⟩ := exists_key_of_mem_groupBy _ hgrp
    have hmap : grp.2.map (fun x => .warmPostings ⟨seg.segmentOrd, grp.1⟩ x.1 x.2) =
        grp.2.map (termRead seg) :=
      List.map_congr_left fun q hq => by rw [termRead, (mem_groupBy _ hgrp).2 q hq]
    have hinv : seg.invertedIndexError grp.1 = none := hkey ▸ h seg hseg p hp
    simp only [SegmentReader.invertedIndex, hinv]
    exact congrArg Except.ok hmap
  · refine (flatMap_comm_perm _ _ _).trans (List.Perm.of_eq ?_)
    simp only [← List.map_flatMap, flatMap_groupBy]

theorem readBytes_not_mem_warmUpTerms (searcher : Searcher) (terms : List (Term × Bool))
    (readResult : WarmUpRead → Except String Unit) (slice : FileSlice) :
    .readBytes slice ∉ (warmUpTerms searcher terms readResult).1 := by
  unfold warmUpTerms
  split
  · simp
  · rename_i futures hfut
    intro hr
    obtain ⟨grp, -, l₁, h₁, hr⟩ := mem_of_pushAll hfut hr
    obtain ⟨seg, -, l₂, h₂, hr⟩ := mem_of_pushAll h₁ hr
    cases hinv : seg.invertedIndex grp.1 with
    | error e => simp [hinv] at h₂
    | ok invIdx =>
      simp only [hinv] at h₂
      cases h₂
      simp at hr

theorem fastFieldsOf_eq_ok {schema : Schema} {names : List String}
    (h : ∀ name ∈ names, schema.isFastFieldName name = true) :
    fastFieldsOf debugStr schema names = .ok (names.filterMap schema.getField) := by
  induction names with
  | nil => rfl
  | cons name names ih =>
    have hn := h name (List.mem_cons_self _ _)
    unfold Schema.isFastFieldName at hn
    split at hn <;> rename_i field hfield
    · simp [fastFieldsOf, hfield, hn, ih fun n hn' => h n (List.mem_cons_of_mem _ hn'),
        List.filterMap_cons]
      rfl
    · cases hn

theorem fastFieldsOf_error {schema : Schema} {names : List String}
    (h : ∃ name ∈ names, schema.isFastFieldName name = false) :
    ∃ e, fastFieldsOf debugStr schema names = .error e := by
  induction names with
  | nil => simp at h
  | cons name names ih =>
    simp only [fastFieldsOf]
    split <;> rename_i field hfield
    · exact ⟨_, rfl⟩
    · split_ifs with hfast
      · obtain ⟨n, hn, hfalse⟩ := h
        rcases List.mem_cons.1 hn with rfl | hn
        · simp [Schema.isFastFieldName, hfield, hfast] at hfalse
        · obtain ⟨e, he⟩ := ih ⟨n, hn, hfalse⟩
          exact ⟨e, by rw [he]; rfl⟩
      · exact ⟨_, rfl⟩

theorem fastFieldFutures_eq_ok {fields : List Field}
    (h : ∀ seg ∈ searcher.segmentReaders, ∀ field ∈ fields, seg.fastFieldDataError field 0 = none) :
    fastFieldFutures searcher.segmentReaders fields =
      .ok (fields.flatMap fun field => searcher.segmentReaders.map (fastFieldRead field)) := by
  refine pushAll_eq_ok _ fun field hfield => ?_
  rw [List.map_eq_flatMap]
  exact pushAll_eq_ok _ fun seg hseg => by
    simp only [SegmentReader.fastFieldData, h seg hseg field hfield]
    rfl

/-- A name that is not a fast field fails warmup before any column is read. -/
theorem warmup_of_not_fast
    (hbad : ∃ name ∈ fastFieldNames, searcher.schema.isFastFieldName name = false) :
    (∃ e, (warmup debugStr searcher terms fastFieldNames readResult).2 = .error e) ∧
      ∀ slice, .readBytes slice ∉ (warmup debugStr searcher terms fastFieldNames readResult).1 := by
  obtain ⟨e, he⟩ : ∃ e, fastFieldsOf debugStr searcher.schema fastFieldNames = .error e :=
    fastFieldsOf_error hbad
  have hnot := readBytes_not_mem_warmUpTerms searcher terms readResult
  unfold warmup
  rcases hterms : warmUpTerms searcher terms readResult with ⟨termReads, err | ⟨⟩⟩ <;>
    rw [hterms] at hnot
  · exact ⟨⟨err, rfl⟩, hnot⟩
  · simp only [warmUpFastfields, he, List.append_nil]
    exact ⟨⟨e, rfl⟩, hnot⟩

/-- When every lookup and every read succeeds, warmup succeeds after the reads of `warmupReads`. -/
theorem warmup_of_all_ok
    (hfast : ∀ name ∈ fastFieldNames, searcher.schema.isFastFieldName name = true)
    (hinv : ∀ seg ∈ searcher.segmentReaders, ∀ p ∈ terms, seg.invertedIndexError p.1.field = none)
    (hff : ∀ seg ∈ searcher.segmentReaders,
      ∀ field ∈ fastFieldNames.filterMap searcher.schema.getField,
        seg.fastFieldDataError field 0 = none)
    (hread : ∀ r ∈ warmupReads searcher terms fastFieldNames, readResult r = .ok ()) :
    (warmup debugStr searcher terms fastFieldNames readResult).2 = .ok () ∧
      (warmup debugStr searcher terms fastFieldNames readResult).1.Perm
        (warmupReads searcher terms fastFieldNames) := by
  obtain ⟨futures, hfut, hperm⟩ := termFutures_perm hinv
  have hterms : warmUpTerms searcher terms readResult = (futures, .ok ()) := by
    simp only [warmUpTerms, hfut]
    exact Prod.ext rfl
      (tryJoinAll_eq_ok_iff.2 fun r hr => hread r (List.mem_append_left _ (hperm.subset hr)))
  have hfields : warmUpFastfields debugStr searcher fastFieldNames readResult =
      ((fastFieldNames.filterMap searcher.schema.getField).flatMap fun field =>
        searcher.segmentReaders.map (fastFieldRead field), .ok ()) := by
    simp only [warmUpFastfields, fastFieldsOf_eq_ok hfast, fastFieldFutures_eq_ok hff]
    exact Prod.ext rfl (tryJoinAll_eq_ok_iff.2 fun r hr => hread r (List.mem_append_right _ hr))
  simp only [warmup, hterms, hfields, true_and]
  exact hperm.append_right _

theorem invertedIndexError_of_termFutures {futures : List WarmUpRead}
    (h : termFutures searcher.segmentReaders (groupBy (·.1.field) terms) = .ok futures) :
    ∀ seg ∈ searcher.segmentReaders, ∀ p ∈ terms, seg.invertedIndexError p.1.field = none := by
  intro seg hseg p hp
  rw [← flatMap_groupBy (·.1.field) terms] at hp
  obtain ⟨grp, hgrp, hpg⟩ := List.mem_flatMap.1 hp
  obtain ⟨l₁, h₁⟩ := ok_of_pushAll h hgrp
  obtain ⟨l₂, h₂⟩ := ok_of_pushAll h₁ hseg
  rw [(mem_groupBy _ hgrp).2 p hpg]
  cases hinv : seg.invertedIndexError grp.1
  · rfl
  · simp [SegmentReader.invertedIndex, hinv] at h₂

theorem fastFieldDataError_of_fastFieldFutures {fields : List Field} {futures : List WarmUpRead}
    (h : fastFieldFutures searcher.segmentReaders fields = .ok futures) :
    ∀ seg ∈ searcher.segmentReaders, ∀ field ∈ fields, seg.fastFieldDataError field 0 = none := by
  intro seg hseg field hfield
  obtain ⟨l₁, h₁⟩ := ok_of_pushAll h hfield
  obtain ⟨l₂, h₂⟩ := ok_of_pushAll h₁ hseg
  cases hff : seg.fastFieldDataError field 0
  · rfl
  · simp [SegmentReader.fastFieldData, hff] at h₂

theorem isFastFieldName_of_fastFieldsOf {schema : Schema} {names : List String}
    {fields : List Field} (h : fastFieldsOf debugStr schema names = .ok fields) :
    ∀ name ∈ names, schema.isFastFieldName name = true := by
  intro name hname
  by_contra hne
  obtain ⟨e, he⟩ := fastFieldsOf_error ⟨name, hname, by simpa using hne⟩
  rw [h] at he
  cases he

theorem warmUpTerms_eq_ok (h : (warmUpTerms searcher terms readResult).2 = .ok ()) :
    (∀ seg ∈ searcher.segmentReaders, ∀ p ∈ terms, seg.invertedIndexError p.1.field = none) ∧
      ∀ r ∈ searcher.segmentReaders.flatMap (fun seg => terms.map (termRead seg)),
        readResult r = .ok () := by
  unfold warmUpTerms at h
  split at h
  · cases h
  · rename_i futures hfut
    have hinv := invertedIndexError_of_termFutures hfut
    obtain ⟨futures', hfut', hperm⟩ := termFutures_perm hinv
    rw [hfut] at hfut'
    cases hfut'
    exact ⟨hinv, fun r hr => tryJoinAll_eq_ok_iff.1 h r (hperm.mem_iff.2 hr)⟩

theorem warmUpFastfields_eq_ok
    (h : (warmUpFastfields debugStr searcher fastFieldNames readResult).2 = .ok ()) :
    (∀ name ∈ fastFieldNames, searcher.schema.isFastFieldName name = true) ∧
    (∀ seg ∈ searcher.segmentReaders, ∀ field ∈ fastFieldNames.filterMap searcher.schema.getField,
      seg.fastFieldDataError field 0 = none) ∧
    ∀ r ∈ (fastFieldNames.filterMap searcher.schema.getField).flatMap (fun field =>
      searcher.segmentReaders.map (fastFieldRead field)), readResult r = .ok () := by
  unfold warmUpFastfields at h
  split at h
  · cases h
  · rename_i fields hfields
    have hfast := isFastFieldName_of_fastFieldsOf hfields
    rw [fastFieldsOf_eq_ok hfast] at hfields
    cases hfields
    split at h
    · cases h
    · rename_i futures hfut
      have hff := fastFieldDataError_of_fastFieldFutures hfut
      rw [fastFieldFutures_eq_ok hff] at hfut
      cases hfut
      exact ⟨hfast, hff, tryJoinAll_eq_ok_iff.1 h⟩

/-- `warm_up_terms` awaits no read, or every posting list: it reads once every lookup succeeded. -/
theorem warmUpTerms_reads : (warmUpTerms searcher terms readResult).1 = [] ∨
    (warmUpTerms searcher terms readResult).1.Perm
      (searcher.segmentReaders.flatMap fun seg => terms.map (termRead seg)) := by
  unfold warmUpTerms
  split
  · exact .inl rfl
  · rename_i futures hfut
    obtain ⟨futures', hfut', hperm⟩ := termFutures_perm (invertedIndexError_of_termFutures hfut)
    rw [hfut] at hfut'
    cases hfut'
    exact .inr hperm

/-- `warm_up_fastfields` awaits no read, or the column of every field on every segment. -/
theorem warmUpFastfields_reads :
    (warmUpFastfields debugStr searcher fastFieldNames readResult).1 = [] ∨
    (warmUpFastfields debugStr searcher fastFieldNames readResult).1 =
      (fastFieldNames.filterMap searcher.schema.getField).flatMap fun field =>
        searcher.segmentReaders.map (fastFieldRead field) := by
  unfold warmUpFastfields
  split
  · exact .inl rfl
  · rename_i fields hfields
    rw [fastFieldsOf_eq_ok (isFastFieldName_of_fastFieldsOf hfields)] at hfields
    cases hfields
    split
    · exact .inl rfl
    · rename_i futures hfut
      rw [fastFieldFutures_eq_ok (fastFieldDataError_of_fastFieldFutures hfut)] at hfut
      cases hfut
      exact .inr rfl

/-- Whatever fails, warmup awaits nothing, the posting lists, or all of `warmupReads`. -/
theorem warmup_perm_sublist :
    ∃ l, (warmup debugStr searcher terms fastFieldNames readResult).1.Perm l ∧
      l.Sublist (warmupReads searcher terms fastFieldNames) := by
  have hterms := (warmUpTerms_reads : (warmUpTerms searcher terms readResult).1 = [] ∨ _)
  have hfields := (warmUpFastfields_reads :
    (warmUpFastfields debugStr searcher fastFieldNames readResult).1 = [] ∨ _)
  unfold warmup
  rcases ht : warmUpTerms searcher terms readResult with ⟨termReads, res⟩
  rw [ht] at hterms
  cases res with
  | error e =>
    rcases hterms with rfl | hperm
    · exact ⟨[], .nil, List.nil_sublist _⟩
    · exact ⟨_, hperm, List.sublist_append_left _ _⟩
  | ok u =>
    rcases hf : warmUpFastfields debugStr searcher fastFieldNames readResult with ⟨fastReads, res⟩
    rw [hf] at hfields
    dsimp only
    rcases hterms with rfl | hperm <;> rcases hfields with rfl | rfl
    · exact ⟨[], .nil, List.nil_sublist _⟩
    · exact ⟨_, .refl _, List.sublist_append_right _ _⟩
    · exact ⟨_, hperm.append_right [], (List.nil_sublist _).append_left _⟩
    · exact ⟨_, hperm.append_right _, List.Sublist.refl _⟩

end Reads

/-! ## No read twice -/

theorem Schema.name_getFieldEntry {schema : Schema} {name : String} {field : Field}
    (h : schema.getField name = some field) : (schema.getFieldEntry field).name = name := by
  obtain ⟨i, hi, rfl⟩ := Option.map_eq_some'.1 h
  obtain ⟨hlt, hp, -⟩ := List.findIdx?_eq_some_iff_getElem.1 hi
  simpa [Schema.getFieldEntry, List.getD_eq_getElem?_getD, List.getElem?_eq_getElem hlt] using hp

section NoReadTwice

variable {searcher : Searcher}
  (hsegs : (searcher.segmentReaders.map SegmentReader.segmentOrd).Nodup)
include hsegs

theorem nodup_termReads {terms : List (Term × Bool)} (hterms : (terms.map Prod.fst).Nodup) :
    (searcher.segmentReaders.flatMap fun seg => terms.map (termRead seg)).Nodup := by
  refine List.nodup_flatMap.2 ⟨fun seg _ => (List.Nodup.of_map Prod.fst hterms).map fun p q h => ?_,
    (List.pairwise_map.1 hsegs).imp fun hne r hr hr' => hne ?_⟩
  · simp only [termRead, WarmUpRead.warmPostings.injEq] at h
    exact Prod.ext h.2.1 h.2.2
  · obtain ⟨p, -, rfl⟩ := List.mem_map.1 hr
    obtain ⟨q, -, hq⟩ := List.mem_map.1 hr'
    simp only [termRead, WarmUpRead.warmPostings.injEq, InvertedIndexReader.mk.injEq] at hq
    exact hq.1.1.symm

theorem nodup_fastFieldReads {fields : List Field} (hfields : fields.Nodup) :
    (fields.flatMap fun field => searcher.segmentReaders.map (fastFieldRead field)).Nodup := by
  refine List.nodup_flatMap.2 ⟨fun field _ => ?_, hfields.imp fun hne r hr hr' => hne ?_⟩
  · rw [show searcher.segmentReaders.map (fastFieldRead field) =
        (searcher.segmentReaders.map SegmentReader.segmentOrd).map fun o => .readBytes ⟨o, field, 0⟩
      by rw [List.map_map]; rfl]
    exact hsegs.map fun o o' h => by simpa using h
  · obtain ⟨seg, -, rfl⟩ := List.mem_map.1 hr
    obtain ⟨seg', -, h⟩ := List.mem_map.1 hr'
    simp only [fastFieldRead, WarmUpRead.readBytes.injEq, FileSlice.mk.injEq] at h
    exact h.2.1.symm

/-- The plan reads nothing twice on distinct terms, names and segment ordinals. -/
theorem nodup_warmupReads {terms : List (Term × Bool)} {fastFieldNames : List String}
    (hterms : (terms.map Prod.fst).Nodup) (hnames : fastFieldNames.Nodup) :
    (warmupReads searcher terms fastFieldNames).Nodup := by
  have hfields : (fastFieldNames.filterMap searcher.schema.getField).Nodup :=
    hnames.filterMap fun _ _ _ h h' => (Schema.name_getFieldEntry (Option.mem_def.1 h)).symm.trans
      (Schema.name_getFieldEntry (Option.mem_def.1 h'))
  refine (nodup_termReads hsegs hterms).append (nodup_fastFieldReads hsegs hfields)
    fun r hr hr' => ?_
  obtain ⟨seg, -, hr⟩ := List.mem_flatMap.1 hr
  obtain ⟨p, -, rfl⟩ := List.mem_map.1 hr
  obtain ⟨field, -, hr'⟩ := List.mem_flatMap.1 hr'
  obtain ⟨seg', -, h⟩ := List.mem_map.1 hr'
  cases h

end NoReadTwice

/-- **What warmup reads.** A name that is not a fast field fails warmup before any column is read;
when nothing fails, warmup succeeds after reading exactly its plan, `warmupReads`. -/
theorem warmup_reads (debugStr : String → String) (searcher : Searcher) (terms : List (Term × Bool))
    (fastFieldNames : List String) (readResult : WarmUpRead → Except String Unit) :
    ((∃ name ∈ fastFieldNames, searcher.schema.isFastFieldName name = false) →
      (∃ e, (warmup debugStr searcher terms fastFieldNames readResult).2 = .error e) ∧
      ∀ slice, .readBytes slice ∉ (warmup debugStr searcher terms fastFieldNames readResult).1) ∧
    ((∀ name ∈ fastFieldNames, searcher.schema.isFastFieldName name = true) →
      (∀ seg ∈ searcher.segmentReaders, ∀ p ∈ terms, seg.invertedIndexError p.1.field = none) →
      (∀ seg ∈ searcher.segmentReaders, ∀ field ∈ fastFieldNames.filterMap searcher.schema.getField,
        seg.fastFieldDataError field 0 = none) →
      (∀ r ∈ warmupReads searcher terms fastFieldNames, readResult r = .ok ()) →
      (warmup debugStr searcher terms fastFieldNames readResult).2 = .ok () ∧
      (warmup debugStr searcher terms fastFieldNames readResult).1.Perm
        (warmupReads searcher terms fastFieldNames)) :=
  ⟨warmup_of_not_fast, warmup_of_all_ok⟩

/-- **Warmup succeeds exactly when nothing fails**: every name is a fast field, and every lookup
and every read of `warmupReads` succeeds. -/
theorem warmup_eq_ok_iff (debugStr : String → String) (searcher : Searcher)
    (terms : List (Term × Bool)) (fastFieldNames : List String)
    (readResult : WarmUpRead → Except String Unit) :
    (warmup debugStr searcher terms fastFieldNames readResult).2 = .ok () ↔
      (∀ name ∈ fastFieldNames, searcher.schema.isFastFieldName name = true) ∧
      (∀ seg ∈ searcher.segmentReaders, ∀ p ∈ terms, seg.invertedIndexError p.1.field = none) ∧
      (∀ seg ∈ searcher.segmentReaders, ∀ field ∈ fastFieldNames.filterMap searcher.schema.getField,
        seg.fastFieldDataError field 0 = none) ∧
      ∀ r ∈ warmupReads searcher terms fastFieldNames, readResult r = .ok () := by
  refine ⟨fun h => ?_, fun ⟨hfast, hinv, hff, hread⟩ => (warmup_of_all_ok hfast hinv hff hread).1⟩
  have hsteps : (warmUpTerms searcher terms readResult).2 = .ok () ∧
      (warmUpFastfields debugStr searcher fastFieldNames readResult).2 = .ok () := by
    unfold warmup at h
    rcases ht : warmUpTerms searcher terms readResult with ⟨termReads, _ | ⟨⟩⟩ <;> rw [ht] at h
    · cases h
    · exact ⟨rfl, h⟩
  obtain ⟨hinv, htermReads⟩ := warmUpTerms_eq_ok hsteps.1
  obtain ⟨hfast, hff, hfieldReads⟩ := warmUpFastfields_eq_ok hsteps.2
  exact ⟨hfast, hinv, hff, fun r hr => (List.mem_append.1 hr).elim (htermReads r) (hfieldReads r)⟩

/-- **Warmup reads nothing twice.** On distinct terms, names and segment ordinals, whatever fails,
warmup awaits a part of its plan with no read twice. -/
theorem warmup_reads_nodup (debugStr : String → String) (searcher : Searcher)
    (terms : List (Term × Bool)) (fastFieldNames : List String)
    (readResult : WarmUpRead → Except String Unit) :
    (terms.map Prod.fst).Nodup → fastFieldNames.Nodup →
    (searcher.segmentReaders.map SegmentReader.segmentOrd).Nodup →
    (warmup debugStr searcher terms fastFieldNames readResult).1.Nodup ∧
      ∀ r ∈ (warmup debugStr searcher terms fastFieldNames readResult).1,
        r ∈ warmupReads searcher terms fastFieldNames := fun hterms hnames hsegs => by
  obtain ⟨l, hperm, hsub⟩ := (warmup_perm_sublist :
    ∃ l, (warmup debugStr searcher terms fastFieldNames readResult).1.Perm l ∧ _)
  exact ⟨hperm.nodup_iff.2 ((nodup_warmupReads hsegs hterms hnames).sublist hsub),
    fun r hr => hsub.subset (hperm.subset hr)⟩

/-- One term and one fast field on one segment: two reads. -/
theorem warmup_reads_nodup_one :
    ([((⟨⟨0⟩, [1]⟩ : Term), false)].map Prod.fst).Nodup ∧ ["a"].Nodup ∧
    ([(⟨0, fun _ => none, fun _ _ => none⟩ : SegmentReader)].map SegmentReader.segmentOrd).Nodup ∧
    (warmup id ⟨⟨[⟨"a", true⟩], by decide⟩, [⟨0, fun _ => none, fun _ _ => none⟩]⟩
        [(⟨⟨0⟩, [1]⟩, false)] ["a"] fun _ => .ok ()).1.Nodup ∧
      ∀ r ∈ (warmup id ⟨⟨[⟨"a", true⟩], by decide⟩, [⟨0, fun _ => none, fun _ _ => none⟩]⟩
        [(⟨⟨0⟩, [1]⟩, false)] ["a"] fun _ => .ok ()).1,
        r ∈ warmupReads ⟨⟨[⟨"a", true⟩], by decide⟩, [⟨0, fun _ => none, fun _ _ => none⟩]⟩
          [(⟨⟨0⟩, [1]⟩, false)] ["a"] :=
  ⟨by decide, by decide, by decide, warmup_reads_nodup id ⟨⟨[⟨"a", true⟩], by decide⟩,
    [⟨0, fun _ => none, fun _ _ => none⟩]⟩ [(⟨⟨0⟩, [1]⟩, false)] ["a"] (fun _ => .ok ())
    (by decide) (by decide) (by decide)⟩

/-- **On the term map's order, `group_by` makes one run per field**: the runs have distinct
fields, and each holds every term of its field. -/
theorem groupBy_terms_of_sorted (terms : List (Term × Bool)) :
    (terms.map fun p => p.1.field.fieldId).Pairwise (· ≤ ·) →
    ((groupBy (·.1.field) terms).map Prod.fst).Nodup ∧
      ∀ g ∈ groupBy (·.1.field) terms, g.2 = terms.filter (·.1.field = g.1) := fun h => by
  have hkeys : ((groupBy (·.1.field) terms).map Prod.fst).Nodup := by
    have hlt := pairwise_groupBy_of_sorted (fun p : Term × Bool => p.1.field) Field.fieldId
      (fun f f' h => by cases f; cases f'; cases h; rfl) h
    exact List.Nodup.of_map Field.fieldId (by rw [List.map_map]; exact hlt.imp Nat.ne_of_lt)
  exact ⟨hkeys, fun g hg => groupBy_eq_filter _ hkeys hg⟩

/-- Two terms of field 0, then one of field 1: two runs. -/
theorem groupBy_terms_of_sorted_two :
    ([((⟨⟨0⟩, [1]⟩ : Term), false), (⟨⟨0⟩, [2]⟩, true), (⟨⟨1⟩, [1]⟩, false)].map
      fun p => p.1.field.fieldId).Pairwise (· ≤ ·) ∧
    ((groupBy (fun p : Term × Bool => p.1.field)
      [((⟨⟨0⟩, [1]⟩ : Term), false), (⟨⟨0⟩, [2]⟩, true), (⟨⟨1⟩, [1]⟩, false)]).map Prod.fst).Nodup ∧
    ∀ g ∈ groupBy (fun p : Term × Bool => p.1.field)
        [((⟨⟨0⟩, [1]⟩ : Term), false), (⟨⟨0⟩, [2]⟩, true), (⟨⟨1⟩, [1]⟩, false)],
      g.2 = [((⟨⟨0⟩, [1]⟩ : Term), false), (⟨⟨0⟩, [2]⟩, true), (⟨⟨1⟩, [1]⟩, false)].filter
        (·.1.field = g.1) :=
  ⟨by decide, groupBy_terms_of_sorted _ (by decide)⟩

end Quickwit.Search

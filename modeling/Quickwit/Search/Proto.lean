import Mathlib.Logic.Function.Basic

/-!
# The messages and errors of the leaf search

The data leaf.rs reads and returns: the split descriptors of a request
(`SplitIdAndFooterOffsets`), the failures it reports per split (`SplitSearchError`), the leaf
response (`LeafSearchResponse`), and the errors its functions return.

* An `anyhow::Error` is its chain of messages, outermost context first; `with_context` pushes a
  message (`AnyhowError.withContext`). The errors of the storage and of tantivy are their messages.
* Of a `LeafSearchResponse`, leaf.rs reads and writes `failed_splits` only; the rest, which the
  collectors produce and merge, is the parameter `Hits`.
* The offsets are `u64` in the proto and cast to `usize`; on the 64-bit targets the cast is the
  identity, and both are `ℕ` here.
* error.rs is not under src: how `?` converts an `anyhow::Error` into a `SearchError` and how `{:?}`
  renders one are a parameter (`SearchErrorImpls`).
-/

namespace Quickwit.Search

/-- `SplitIdAndFooterOffsets`: a split, and the range `[split_footer_start, split_footer_end)` of
its footer in the split file. -/
structure SplitIdAndFooterOffsets where
  splitId : String
  splitFooterStart : ℕ
  splitFooterEnd : ℕ
  deriving DecidableEq, Repr

/-- The split file of a split, `format!("{}.split", split_id)`. -/
def splitFile (splitId : String) : String := splitId ++ ".split"

/-- `SplitSearchError`: a split the leaf could not search. -/
structure SplitSearchError where
  splitId : String
  error : String
  retryableError : Bool
  deriving DecidableEq, Repr

/-- `LeafSearchResponse`: what the collector found (`hits`) and the splits that failed. -/
structure LeafSearchResponse (Hits : Type) where
  hits : Hits
  failedSplits : List SplitSearchError
  deriving DecidableEq, Repr

/-- `anyhow::Error`, by its chain of messages, outermost first. -/
structure AnyhowError where
  chain : List String
  deriving DecidableEq, Repr

namespace AnyhowError

/-- The error of a library call, converted by `?` or `with_context`. -/
def ofMsg (msg : String) : AnyhowError := ⟨[msg]⟩

/-- `with_context`: the message `msg` on top of the error. -/
def withContext (msg : String) (err : AnyhowError) : AnyhowError := ⟨msg :: err.chain⟩

end AnyhowError

/-- `tokio::task::JoinError`: a task on the blocking pool panicked or was cancelled. -/
structure JoinError where
  msg : String
  deriving DecidableEq, Repr

/-- `SearchError` of error.rs (not under src), by the variant leaf.rs builds, `InternalError`. The
errors of its callees reach it through `?`, converted by the `From` impls of error.rs. -/
inductive SearchError
  | internalError (msg : String)
  deriving DecidableEq, Repr

/-- The impls of error.rs that leaf.rs relies on: `From<anyhow::Error> for SearchError`, which `?`
applies, and the derived `Debug`, which `format!("{:?}", err)` renders. -/
structure SearchErrorImpls where
  ofAnyhow : AnyhowError → SearchError
  debug : SearchError → String

end Quickwit.Search

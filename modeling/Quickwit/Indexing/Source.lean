import Quickwit.Search.Proto
import Mathlib.Data.List.Basic

/-!
# The source actor

A `Source` is mounted in the thin actor `SourceActor`. Its `initialize` initializes the source and
processes a first `Loop`; processing a `Loop` runs `emit_batches` and sends the actor a new `Loop`.
`Loop` wraps a private token, so only the actor itself sends one.

The source, its `ActorContext` and the actor runtime of quickwit_actors are not under src: a source
is any state machine (`Source`), the self-send may fail at any call (`sendSelfMessage`, by the
number of the send), and the runtime is modelled from the spec: it initializes the actor, then
handles one message at a time, and stops at the first error (`runtimeStep`).

* `run_start_follows`: after `n + 1` steps the actor `Follows` the loop of the `Source` doc comment
  run for `n + 1` turns (`sourceLoop`): it made the same calls on its source, `initialize`, then
  `emit_batches` for as long as the previous one and its self-send succeeded; it stopped exactly
  when the loop broke, with the same status; and one `Loop` is pending while it runs, none after.
* `checkSourceConnectivity_eq_error`: the connectivity check fails only on a file source whose file
  is missing, with an error naming the file, and on a Kafka source.
-/

namespace Quickwit.Indexing

/-- `ActorExitStatus`: why an actor stops. -/
structure ActorExitStatus where
  status : String
  deriving DecidableEq, Repr

/-- A `Source`, through the two methods `SourceActor` calls on it, `initialize` (`init` here, the
word being Lean's) and `emit_batches`: each takes the source's state to its next state and a
result. -/
structure Source (σ : Type) where
  init : σ → σ × Except ActorExitStatus Unit
  emitBatches : σ → σ × Except ActorExitStatus Unit

/-- The calls `SourceActor` makes on its source. -/
inductive SourceCall
  | init
  | emitBatches
  deriving DecidableEq, Repr

/-- `Loop(PrivateToken)`: the only message of `SourceActor`. -/
structure Loop where
  deriving DecidableEq, Repr

/-- Where the actor is in its life. -/
inductive ActorPhase
  /-- Not initialized yet. -/
  | created
  /-- Initialized, and handling its messages. -/
  | running
  /-- Stopped by an error. -/
  | exited (status : ActorExitStatus)
  deriving DecidableEq, Repr

/-- A `SourceActor` in its runtime: the state of its source, the number of messages it sent
itself, its mailbox, its phase, and the calls it made on its source (ghost state). -/
structure SourceActor (σ : Type) where
  source : σ
  selfMessages : ℕ
  mailbox : List Loop
  phase : ActorPhase
  calls : List SourceCall

namespace SourceActor

variable {σ : Type} (src : Source σ) (sendSelfMessage : ℕ → Except ActorExitStatus Unit)

/-- A new actor over a source in state `s`. -/
def start (s : σ) : SourceActor σ := ⟨s, 0, [], .created, []⟩

/-- `self.source.initialize(ctx)`. -/
def initSource (a : SourceActor σ) : SourceActor σ × Except ActorExitStatus Unit :=
  let (source, res) := src.init a.source
  ({ a with source, calls := a.calls ++ [.init] }, res)

/-- `self.source.emit_batches(&self.batch_sink, ctx)`. -/
def emitBatches (a : SourceActor σ) : SourceActor σ × Except ActorExitStatus Unit :=
  let (source, res) := src.emitBatches a.source
  ({ a with source, calls := a.calls ++ [.emitBatches] }, res)

/-- `ctx.send_self_message(Loop(PrivateToken))`: the context answers the `k`-th send with
`sendSelfMessage k`; on success the `Loop` joins the mailbox. -/
def sendSelf (a : SourceActor σ) : SourceActor σ × Except ActorExitStatus Unit :=
  match sendSelfMessage a.selfMessages with
  | .ok () => ({ a with selfMessages := a.selfMessages + 1, mailbox := a.mailbox ++ [⟨⟩] }, .ok ())
  | .error e => ({ a with selfMessages := a.selfMessages + 1 }, .error e)

/-- `process_message`: `emit_batches(..)?`, then `send_self_message(Loop)?`. -/
def processMessage (a : SourceActor σ) : SourceActor σ × Except ActorExitStatus Unit :=
  match emitBatches src a with
  | (a, .error e) => (a, .error e)
  | (a, .ok ()) => sendSelf sendSelfMessage a

/-- `AsyncActor::initialize`: `source.initialize(ctx)?`, then `process_message(Loop)?`. -/
def init (a : SourceActor σ) : SourceActor σ × Except ActorExitStatus Unit :=
  match initSource src a with
  | (a, .error e) => (a, .error e)
  | (a, .ok ()) => processMessage src sendSelfMessage a

/-- The phase after a handler: running on success, stopped by its error. -/
def settle : SourceActor σ × Except ActorExitStatus Unit → SourceActor σ
  | (a, .ok ()) => { a with phase := .running }
  | (a, .error e) => { a with phase := .exited e }

/-- Modelled from the spec: one step of the actor runtime of quickwit_actors. It initializes a new
actor; a running actor handles the first message of its mailbox, which leaves the mailbox; the
first error stops the actor. An idle or stopped actor takes no step. -/
def runtimeStep (a : SourceActor σ) : Option (SourceActor σ) :=
  match a.phase, a.mailbox with
  | .created, _ => some (settle (init src sendSelfMessage a))
  | .running, _ :: mailbox => some (settle (processMessage src sendSelfMessage { a with mailbox }))
  | _, _ => none

/-- The runtime for `n` steps, or until the actor takes no step. -/
def run : ℕ → SourceActor σ → SourceActor σ
  | 0, a => a
  | n + 1, a =>
    match runtimeStep src sendSelfMessage a with
    | some a' => run n a'
    | none => a

/-! ## The loop of the doc comment -/

/-- `n` turns of the loop of the `Source` doc comment, each `emit_batches` and the self-send that
goes with it, from the source in state `s` and the `k`-th send: the calls made on the source, and
the exit status if the loop broke. -/
def loopTurns : ℕ → σ → ℕ → List SourceCall × Option ActorExitStatus
  | 0, _, _ => ([], none)
  | n + 1, s, k =>
    match src.emitBatches s with
    | (_, .error e) => ([.emitBatches], some e)
    | (s, .ok ()) =>
      match sendSelfMessage k with
      | .error e => ([.emitBatches], some e)
      | .ok () => ((loopTurns n s (k + 1)).1.cons .emitBatches, (loopTurns n s (k + 1)).2)

/-- The loop of the `Source` doc comment: `source.initialize(ctx)?`, then `n` turns. -/
def sourceLoop (n : ℕ) (s : σ) : List SourceCall × Option ActorExitStatus :=
  match src.init s with
  | (_, .error e) => ([.init], some e)
  | (s, .ok ()) =>
    ((loopTurns src sendSelfMessage n s 0).1.cons .init, (loopTurns src sendSelfMessage n s 0).2)

/-! ## The actor follows the loop -/

/-- The actor after the loop made `calls` and ended with `exit`: it made the same calls; it runs
with one `Loop` pending if the loop goes on, and has stopped with the same status and nothing
pending if the loop broke. -/
def Follows (a : SourceActor σ) (calls : List SourceCall) : Option ActorExitStatus → Prop
  | none => a.calls = calls ∧ a.phase = .running ∧ a.mailbox = [⟨⟩]
  | some e => a.calls = calls ∧ a.phase = .exited e ∧ a.mailbox = []

variable {src sendSelfMessage}

/-- A stopped actor takes no more steps. -/
theorem run_exited {a : SourceActor σ} {e : ActorExitStatus} (h : a.phase = .exited e) :
    ∀ n, run src sendSelfMessage n a = a
  | 0 => rfl
  | n + 1 => by simp [run, runtimeStep, h]

/-- **One message, one turn** of the loop. -/
theorem run_processMessage_follows :
    ∀ (n : ℕ) (a : SourceActor σ), a.mailbox = [] →
      Follows (run src sendSelfMessage n (settle (processMessage src sendSelfMessage a)))
        (a.calls ++ (loopTurns src sendSelfMessage (n + 1) a.source a.selfMessages).1)
        (loopTurns src sendSelfMessage (n + 1) a.source a.selfMessages).2
  | n, a, ha => by
    rcases he : src.emitBatches a.source with ⟨s', _ | ⟨⟩⟩
    · simp [run_exited, Follows, processMessage, emitBatches, settle, loopTurns, he, ha]
    rcases hs : sendSelfMessage a.selfMessages with _ | ⟨⟩
    · simp [run_exited, Follows, processMessage, emitBatches, sendSelf, settle, loopTurns, he, hs,
        ha]
    match n with
    | 0 => simp [run, Follows, processMessage, emitBatches, sendSelf, settle, loopTurns, he, hs, ha]
    | n + 1 =>
      have := run_processMessage_follows n ⟨s', a.selfMessages + 1, [], .running,
        a.calls ++ [.emitBatches]⟩ rfl
      simpa [run, runtimeStep, Follows, processMessage, emitBatches, sendSelf, settle, loopTurns,
        he, hs, ha] using this

/-- After `n + 1` steps, the actor follows `n + 1` turns of the loop after `initialize`. -/
theorem run_start_follows (s : σ) (n : ℕ) :
    Follows (run src sendSelfMessage (n + 1) (start s)) (sourceLoop src sendSelfMessage (n + 1) s).1
      (sourceLoop src sendSelfMessage (n + 1) s).2 := by
  rcases hi : src.init s with ⟨s', _ | ⟨⟩⟩
  · simp [run, runtimeStep, start, init, initSource, settle, sourceLoop, Follows, run_exited, hi]
  · have := @run_processMessage_follows σ src sendSelfMessage n ⟨s', 0, [], .created, [.init]⟩ rfl
    simpa [run, runtimeStep, start, init, initSource, settle, sourceLoop, hi] using this

theorem Follows.mailbox {a : SourceActor σ} {calls : List SourceCall}
    {exit : Option ActorExitStatus} (h : Follows a calls exit) :
    a.mailbox.length ≤ 1 ∧ (a.phase = .running → a.mailbox = [⟨⟩]) := by
  cases exit with
  | none => obtain ⟨-, -, hm⟩ := h; simp [hm]
  | some e => obtain ⟨-, hp, hm⟩ := h; simp [hm, hp]

end SourceActor

open SourceActor in
/-- **The source actor runs the loop of the `Source` doc comment**: after `n + 1` steps it made
the calls of `n + 1` turns and stopped exactly when the loop broke, one `Loop` pending meanwhile. -/
theorem sourceActor_follows_sourceLoop {σ : Type} (src : Source σ)
    (sendSelfMessage : ℕ → Except ActorExitStatus Unit) (s : σ) :
    (∀ n, Follows (run src sendSelfMessage (n + 1) (start s))
      (sourceLoop src sendSelfMessage (n + 1) s).1 (sourceLoop src sendSelfMessage (n + 1) s).2) ∧
    ∀ n, (run src sendSelfMessage n (start s)).mailbox.length ≤ 1 ∧
      ((run src sendSelfMessage n (start s)).phase = .running →
        (run src sendSelfMessage n (start s)).mailbox = [⟨⟩]) := by
  refine ⟨run_start_follows s, fun n => ?_⟩
  cases n with
  | zero => simp [run, start]
  | succ n => exact (run_start_follows s n).mailbox

/-! ## The connectivity check -/

/-- The `SourceParams` of a `SourceConfig` (quickwit_config, not under src), by what
`check_source_connectivity` reads of them: the path of a file source, if it has one. -/
inductive SourceParams
  | file (filepath : Option String)
  | kafka
  | vec
  | void
  deriving DecidableEq, Repr

/-- The error of a file source whose file is missing. -/
def fileMissingMsg (filepath : String) : String := "File `" ++ filepath ++ "` does not exist."

/-- The error of a Kafka source in a binary without the `kafka` feature. -/
def kafkaFeatureMsg : String := "Quickwit binary was not compiled with the `kafka` feature."

/-- `check_source_connectivity`, given whether the binary has the `kafka` feature, which paths
exist, and what `kafka_source::check_connectivity` (not under src) answers. -/
def checkSourceConnectivity (kafkaFeature : Bool) (pathExists : String → Bool)
    (kafkaConnectivity : Except Search.AnyhowError Unit) :
    SourceParams → Except Search.AnyhowError Unit
  | .file (some filepath) =>
    if !pathExists filepath then .error (.ofMsg (fileMissingMsg filepath)) else .ok ()
  | .file none => .ok ()
  | .kafka => if kafkaFeature then kafkaConnectivity else .error (.ofMsg kafkaFeatureMsg)
  | .vec | .void => .ok ()

/-- Every error of the check names its cause: the missing file, the missing feature, or Kafka's
own error. -/
theorem checkSourceConnectivity_eq_error {kafkaFeature : Bool} {pathExists : String → Bool}
    {kafkaConnectivity : Except Search.AnyhowError Unit} {params : SourceParams}
    {e : Search.AnyhowError} :
    checkSourceConnectivity kafkaFeature pathExists kafkaConnectivity params = .error e ↔
      (∃ filepath, params = .file (some filepath) ∧ pathExists filepath = false ∧
        e = .ofMsg (fileMissingMsg filepath)) ∨
      params = .kafka ∧ (kafkaFeature = false ∧ e = .ofMsg kafkaFeatureMsg ∨
        kafkaFeature = true ∧ kafkaConnectivity = .error e) := by
  cases params with
  | file filepath =>
    cases filepath with
    | none => simp [checkSourceConnectivity]
    | some filepath =>
      cases h : pathExists filepath <;> simp [checkSourceConnectivity, h, @eq_comm _ e]
  | kafka => cases kafkaFeature <;> simp [checkSourceConnectivity, @eq_comm _ e]
  | vec | void => simp [checkSourceConnectivity]

/-- The test of mod.rs: a file source on a missing file fails. -/
example : checkSourceConnectivity false (fun _ => false) (.ok ())
    (.file (some "file-does-not-exist.json")) =
      .error (.ofMsg "File `file-does-not-exist.json` does not exist.") := rfl

end Quickwit.Indexing

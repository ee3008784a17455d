/-
**Whole runs of the holdback buffer** (`RecoveryHoldbackBuffer` of `core/anthropic/stream_recovery.py`).

* `HoldbackLimits`, `pushWithin` — a buffer with its own holdback and its own cap on bytes; the two
  transports use the defaults (`push_eq`).
* `HoldbackRun` — a buffer under its calls, with a record of what it has returned, of the pushes that no
  discard has dropped before the commit, and of whether a flush has happened.
* **`holdsBack_after`** — what has been returned, for every sequence of calls and every clock.
-/

import ClaudeProxy.Recovery.Holdback

namespace ClaudeProxy

variable {α : Type}

/-- `holdback_seconds`, in nanoseconds, and `max_bytes`. -/
structure HoldbackLimits where
  holdback : Int := earlyHoldback
  maxBytes : Int := recoveryBufferMaxBytes

namespace RecoveryHoldbackBuffer

variable (limits : HoldbackLimits)

/-- `push`, with the event that is to be held. -/
def hold (buffer : RecoveryHoldbackBuffer α) (event : α) (measured : Measured) :
    RecoveryHoldbackBuffer α :=
  { buffer with
    events := buffer.events ++ [event]
    bytes := buffer.bytes + measured.size
    startedAt := some (buffer.startedAt.getD measured.first) }

/-- The test that flushes a push. -/
def overflows (buffer : RecoveryHoldbackBuffer α) (measured : Measured) : Bool :=
  limits.maxBytes ≤ (buffer.bytes + measured.size : Nat) ∨
    limits.holdback ≤ (measured.second : Int) - (buffer.startedAt.getD measured.first : Nat)

/-- `push`. -/
def pushWithin (buffer : RecoveryHoldbackBuffer α) (event : α) (measured : Measured) :
    List α × RecoveryHoldbackBuffer α :=
  if buffer.committed then ([event], buffer)
  else if buffer.overflows limits measured then (buffer.hold event measured).flush
  else ([], buffer.hold event measured)

/-- Under the defaults, it is the push of the transports. -/
theorem push_eq (buffer : RecoveryHoldbackBuffer α) (event : α) (measured : Measured) :
    buffer.push event measured = buffer.pushWithin {} event measured := by
  unfold push pushWithin hold overflows
  dsimp only
  split_ifs with committed one other other
  · rfl
  · rfl
  · simp only [decide_eq_true_iff, Bool.not_eq_true] at *
    omega
  · simp only [decide_eq_true_iff, Bool.not_eq_true] at *
    omega
  · rfl

end RecoveryHoldbackBuffer

inductive HoldbackCall (α : Type) where
  | push (event : α) (measured : Measured)
  | flush
  | discard

/-- A buffer, all it has returned, the pushed events without those that were discarded before the
commit, and whether a flush has happened, called or triggered by a push. -/
structure HoldbackRun (α : Type) where
  buffer : RecoveryHoldbackBuffer α := {}
  returned : List α := []
  undiscarded : List α := []
  flushed : Bool := false

namespace HoldbackRun

variable (limits : HoldbackLimits)

def step (run : HoldbackRun α) : HoldbackCall α → HoldbackRun α
  | .push event measured =>
    let (events, buffer) := run.buffer.pushWithin limits event measured
    { buffer
      returned := run.returned ++ events
      undiscarded := run.undiscarded ++ [event]
      flushed := run.flushed || run.buffer.overflows limits measured }
  | .flush =>
    let (events, buffer) := run.buffer.flush
    { run with buffer, returned := run.returned ++ events, flushed := true }
  | .discard =>
    { run with
      buffer := run.buffer.discard
      undiscarded := if run.flushed then run.undiscarded else [] }

/-- The run of so many calls on a new buffer. -/
def after (calls : List (HoldbackCall α)) : HoldbackRun α := calls.foldl (step limits) {}

/-! ### What is asked -/

/-- **What the buffer has returned**: after a flush, and only then, it is committed; then it has
returned every event that was not discarded, in order, holds nothing and passes every push straight
through; before, it has returned nothing and holds those events. -/
structure HoldsBack (run : HoldbackRun α) : Prop where
  committed : run.buffer.committed = true ↔ run.flushed = true
  returned : run.flushed = true → run.returned = run.undiscarded ∧ run.buffer.events = []
  quiet : run.flushed = false → run.returned = [] ∧ run.buffer.events = run.undiscarded
  passes : run.flushed = true → ∀ event measured,
    run.buffer.pushWithin limits event measured = ([event], run.buffer)

/-! ### Every call keeps it -/

variable {limits} {run : HoldbackRun α}

theorem pushWithin_committed (limits : HoldbackLimits) {buffer : RecoveryHoldbackBuffer α}
    (committed : buffer.committed = true)
    (event : α) (measured : Measured) :
    buffer.pushWithin limits event measured = ([event], buffer) := if_pos committed

/-- Before the commit, a push is held, and everything goes out with it if it flushes. -/
theorem pushWithin_uncommitted (limits : HoldbackLimits) {buffer : RecoveryHoldbackBuffer α}
    (uncommitted : buffer.committed = false) (event : α) (measured : Measured) :
    buffer.pushWithin limits event measured =
      if buffer.overflows limits measured then (buffer.events ++ [event], { committed := true })
      else ([], buffer.hold event measured) := by
  unfold RecoveryHoldbackBuffer.pushWithin
  rw [uncommitted, if_neg Bool.false_ne_true, RecoveryHoldbackBuffer.flush]
  rw [show (buffer.hold event measured).committed = false from uncommitted]
  rfl

theorem flush_committed {buffer : RecoveryHoldbackBuffer α} (committed : buffer.committed = true) :
    buffer.flush = ([], buffer) := if_pos committed

theorem flush_uncommitted {buffer : RecoveryHoldbackBuffer α} (uncommitted : buffer.committed = false) :
    buffer.flush = (buffer.events, { committed := true }) :=
  if_neg (Bool.eq_false_iff.mp uncommitted)

/-- A run behind its commit. -/
theorem HoldsBack.of_committed (committed : run.buffer.committed = true)
    (flushed : run.flushed = true) (returned : run.returned = run.undiscarded)
    (empty : run.buffer.events = []) : HoldsBack limits run where
  committed := iff_of_true committed flushed
  returned _ := ⟨returned, empty⟩
  quiet unflushed := Bool.noConfusion (flushed.symm.trans unflushed)
  passes _ event measured := pushWithin_committed limits committed event measured

/-- A run before it. -/
theorem HoldsBack.of_uncommitted (uncommitted : run.buffer.committed = false)
    (unflushed : run.flushed = false) (nothing : run.returned = [])
    (held : run.buffer.events = run.undiscarded) : HoldsBack limits run where
  committed := by rw [uncommitted, unflushed]
  returned flushed := Bool.noConfusion (flushed.symm.trans unflushed)
  quiet _ := ⟨nothing, held⟩
  passes flushed := Bool.noConfusion (flushed.symm.trans unflushed)

theorem HoldsBack.step (holds : HoldsBack limits run) (call : HoldbackCall α) :
    HoldsBack limits (run.step limits call) := by
  cases flushed : run.flushed with
  | true =>
    have committed := holds.committed.mpr flushed
    obtain ⟨returned, empty⟩ := holds.returned flushed
    cases call with
    | push event measured =>
      have same := pushWithin_committed limits committed event measured
      refine .of_committed ?_ ?_ ?_ ?_
      · rw [HoldbackRun.step, same]
        exact committed
      · rw [HoldbackRun.step, flushed]
        rfl
      · rw [HoldbackRun.step, same, returned]
      · rw [HoldbackRun.step, same]
        exact empty
    | flush =>
      refine .of_committed ?_ rfl ?_ ?_
      · rw [HoldbackRun.step, flush_committed committed]
        exact committed
      · rw [HoldbackRun.step, flush_committed committed, returned]
        exact List.append_nil _
      · rw [HoldbackRun.step, flush_committed committed]
        exact empty
    | discard =>
      refine .of_committed committed flushed ?_ rfl
      rw [HoldbackRun.step, flushed, if_pos rfl]
      exact returned
  | false =>
    have uncommitted : run.buffer.committed = false :=
      Bool.eq_false_iff.mpr fun committed => by
        rw [holds.committed.mp committed] at flushed
        cases flushed
    obtain ⟨nothing, held⟩ := holds.quiet flushed
    cases call with
    | push event measured =>
      have same := pushWithin_uncommitted limits uncommitted event measured
      cases overflows : run.buffer.overflows limits measured with
      | true =>
        rw [overflows, if_pos rfl] at same
        refine .of_committed ?_ ?_ ?_ ?_
        · rw [HoldbackRun.step, same]
        · rw [HoldbackRun.step, overflows, Bool.or_true]
        · rw [HoldbackRun.step, same, nothing, held]
          rfl
        · rw [HoldbackRun.step, same]
      | false =>
        rw [overflows, if_neg Bool.false_ne_true] at same
        refine .of_uncommitted ?_ ?_ ?_ ?_
        · rw [HoldbackRun.step, same]
          exact uncommitted
        · rw [HoldbackRun.step, overflows, flushed]
          rfl
        · rw [HoldbackRun.step, same, nothing]
          rfl
        · rw [HoldbackRun.step, same]
          exact congrArg (· ++ [event]) held
    | flush =>
      refine .of_committed ?_ rfl ?_ ?_
      · rw [HoldbackRun.step, flush_uncommitted uncommitted]
      · rw [HoldbackRun.step, flush_uncommitted uncommitted, nothing]
        exact held
      · rw [HoldbackRun.step, flush_uncommitted uncommitted]
    | discard =>
      refine .of_uncommitted uncommitted flushed nothing ?_
      rw [HoldbackRun.step, flushed, if_neg Bool.false_ne_true]
      rfl

/-- **The holdback buffer**, after any calls at any readings of its clock: it is committed exactly when
a flush has happened; from then on it has returned, in order, the pushed events without those discarded
before the commit, and passes every push through; until then it has returned nothing. -/
theorem holdsBack_after (limits : HoldbackLimits) (calls : List (HoldbackCall α)) :
    HoldsBack limits (after limits calls) := by
  have all : ∀ run : HoldbackRun α, HoldsBack limits run →
      HoldsBack limits (calls.foldl (HoldbackRun.step limits) run) := by
    induction calls with
    | nil => exact fun run holds => holds
    | cons call rest ih => exact fun run holds => ih _ (holds.step call)
  exact all {} (.of_uncommitted rfl rfl rfl rfl)

end HoldbackRun

end ClaudeProxy

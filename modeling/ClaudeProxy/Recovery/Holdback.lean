/-
**The holdback buffer** (`RecoveryHoldbackBuffer` of `core/anthropic/stream_recovery.py`).

Events are held until the buffer commits: when it is flushed, when it holds too many bytes, or when
its first event has been held too long. A push reads the clock at most twice, once to start the
period and once to test it; the readings are arguments, in nanoseconds.

* `push_held` — what has been given out and what is held are together what was pushed;
* `Outgoing` — so it is over a whole run, and nothing has been given out before the commit.
-/

import Mathlib.Data.List.Basic

namespace ClaudeProxy

variable {α : Type}

/-- `RECOVERY_BUFFER_MAX_BYTES`. -/
def recoveryBufferMaxBytes : Nat := 65536

/-- `EARLY_HOLDBACK_SECONDS`. -/
def earlyHoldback : Nat := 750000000

/-- `RecoveryHoldbackBuffer`. -/
structure RecoveryHoldbackBuffer (α : Type) where
  events : List α := []
  bytes : Nat := 0
  startedAt : Option Nat := none
  committed : Bool := false
  deriving DecidableEq

/-- What one push measures: the event's bytes and the two clock readings. -/
structure Measured where
  size : Nat
  first : Nat
  second : Nat

namespace RecoveryHoldbackBuffer

/-- `flush`. -/
def flush (buffer : RecoveryHoldbackBuffer α) : List α × RecoveryHoldbackBuffer α :=
  if buffer.committed then ([], buffer)
  else (buffer.events, { committed := true })

/-- `discard`. -/
def discard (buffer : RecoveryHoldbackBuffer α) : RecoveryHoldbackBuffer α :=
  { committed := buffer.committed }

/-- `has_buffered`. -/
def hasBuffered (buffer : RecoveryHoldbackBuffer α) : Bool := !buffer.events.isEmpty

/-- `push`. -/
def push (buffer : RecoveryHoldbackBuffer α) (event : α) (measured : Measured) :
    List α × RecoveryHoldbackBuffer α :=
  if buffer.committed then ([event], buffer)
  else
    let startedAt := buffer.startedAt.getD measured.first
    let held : RecoveryHoldbackBuffer α :=
      { buffer with
        events := buffer.events ++ [event]
        bytes := buffer.bytes + measured.size
        startedAt := some startedAt }
    if recoveryBufferMaxBytes ≤ held.bytes ∨ startedAt + earlyHoldback ≤ measured.second then
      held.flush
    else ([], held)

/-- A buffer holds events only before its commit. -/
def Coherent (buffer : RecoveryHoldbackBuffer α) : Prop :=
  buffer.committed = true → buffer.events = []

theorem push_coherent {buffer : RecoveryHoldbackBuffer α} (coherent : buffer.Coherent) (event : α)
    (measured : Measured) : (buffer.push event measured).2.Coherent := by
  unfold push flush
  dsimp only
  split_ifs with committed overflows
  · exact coherent
  · exact fun _ => rfl
  · exact fun now => absurd now committed

/-- **A push loses nothing**: what it gives out and what it then holds. -/
theorem push_held {buffer : RecoveryHoldbackBuffer α} (coherent : buffer.Coherent) (event : α)
    (measured : Measured) :
    (buffer.push event measured).1 ++ (buffer.push event measured).2.events =
      buffer.events ++ [event] := by
  unfold push flush
  dsimp only
  split_ifs with committed overflows
  · rw [coherent committed, List.append_nil, List.nil_append]
  · exact List.append_nil _
  · rfl

/-- Before the commit, nothing has been given out. -/
theorem push_uncommitted {buffer : RecoveryHoldbackBuffer α} {event : α} {measured : Measured}
    (uncommitted : (buffer.push event measured).2.committed = false) :
    (buffer.push event measured).1 = [] ∧ buffer.committed = false := by
  unfold push flush at uncommitted ⊢
  dsimp only at uncommitted ⊢
  split_ifs at uncommitted ⊢ with committed overflows
  · exact Bool.noConfusion (committed.symm.trans uncommitted)
  · exact ⟨rfl, uncommitted⟩

/-- `out` was pushed: `yielded` has been given out, and the buffer holds the rest. -/
structure Outgoing (yielded : List α) (buffer : RecoveryHoldbackBuffer α) (out : List α) :
    Prop where
  coherent : buffer.Coherent
  sent : yielded ++ buffer.events = out
  quiet : buffer.committed = false → yielded = []

namespace Outgoing

variable {yielded out : List α} {buffer : RecoveryHoldbackBuffer α}

theorem init : Outgoing [] ({} : RecoveryHoldbackBuffer α) [] :=
  ⟨fun now => Bool.noConfusion now, rfl, fun _ => rfl⟩

theorem push (outgoing : Outgoing yielded buffer out) (event : α) (measured : Measured) :
    Outgoing (yielded ++ (buffer.push event measured).1) (buffer.push event measured).2
      (out ++ [event]) where
  coherent := push_coherent outgoing.coherent _ _
  sent := by
    rw [List.append_assoc, push_held outgoing.coherent, ← List.append_assoc, outgoing.sent]
  quiet uncommitted := by
    obtain ⟨nothing, before⟩ := push_uncommitted uncommitted
    rw [nothing, outgoing.quiet before, List.append_nil]

/-- **A flush gives out the rest.** -/
theorem flushed (outgoing : Outgoing yielded buffer out) : yielded ++ buffer.flush.1 = out := by
  rw [← outgoing.sent, flush]
  split_ifs with committed
  · rw [outgoing.coherent committed]
  · rfl

/-- With nothing held before the commit, nothing was pushed. -/
theorem nothing (outgoing : Outgoing yielded buffer out) (uncommitted : buffer.committed = false)
    (empty : buffer.hasBuffered = false) : yielded = [] ∧ out = [] := by
  have none : buffer.events = [] := by simpa [hasBuffered] using empty
  rw [← outgoing.sent, none, outgoing.quiet uncommitted]
  exact ⟨rfl, rfl⟩

end Outgoing

end RecoveryHoldbackBuffer

end ClaudeProxy

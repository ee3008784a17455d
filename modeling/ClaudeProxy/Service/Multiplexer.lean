/-
**The stream multiplexer** (`StreamMultiplexer` in `api/services.py`).

* `Multiplexer` — the shared buffer with its flags and its lock, the producer task (`_consume`) and the
  readers (`iterate`), each at one of its `await`s or at its `yield`.
* `multiplexerMachine` — their steps, in any order. A step that takes the lock is enabled while no
  reader holds it; a reader holds it while it is suspended at its `yield`.
* `Iterates`, `Produces`, **`effect_of_step`** — everything a step can do, once and for all.
* `Sound` — the invariant: what is known of each party where it is, and who holds the lock.
* `Sound.iterate`, `Sound.produce` — every step of a reader and of the producer keeps it;
  **`sound_of_step`**, `sound_of_reachable`.
-/

import ClaudeProxy.Library.Fallback
import ClaudeProxy.Library.Transition

namespace ClaudeProxy

variable {χ ε : Type}

/-! ### The model -/

/-- How a reader ends: it has read everything, it raises the producer's error, or it is closed. -/
inductive ReaderOutcome (ε : Type) where
  | ended
  | raised (error : ε)
  | closed
  deriving DecidableEq

/-- Where a reader is: before its event is in `_waiters`, about to take the lock, at the `yield` with
the lock, at `event.wait()`, in its `finally`, or through. -/
inductive ReaderPhase (ε : Type) where
  | registering
  | looping
  | suspended
  | waiting
  | leaving (outcome : ReaderOutcome ε)
  | gone (outcome : ReaderOutcome ε)
  deriving DecidableEq

/-- A call of `iterate`, with what it has yielded; `registered` says that its event is in
`_waiters`. -/
structure Reader (χ ε : Type) where
  phase : ReaderPhase ε := .registering
  idx : Nat := 0
  event : Bool := false
  registered : Bool := false
  yielded : List χ := []
  deriving DecidableEq

/-- Where `_consume` is: at its stream, about to append a chunk, about to notify behind an error, in
its `finally`, or through. -/
inductive Producer (χ : Type) where
  | streaming
  | appending (chunk : χ)
  | failing
  | closing
  | finished
  deriving DecidableEq

/-- The multiplexer; `ending` records how its stream ended, `holder` is the reader with the lock. -/
structure Multiplexer (χ ε : Type) where
  chunks : List χ := []
  done : Bool := false
  error : Option ε := none
  producer : Producer χ := .streaming
  ending : Option Ending := none
  holder : Option Nat := none
  readers : List (Reader χ ε) := []
  deriving DecidableEq

namespace Multiplexer

/-- The chunks that the stream has given: those in the buffer and the one about to be appended. -/
def produced (mux : Multiplexer χ ε) : List χ :=
  match mux.producer with
  | .appending chunk => mux.chunks ++ [chunk]
  | _ => mux.chunks

/-- Sets the events in `_waiters`. -/
def notify (mux : Multiplexer χ ε) : Multiplexer χ ε :=
  { mux with readers := mux.readers.map fun reader =>
      { reader with event := reader.event || reader.registered } }

/-- Replaces a reader. -/
def setReader (mux : Multiplexer χ ε) (number : Nat) (reader : Reader χ ε) : Multiplexer χ ε :=
  { mux with readers := mux.readers.set number reader }

/-- The body under the lock: `yield` a chunk, end, or prepare to wait. -/
def enter (mux : Multiplexer χ ε) (number : Nat) (reader : Reader χ ε) : Multiplexer χ ε :=
  match mux.chunks[reader.idx]? with
  | some chunk =>
    { mux.setReader number { reader with
        phase := .suspended, yielded := reader.yielded ++ [chunk] } with
      holder := some number }
  | none =>
    if mux.done then
      match mux.error with
      | some error => mux.setReader number { reader with phase := .leaving (.raised error) }
      | none => mux.setReader number { reader with phase := .leaving .ended }
    else mux.setReader number { reader with phase := .waiting, event := false }

end Multiplexer

inductive MultiplexerAction (χ ε : Type) where
  | receive (chunk : χ)
  | append
  | complete
  | fail (error : ε)
  | abort
  | notifyError
  | notifyDone
  | join
  | register (number : Nat)
  | enter (number : Nat)
  | resume (number : Nat)
  | wake (number : Nat)
  | close (number : Nat)
  | leave (number : Nat)

namespace Multiplexer

/-- The producer's steps. -/
def produce (mux : Multiplexer χ ε) (action : MultiplexerAction χ ε) : Option (Multiplexer χ ε) :=
  match action, mux.producer, mux.holder with
  | .receive chunk, .streaming, _ => some { mux with producer := .appending chunk }
  | .append, .appending chunk, none =>
    some { mux.notify with chunks := mux.chunks ++ [chunk], producer := .streaming }
  | .complete, .streaming, _ =>
    some { mux with done := true, producer := .closing, ending := some .completes }
  | .fail error, .streaming, _ =>
    some { mux with error := some error, producer := .failing, ending := some .fails }
  -- a `BaseException` skips the handler, but not the `finally`
  | .abort, .streaming, _ =>
    some { mux with done := true, producer := .closing, ending := some .aborts }
  | .notifyError, .failing, none => some { mux.notify with done := true, producer := .closing }
  | .notifyDone, .closing, none => some { mux.notify with producer := .finished }
  | _, _, _ => none

/-- A reader's steps. -/
def read (mux : Multiplexer χ ε) (action : MultiplexerAction χ ε) (number : Nat)
    (reader : Reader χ ε) : Option (Multiplexer χ ε) :=
  match action, reader.phase, mux.holder with
  | .register _, .registering, none =>
    some (mux.setReader number { reader with registered := true, phase := .looping })
  | .enter _, .looping, none => some (mux.enter number reader)
  | .resume _, .suspended, _ =>
    some { mux.setReader number { reader with idx := reader.idx + 1, phase := .looping } with
      holder := none }
  | .wake _, .waiting, _ =>
    if reader.event then some (mux.setReader number { reader with phase := .looping }) else none
  | .close _, .registering, _ =>
    some (mux.setReader number { reader with phase := .gone .closed })
  | .close _, .looping, _ | .close _, .waiting, _ =>
    some (mux.setReader number { reader with phase := .leaving .closed })
  | .close _, .suspended, _ =>
    some { mux.setReader number { reader with phase := .leaving .closed } with holder := none }
  -- cancelled at the lock of its `finally`: its event stays in `_waiters`
  | .close _, .leaving _, _ => some (mux.setReader number { reader with phase := .gone .closed })
  | .leave _, .leaving outcome, none =>
    some (mux.setReader number { reader with registered := false, phase := .gone outcome })
  | _, _, _ => none

def step (mux : Multiplexer χ ε) (action : MultiplexerAction χ ε) : Option (Multiplexer χ ε) :=
  match action with
  | .join => some { mux with readers := mux.readers ++ [{}] }
  | .register number | .enter number | .resume number | .wake number | .close number
  | .leave number => mux.readers[number]?.bind (mux.read action number)
  | _ => mux.produce action

end Multiplexer

/-- A multiplexer over any stream, with any readers. -/
def multiplexerMachine (χ ε : Type) : Machine (Multiplexer χ ε) (MultiplexerAction χ ε) where
  init mux := mux = {}
  step := Multiplexer.step

/-! ### What a step does -/

namespace Multiplexer

/-- Everything a step of the producer can do. -/
inductive Produces (mux : Multiplexer χ ε) : MultiplexerAction χ ε → Multiplexer χ ε → Prop
  | receive {chunk : χ} (here : mux.producer = .streaming) :
    Produces mux (.receive chunk) { mux with producer := .appending chunk }
  | append {chunk : χ} (here : mux.producer = .appending chunk) (free : mux.holder = none) :
    Produces mux .append
      { mux.notify with chunks := mux.chunks ++ [chunk], producer := .streaming }
  | complete (here : mux.producer = .streaming) :
    Produces mux .complete
      { mux with done := true, producer := .closing, ending := some .completes }
  | fail {error : ε} (here : mux.producer = .streaming) :
    Produces mux (.fail error)
      { mux with error := some error, producer := .failing, ending := some .fails }
  | abort (here : mux.producer = .streaming) :
    Produces mux .abort { mux with done := true, producer := .closing, ending := some .aborts }
  | notifyError (here : mux.producer = .failing) (free : mux.holder = none) :
    Produces mux .notifyError { mux.notify with done := true, producer := .closing }
  | notifyDone (here : mux.producer = .closing) (free : mux.holder = none) :
    Produces mux .notifyDone { mux.notify with producer := .finished }

/-- Everything a step of a reader can do. -/
inductive Iterates (mux : Multiplexer χ ε) (number : Nat) (reader : Reader χ ε) :
    MultiplexerAction χ ε → Multiplexer χ ε → Prop
  | register (phase : reader.phase = .registering) (free : mux.holder = none) :
    Iterates mux number reader (.register number)
      (mux.setReader number { reader with registered := true, phase := .looping })
  | enter (phase : reader.phase = .looping) (free : mux.holder = none) :
    Iterates mux number reader (.enter number) (mux.enter number reader)
  | resume (phase : reader.phase = .suspended) :
    Iterates mux number reader (.resume number)
      { mux.setReader number { reader with idx := reader.idx + 1, phase := .looping } with
        holder := none }
  | wake (phase : reader.phase = .waiting) (set : reader.event = true) :
    Iterates mux number reader (.wake number) (mux.setReader number { reader with phase := .looping })
  | closeEarly (phase : reader.phase = .registering) :
    Iterates mux number reader (.close number)
      (mux.setReader number { reader with phase := .gone .closed })
  | closeAwake (phase : reader.phase = .looping ∨ reader.phase = .waiting) :
    Iterates mux number reader (.close number)
      (mux.setReader number { reader with phase := .leaving .closed })
  | closeSuspended (phase : reader.phase = .suspended) :
    Iterates mux number reader (.close number)
      { mux.setReader number { reader with phase := .leaving .closed } with holder := none }
  | closeLate {outcome : ReaderOutcome ε} (phase : reader.phase = .leaving outcome) :
    Iterates mux number reader (.close number)
      (mux.setReader number { reader with phase := .gone .closed })
  | leave {outcome : ReaderOutcome ε} (phase : reader.phase = .leaving outcome)
      (free : mux.holder = none) :
    Iterates mux number reader (.leave number)
      (mux.setReader number { reader with registered := false, phase := .gone outcome })

/-- A reader comes, a reader moves, or the producer does. -/
inductive Effect (mux : Multiplexer χ ε) : MultiplexerAction χ ε → Multiplexer χ ε → Prop
  | join : Effect mux .join { mux with readers := mux.readers ++ [{}] }
  | iterate {number : Nat} {reader : Reader χ ε} {action : MultiplexerAction χ ε}
      {next : Multiplexer χ ε} (found : mux.readers[number]? = some reader)
      (moved : Iterates mux number reader action next) : Effect mux action next
  | produce {action : MultiplexerAction χ ε} {next : Multiplexer χ ε}
      (moved : Produces mux action next) : Effect mux action next

variable {mux next : Multiplexer χ ε} {action : MultiplexerAction χ ε}

theorem produces_of_produce (stepped : mux.produce action = some next) :
    Produces mux action next := by
  unfold produce at stepped
  split at stepped
  case h_8 => cases stepped
  all_goals obtain rfl := Option.some.inj stepped
  · exact .receive ‹_›
  · exact .append ‹_› ‹_›
  · exact .complete ‹_›
  · exact .fail ‹_›
  · exact .abort ‹_›
  · exact .notifyError ‹_› ‹_›
  · exact .notifyDone ‹_› ‹_›

/-- A reader's step, taken by the reader that the action names. -/
theorem iterates_of_read {number : Nat} {reader : Reader χ ε}
    (named : action ∈ [.register number, .enter number, .resume number, .wake number,
      .close number, .leave number])
    (stepped : mux.read action number reader = some next) :
    Iterates mux number reader action next := by
  unfold read at stepped
  split at stepped
  case h_4 =>
    split_ifs at stepped with set
    obtain rfl := Option.some.inj stepped
    obtain rfl : _ = number := by simpa using named
    exact .wake ‹_› set
  case h_11 => cases stepped
  all_goals
    obtain rfl := Option.some.inj stepped
    obtain rfl : _ = number := by simpa using named
  · exact .register ‹_› ‹_›
  · exact .enter ‹_› ‹_›
  · exact .resume ‹_›
  · exact .closeEarly ‹_›
  · exact .closeAwake (.inl ‹_›)
  · exact .closeAwake (.inr ‹_›)
  · exact .closeSuspended ‹_›
  · exact .closeLate ‹_›
  · exact .leave ‹_› ‹_›

/-- **Everything a step can do.** -/
theorem effect_of_step (stepped : mux.step action = some next) : Effect mux action next := by
  cases action with
  | join =>
    obtain rfl := Option.some.inj stepped
    exact .join
  | register number | enter number | resume number | wake number | close number | leave number =>
    obtain ⟨reader, found, moved⟩ := Option.bind_eq_some_iff.mp stepped
    exact .iterate found (iterates_of_read (by simp) moved)
  | _ => exact .produce (produces_of_produce stepped)

end Multiplexer

/-! ### The invariant -/

/-- What a reader's outcome says. -/
def ReaderOutcome.Sound (mux : Multiplexer χ ε) (yielded : List χ) : ReaderOutcome ε → Prop
  | .ended => mux.done = true ∧ mux.error = none ∧ yielded = mux.chunks
  | .raised error => mux.done = true ∧ mux.error = some error ∧ yielded = mux.chunks
  | .closed => True

/-- What is known of a reader where it is. -/
def ReaderSound (mux : Multiplexer χ ε) (number : Nat) (reader : Reader χ ε) : Prop :=
  match reader.phase with
  | .registering => reader.yielded = [] ∧ reader.idx = 0
  | .looping => reader.yielded = mux.chunks.take reader.idx ∧ reader.idx ≤ mux.chunks.length ∧
      reader.registered = true
  | .suspended => reader.yielded = mux.chunks.take (reader.idx + 1) ∧
      reader.idx < mux.chunks.length ∧ reader.registered = true ∧ mux.holder = some number
  | .waiting => reader.yielded = mux.chunks.take reader.idx ∧ reader.idx ≤ mux.chunks.length ∧
      reader.registered = true ∧
      (reader.event = false → reader.idx = mux.chunks.length ∧ mux.producer ≠ .finished)
  | .leaving outcome | .gone outcome => reader.yielded <+: mux.chunks ∧ outcome.Sound mux reader.yielded

/-- What the flags say where the producer is. -/
def ProducerSound (mux : Multiplexer χ ε) : Prop :=
  match mux.producer with
  | .streaming | .appending _ => mux.done = false ∧ mux.error = none ∧ mux.ending = none
  | .failing => mux.done = false ∧ mux.error.isSome = true ∧ mux.ending = some .fails
  | .closing | .finished => mux.done = true ∧ mux.ending.isSome = true ∧
      (mux.error.isSome = true ↔ mux.ending = some .fails)

structure Sound (mux : Multiplexer χ ε) : Prop where
  producer : ProducerSound mux
  readers : ∀ number reader, mux.readers[number]? = some reader → ReaderSound mux number reader
  holder : ∀ number, mux.holder = some number →
    ∃ reader, mux.readers[number]? = some reader ∧ reader.phase = .suspended

/-- What was produced depends on where the producer is. -/
theorem Multiplexer.produced_of_producer {mux : Multiplexer χ ε} {producer : Producer χ}
    (here : mux.producer = producer) :
    mux.produced = { mux with producer := producer }.produced := by
  rw [← here]

/-! ### The steps of a reader -/

/-- A reader behind which there is a chunk yields it. -/
theorem Multiplexer.enter_of_chunk {mux : Multiplexer χ ε} {reader : Reader χ ε} {chunk : χ}
    (number : Nat) (found : mux.chunks[reader.idx]? = some chunk) :
    mux.enter number reader =
      { mux.setReader number { reader with
          phase := .suspended, yielded := reader.yielded ++ [chunk] } with
        holder := some number } := by
  unfold enter
  rw [found]

/-- One that has read everything ends with the stream. -/
theorem Multiplexer.enter_of_end {mux : Multiplexer χ ε} {reader : Reader χ ε} (number : Nat)
    (past : mux.chunks[reader.idx]? = none) (done : mux.done = true) (noError : mux.error = none) :
    mux.enter number reader = mux.setReader number { reader with phase := .leaving .ended } := by
  unfold enter
  rw [past]
  dsimp only
  rw [if_pos done, noError]

theorem getElem?_setReader (mux : Multiplexer χ ε) (number other : Nat) (reader : Reader χ ε) :
    (mux.setReader number reader).readers[other]? =
      if other = number then mux.readers[number]?.map fun _ => reader
      else mux.readers[other]? := by
  unfold Multiplexer.setReader
  by_cases same : other = number
  · subst same
    rw [if_pos rfl, List.getElem?_set_self']
    rfl
  · rw [if_neg same, List.getElem?_set_ne fun equal => same equal.symm]

/-- Only a suspended reader looks at who holds the lock. -/
theorem ReaderSound.of_holder {mux : Multiplexer χ ε} {number : Nat} {reader : Reader χ ε}
    (sound : ReaderSound mux number reader) (holder : Option Nat)
    (held : reader.phase = .suspended → holder = some number) :
    ReaderSound { mux with holder := holder } number reader := by
  unfold ReaderSound at *
  cases phase : reader.phase with
  | suspended =>
    rw [phase] at sound
    obtain ⟨yielded, inside, registered, -⟩ := sound
    exact ⟨yielded, inside, registered, held phase⟩
  | _ =>
    rw [phase] at sound
    exact sound

/-- A suspended reader holds the lock. -/
theorem Sound.holder_of_suspended {mux : Multiplexer χ ε} (sound : Sound mux) {number : Nat}
    {reader : Reader χ ε} (found : mux.readers[number]? = some reader)
    (suspended : reader.phase = .suspended) : mux.holder = some number := by
  have here := sound.readers number reader found
  unfold ReaderSound at here
  rw [suspended] at here
  exact here.2.2.2

/-- One reader is replaced, and the lock is taken by it, given back by it or left as it was. -/
theorem Sound.replace {mux : Multiplexer χ ε} (sound : Sound mux) {number : Nat}
    {old new : Reader χ ε} {holder : Option Nat} (found : mux.readers[number]? = some old)
    (fits : ReaderSound { mux with holder := holder } number new)
    (others : ∀ other, other ≠ number → mux.holder = some other → holder = some other)
    (taken : ∀ other, holder = some other →
      (other = number ∧ new.phase = .suspended) ∨ (other ≠ number ∧ mux.holder = some other)) :
    Sound { mux.setReader number new with holder := holder } := by
  refine ⟨sound.producer, ?_, ?_⟩
  · intro other reader there
    rw [getElem?_setReader] at there
    split_ifs at there with same
    · rw [found] at there
      obtain rfl := Option.some.inj there
      rw [same]
      exact fits
    · have kept := sound.readers other reader there
      exact kept.of_holder holder fun suspended =>
        others other same (sound.holder_of_suspended there suspended)
  · intro other held
    show ∃ reader, (mux.setReader number new).readers[other]? = some reader ∧ _
    rw [getElem?_setReader]
    rcases taken other held with ⟨rfl, suspended⟩ | ⟨apart, before⟩
    · rw [if_pos rfl, found]
      exact ⟨new, rfl, suspended⟩
    · rw [if_neg apart]
      exact sound.holder other before

/-- One reader is replaced, away from the lock. -/
theorem Sound.setReader {mux : Multiplexer χ ε} (sound : Sound mux) {number : Nat}
    {old new : Reader χ ε} (found : mux.readers[number]? = some old)
    (fits : ReaderSound mux number new) (awake : old.phase ≠ .suspended) :
    Sound (mux.setReader number new) := by
  have apart : ∀ other, mux.holder = some other → other ≠ number := by
    rintro other held rfl
    obtain ⟨reader, there, suspended⟩ := sound.holder other held
    rw [found] at there
    obtain rfl := Option.some.inj there
    exact awake suspended
  exact sound.replace found fits (fun _ _ held => held)
    fun other held => .inr ⟨apart other held, held⟩

/-- A suspended reader is replaced and gives the lock back. -/
theorem Sound.release {mux : Multiplexer χ ε} (sound : Sound mux) {number : Nat}
    {old new : Reader χ ε} (found : mux.readers[number]? = some old)
    (fits : ReaderSound mux number new) (awake : new.phase ≠ .suspended)
    (suspended : old.phase = .suspended) :
    Sound { mux.setReader number new with holder := none } := by
  refine sound.replace found (fits.of_holder none fun asleep => absurd asleep awake) ?_ nofun
  intro other apart held
  rw [sound.holder_of_suspended found suspended] at held
  exact absurd (Option.some.inj held).symm apart

theorem ProducerSound.running {mux : Multiplexer χ ε} (sound : ProducerSound mux)
    (open_ : mux.done = false) : mux.producer ≠ .finished := by
  intro finished
  unfold ProducerSound at sound
  rw [finished] at sound
  rw [sound.1] at open_
  exact nomatch open_

/-- What a reader has yielded is a prefix of the buffer, wherever it is. -/
theorem ReaderSound.yielded_prefix {mux : Multiplexer χ ε} {number : Nat} {reader : Reader χ ε}
    (sound : ReaderSound mux number reader) : reader.yielded <+: mux.chunks := by
  unfold ReaderSound at sound
  split at sound
  · rw [sound.1]
    exact List.nil_prefix
  · rw [sound.1]
    exact List.take_prefix _ _
  · rw [sound.1]
    exact List.take_prefix _ _
  · rw [sound.1]
    exact List.take_prefix _ _
  · exact sound.1
  · exact sound.1

/-- The body under the lock keeps the invariant. -/
theorem Sound.enter {mux : Multiplexer χ ε} (sound : Sound mux) {number : Nat}
    {reader : Reader χ ε} (found : mux.readers[number]? = some reader)
    (looping : reader.phase = .looping) (free : mux.holder = none) :
    Sound (mux.enter number reader) := by
  have here := sound.readers number reader found
  have awake : reader.phase ≠ .suspended := by
    rw [looping]
    exact nofun
  unfold ReaderSound at here
  rw [looping] at here
  obtain ⟨yielded, inside, registered⟩ := here
  unfold Multiplexer.enter
  cases there : mux.chunks[reader.idx]? with
  | some chunk =>
    have bound := (List.getElem?_eq_some_iff.mp there).1
    refine sound.replace found ⟨?_, bound, registered, rfl⟩ ?_ ?_
    · show reader.yielded ++ [chunk] = mux.chunks.take (reader.idx + 1)
      rw [List.take_add_one, ← yielded, there]
      rfl
    · intro other _ held
      rw [free] at held
      exact nomatch held
    · intro other held
      exact .inl ⟨(Option.some.inj held).symm, rfl⟩
  | none =>
    have all : reader.idx = mux.chunks.length := by
      apply Nat.le_antisymm inside
      exact List.getElem?_eq_none_iff.mp there
    have whole : reader.yielded = mux.chunks := by
      rw [yielded, all, List.take_length]
    dsimp only
    cases done : mux.done with
    | true =>
      cases flag : mux.error with
      | none =>
        refine sound.setReader found ⟨?_, done, flag, whole⟩ awake
        exact whole ▸ List.prefix_rfl
      | some error =>
        refine sound.setReader found ⟨?_, done, flag, whole⟩ awake
        exact whole ▸ List.prefix_rfl
    | false =>
      refine sound.setReader found ⟨yielded, inside, registered, ?_⟩ awake
      intro _
      exact ⟨all, sound.producer.running done⟩

/-- **Every step of a reader keeps the invariant.** -/
theorem Sound.iterate {mux next : Multiplexer χ ε} (sound : Sound mux) {number : Nat}
    {reader : Reader χ ε} {action : MultiplexerAction χ ε}
    (found : mux.readers[number]? = some reader)
    (moved : mux.Iterates number reader action next) : Sound next := by
  have here := sound.readers number reader found
  have begun := here.yielded_prefix
  unfold ReaderSound at here
  cases moved with
  | register phase =>
    rw [phase] at here
    refine sound.setReader found ⟨?_, ?_, rfl⟩ (by rw [phase]; exact nofun)
    · show reader.yielded = mux.chunks.take reader.idx
      rw [here.1, here.2, List.take_zero]
    · show reader.idx ≤ mux.chunks.length
      rw [here.2]
      exact Nat.zero_le _
  | enter phase free => exact sound.enter found phase free
  | resume phase =>
    rw [phase] at here
    exact sound.release found ⟨here.1, here.2.1, here.2.2.1⟩ nofun phase
  | wake phase =>
    rw [phase] at here
    exact sound.setReader found ⟨here.1, here.2.1, here.2.2.1⟩ (by rw [phase]; exact nofun)
  | closeEarly phase => exact sound.setReader found ⟨begun, trivial⟩ (by rw [phase]; exact nofun)
  | closeAwake phase =>
    refine sound.setReader found ⟨begun, trivial⟩ ?_
    rcases phase with phase | phase <;> (rw [phase]; exact nofun)
  | closeSuspended phase => exact sound.release found ⟨begun, trivial⟩ nofun phase
  | closeLate phase => exact sound.setReader found ⟨begun, trivial⟩ (by rw [phase]; exact nofun)
  | leave phase =>
    rw [phase] at here
    exact sound.setReader found here (by rw [phase]; exact nofun)

theorem getElem?_concat {α : Type} {list : List α} {last element : α} {number : Nat}
    (found : (list ++ [last])[number]? = some element) :
    list[number]? = some element ∨ number = list.length ∧ element = last := by
  rw [List.getElem?_append] at found
  split_ifs at found with inside
  · exact .inl found
  · have bound := (List.getElem?_eq_some_iff.mp found).1
    rw [List.length_singleton] at bound
    exact .inr ⟨by omega, List.mem_singleton.mp (List.mem_of_getElem? found)⟩

/-- A new reader. -/
theorem Sound.join {mux : Multiplexer χ ε} (sound : Sound mux) :
    Sound { mux with readers := mux.readers ++ [{}] } := by
  refine ⟨sound.producer, ?_, ?_⟩
  · intro number reader found
    rcases getElem?_concat found with old | ⟨-, rfl⟩
    · exact sound.readers number reader old
    · exact ⟨rfl, rfl⟩
  · intro number held
    obtain ⟨reader, found, suspended⟩ := sound.holder number held
    have inside := (List.getElem?_eq_some_iff.mp found).1
    refine ⟨reader, ?_, suspended⟩
    exact (List.getElem?_append_left inside).trans found

/-! ### The steps of the producer -/

/-- What is known of a reader stays true when the producer moves, if the flags of a stream that is
done do not change and a reader that waits with nothing new to read is told. -/
theorem ReaderSound.advance {mux later : Multiplexer χ ε} {number : Nat} {reader : Reader χ ε}
    {event : Bool} (sound : ReaderSound mux number reader) (grown : mux.chunks <+: later.chunks)
    (held : later.holder = mux.holder)
    (settled : mux.done = true →
      later.done = true ∧ later.error = mux.error ∧ later.chunks = mux.chunks)
    (told : reader.registered = true → event = false →
      reader.event = false ∧ later.chunks = mux.chunks ∧ later.producer ≠ .finished) :
    ReaderSound later number { reader with event := event } := by
  have longer := grown.length_le
  have same : ∀ {count}, count ≤ mux.chunks.length →
      mux.chunks.take count = later.chunks.take count := by
    intro count inside
    obtain ⟨more, split⟩ := grown
    rw [← split, List.take_append_of_le_length inside]
  have outcomes : ∀ outcome : ReaderOutcome ε, outcome.Sound mux reader.yielded →
      outcome.Sound later reader.yielded := by
    rintro (_ | error | _) before
    · obtain ⟨done, error, whole⟩ := settled before.1
      exact ⟨done, error.trans before.2.1, before.2.2.trans whole.symm⟩
    · obtain ⟨done, error, whole⟩ := settled before.1
      exact ⟨done, error.trans before.2.1, before.2.2.trans whole.symm⟩
    · trivial
  unfold ReaderSound at *
  cases phase : reader.phase with
  | registering =>
    rw [phase] at sound
    exact sound
  | looping =>
    rw [phase] at sound
    obtain ⟨yielded, inside, registered⟩ := sound
    exact ⟨yielded.trans (same inside), Nat.le_trans inside longer, registered⟩
  | suspended =>
    rw [phase] at sound
    obtain ⟨yielded, inside, registered, holds⟩ := sound
    exact ⟨yielded.trans (same inside), Nat.lt_of_lt_of_le inside longer, registered, held.trans holds⟩
  | waiting =>
    rw [phase] at sound
    obtain ⟨yielded, inside, registered, asleep⟩ := sound
    refine ⟨yielded.trans (same inside), Nat.le_trans inside longer, registered, ?_⟩
    intro unset
    obtain ⟨before, equal, running⟩ := told registered unset
    obtain ⟨all, -⟩ := asleep before
    exact ⟨by rw [equal, all], running⟩
  | leaving outcome =>
    rw [phase] at sound
    exact ⟨sound.1.trans grown, outcomes outcome sound.2⟩
  | gone outcome =>
    rw [phase] at sound
    exact ⟨sound.1.trans grown, outcomes outcome sound.2⟩

/-- The producer moves without a word to the readers, before its stream is done. -/
theorem Sound.advance {mux later : Multiplexer χ ε} (sound : Sound mux)
    (open_ : mux.done = false) (readers : later.readers = mux.readers)
    (chunks : later.chunks = mux.chunks) (held : later.holder = mux.holder)
    (running : later.producer ≠ .finished) (producer : ProducerSound later) : Sound later := by
  refine ⟨producer, ?_, ?_⟩
  · intro number reader found
    rw [readers] at found
    refine (sound.readers number reader found).advance (chunks ▸ List.prefix_rfl) held ?_ ?_
    · intro done
      rw [open_] at done
      exact nomatch done
    · intro _ unset
      exact ⟨unset, chunks, running⟩
  · intro number holds
    rw [held] at holds
    rw [readers]
    exact sound.holder number holds

/-- The producer moves and notifies the readers. -/
theorem Sound.notify {mux later : Multiplexer χ ε} (sound : Sound mux)
    (readers : later.readers = mux.notify.readers) (grown : mux.chunks <+: later.chunks)
    (held : later.holder = mux.holder)
    (settled : mux.done = true →
      later.done = true ∧ later.error = mux.error ∧ later.chunks = mux.chunks)
    (producer : ProducerSound later) : Sound later := by
  refine ⟨producer, ?_, ?_⟩
  · intro number reader found
    rw [readers, Multiplexer.notify, List.getElem?_map, Option.map_eq_some_iff] at found
    obtain ⟨before, there, rfl⟩ := found
    refine (sound.readers number before there).advance grown held settled ?_
    intro registered unset
    rw [registered, Bool.or_true] at unset
    exact nomatch unset
  · intro number holds
    rw [held] at holds
    obtain ⟨reader, there, suspended⟩ := sound.holder number holds
    refine ⟨{ reader with event := reader.event || reader.registered }, ?_, suspended⟩
    rw [readers, Multiplexer.notify, List.getElem?_map, there]
    rfl

/-- **Every step of the producer keeps the invariant.** -/
theorem Sound.produce {mux next : Multiplexer χ ε} (sound : Sound mux)
    {action : MultiplexerAction χ ε} (moved : mux.Produces action next) : Sound next := by
  have flags := sound.producer
  unfold ProducerSound at flags
  cases moved with
  | receive here =>
    rw [here] at flags
    exact sound.advance flags.1 rfl rfl rfl nofun flags
  | append here =>
    rw [here] at flags
    refine sound.notify rfl (List.prefix_append _ _) rfl ?_ flags
    intro done
    rw [flags.1] at done
    exact nomatch done
  | complete here | abort here =>
    rw [here] at flags
    refine sound.advance flags.1 rfl rfl rfl nofun ⟨rfl, rfl, ?_⟩
    show mux.error.isSome = true ↔ _
    rw [flags.2.1]
    exact ⟨nofun, nofun⟩
  | fail here =>
    rw [here] at flags
    exact sound.advance flags.1 rfl rfl rfl nofun ⟨flags.1, rfl, rfl⟩
  | notifyError here =>
    rw [here] at flags
    refine sound.notify rfl List.prefix_rfl rfl ?_ ⟨rfl, ?_, ?_⟩
    · intro done
      rw [flags.1] at done
      exact nomatch done
    · show mux.ending.isSome = true
      rw [flags.2.2]
      rfl
    · exact ⟨fun _ => flags.2.2, fun _ => flags.2.1⟩
  | notifyDone here =>
    rw [here] at flags
    exact sound.notify rfl List.prefix_rfl rfl (fun _ => ⟨flags.1, rfl, rfl⟩) flags

theorem sound_of_step {mux next : Multiplexer χ ε} {action : MultiplexerAction χ ε}
    (sound : Sound mux) (stepped : mux.step action = some next) : Sound next := by
  cases Multiplexer.effect_of_step stepped with
  | join => exact sound.join
  | iterate found moved => exact sound.iterate found moved
  | produce moved => exact sound.produce moved

/-- **The invariant holds in every reachable state.** -/
theorem sound_of_reachable {guard : Multiplexer χ ε → MultiplexerAction χ ε → Prop}
    {mux : Multiplexer χ ε} (reached : (multiplexerMachine χ ε).Reachable guard mux) :
    Sound mux := by
  apply reached.invariant
  · rintro mux rfl
    exact ⟨⟨rfl, rfl, rfl⟩, nofun, nofun⟩
  · intro mux action next sound _ stepped
    exact sound_of_step sound stepped

end ClaudeProxy

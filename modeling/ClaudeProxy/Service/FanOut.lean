/-
**What the readers of a multiplexer see, and whom they keep waiting.**

* `Past` — the buffer and the flags hold what the stream gave in the run so far.
* `Reader.turnsLeft` — how many steps a reader still takes behind the end of the stream; `turns_of_run` —
  each of its own steps is one of them, and no step of another party is.
* **`readers_see_every_chunk`** — every reader yields the chunks of the stream in order, ends as the
  stream did and after all of its chunks; none of them sleeps through the end, and one that is given its
  turns reaches it.
* `nextStep` — what a party does next; `BlocksNobody` — while a reader is at its `yield`, everybody
  else can take the next step.
* **`yields_block_nobody_iff`** — a run blocks nobody throughout exactly when a reader takes the lock
  to yield only while no other party is about to take it, and nothing but its own resumption happens
  while it is at its `yield`.
-/

import ClaudeProxy.Service.Multiplexer

namespace ClaudeProxy

variable {χ ε : Type}

/-! ### The stream of a run -/

/-- The chunk that the stream gives. -/
def MultiplexerAction.received : MultiplexerAction χ ε → Option χ
  | .receive chunk => some chunk
  | _ => none

/-- Only these actions move the stream. -/
def MultiplexerAction.MovesStream : MultiplexerAction χ ε → Prop
  | .receive _ | .complete | .fail _ | .abort => True
  | _ => False

/-- The buffer and the flags hold what the stream gave in the run so far. -/
structure Past (actions : List (MultiplexerAction χ ε)) (mux : Multiplexer χ ε) : Prop where
  produced : mux.produced = actions.filterMap MultiplexerAction.received
  error : ∀ error, mux.error = some error ↔ .fail error ∈ actions
  completed : mux.ending = some .completes ↔ .complete ∈ actions
  aborted : mux.ending = some .aborts ↔ .abort ∈ actions

/-- A step that leaves the stream alone. -/
theorem Past.frame {past : List (MultiplexerAction χ ε)} {mux next : Multiplexer χ ε}
    (known : Past past mux) {action : MultiplexerAction χ ε} (still : ¬ action.MovesStream)
    (produced : next.produced = mux.produced) (error : next.error = mux.error)
    (ending : next.ending = mux.ending) : Past (past ++ [action]) next := by
  have other : ∀ moved : MultiplexerAction χ ε, moved.MovesStream →
      (moved ∈ past ++ [action] ↔ moved ∈ past) := by
    intro moved moves
    rw [List.mem_append, List.mem_singleton]
    refine or_iff_left ?_
    rintro rfl
    exact still moves
  refine ⟨?_, ?_, ?_, ?_⟩
  · have nothing : action.received = none := by
      cases action <;> first | rfl | exact absurd trivial still
    rw [produced, known.produced, List.filterMap_append, List.filterMap_cons_none nothing,
      List.filterMap_nil, List.append_nil]
  · intro raised
    rw [error, known.error raised, other (.fail raised) trivial]
  · rw [ending, known.completed, other .complete trivial]
  · rw [ending, known.aborted, other .abort trivial]

/-- The body under the lock leaves the stream alone. -/
theorem Multiplexer.enter_stream (mux : Multiplexer χ ε) (number : Nat) (reader : Reader χ ε) :
    (mux.enter number reader).chunks = mux.chunks ∧
      (mux.enter number reader).producer = mux.producer ∧
      (mux.enter number reader).error = mux.error ∧
      (mux.enter number reader).ending = mux.ending := by
  unfold Multiplexer.enter
  split
  · exact ⟨rfl, rfl, rfl, rfl⟩
  · split_ifs
    · split <;> exact ⟨rfl, rfl, rfl, rfl⟩
    · exact ⟨rfl, rfl, rfl, rfl⟩

/-- So does every step of a reader. -/
theorem Multiplexer.Iterates.stream {mux next : Multiplexer χ ε} {action : MultiplexerAction χ ε}
    {number : Nat} {reader : Reader χ ε} (moved : mux.Iterates number reader action next) :
    next.chunks = mux.chunks ∧ next.producer = mux.producer ∧ next.error = mux.error ∧
      next.ending = mux.ending := by
  cases moved with
  | enter => exact mux.enter_stream number reader
  | _ => exact ⟨rfl, rfl, rfl, rfl⟩

/-- A reader does not move the stream. -/
theorem Multiplexer.Iterates.still {mux next : Multiplexer χ ε} {action : MultiplexerAction χ ε}
    {number : Nat} {reader : Reader χ ε} (moved : mux.Iterates number reader action next) :
    ¬ action.MovesStream := by
  cases moved <;> exact id

theorem Multiplexer.produced_of_stream {mux next : Multiplexer χ ε}
    (chunks : next.chunks = mux.chunks) (producer : next.producer = mux.producer) :
    next.produced = mux.produced := by
  unfold Multiplexer.produced
  rw [chunks, producer]

/-- Before its stream has ended, neither an error nor an ending is known. -/
theorem Past.moves {past : List (MultiplexerAction χ ε)} {mux next : Multiplexer χ ε}
    (known : Past past mux) (error : mux.error = none) (ending : mux.ending = none)
    {action : MultiplexerAction χ ε}
    (produced : next.produced = mux.produced ++ action.received.toList)
    (raised : ∀ error, next.error = some error ↔ .fail error = action)
    (completed : next.ending = some .completes ↔ .complete = action)
    (aborted : next.ending = some .aborts ↔ .abort = action) : Past (past ++ [action]) next := by
  have noError : ∀ error, .fail error ∉ past := by
    intro raised member
    have known := (known.error raised).mpr member
    rw [error] at known
    exact nomatch known
  have noCompletion : .complete ∉ past := by
    intro member
    have known := known.completed.mpr member
    rw [ending] at known
    exact nomatch known
  have noAbort : .abort ∉ past := by
    intro member
    have known := known.aborted.mpr member
    rw [ending] at known
    exact nomatch known
  refine ⟨?_, ?_, ?_, ?_⟩
  · rw [produced, known.produced, List.filterMap_append]
    cases action <;> rfl
  · intro error
    rw [raised error, List.mem_append, List.mem_singleton, or_iff_right (noError error)]
  · rw [completed, List.mem_append, List.mem_singleton, or_iff_right noCompletion]
  · rw [aborted, List.mem_append, List.mem_singleton, or_iff_right noAbort]

/-- Nothing is known of a stream that has not ended, and this step does not end it so. -/
theorem unknown_iff {α : Type} {known : Option α} (nothing : known = none) (value : α) {ends : Prop}
    (not : ¬ends) : known = some value ↔ ends := by
  rw [nothing]
  exact iff_of_false (Option.some_ne_none value).symm not

theorem Past.produce {past : List (MultiplexerAction χ ε)} {mux next : Multiplexer χ ε}
    {action : MultiplexerAction χ ε} (known : Past past mux) (sound : Sound mux)
    (moved : mux.Produces action next) : Past (past ++ [action]) next := by
  have flags := sound.producer
  unfold ProducerSound at flags
  cases moved with
  | receive here =>
    rw [here] at flags
    refine known.moves flags.2.1 flags.2.2 ?_ (fun error => unknown_iff flags.2.1 error ?_)
      (unknown_iff flags.2.2 _ ?_) (unknown_iff flags.2.2 _ ?_)
    · rw [Multiplexer.produced_of_producer here]
      rfl
    all_goals rintro ⟨⟩
  | complete here =>
    rw [here] at flags
    refine known.moves flags.2.1 flags.2.2 ?_ (fun error => unknown_iff flags.2.1 error ?_)
      ⟨fun _ => rfl, fun _ => rfl⟩ (iff_of_false ?_ ?_)
    · rw [Multiplexer.produced_of_producer here]
      exact (List.append_nil _).symm
    all_goals rintro ⟨⟩
  | fail here =>
    rw [here] at flags
    refine known.moves flags.2.1 flags.2.2 ?_ ?_ (iff_of_false ?_ ?_) (iff_of_false ?_ ?_)
    · rw [Multiplexer.produced_of_producer here]
      exact (List.append_nil _).symm
    · intro error
      constructor
      · rintro ⟨⟩
        rfl
      · rintro ⟨⟩
        rfl
    all_goals rintro ⟨⟩
  | abort here =>
    rw [here] at flags
    refine known.moves flags.2.1 flags.2.2 ?_ (fun error => unknown_iff flags.2.1 error ?_)
      (iff_of_false ?_ ?_) ⟨fun _ => rfl, fun _ => rfl⟩
    · rw [Multiplexer.produced_of_producer here]
      exact (List.append_nil _).symm
    all_goals rintro ⟨⟩
  | append here | notifyError here | notifyDone here =>
    exact known.frame id (Multiplexer.produced_of_producer here).symm rfl rfl

theorem past_of_step {past : List (MultiplexerAction χ ε)} {mux next : Multiplexer χ ε}
    {action : MultiplexerAction χ ε} (known : Past past mux) (sound : Sound mux)
    (stepped : mux.step action = some next) : Past (past ++ [action]) next := by
  cases Multiplexer.effect_of_step stepped with
  | join => exact known.frame id rfl rfl rfl
  | iterate _ moved =>
    obtain ⟨chunks, producer, error, ending⟩ := moved.stream
    exact known.frame moved.still (Multiplexer.produced_of_stream chunks producer) error ending
  | produce moved => exact known.produce sound moved

/-- **The buffer and the flags hold what the stream gave**, after every run. -/
theorem past_of_run {actions : List (MultiplexerAction χ ε)} {mux : Multiplexer χ ε}
    (ran : (multiplexerMachine χ ε).run {} actions = some mux) : Past actions mux := by
  refine Machine.history ?_ ?_ actions ran
  · exact ⟨rfl, fun _ => ⟨nofun, nofun⟩, ⟨nofun, nofun⟩, ⟨nofun, nofun⟩⟩
  · intro past state action next before known stepped
    exact past_of_step known
      (sound_of_reachable (Machine.reachable_of_run_unguarded past rfl before)) stepped

/-! ### What the readers see -/

/-- What a reader does next; a reader at `event.wait()` does nothing before its event is set. -/
def Reader.nextStep (number : Nat) (reader : Reader χ ε) : Option (MultiplexerAction χ ε) :=
  match reader.phase with
  | .registering => some (.register number)
  | .looping => some (.enter number)
  | .suspended => some (.resume number)
  | .waiting => if reader.event then some (.wake number) else none
  | .leaving _ => some (.leave number)
  | .gone _ => none

/-- What `_consume` does next; at its stream it waits for the provider. -/
def Producer.nextStep : Producer χ → Option (MultiplexerAction χ ε)
  | .streaming | .finished => none
  | .appending _ => some .append
  | .failing => some .notifyError
  | .closing => some .notifyDone

/-- A reader's next step can be taken when nobody else has the lock. -/
theorem Reader.nextStep_enabled {mux : Multiplexer χ ε} {number : Nat} {reader : Reader χ ε}
    {action : MultiplexerAction χ ε} (found : mux.readers[number]? = some reader)
    (chosen : reader.nextStep number = some action)
    (free : mux.holder = none ∨ mux.holder = some number ∧ reader.phase = .suspended) :
    (mux.step action).isSome = true := by
  unfold Reader.nextStep at chosen
  have open_ : reader.phase ≠ .suspended → mux.holder = none := by
    intro awake
    exact free.resolve_right fun held => awake held.2
  cases phase : reader.phase with
  | waiting =>
    rw [phase] at chosen
    dsimp only at chosen
    split_ifs at chosen with set
    obtain rfl := Option.some.inj chosen
    show (mux.readers[number]?.bind (mux.read (.wake number) number)).isSome = true
    rw [found, Option.bind_some]
    unfold Multiplexer.read
    rw [phase]
    dsimp only
    rw [if_pos set]
    rfl
  | gone =>
    rw [phase] at chosen
    exact nomatch chosen
  | suspended =>
    rw [phase] at chosen
    obtain rfl := Option.some.inj chosen
    show (mux.readers[number]?.bind (mux.read (.resume number) number)).isSome = true
    rw [found, Option.bind_some]
    unfold Multiplexer.read
    rw [phase]
    rfl
  | registering | looping | leaving =>
    rw [phase] at chosen
    obtain rfl := Option.some.inj chosen
    have none_ := open_ (by rw [phase]; exact nofun)
    unfold Multiplexer.step
    dsimp only
    rw [found, Option.bind_some]
    unfold Multiplexer.read
    rw [phase, none_]
    rfl

theorem Multiplexer.chunks_prefix (mux : Multiplexer χ ε) : mux.chunks <+: mux.produced := by
  unfold Multiplexer.produced
  split
  · exact List.prefix_append _ _
  · exact List.prefix_rfl

/-- When the stream is done, its chunks are in the buffer, and it failed or completed. -/
theorem Sound.settled {mux : Multiplexer χ ε} (sound : Sound mux) (done : mux.done = true) :
    mux.produced = mux.chunks ∧ ∃ ending, mux.ending = some ending ∧
      (mux.error.isSome = true ↔ ending = .fails) := by
  have flags := sound.producer
  unfold ProducerSound at flags
  unfold Multiplexer.produced
  cases producer : mux.producer with
  | closing | finished =>
    rw [producer] at flags
    obtain ⟨-, ended, raised⟩ := flags
    obtain ⟨ending, known⟩ := Option.isSome_iff_exists.mp ended
    rw [known] at raised
    exact ⟨rfl, ending, known, raised.trans Option.some_inj⟩
  | streaming | appending | failing =>
    rw [producer] at flags
    rw [flags.1] at done
    exact nomatch done

/-- What an outcome says of the run. -/
theorem ReaderOutcome.Sound.of_run {actions : List (MultiplexerAction χ ε)} {mux : Multiplexer χ ε}
    {yielded : List χ} (known : Past actions mux) (sound : ClaudeProxy.Sound mux)
    (lives : .abort ∉ actions) {outcome : ReaderOutcome ε} (here : outcome.Sound mux yielded) :
    match outcome with
    | .ended => .complete ∈ actions ∧ (∀ error, .fail error ∉ actions) ∧
        yielded = actions.filterMap MultiplexerAction.received
    | .raised error => .fail error ∈ actions ∧
        yielded = actions.filterMap MultiplexerAction.received
    | .closed => True := by
  cases outcome with
  | ended =>
    obtain ⟨done, noError, whole⟩ := here
    obtain ⟨all, ending, ended, raised⟩ := sound.settled done
    have silent : ∀ error, .fail error ∉ actions := by
      intro error member
      rw [(known.error error).mpr member] at noError
      exact nomatch noError
    refine ⟨?_, silent, ?_⟩
    · cases ending with
      | completes => exact known.completed.mp ended
      | aborts => exact absurd (known.aborted.mp ended) lives
      | fails =>
        rw [noError] at raised
        exact absurd (raised.mpr rfl) nofun
    · rw [whole, ← all, known.produced]
  | raised error =>
    obtain ⟨done, raised, whole⟩ := here
    obtain ⟨all, -⟩ := sound.settled done
    exact ⟨(known.error error).mp raised, by rw [whole, ← all, known.produced]⟩
  | closed => trivial

/-- When the producer is through, no reader sleeps. -/
theorem Sound.awake {mux : Multiplexer χ ε} (sound : Sound mux) (through : mux.producer = .finished)
    {number : Nat} {reader : Reader χ ε} (found : mux.readers[number]? = some reader) :
    (∃ outcome, reader.phase = .gone outcome) ∨ ∃ action, reader.nextStep number = some action := by
  have here := sound.readers number reader found
  unfold ReaderSound at here
  unfold Reader.nextStep
  cases phase : reader.phase with
  | gone outcome => exact .inl ⟨outcome, rfl⟩
  | waiting =>
    rw [phase] at here
    cases event : reader.event with
    | false => exact absurd through (here.2.2.2 event).2
    | true => exact .inr ⟨.wake number, rfl⟩
  | registering | looping | suspended | leaving => exact .inr ⟨_, rfl⟩

/-! ### The turns of a reader -/

/-- The steps that a reader still takes behind the end of a stream of so many chunks. -/
def Reader.turnsLeft (reader : Reader χ ε) (chunks : Nat) : Nat :=
  match reader.phase with
  | .registering | .waiting => 2 * (chunks - reader.idx) + 3
  | .looping => 2 * (chunks - reader.idx) + 2
  | .suspended => 2 * (chunks - reader.idx) + 1
  | .leaving _ => 1
  | .gone _ => 0

/-- It is a step of that reader, and not its closing. -/
def MultiplexerAction.isTurn (number : Nat) : MultiplexerAction χ ε → Bool
  | .register other | .enter other | .resume other | .wake other | .leave other => other = number
  | _ => false

/-- The steps that a reader takes. -/
def turns (number : Nat) (actions : List (MultiplexerAction χ ε)) : Nat :=
  actions.countP (·.isTurn number)

/-- Another reader's step leaves a reader alone. -/
theorem Multiplexer.Iterates.elsewhere {mux next : Multiplexer χ ε} {action : MultiplexerAction χ ε}
    {number other : Nat} {neighbour : Reader χ ε} (apart : number ≠ other)
    (moved : mux.Iterates other neighbour action next) :
    next.readers[number]? = mux.readers[number]? ∧ action.isTurn number = false := by
  have still : ∀ reader, (mux.setReader other reader).readers[number]? = mux.readers[number]? := by
    intro reader
    rw [getElem?_setReader, if_neg apart]
  have untaken : ∀ taken, (decide (taken = number)) = false ↔ taken ≠ number := by simp
  cases moved with
  | enter =>
    refine ⟨?_, (untaken other).mpr apart.symm⟩
    unfold Multiplexer.enter
    split
    · exact still _
    · split_ifs
      · split <;> exact still _
      · exact still _
  | register | resume | wake | leave => exact ⟨still _, (untaken other).mpr apart.symm⟩
  | closeEarly | closeAwake | closeSuspended | closeLate => exact ⟨still _, rfl⟩

/-- **A reader's own step** is one of its turns. -/
theorem Multiplexer.Iterates.turn {mux next : Multiplexer χ ε} {action : MultiplexerAction χ ε}
    {number : Nat} {reader : Reader χ ε} (sound : Sound mux) (done : mux.done = true)
    (found : mux.readers[number]? = some reader) (open_ : action ≠ .close number)
    (moved : mux.Iterates number reader action next) : action.isTurn number = true ∧
      ∃ new, next.readers[number]? = some new ∧
        new.turnsLeft mux.chunks.length + 1 = reader.turnsLeft mux.chunks.length := by
  have here := sound.readers number reader found
  have replaced : ∀ new, (mux.setReader number new).readers[number]? = some new := by
    intro new
    rw [getElem?_setReader, if_pos rfl, found]
    rfl
  have mine : decide (number = number) = true := decide_eq_true rfl
  unfold ReaderSound at here
  unfold Reader.turnsLeft
  cases moved with
  | register phase =>
    rw [phase]
    exact ⟨mine, _, replaced _, rfl⟩
  | enter phase =>
    rw [phase] at here ⊢
    refine ⟨mine, ?_⟩
    unfold Multiplexer.enter
    cases there : mux.chunks[reader.idx]? with
    | some chunk => exact ⟨_, replaced _, rfl⟩
    | none =>
      have all : mux.chunks.length - reader.idx = 0 :=
        Nat.sub_eq_zero_of_le (List.getElem?_eq_none_iff.mp there)
      dsimp only
      rw [if_pos done, all]
      cases mux.error <;> exact ⟨_, replaced _, rfl⟩
  | resume phase =>
    rw [phase] at here ⊢
    refine ⟨mine, _, replaced _, ?_⟩
    obtain ⟨-, inside, -⟩ := here
    dsimp only
    omega
  | wake phase =>
    rw [phase]
    exact ⟨mine, _, replaced _, rfl⟩
  | leave phase =>
    rw [phase]
    exact ⟨mine, _, replaced _, rfl⟩
  | closeEarly | closeAwake | closeSuspended | closeLate => exact absurd rfl open_

/-- Behind the end of the stream, a reader's turns are its own steps. -/
theorem turns_of_step {mux next : Multiplexer χ ε} {action : MultiplexerAction χ ε} (sound : Sound mux)
    (through : mux.producer = .finished) {number : Nat} {reader : Reader χ ε}
    (found : mux.readers[number]? = some reader) (open_ : action ≠ .close number)
    (stepped : mux.step action = some next) :
    next.producer = .finished ∧ next.chunks = mux.chunks ∧ ∃ new, next.readers[number]? = some new ∧
      new.turnsLeft mux.chunks.length + (if action.isTurn number then 1 else 0) =
        reader.turnsLeft mux.chunks.length := by
  have done : mux.done = true := by
    have flags := sound.producer
    unfold ProducerSound at flags
    rw [through] at flags
    exact flags.1
  cases Multiplexer.effect_of_step stepped with
  | join =>
    have inside := (List.getElem?_eq_some_iff.mp found).1
    exact ⟨through, rfl, reader, (List.getElem?_append_left inside).trans found, rfl⟩
  | produce moved =>
    cases moved with
    | receive here | append here | complete here | fail here | abort here | notifyError here
    | notifyDone here =>
      rw [through] at here
      cases here
  | @iterate other neighbour _ _ there moved =>
    obtain ⟨chunks, producer, -⟩ := moved.stream
    refine ⟨producer.trans through, chunks, ?_⟩
    by_cases same : number = other
    · subst same
      rw [found] at there
      obtain rfl := Option.some.inj there
      obtain ⟨mine, new, replaced, fewer⟩ := moved.turn sound done found open_
      rw [if_pos mine]
      exact ⟨new, replaced, fewer⟩
    · obtain ⟨still, untaken⟩ := moved.elsewhere same
      rw [untaken]
      exact ⟨reader, still.trans found, rfl⟩

/-- **The turns of a reader** over any continuation. -/
theorem turns_of_run {mux last : Multiplexer χ ε} {later : List (MultiplexerAction χ ε)}
    (sound : Sound mux) (through : mux.producer = .finished) {number : Nat} {reader : Reader χ ε}
    (found : mux.readers[number]? = some reader) (open_ : .close number ∉ later)
    (ran : (multiplexerMachine χ ε).run mux later = some last) :
    last.chunks = mux.chunks ∧ Sound last ∧ ∃ new, last.readers[number]? = some new ∧
      new.turnsLeft mux.chunks.length + turns number later = reader.turnsLeft mux.chunks.length := by
  induction later generalizing mux reader with
  | nil =>
    obtain rfl := Option.some.inj ran
    exact ⟨rfl, sound, reader, found, rfl⟩
  | cons action rest ih =>
    rw [Machine.run, List.foldlM_cons, Option.bind_eq_bind, Option.bind_eq_some_iff] at ran
    obtain ⟨next, stepped, ran⟩ := ran
    rw [List.mem_cons, not_or] at open_
    obtain ⟨throughNext, chunks, middle, foundNext, turn⟩ :=
      turns_of_step sound through found (Ne.symm open_.1) stepped
    obtain ⟨all, soundLast, new, there, later⟩ :=
      ih (sound_of_step sound stepped) throughNext foundNext open_.2 ran
    rw [chunks] at all later
    refine ⟨all, soundLast, new, there, ?_⟩
    rw [turns, List.countP_cons]
    unfold turns at later
    omega

/-- A reader that nobody closes is never closed. -/
theorem open_of_run {actions : List (MultiplexerAction χ ε)} {mux : Multiplexer χ ε}
    (ran : (multiplexerMachine χ ε).run {} actions = some mux) {number : Nat} {reader : Reader χ ε}
    (found : mux.readers[number]? = some reader) (open_ : .close number ∉ actions) :
    reader.phase ≠ .leaving .closed ∧ reader.phase ≠ .gone .closed := by
  suffices all : ∀ number (reader : Reader χ ε), mux.readers[number]? = some reader →
      .close number ∉ actions → reader.phase ≠ .leaving .closed ∧ reader.phase ≠ .gone .closed from
    all number reader found open_
  refine @Machine.history _ _ (multiplexerMachine χ ε)
    (fun past mux => ∀ number (reader : Reader χ ε), mux.readers[number]? = some reader →
      .close number ∉ past → reader.phase ≠ .leaving .closed ∧ reader.phase ≠ .gone .closed) {}
    (fun _ _ found => nomatch found) ?_ actions mux ran
  · intro past mux action next _ before stepped number reader found open_
    rw [List.mem_append, not_or, List.mem_singleton] at open_
    cases Multiplexer.effect_of_step stepped with
    | join =>
      rcases getElem?_concat found with old | ⟨-, rfl⟩
      · exact before number reader old open_.1
      · exact ⟨nofun, nofun⟩
    | produce moved =>
      have same : ∃ old, mux.readers[number]? = some old ∧ old.phase = reader.phase := by
        cases moved with
        | append | notifyError | notifyDone =>
          change (mux.notify.readers)[number]? = some reader at found
          rw [Multiplexer.notify, List.getElem?_map, Option.map_eq_some_iff] at found
          obtain ⟨old, there, rfl⟩ := found
          exact ⟨old, there, rfl⟩
        | receive | complete | fail | abort => exact ⟨reader, found, rfl⟩
      obtain ⟨old, there, phase⟩ := same
      rw [← phase]
      exact before number old there open_.1
    | @iterate other neighbour _ _ there moved =>
      by_cases same : number = other
      · subst same
        have old := before number neighbour there open_.1
        have replaced : ∀ new, (mux.setReader number new).readers[number]? = some reader →
            reader = new := by
          intro new is
          rw [getElem?_setReader, if_pos rfl, there] at is
          exact (Option.some.inj is).symm
        cases moved with
        | register | resume | wake =>
          simp [replaced _ found]
        | enter =>
          unfold Multiplexer.enter at found
          split at found
          · simp [replaced _ found]
          · split_ifs at found
            · split at found <;> simp [replaced _ found]
            · simp [replaced _ found]
        | leave phase =>
          rw [replaced _ found]
          refine ⟨by simp, fun gone => old.1 ?_⟩
          rw [phase, ReaderPhase.gone.inj gone]
        | closeEarly | closeAwake | closeSuspended | closeLate => exact absurd rfl open_.2
      · rw [(moved.elsewhere same).1] at found
        exact before number reader found open_.1

/-- A reader that has had its turns behind the end of the stream is through, with all chunks. -/
theorem reaches_end {actions later : List (MultiplexerAction χ ε)} {mux last : Multiplexer χ ε}
    (ran : (multiplexerMachine χ ε).run {} actions = some mux) (through : mux.producer = .finished)
    {number : Nat} {reader : Reader χ ε} (found : mux.readers[number]? = some reader)
    (goesOn : (multiplexerMachine χ ε).run mux later = some last)
    (open_ : .close number ∉ actions ++ later)
    (given : reader.turnsLeft mux.chunks.length ≤ turns number later) :
    ∃ new, last.readers[number]? = some new ∧
      (new.phase = .gone .ended ∨ ∃ error, new.phase = .gone (.raised error)) ∧
      new.yielded = actions.filterMap MultiplexerAction.received := by
  have sound : Sound mux := sound_of_reachable (Machine.reachable_of_run_unguarded actions rfl ran)
  obtain ⟨chunks, soundLast, new, there, left⟩ := turns_of_run sound through found
    (fun member => open_ (List.mem_append_right _ member)) goesOn
  have none_ : new.turnsLeft mux.chunks.length = 0 := by omega
  have whole : (multiplexerMachine χ ε).run {} (actions ++ later) = some last := by
    rw [Machine.run, List.foldlM_append]
    change ((multiplexerMachine χ ε).run {} actions).bind _ = _
    rw [ran]
    exact goesOn
  have opened := open_of_run whole there open_
  have produced : mux.chunks = actions.filterMap MultiplexerAction.received := by
    rw [← (past_of_run ran).produced, Multiplexer.produced, through]
  have here := soundLast.readers number new there
  refine ⟨new, there, ?_⟩
  unfold ReaderSound at here
  unfold Reader.turnsLeft at none_
  cases phase : new.phase with
  | gone outcome =>
    rw [phase] at here opened
    cases outcome with
    | ended =>
      obtain ⟨-, -, -, all⟩ := here
      exact ⟨.inl rfl, all.trans (chunks.trans produced)⟩
    | raised error =>
      obtain ⟨-, -, -, all⟩ := here
      exact ⟨.inr ⟨error, rfl⟩, all.trans (chunks.trans produced)⟩
    | closed => exact absurd rfl opened.2
  | registering | waiting | looping | suspended | leaving =>
    rw [phase] at none_
    exact absurd none_ (by dsimp only; omega)

/-- **Every reader sees every chunk**: what it yields are the chunks of the stream in order from the
first one; it ends normally behind all of them when the stream completed, and raises the stream's
error behind all of them exactly when the stream failed. When the producer is through, every reader
that is not has a next step, which it can take as soon as nobody else has the lock; and one that is never
closed has ended with all chunks as soon as it has been given its turns, whatever else happens. -/
theorem readers_see_every_chunk {actions : List (MultiplexerAction χ ε)} {mux : Multiplexer χ ε}
    (ran : (multiplexerMachine χ ε).run {} actions = some mux) (lives : .abort ∉ actions)
    {number : Nat} {reader : Reader χ ε} (found : mux.readers[number]? = some reader) :
    reader.yielded <+: actions.filterMap MultiplexerAction.received ∧
    (reader.phase = .gone .ended → .complete ∈ actions ∧
      reader.yielded = actions.filterMap MultiplexerAction.received) ∧
    (∀ error, reader.phase = .gone (.raised error) → .fail error ∈ actions ∧
      reader.yielded = actions.filterMap MultiplexerAction.received) ∧
    (∀ outcome, reader.phase = .gone outcome → outcome ≠ .closed →
      ((∃ error, outcome = .raised error) ↔ ∃ error, .fail error ∈ actions)) ∧
    (mux.producer = .finished → (∃ outcome, reader.phase = .gone outcome) ∨
      ∃ action, reader.nextStep number = some action ∧
        (mux.holder = none ∨ mux.holder = some number ∧ reader.phase = .suspended →
          (mux.step action).isSome = true)) ∧
    (mux.producer = .finished → ∀ later last, (multiplexerMachine χ ε).run mux later = some last →
      .close number ∉ actions ++ later → reader.turnsLeft mux.chunks.length ≤ turns number later →
      ∃ new, last.readers[number]? = some new ∧
        (new.phase = .gone .ended ∨ ∃ error, new.phase = .gone (.raised error)) ∧
        new.yielded = actions.filterMap MultiplexerAction.received) := by
  have known := past_of_run ran
  have sound : Sound mux := sound_of_reachable (Machine.reachable_of_run_unguarded actions rfl ran)
  have here := sound.readers number reader found
  have outcomes : ∀ outcome, reader.phase = .gone outcome → outcome.Sound mux reader.yielded := by
    intro outcome phase
    unfold ReaderSound at here
    rw [phase] at here
    exact here.2
  refine ⟨?_, ?_, ?_, ?_, ?_, ?_⟩
  · rw [← known.produced]
    exact here.yielded_prefix.trans mux.chunks_prefix
  · intro phase
    obtain ⟨completed, -, whole⟩ := (outcomes .ended phase).of_run known sound lives
    exact ⟨completed, whole⟩
  · intro error phase
    exact (outcomes (.raised error) phase).of_run known sound lives
  · intro outcome phase open_
    have said := (outcomes outcome phase).of_run known sound lives
    cases outcome with
    | ended =>
      refine iff_of_false nofun ?_
      rintro ⟨error, member⟩
      exact said.2.1 error member
    | raised error => exact iff_of_true ⟨error, rfl⟩ ⟨error, said.1⟩
    | closed => exact absurd rfl open_
  · intro through
    refine (sound.awake through found).imp_right ?_
    rintro ⟨action, chosen⟩
    exact ⟨action, chosen, reader.nextStep_enabled found chosen⟩
  · intro through later last goesOn open_ given
    exact reaches_end ran through found goesOn open_ given

/-- A reader takes the first of two chunks of a failing stream; another one joins before the second. -/
def failingRun : List (MultiplexerAction String String) :=
  [.join, .register 0, .receive "a", .append, .enter 0, .join, .resume 0, .register 1, .receive "b",
    .append, .fail "reset", .enter 0, .resume 0, .notifyError, .notifyDone]

/-- Then the two take turns. -/
def lateTurns : List (MultiplexerAction String String) :=
  [.enter 1, .resume 1, .enter 0, .enter 1, .resume 1, .leave 0, .enter 1, .leave 1]

/-- The one that came late reads both chunks, and raises the error behind them. -/
theorem lateReader_sees_both :
    ∃ mux last reader, (multiplexerMachine String String).run {} failingRun = some mux ∧
      (multiplexerMachine String String).run mux lateTurns = some last ∧
      last.readers[1]? = some reader ∧ reader.phase = .gone (.raised "reset") ∧
      reader.yielded = ["a", "b"] := by
  obtain ⟨mux, late, last, ran, found, turnsOn, goesOn⟩ : ∃ mux late last,
      (multiplexerMachine String String).run {} failingRun = some mux ∧
      mux.readers[1]? = some late ∧ late.turnsLeft mux.chunks.length ≤ turns 1 lateTurns ∧
      (multiplexerMachine String String).run mux lateTurns = some last :=
    ⟨_, _, _, rfl, rfl, by decide, rfl⟩
  have through : mux.producer = .finished := by
    cases ran
    rfl
  obtain ⟨-, -, -, -, -, ends⟩ := readers_see_every_chunk ran (by simp [failingRun]) found
  obtain ⟨new, there, -, whole⟩ := ends through lateTurns last goesOn
    (by simp [failingRun, lateTurns]) turnsOn
  refine ⟨mux, last, new, ran, goesOn, there, ?_, whole⟩
  cases ran
  cases goesOn
  cases there
  rfl

/-! ### Whom the readers keep waiting -/

/-- **While a reader is at its `yield`, everybody else can take the next step.** -/
def BlocksNobody (mux : Multiplexer χ ε) : Prop :=
  ∀ number (reader : Reader χ ε), mux.readers[number]? = some reader → reader.phase = .suspended →
    (∀ action, mux.producer.nextStep = some action → (mux.step action).isSome = true) ∧
    ∀ other (neighbour : Reader χ ε), other ≠ number → mux.readers[other]? = some neighbour →
      ∀ action, neighbour.nextStep other = some action → (mux.step action).isSome = true

/-- The producer is not about to take the lock. -/
def Producer.Away : Producer χ → Prop
  | .streaming | .finished => True
  | .appending _ | .failing | .closing => False

/-- The reader is not about to take the lock. -/
def Reader.Away (reader : Reader χ ε) : Prop :=
  match reader.phase with
  | .waiting | .gone _ => True
  | _ => False

/-- Nobody but one reader is about to take the lock. -/
def Quiet (mux : Multiplexer χ ε) (number : Nat) : Prop :=
  mux.producer.Away ∧
    ∀ other reader, other ≠ number → mux.readers[other]? = some reader → reader.Away

/-- A reader takes the lock to yield only while nobody else is about to take it, and while it is at its
`yield` nothing happens before it is resumed or closed. -/
def Considerate (mux : Multiplexer χ ε) (action : MultiplexerAction χ ε) : Prop :=
  match mux.holder with
  | some number => action = .resume number ∨ action = .close number
  | none => ∀ number reader, action = .enter number → mux.readers[number]? = some reader →
      reader.phase = .looping → reader.idx < mux.chunks.length → Quiet mux number

/-- The producer can take its next step behind a suspended reader exactly when that step does not take
the lock. -/
theorem Multiplexer.produce_enabled_iff {mux : Multiplexer χ ε} {number : Nat}
    (held : mux.holder = some number) :
    (∀ action, mux.producer.nextStep = some action → (mux.step action).isSome = true) ↔
      mux.producer.Away := by
  cases producer : mux.producer with
  | streaming | finished => exact iff_of_true nofun trivial
  | appending chunk =>
    refine iff_of_false ?_ id
    intro enabled
    have open_ : (mux.produce .append).isSome = true := enabled .append rfl
    unfold Multiplexer.produce at open_
    rw [producer, held] at open_
    exact nomatch open_
  | failing =>
    refine iff_of_false ?_ id
    intro enabled
    have open_ : (mux.produce .notifyError).isSome = true := enabled .notifyError rfl
    unfold Multiplexer.produce at open_
    rw [producer, held] at open_
    exact nomatch open_
  | closing =>
    refine iff_of_false ?_ id
    intro enabled
    have open_ : (mux.produce .notifyDone).isSome = true := enabled .notifyDone rfl
    unfold Multiplexer.produce at open_
    rw [producer, held] at open_
    exact nomatch open_

/-- So can another reader. -/
theorem Multiplexer.read_enabled_iff {mux : Multiplexer χ ε} (sound : Sound mux) {number : Nat}
    (held : mux.holder = some number) {other : Nat} (apart : other ≠ number) {reader : Reader χ ε}
    (found : mux.readers[other]? = some reader) :
    (∀ action, reader.nextStep other = some action → (mux.step action).isSome = true) ↔
      reader.Away := by
  unfold Reader.Away
  cases phase : reader.phase with
  | waiting =>
    refine iff_of_true ?_ trivial
    intro action chosen
    have shape := chosen
    unfold Reader.nextStep at shape
    rw [phase] at shape
    dsimp only at shape
    split_ifs at shape with event
    obtain rfl := Option.some.inj shape
    show (mux.readers[other]?.bind (mux.read (.wake other) other)).isSome = true
    rw [found, Option.bind_some]
    unfold Multiplexer.read
    rw [phase]
    dsimp only
    rw [if_pos event]
    rfl
  | gone outcome =>
    refine iff_of_true ?_ trivial
    intro action chosen
    unfold Reader.nextStep at chosen
    rw [phase] at chosen
    exact nomatch chosen
  | suspended =>
    have taken := sound.holder_of_suspended found phase
    rw [held] at taken
    exact absurd (Option.some.inj taken).symm apart
  | registering | looping | leaving =>
    refine iff_of_false ?_ id
    intro enabled
    have open_ := enabled _ (by unfold Reader.nextStep; rw [phase])
    unfold Multiplexer.step at open_
    dsimp only at open_
    rw [found, Option.bind_some] at open_
    unfold Multiplexer.read at open_
    rw [phase, held] at open_
    exact nomatch open_

/-- **A state blocks nobody** exactly when nobody is about to take the lock that a reader holds. -/
theorem blocksNobody_iff {mux : Multiplexer χ ε} (sound : Sound mux) :
    BlocksNobody mux ↔ ∀ number, mux.holder = some number → Quiet mux number := by
  constructor
  · intro blocks number held
    obtain ⟨reader, found, suspended⟩ := sound.holder number held
    obtain ⟨producer, readers⟩ := blocks number reader found suspended
    refine ⟨(Multiplexer.produce_enabled_iff held).mp producer, ?_⟩
    intro other neighbour apart there
    exact (Multiplexer.read_enabled_iff sound held apart there).mp
      (readers other neighbour apart there)
  · intro quiet number reader found suspended
    have held := sound.holder_of_suspended found suspended
    obtain ⟨producer, readers⟩ := quiet number held
    refine ⟨(Multiplexer.produce_enabled_iff held).mpr producer, ?_⟩
    intro other neighbour apart there
    exact (Multiplexer.read_enabled_iff sound held apart there).mpr
      (readers other neighbour apart there)

/-- Where the lock is free, only a reader that finds a chunk takes it and keeps it. -/
theorem Multiplexer.step_of_free {mux next : Multiplexer χ ε} {action : MultiplexerAction χ ε}
    (free : mux.holder = none) (stepped : mux.step action = some next) :
    (next.holder = none ∧ ∀ number reader, action = .enter number →
      mux.readers[number]? = some reader → reader.phase = .looping →
      ¬ reader.idx < mux.chunks.length) ∨
    ∃ number reader new, action = .enter number ∧ mux.readers[number]? = some reader ∧
      reader.phase = .looping ∧ reader.idx < mux.chunks.length ∧
      next = { mux.setReader number new with holder := some number } := by
  cases Multiplexer.effect_of_step stepped with
  | join => exact .inl ⟨free, nofun⟩
  | produce moved => exact .inl ⟨by cases moved <;> exact free, by cases moved <;> exact nofun⟩
  | @iterate number reader _ _ found moved =>
    cases moved with
    | enter looping =>
      unfold Multiplexer.enter
      cases there : mux.chunks[reader.idx]? with
      | some chunk =>
        right
        exact ⟨number, reader, _, rfl, found, looping, (List.getElem?_eq_some_iff.mp there).1, rfl⟩
      | none =>
        left
        refine ⟨?_, ?_⟩
        · dsimp only
          split_ifs
          · split <;> exact free
          · exact free
        · rintro other known ⟨⟩ same - inside
          rw [found] at same
          obtain rfl := Option.some.inj same
          have outside := List.getElem?_eq_none_iff.mp there
          omega
    | resume | closeSuspended => exact .inl ⟨rfl, nofun⟩
    | _ => exact .inl ⟨free, nofun⟩

/-- A reader that has just started is about to take the lock. -/
theorem quiet_join_false {mux : Multiplexer χ ε} {number : Nat}
    (inside : number < mux.readers.length) :
    ¬ Quiet { mux with readers := mux.readers ++ [{}] } number := by
  intro quiet
  have there : (mux.readers ++ [({} : Reader χ ε)])[mux.readers.length]? = some {} :=
    List.getElem?_concat_length
  exact quiet.2 mux.readers.length {} (by omega) there

/-- Nor is it quiet when another reader moves on to the lock. -/
theorem quiet_setReader_false {mux : Multiplexer χ ε} {number other : Nat}
    {old new : Reader χ ε} (apart : other ≠ number) (found : mux.readers[other]? = some old)
    (near : ¬ new.Away) : ¬ Quiet (mux.setReader other new) number := by
  intro quiet
  apply near
  apply quiet.2 other new apart
  rw [getElem?_setReader, if_pos rfl, found]
  rfl

/-- **Behind a suspended reader** that keeps nobody waiting, every step but its own ends the quiet. -/
theorem Multiplexer.step_of_held {mux next : Multiplexer χ ε} {action : MultiplexerAction χ ε}
    (sound : Sound mux) {number : Nat} (held : mux.holder = some number) (quiet : Quiet mux number)
    (stepped : mux.step action = some next) :
    (next.holder = none ∧ (action = .resume number ∨ action = .close number)) ∨
    (next.holder = some number ∧ ¬ Quiet next number ∧
      ¬ (action = .resume number ∨ action = .close number)) := by
  obtain ⟨holder, there, suspended⟩ := sound.holder number held
  have own : ∀ other (reader : Reader χ ε), mux.readers[other]? = some reader →
      reader.phase = .suspended → other = number := by
    intro other reader found asleep
    have taken := sound.holder_of_suspended found asleep
    rw [held] at taken
    exact (Option.some.inj taken).symm
  have elsewhere : ∀ other (reader : Reader χ ε), mux.readers[other]? = some reader →
      reader.phase ≠ .suspended → other ≠ number := by
    rintro other reader found awake rfl
    rw [there] at found
    obtain rfl := Option.some.inj found
    exact awake suspended
  cases Multiplexer.effect_of_step stepped with
  | join =>
    have inside := (List.getElem?_eq_some_iff.mp there).1
    exact .inr ⟨held, quiet_join_false inside, by rintro (equal | equal) <;> exact nomatch equal⟩
  | produce moved =>
    cases moved with
    | append _ free | notifyError _ free | notifyDone _ free =>
      rw [held] at free
      exact nomatch free
    | _ =>
      exact .inr ⟨held, fun later => later.1, by rintro (equal | equal) <;> exact nomatch equal⟩
  | @iterate other reader _ _ found moved =>
    cases moved with
    | resume asleep =>
      obtain rfl := own other reader found asleep
      exact .inl ⟨rfl, .inl rfl⟩
    | closeSuspended asleep =>
      obtain rfl := own other reader found asleep
      exact .inl ⟨rfl, .inr rfl⟩
    | wake waiting =>
      have apart := elsewhere other reader found (by rw [waiting]; exact nofun)
      refine .inr ⟨held, quiet_setReader_false apart found id, ?_⟩
      rintro (equal | equal) <;> exact nomatch equal
    | closeAwake phase =>
      have awake : reader.phase ≠ .suspended := by
        rcases phase with phase | phase <;> (rw [phase]; exact nofun)
      have apart := elsewhere other reader found awake
      refine .inr ⟨held, quiet_setReader_false apart found id, ?_⟩
      rintro (equal | equal)
      · exact nomatch equal
      · exact apart (MultiplexerAction.close.inj equal)
    | closeEarly phase | closeLate phase =>
      have awake : reader.phase ≠ .suspended := by
        rw [phase]
        exact nofun
      have away := quiet.2 other reader (elsewhere other reader found awake) found
      unfold Reader.Away at away
      rw [phase] at away
      exact away.elim
    | register _ free | enter _ free | leave _ free =>
      rw [held] at free
      exact nomatch free

/-- Where nobody is kept waiting, a step keeps it so exactly when it is considerate. -/
theorem blocksNobody_of_step_iff {mux next : Multiplexer χ ε} {action : MultiplexerAction χ ε}
    (sound : Sound mux) (blocks : BlocksNobody mux) (stepped : mux.step action = some next) :
    BlocksNobody next ↔ Considerate mux action := by
  rw [blocksNobody_iff (sound_of_step sound stepped)]
  unfold Considerate
  cases held : mux.holder with
  | some number =>
    have quiet := (blocksNobody_iff sound).mp blocks number held
    rcases Multiplexer.step_of_held sound held quiet stepped with
      ⟨free, own⟩ | ⟨taken, loud, other⟩
    · refine iff_of_true ?_ own
      intro later taken
      rw [free] at taken
      exact nomatch taken
    · refine iff_of_false ?_ other
      intro all
      exact loud (all number taken)
  | none =>
    rcases Multiplexer.step_of_free held stepped with
      ⟨free, nothing⟩ | ⟨number, reader, new, rfl, found, looping, inside, rfl⟩
    · refine iff_of_true ?_ ?_
      · intro later taken
        rw [free] at taken
        exact nomatch taken
      · intro number reader enters found looping inside
        exact absurd inside (nothing number reader enters found looping)
    · have same : Quiet { mux.setReader number new with holder := some number } number ↔
          Quiet mux number := by
        refine and_congr_right fun _ => ?_
        refine forall_congr' fun other => forall_congr' fun neighbour => ?_
        refine imp_congr_right fun apart => ?_
        show ((mux.setReader number new).readers[other]? = some neighbour → _) ↔ _
        rw [getElem?_setReader, if_neg apart]
      constructor
      · rintro all other known ⟨⟩ - - -
        exact same.mp (all number rfl)
      · intro considerate other taken
        obtain rfl := Option.some.inj taken
        exact same.mpr (considerate number reader rfl found looping inside)

/-- **A run blocks nobody throughout** exactly when all its steps are considerate. -/
theorem yields_block_nobody_iff {actions : List (MultiplexerAction χ ε)} {mux : Multiplexer χ ε}
    (ran : (multiplexerMachine χ ε).run {} actions = some mux) :
    (multiplexerMachine χ ε).Throughout {} actions BlocksNobody ↔
      (multiplexerMachine χ ε).Obeys {} actions Considerate := by
  have exactly := @Machine.throughout_iff_obeys _ _ (multiplexerMachine χ ε) Sound BlocksNobody
    Considerate {} ⟨⟨⟨rfl, rfl, rfl⟩, nofun, nofun⟩, nofun⟩
    (fun _ _ _ sound stepped => sound_of_step sound stepped)
    (fun _ _ _ sound blocks stepped => blocksNobody_of_step_iff sound blocks stepped)
  exact (exactly actions ran).2

/-- Of two readers the second is alone at the lock while the first one waits. -/
theorem Quiet.last {mux : Multiplexer χ ε} {first last : Reader χ ε}
    (producer : mux.producer.Away) (readers : mux.readers = [first, last])
    (asleep : first.phase = .waiting) : Quiet mux 1 := by
  refine ⟨producer, ?_⟩
  intro other reader apart found
  rw [readers] at found
  rcases other with _ | _ | other
  · obtain rfl := Option.some.inj found
    rw [Reader.Away, asleep]
    trivial
  · exact absurd rfl apart
  · exact nomatch found

/-- So is the first while the second one waits. -/
theorem Quiet.first {mux : Multiplexer χ ε} {first last : Reader χ ε}
    (producer : mux.producer.Away) (readers : mux.readers = [first, last])
    (asleep : last.phase = .waiting) : Quiet mux 0 := by
  refine ⟨producer, ?_⟩
  intro other reader apart found
  rw [readers] at found
  rcases other with _ | _ | other
  · exact absurd rfl apart
  · obtain rfl := Option.some.inj found
    rw [Reader.Away, asleep]
    trivial
  · exact nomatch found

/-- A reader that has seen every chunk does not yield. -/
theorem Considerate.of_seen {mux : Multiplexer χ ε} {number : Nat} {reader : Reader χ ε}
    (free : mux.holder = none) (found : mux.readers[number]? = some reader)
    (seen : ¬ reader.idx < mux.chunks.length) : Considerate mux (.enter number) := by
  unfold Considerate
  rw [free]
  rintro other neighbour ⟨⟩ known - inside
  rw [found] at known
  obtain rfl := Option.some.inj known
  exact absurd inside seen

/-- A reader that takes the lock while it is quiet may yield. -/
theorem Considerate.of_quiet {mux : Multiplexer χ ε} {number : Nat} (free : mux.holder = none)
    (quiet : Quiet mux number) : Considerate mux (.enter number) := by
  unfold Considerate
  rw [free]
  rintro other reader ⟨⟩ - - -
  exact quiet

/-- The first reader waits for the second chunk while the second reader reads both, and then reads it
itself. -/
def inTurns : List (MultiplexerAction String String) :=
  [.receive "a", .append, .join, .register 0, .enter 0, .resume 0, .enter 0, .join, .register 1,
    .enter 1, .resume 1, .receive "b", .append, .enter 1, .resume 1, .enter 1, .wake 0, .enter 0,
    .resume 0]

/-- Two readers that take the lock only while the other one waits block nobody. -/
theorem inTurns_blocks_nobody :
    (multiplexerMachine String String).Throughout {} inTurns BlocksNobody := by
  obtain ⟨mux, ran⟩ : ∃ mux, (multiplexerMachine String String).run {} inTurns = some mux :=
    ⟨_, rfl⟩
  refine (yields_block_nobody_iff ran).mpr ?_
  unfold inTurns
  -- the first reader yields the first chunk alone, and then waits
  iterate 4 refine Machine.obeys_cons rfl nofun ?_
  refine Machine.obeys_cons rfl (.of_quiet rfl ⟨trivial, ?_⟩) ?_
  · rintro (_ | other) reader apart found
    · exact absurd rfl apart
    · exact nomatch found
  refine Machine.obeys_cons rfl (.inl rfl) ?_
  refine Machine.obeys_cons rfl (.of_seen rfl rfl (by decide)) ?_
  -- the second reader yields both while the first one waits
  iterate 2 refine Machine.obeys_cons rfl nofun ?_
  refine Machine.obeys_cons rfl (.of_quiet rfl (.last trivial rfl rfl)) ?_
  refine Machine.obeys_cons rfl (.inl rfl) ?_
  iterate 2 refine Machine.obeys_cons rfl nofun ?_
  refine Machine.obeys_cons rfl (.of_quiet rfl (.last trivial rfl rfl)) ?_
  refine Machine.obeys_cons rfl (.inl rfl) ?_
  refine Machine.obeys_cons rfl (.of_seen rfl rfl (by decide)) ?_
  -- the first reader wakes and yields the second chunk while the second one waits
  refine Machine.obeys_cons rfl nofun ?_
  refine Machine.obeys_cons rfl (.of_quiet rfl (.first trivial rfl rfl)) ?_
  exact Machine.obeys_cons rfl (.inl rfl) Machine.obeys_nil

/-- **A slow reader stops the stream**: it is at its `yield` with the first chunk, and the producer
cannot append the second. -/
theorem slowReader_blocks_producer :
    ∃ mux : Multiplexer String String, (multiplexerMachine String String).run {}
      [.receive "a", .append, .join, .register 0, .enter 0, .receive "b"] = some mux ∧
      mux.producer = .appending "b" ∧ mux.step .append = none ∧ ¬ BlocksNobody mux := by
  refine ⟨_, rfl, rfl, rfl, ?_⟩
  intro blocks
  have enabled := (blocks 0 _ rfl rfl).1 .append rfl
  exact absurd enabled (by decide)

end ClaudeProxy

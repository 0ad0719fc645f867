import OpenAirplay2.Lib.History
import OpenAirplay2.Player.Records

/-!
# The backpressure counter

A `play` call adds its samples to the counter before it sends the packet.
The thread subtracts them in two places: where it pops the packet for
writing, and where the filter of a flush discards it.  In between the packet
is in a call, in the channel, or with the thread, and nowhere else, so the
counter is the number of samples found there.
-/

namespace OpenAirplay2.Player

open OpenAirplay2.Lib.Transition

/-- The samples of some packets. -/
def samples (packets : List Packet) : Nat :=
  (packets.map fun packet => packet.pcm.length).sum

@[simp]
theorem samples_nil : samples [] = 0 :=
  rfl

@[simp]
theorem samples_cons (packet : Packet) (rest : List Packet) :
    samples (packet :: rest) = packet.pcm.length + samples rest := by
  simp [samples]

@[simp]
theorem samples_append (left right : List Packet) :
    samples (left ++ right) = samples left + samples right := by
  simp [samples]

theorem samples_perm
    {left right : List Packet}
    (same : List.Perm left right) :
    samples left = samples right :=
  (same.map _).sum_eq

namespace State

variable (state : State)

/-- The packets an act adds to the counter. -/
def adds : Act → List Packet
  | .play seq timestamp pcm => [⟨state.plays, seq, timestamp, pcm⟩]
  | _ => []

/-- The packets an act subtracts: popped for writing, or discarded. -/
def subtracts : Act → List Packet
  | .thread =>
      match state.pc, state.held with
      | .retain _ flush _, packet :: _ =>
          if keeps flush packet then [] else [packet]
      | .deliver, packet :: _ => [packet]
      | _, _ => []
  | _ => []

/-- The packets in flight to the channel, in the channel, or held. -/
def unfinished : List Packet :=
  state.inFlight ++ state.waiting

end State

/-- A thread that has returned does not start again. -/
theorem running_step
    {state next : State} {act : Act}
    (stepped : step state act = some next)
    (running : next.pc ≠ .done) :
    state.pc ≠ .done := by
  intro ended
  rcases step_cases stepped with ⟨rfl, threadStep⟩ | callStep
  · have stuck : state.thread = none := by
      rw [State.thread, ended]
    rw [step, stuck] at stepped
    cases stepped
  · cases callStep <;> exact running ended

/-- The thread passes its packets on, or subtracts them. -/
theorem waiting_perm_thread
    {state next : State}
    (threadStep : ThreadStep state next)
    (running : next.pc ≠ .done) :
    List.Perm state.waiting (state.subtracts .thread ++ next.waiting) := by
  cases threadStep with
  | stopSeen command position stopped => exact (running rfl).elim
  | swapStop paused position => exact (running rfl).elim
  | drainStop paused flush rest position queued => exact (running rfl).elim
  | haltSeen packet unwritten position stopped => exact (running rfl).elim
  | swapNone command paused position _ quiet =>
      rcases afterControl_cases paused with after | after <;>
        simp [State.waiting, State.subtracts, State.swapped, position, after]
  | retained paused flush kept position empty =>
      rcases afterControl_cases paused with after | after <;>
        simp [State.waiting, State.subtracts, position, empty, after]
  | keep paused flush kept packet rest position holds spared =>
      simp [State.waiting, State.subtracts, position, holds, spared]
  | discard paused flush kept packet rest position holds named =>
      -- The packet stands between the kept ones and the rest.
      simp only [State.waiting, State.subtracts, position, holds, named,
        Pc.kept, Pc.inHand, List.append_assoc, List.cons_append,
        Bool.false_eq_true, if_false, List.nil_append]
      exact List.perm_middle
  | pop packet rest position holds =>
      simp [State.waiting, State.subtracts, position, holds]
  | report packet interrupted position =>
      cases interrupted <;>
        simp [State.waiting, State.subtracts, position]
  | recv command rest position queued
  | drainPacket paused flush packet rest position queued
  | drainWake paused flush rest position queued =>
      simp [State.waiting, State.subtracts, position, queued,
        Command.packets]
  | _ => simp_all [State.waiting, State.subtracts, State.swapped]

/-- What an act adds is unfinished after it; what it subtracts was before. -/
theorem unfinished_balance
    {state next : State} {act : Act}
    (stepped : step state act = some next)
    (running : next.pc ≠ .done) :
    List.Perm
      (state.adds act ++ state.unfinished)
      (state.subtracts act ++ next.unfinished) := by
  have alive := running_step stepped running
  rcases step_cases stepped with ⟨rfl, threadStep⟩ | callStep
  · have inFlight : next.inFlight = state.inFlight := by
      rw [State.inFlight, (records_thread threadStep).2.1, State.inFlight]
    show List.Perm (state.inFlight ++ state.waiting)
      (state.subtracts .thread ++ (next.inFlight ++ next.waiting))
    rw [inFlight]
    exact
      ((waiting_perm_thread threadStep running).append_left _).trans
        (List.perm_append_comm_assoc _ _ _)
  · cases callStep with
    | play seq timestamp pcm =>
        simp only [State.adds, State.subtracts, State.unfinished,
          State.inFlight, State.waiting, State.play, List.flatMap_append,
          List.flatMap_cons, List.flatMap_nil, Call.command,
          Command.packets, List.append_assoc, List.nil_append,
          List.append_nil]
        exact List.perm_append_comm_assoc _ _ _
    | setPaused paused =>
        simp [State.adds, State.subtracts, State.unfinished,
          State.inFlight, State.waiting, State.setPaused, Call.command,
          Command.packets]
    | flush below =>
        simp [State.adds, State.subtracts, State.unfinished,
          State.inFlight, State.waiting, State.flush, Call.command,
          Command.packets]
    | drop =>
        simp [State.adds, State.subtracts, State.unfinished,
          State.inFlight, State.waiting, State.drop, Call.command,
          Command.packets]
    | send index call waiting =>
        -- The packet of the call moves to the end of the channel.
        have arrived :
            State.deliverTo state.pc state.channel call.command =
              state.channel ++ [call.command] := by
          rw [State.deliverTo, if_neg alive]
        simp only [State.adds, State.subtracts, State.unfinished,
          List.nil_append]
        refine
          ((inFlight_send_perm waiting).symm.append_right _).trans ?_
        rw [List.append_assoc]
        refine (List.perm_append_comm_assoc _ _ _).trans ?_
        refine List.Perm.append_left _ ?_
        refine List.perm_append_comm.trans ?_
        simp [State.waiting, arrived]

/-! ## The counter -/

/-- The counter is the number of unfinished samples, as a `usize`. -/
def State.Counted (state : State) : Prop :=
  state.pending = samples state.unfinished % 2 ^ 64

theorem counted_spawn : spawn.Counted :=
  rfl

theorem fetchAdd_mod (count amount : Nat) :
    fetchAdd (count % 2 ^ 64) amount = (amount + count) % 2 ^ 64 := by
  simp only [fetchAdd]
  omega

/-- Subtracting a part of what is counted does not wrap. -/
theorem fetchSub_mod (amount count : Nat) :
    fetchSub ((amount + count) % 2 ^ 64) amount = count % 2 ^ 64 := by
  simp only [fetchSub]
  omega

/-- The counter of a step of the thread. -/
theorem pending_thread
    {state next : State}
    (threadStep : ThreadStep state next) :
    (state.subtracts .thread = [] ∧ next.pending = state.pending) ∨
      ∃ packet,
        state.subtracts .thread = [packet] ∧
          next.pending = fetchSub state.pending packet.pcm.length := by
  cases threadStep with
  | discard paused flush kept packet rest position holds named =>
      right
      exact
        ⟨packet, by simp [State.subtracts, position, holds, named], rfl⟩
  | pop packet rest position holds =>
      right
      exact ⟨packet, by simp [State.subtracts, position, holds], rfl⟩
  | keep paused flush kept packet rest position holds spared =>
      left
      exact ⟨by simp [State.subtracts, position, holds, spared], rfl⟩
  | retained paused flush kept position empty =>
      exact Or.inl ⟨by simp [State.subtracts, position, empty], rfl⟩
  | delivered position empty =>
      exact Or.inl ⟨by simp [State.subtracts, position, empty], rfl⟩
  | _ => exact Or.inl ⟨by simp_all [State.subtracts], rfl⟩

theorem counted_step
    {state next : State} {act : Act}
    (counted : state.Counted)
    (stepped : step state act = some next)
    (running : next.pc ≠ .done) :
    next.Counted := by
  have balance := samples_perm (unfinished_balance stepped running)
  rw [samples_append, samples_append] at balance
  rw [State.Counted] at counted ⊢
  rcases step_cases stepped with ⟨rfl, threadStep⟩ | callStep
  · have nothing : state.adds .thread = [] := rfl
    rw [nothing, samples_nil, Nat.zero_add] at balance
    rcases pending_thread threadStep with
      ⟨unmoved, same⟩ | ⟨packet, taken, subtracted⟩
    · rw [same, counted, balance, unmoved, samples_nil, Nat.zero_add]
    · rw [subtracted, counted, balance, taken, samples_cons, samples_nil,
        Nat.add_zero, fetchSub_mod]
  · cases callStep with
    | play seq timestamp pcm =>
        simp only [State.adds, State.subtracts, samples_cons, samples_nil,
          Nat.add_zero, Nat.zero_add] at balance
        show fetchAdd state.pending pcm.length = _
        rw [counted, fetchAdd_mod, balance]
    | _ =>
        simp only [State.adds, State.subtracts, samples_nil,
          Nat.zero_add] at balance
        rw [← balance]
        exact counted

/-- What a step subtracts is unfinished before it. -/
theorem subtracts_subperm
    (state : State) (act : Act) :
    List.Subperm (state.subtracts act) state.unfinished := by
  have held : List.Sublist (state.held.take 1) state.unfinished := by
    rw [State.unfinished, State.waiting]
    exact
      ((List.take_sublist 1 state.held).trans
        ((List.sublist_append_right _ _).trans
          (List.sublist_append_left _ _))).trans
        (List.sublist_append_right _ _)
  unfold State.subtracts
  split
  · split
    · next holds =>
        split
        · exact List.nil_subperm
        · rw [holds] at held
          exact held.subperm
    · next holds =>
        rw [holds] at held
        exact held.subperm
    · exact List.nil_subperm
  · exact List.nil_subperm

theorem samples_subperm
    {left right : List Packet}
    (part : List.Subperm left right) :
    samples left ≤ samples right := by
  rcases part with ⟨arranged, same, sublist⟩
  rw [← samples_perm same]
  exact (sublist.map _).sum_le_sum (fun _ _ => Nat.zero_le _)

/--
The counter is exact.  While the thread runs, the packets added are those
subtracted and those unfinished, each once; the counter is the number of
samples of the latter.  As long as that number fits a `usize`, no step
subtracts more than the counter holds, and held audio is part of it.
-/
theorem pending_exact
    (schedule : List Act) (final : State)
    (reached : queue.exec spawn schedule = some final)
    (running : final.pc ≠ .done) :
    List.Perm
        (queue.collect State.adds spawn schedule)
        (queue.collect State.subtracts spawn schedule ++
          (final.inFlight ++ final.waiting)) ∧
      final.pending =
        samples (final.inFlight ++ final.waiting) % 2 ^ 64 ∧
      (samples (final.inFlight ++ final.waiting) < 2 ^ 64 →
        final.pending = samples (final.inFlight ++ final.waiting) ∧
          (∀ act, samples (final.subtracts act) ≤ final.pending) ∧
          samples (final.pc.kept ++ final.held) ≤ final.pending) ∧
      (final.inFlight ++ final.waiting = [] → final.pending = 0) := by
  have balance :=
    @System.collect_balance State Act Packet queue State.adds
      State.subtracts State.unfinished (fun state => state.pc ≠ .done)
      spawn final schedule
      (fun _ _ _ stepped alive => running_step stepped alive)
      (fun _ _ _ stepped alive => unfinished_balance stepped alive)
      reached running
  have counted : final.Counted := by
    have always :=
      System.invariant_of_reached
        (fun state => state.pc ≠ .done → state.Counted)
        (fun state act next counted stepped alive =>
          counted_step (counted (running_step stepped alive)) stepped
            alive)
        (fun _ => counted_spawn) reached
    exact always running
  refine ⟨?_, counted, ?_, ?_⟩
  · have nothing : spawn.unfinished = [] := rfl
    rw [nothing, List.append_nil] at balance
    exact balance
  · intro fits
    have exact : final.pending = samples final.unfinished :=
      counted.trans (Nat.mod_eq_of_lt fits)
    refine ⟨exact, ?_, ?_⟩
    · intro act
      rw [exact]
      exact samples_subperm (subtracts_subperm final act)
    · rw [exact, State.unfinished, State.waiting]
      simp only [samples_append]
      omega
  · intro empty
    rw [counted, State.unfinished, empty]
    rfl

/-- Two packets played, one of them popped. -/
theorem pending_exact_popped :
    ∃ final,
      queue.exec spawn
          ([.play 7 0 [1, 2], .play 8 0 [3], .send 0, .send 0] ++
            List.replicate 6 .thread) =
          some final ∧
        final.pending = samples (final.inFlight ++ final.waiting) := by
  refine ⟨_, rfl, ?_⟩
  exact
    ((pending_exact
      ([.play 7 0 [1, 2], .play 8 0 [3], .send 0, .send 0] ++
        List.replicate 6 .thread)
      _ rfl (by decide)).2.2.1 (by decide)).1

end OpenAirplay2.Player

import OpenAirplay2.Player.Accounts

/-!
# The records of the calls

A flush call leaves a record: what had been sent at its store, and how many
plays had started when it returned.  The records agree with the queue: every
packet has a number of its own, and only sent packets are anywhere in it.
-/

namespace OpenAirplay2.Player

open OpenAirplay2.Lib.Transition

namespace FlushCall

variable (flush : FlushCall) (packet : Packet)

/-- The call names the packet: its stamp is below the boundary, if any. -/
def names : Bool :=
  match flush.below with
  | none => true
  | some boundary => packet.seq < boundary

/-- The packet's `play` call started after the flush call had returned. -/
def returnedBefore : Bool :=
  match flush.returned with
  | none => false
  | some plays => plays ≤ packet.number

end FlushCall

/-- The filter discards what the call names. -/
theorem discards_of_names
    {flush : FlushCall} {packet : Packet}
    (names : flush.names packet = true) :
    keeps (encodeFlush flush.below) packet = false := by
  by_contra kept
  rw [Bool.not_eq_false, keeps_iff] at kept
  rcases kept with ⟨bounded, above⟩
  cases below : flush.below with
  | none => exact bounded (by simp [below, encodeFlush])
  | some boundary =>
      simp only [FlushCall.names, below, decide_eq_true_eq] at names
      simp only [below, encodeFlush, saturatingAdd, flushAll]
        at bounded above
      omega

/-- The packets whose `play` call is between its add and its send. -/
def State.inFlight (state : State) : List Packet :=
  state.calls.flatMap fun call => call.command.packets

/-- The records agree with the queue. -/
structure State.Recorded (state : State) : Prop where
  distinct : (state.sent ++ state.inFlight).Nodup
  numbered :
    ∀ packet ∈ state.sent ++ state.inFlight,
      packet.number < state.plays
  waiting : ∀ packet ∈ state.waiting, packet ∈ state.sent
  writing : ∀ packet ∈ state.pc.writing, packet ∈ state.sent
  discarded : ∀ entry ∈ state.discarded, entry.2 ∈ state.sent
  queued :
    ∀ flush ∈ state.flushes, ∀ packet ∈ flush.queued,
      packet ∈ state.sent
  consumed : state.consumed ≤ state.flushes.length

theorem recorded_spawn : spawn.Recorded where
  distinct := by simp [spawn, State.inFlight]
  numbered := by simp [spawn, State.inFlight]
  waiting := by simp [spawn, State.waiting]
  writing := by simp [spawn]
  discarded := by simp [spawn]
  queued := by simp [spawn]
  consumed := Nat.le_refl 0

/-- The thread only takes packets out of the queue, and in order. -/
theorem waiting_sublist_thread
    {state next : State}
    (threadStep : ThreadStep state next) :
    List.Sublist next.waiting state.waiting := by
  cases threadStep with
  | swapNone command paused position running quiet =>
      rcases afterControl_cases paused with after | after <;>
        simp [State.waiting, State.swapped, position, after]
  | retained paused flush kept position empty =>
      rcases afterControl_cases paused with after | after <;>
        simp [State.waiting, position, after, empty]
  | report packet interrupted position =>
      cases interrupted <;> simp [State.waiting, position]
  | recv command rest position queued
  | drainPacket paused flush packet rest position queued
  | drainWake paused flush rest position queued
  | drainStop paused flush rest position queued =>
      simp [State.waiting, position, queued, Command.packets]
  | stopSeen command position stopped =>
      simp [State.waiting, position]
  | swapStop paused position =>
      simp [State.waiting, State.swapped, position, Command.packets]
  | discard paused flush kept packet rest position holds named =>
      simp [State.waiting, position, holds]
  | pop packet rest position holds =>
      simp [State.waiting, position, holds]
  | _ => simp_all [State.waiting, State.swapped]

theorem waiting_thread
    {state next : State}
    (threadStep : ThreadStep state next) :
    next.waiting ⊆ state.waiting :=
  (waiting_sublist_thread threadStep).subset

/-- A packet being written was being written or waiting before. -/
theorem writing_thread
    {state next : State}
    (threadStep : ThreadStep state next) :
    ∀ packet ∈ next.pc.writing,
      packet ∈ state.pc.writing ∨
        (state.pc = .deliver ∧ packet ∈ state.waiting) := by
  intro packet writing
  cases threadStep with
  | pop popped rest position holds =>
      simp only [Pc.writing, List.mem_singleton] at writing
      right
      exact ⟨position, by simp [State.waiting, holds, writing]⟩
  | swapNone command paused position running quiet =>
      rcases afterControl_cases paused with after | after <;>
        simp [after] at writing
  | retained paused flush kept position empty =>
      rcases afterControl_cases paused with after | after <;>
        simp [after] at writing
  | report packet interrupted position =>
      cases interrupted <;> simp at writing
  | _ => simp_all

/-- A discarded packet was discarded before, or held for the filter. -/
theorem discarded_thread
    {state next : State}
    (threadStep : ThreadStep state next) :
    ∀ entry ∈ next.discarded,
      entry ∈ state.discarded ∨
        ∃ paused flush kept rest,
          state.pc = .retain paused flush kept ∧
            state.held = entry.2 :: rest ∧
              entry.1 = state.consumed - 1 ∧
                keeps flush entry.2 = false := by
  intro entry member
  cases threadStep with
  | discard paused flush kept packet rest position holds named =>
      rw [List.mem_append, List.mem_singleton] at member
      rcases member with old | new
      · exact Or.inl old
      · right
        rw [new]
        exact ⟨paused, flush, kept, rest, position, holds, rfl, named⟩
  | _ => exact Or.inl member

theorem recorded_thread
    {state next : State}
    (recorded : state.Recorded)
    (threadStep : ThreadStep state next) :
    next.Recorded := by
  rcases records_thread threadStep with ⟨sent, calls, plays, flushes⟩
  have inFlight : next.inFlight = state.inFlight := by
    rw [State.inFlight, calls, State.inFlight]
  constructor
  · rw [sent, inFlight]
    exact recorded.distinct
  · rw [sent, inFlight, plays]
    exact recorded.numbered
  · rw [sent]
    intro packet waits
    exact recorded.waiting packet (waiting_thread threadStep waits)
  · rw [sent]
    intro packet writing
    rcases writing_thread threadStep packet writing with old | ⟨-, waits⟩
    · exact recorded.writing packet old
    · exact recorded.waiting packet waits
  · rw [sent]
    intro entry member
    rcases discarded_thread threadStep entry member with
      old | ⟨paused, flush, kept, rest, position, holds, -, -⟩
    · exact recorded.discarded entry old
    · apply recorded.waiting
      simp [State.waiting, holds]
  · rw [sent, flushes]
    exact recorded.queued
  · rw [flushes]
    rcases consumed_thread threadStep with same | ⟨all, -⟩
    · rw [same]
      exact recorded.consumed
    · exact all.le

/-- What a call that returns changes in the records. -/
theorem returnFlush_getElem?
    (flushes : List FlushCall) (plays index : Nat) (call : Call) :
    (State.returnFlush flushes plays call)[index]? =
      flushes[index]?.map fun flush =>
        if call = .flush index then { flush with returned := some plays }
        else flush := by
  cases call with
  | flush own =>
      by_cases same : own = index
      · simp [State.returnFlush, same]
      · simp [State.returnFlush, same]
  | _ => simp [State.returnFlush]

/-- The records keep what was asked for and what was queued then. -/
theorem returnFlush_requests
    (flushes : List FlushCall) (plays : Nat) (call : Call) :
    (State.returnFlush flushes plays call).map
        (fun flush => (flush.below, flush.queued)) =
      flushes.map fun flush => (flush.below, flush.queued) := by
  apply List.ext_getElem?
  intro index
  simp only [List.getElem?_map, returnFlush_getElem?, Option.map_map]
  congr 1
  funext flush
  simp only [Function.comp_apply]
  split <;> rfl

/-- Every record goes back to one with the same request. -/
theorem request_of_mem
    {old new : List FlushCall}
    (same :
      new.map (fun flush => (flush.below, flush.queued)) =
        old.map fun flush => (flush.below, flush.queued))
    {flush : FlushCall} (member : flush ∈ new) :
    ∃ other ∈ old,
      flush.below = other.below ∧ flush.queued = other.queued := by
  have image :
      (flush.below, flush.queued) ∈
        old.map fun flush => (flush.below, flush.queued) := by
    rw [← same]
    exact List.mem_map_of_mem member
  rcases List.mem_map.mp image with ⟨other, otherMember, agree⟩
  rw [Prod.mk.injEq] at agree
  exact ⟨other, otherMember, agree.1.symm, agree.2.symm⟩

/-- A send takes the packets of its call out of flight. -/
theorem inFlight_send_perm
    {state : State} {index : Nat} {call : Call}
    (waiting : state.calls[index]? = some call) :
    List.Perm
      (call.command.packets ++
        (state.calls.eraseIdx index).flatMap
          fun call => call.command.packets)
      state.inFlight := by
  rcases List.getElem?_eq_some_iff.mp waiting with ⟨bound, here⟩
  have reordered :
      List.Perm (call :: state.calls.eraseIdx index) state.calls := by
    rw [← here]
    exact List.getElem_cons_eraseIdx_perm bound
  exact reordered.flatMap_right fun call => call.command.packets

/-- A send moves its packets from the calls to the sent ones. -/
theorem sent_inFlight_perm
    {state : State} {index : Nat} {call : Call}
    (waiting : state.calls[index]? = some call) :
    List.Perm
      ((state.sent ++ call.command.packets) ++
        (state.calls.eraseIdx index).flatMap
          fun call => call.command.packets)
      (state.sent ++ state.inFlight) := by
  rw [List.append_assoc]
  exact (inFlight_send_perm waiting).append_left state.sent

/-- A send adds its packets to the queue, if the thread still runs. -/
theorem waiting_send
    (state : State) (index : Nat) (call : Call) (packet : Packet)
    (waits :
      packet ∈
        { state with
          channel :=
            State.deliverTo state.pc state.channel call.command
          calls := state.calls.eraseIdx index
          sent := state.sent ++ call.command.packets
          flushes :=
            State.returnFlush state.flushes state.plays call }.waiting) :
    packet ∈ state.waiting ∨ packet ∈ call.command.packets := by
  by_cases ended : state.pc = .done
  · left
    simpa [State.waiting, State.deliverTo, ended] using waits
  · rw [← List.mem_append]
    simpa [State.waiting, State.deliverTo, ended] using waits

theorem recorded_call
    {state next : State} {act : Act}
    (recorded : state.Recorded)
    (callStep : CallStep state act next) :
    next.Recorded := by
  rcases recorded with
    ⟨distinct, numbered, waiting, writing, discarded, queued, consumed⟩
  cases callStep with
  | setPaused paused =>
      have inFlight : (state.setPaused paused).inFlight = state.inFlight := by
        simp [State.inFlight, State.setPaused, Call.command,
          Command.packets]
      exact
        ⟨by rw [inFlight]; exact distinct, by rw [inFlight]; exact numbered,
          waiting, writing, discarded, queued, consumed⟩
  | drop =>
      have inFlight : state.drop.inFlight = state.inFlight := by
        simp [State.inFlight, State.drop, Call.command, Command.packets]
      exact
        ⟨by rw [inFlight]; exact distinct, by rw [inFlight]; exact numbered,
          waiting, writing, discarded, queued, consumed⟩
  | flush below =>
      have inFlight : (state.flush below).inFlight = state.inFlight := by
        simp [State.inFlight, State.flush, Call.command, Command.packets]
      refine
        ⟨by rw [inFlight]; exact distinct, by rw [inFlight]; exact numbered,
          waiting, writing, discarded, ?_, ?_⟩
      · intro flush member packet old
        simp only [State.flush, List.mem_append, List.mem_singleton]
          at member
        rcases member with earlier | rfl
        · exact queued flush earlier packet old
        · exact old
      · simp only [State.flush, List.length_append, List.length_singleton]
        omega
  | play seq timestamp pcm =>
      -- The new packet has a number of its own.
      have inFlight :
          (state.play seq timestamp pcm).inFlight =
            state.inFlight ++ [⟨state.plays, seq, timestamp, pcm⟩] := by
        simp [State.inFlight, State.play, Call.command, Command.packets]
      have fresh :
          ∀ packet ∈ state.sent ++ state.inFlight,
            packet ≠ ⟨state.plays, seq, timestamp, pcm⟩ := by
        intro packet member same
        have below := numbered packet member
        rw [same] at below
        exact Nat.lt_irrefl _ below
      refine ⟨?_, ?_, waiting, writing, discarded, queued, consumed⟩
      · rw [inFlight, ← List.append_assoc]
        apply List.nodup_append.mpr
        refine ⟨distinct, by simp, ?_⟩
        intro packet member new isNew
        rw [List.mem_singleton.mp isNew]
        exact fresh packet member
      · rw [inFlight, ← List.append_assoc]
        intro packet member
        rw [List.mem_append, List.mem_singleton] at member
        rcases member with old | rfl
        · exact Nat.lt_succ_of_lt (numbered packet old)
        · exact Nat.lt_succ_self _
  | send index call called =>
      have moved := sent_inFlight_perm called
      refine ⟨?_, ?_, ?_, ?_, ?_, ?_, ?_⟩
      · exact moved.nodup_iff.mpr distinct
      · intro packet member
        exact numbered packet (moved.mem_iff.mp member)
      · intro packet waits
        rcases waiting_send state index call packet waits with old | new
        · exact List.mem_append_left _ (waiting packet old)
        · exact List.mem_append_right _ new
      · intro packet old
        exact List.mem_append_left _ (writing packet old)
      · intro entry old
        exact List.mem_append_left _ (discarded entry old)
      · intro flush member packet old
        rcases
            request_of_mem
              (returnFlush_requests state.flushes state.plays call)
              member with
          ⟨other, otherMember, -, same⟩
        rw [same] at old
        exact
          List.mem_append_left _ (queued other otherMember packet old)
      · have length :
            (State.returnFlush state.flushes state.plays call).length =
              state.flushes.length := by
          cases call <;> simp [State.returnFlush]
        exact consumed.trans length.ge

theorem recorded_step
    {state next : State} {act : Act}
    (recorded : state.Recorded)
    (stepped : step state act = some next) :
    next.Recorded := by
  rcases step_cases stepped with ⟨-, threadStep⟩ | callStep
  · exact recorded_thread recorded threadStep
  · exact recorded_call recorded callStep

end OpenAirplay2.Player

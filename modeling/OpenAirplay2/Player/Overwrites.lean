import OpenAirplay2.Player.Due
import OpenAirplay2.Player.Records

/-!
# Flush requests that are overwritten

All flush calls share one slot, which a later call overwrites.  A request
that is overwritten before the thread takes it up is never carried out; no
packet it named plays on as long as the overwriting request discards every
packet the overwritten one named among those still queued.  Otherwise a
thread left to read its flags writes such a packet.
-/

namespace OpenAirplay2.Player

open OpenAirplay2.Lib.Transition

/-- The packet was queued before the call, which names it. -/
def FlushCall.Dooms (flush : FlushCall) (packet : Packet) : Prop :=
  packet ∈ flush.queued ∧ flush.names packet = true

instance (flush : FlushCall) (packet : Packet) :
    Decidable (flush.Dooms packet) :=
  inferInstanceAs (Decidable (_ ∧ _))

/-- A stored request is never mistaken for an empty slot. -/
theorem encodeFlush_ne_none (below : Option Nat) :
    encodeFlush below ≠ flushNone := by
  cases below with
  | none => decide
  | some boundary =>
      simp only [encodeFlush, saturatingAdd, flushNone, u64Max]
      omega

/-- The calls the thread has taken up. -/
def State.taken (state : State) : List FlushCall :=
  state.flushes.take state.consumed

/-- The calls stored since. -/
def State.untaken (state : State) : List FlushCall :=
  state.flushes.drop state.consumed

/-- No packet being written is doomed by a call the thread has taken up. -/
def NoneRevived (state : State) : Prop :=
  ∀ packet ∈ state.pc.writing, ∀ flush ∈ state.taken,
    ¬ flush.Dooms packet

/--
The call about to store its request overwrites one whose packets are still
queued and which it does not discard itself.
-/
def Overwrites (state : State) : Act → Prop
  | .flush below =>
      ∃ flush ∈ state.untaken, ∃ packet ∈ state.waiting,
        flush.Dooms packet ∧ keeps (encodeFlush below) packet = true
  | _ => False

instance (state : State) (act : Act) : Decidable (Overwrites state act) := by
  unfold Overwrites
  split <;> infer_instance

/-- Every doomed packet still waiting has its filter ahead of it. -/
structure State.Answering (state : State) : Prop where
  kept :
    ∀ packet ∈ state.pc.kept, ∀ flush ∈ state.pc.filters,
      keeps flush packet = true
  drained :
    ∀ paused filter kept, state.pc = .retain paused filter kept →
      ∀ packet ∈ state.channel.flatMap Command.packets,
        ∀ flush ∈ state.taken, packet ∉ flush.queued
  taken :
    ∀ flush ∈ state.taken, ∀ packet ∈ state.waiting,
      flush.Dooms packet →
        ∃ filter ∈ state.pc.filters, keeps filter packet = false
  stored :
    ∀ flush ∈ state.untaken, ∀ packet ∈ state.waiting,
      flush.Dooms packet →
        state.flushRequest ≠ flushNone ∧
          keeps state.flushRequest packet = false
  writing : NoneRevived state

theorem answering_spawn : spawn.Answering := by
  constructor <;> simp [spawn, State.taken, State.untaken, NoneRevived]

/-- Before a swap the request in the slot answers for every call. -/
theorem answered_at_swap
    {state : State} {command : Command} {paused : Bool}
    (answering : state.Answering)
    (position : state.pc = .swapFlush command paused) :
    ∀ flush ∈ state.flushes, ∀ packet ∈ state.waiting,
      flush.Dooms packet →
        state.flushRequest ≠ flushNone ∧
          keeps state.flushRequest packet = false := by
  intro flush member packet waits dooms
  rw [← List.take_append_drop state.consumed state.flushes,
    List.mem_append] at member
  rcases member with taken | untaken
  · rcases answering.taken flush taken packet waits dooms with
      ⟨filter, filterMember, -⟩
    simp [position] at filterMember
  · exact answering.stored flush untaken packet waits dooms

/-- The thread begins no packet that a call taken up dooms. -/
theorem noneRevived_thread
    {state next : State}
    (answering : state.Answering)
    (threadStep : ThreadStep state next) :
    NoneRevived next := by
  intro packet writing flush member
  rw [State.taken, (records_thread threadStep).2.2.2] at member
  rcases consumed_thread threadStep with same | ⟨-, notWriting⟩
  · rw [same] at member
    rcases writing_thread threadStep packet writing with
      old | ⟨position, waits⟩
    · exact answering.writing packet old flush member
    · intro dooms
      rcases answering.taken flush member packet waits dooms with
        ⟨filter, filterMember, -⟩
      simp [position] at filterMember
  · rw [notWriting] at writing
    cases writing

/-- The steps that neither swap nor end a filter keep what answers. -/
theorem answering_of_same
    {state next : State}
    (answering : state.Answering)
    (noneRevived : NoneRevived next)
    (waiting : next.waiting ⊆ state.waiting)
    (flushes : next.flushes = state.flushes)
    (filters : next.pc.filters = state.pc.filters)
    (consumed : next.consumed = state.consumed)
    (slot : next.flushRequest = state.flushRequest)
    (kept :
      ∀ packet ∈ next.pc.kept, ∀ flush ∈ next.pc.filters,
        keeps flush packet = true)
    (drained :
      ∀ paused filter kept, next.pc = .retain paused filter kept →
        next.channel = [] ∨
          (next.channel = state.channel ∧
            ∃ earlier, state.pc = .retain paused filter earlier)) :
    next.Answering := by
  have taken : next.taken = state.taken := by
    rw [State.taken, flushes, consumed, State.taken]
  have untaken : next.untaken = state.untaken := by
    rw [State.untaken, flushes, consumed, State.untaken]
  constructor
  · exact kept
  · intro paused filter kept position packet queued flush member
    rw [taken] at member
    rcases drained paused filter kept position with
      empty | ⟨same, earlier, before⟩
    · simp [empty] at queued
    · rw [same] at queued
      exact
        answering.drained paused filter earlier before packet queued
          flush member
  · rw [taken, filters]
    intro flush member packet waits dooms
    exact answering.taken flush member packet (waiting waits) dooms
  · rw [untaken, slot]
    intro flush member packet waits dooms
    exact answering.stored flush member packet (waiting waits) dooms
  · exact noneRevived

theorem answering_thread
    {state next : State}
    (unstopped : state.Unstopped)
    (answering : state.Answering)
    (threadStep : ThreadStep state next) :
    next.Answering := by
  have waiting := waiting_thread threadStep
  have noneRevived := noneRevived_thread answering threadStep
  cases threadStep with
  | stopSeen command position stopped =>
      rw [unstopped.flag] at stopped
      cases stopped
  | haltSeen packet unwritten position stopped =>
      rw [unstopped.flag] at stopped
      cases stopped
  | drainStop paused flush rest position queued =>
      have impossible := unstopped.channel
      simp [queued] at impossible
  | swapStop paused position =>
      have impossible := unstopped.inHand
      simp [position] at impossible
  | swapNone command paused position running quiet =>
      have answered := answered_at_swap answering position
      have harmless :
          ∀ flush ∈ state.flushes, ∀ packet ∈ state.waiting,
            ¬ flush.Dooms packet := by
        intro flush member packet waits dooms
        exact (answered flush member packet waits dooms).1 quiet
      constructor
      · rcases afterControl_cases paused with after | after <;>
          simp [after]
      · rcases afterControl_cases paused with after | after <;>
          simp [after]
      · intro flush member packet waits dooms
        exact
          (harmless flush (List.mem_of_mem_take member) packet
            (waiting waits) dooms).elim
      · simp [State.untaken, State.swapped]
      · exact noneRevived
  | swapSome command paused position running requested =>
      have answered := answered_at_swap answering position
      constructor
      · simp
      · simp
      · intro flush member packet waits dooms
        exact
          ⟨state.flushRequest, List.mem_singleton_self _,
            (answered flush (List.mem_of_mem_take member) packet
              (waiting waits) dooms).2⟩
      · simp [State.untaken, State.swapped]
      · exact noneRevived
  | retained paused filter kept position empty =>
      -- Held packets passed the filter; queued ones came after the calls.
      have harmless :
          ∀ flush ∈ state.taken, ∀ packet ∈ state.waiting,
            ¬ flush.Dooms packet := by
        intro flush member packet waits dooms
        rcases answering.taken flush member packet waits dooms with
          ⟨other, otherMember, discards⟩
        simp only [State.waiting, position, Pc.kept, Pc.inHand, empty,
          List.append_nil, List.nil_append, List.mem_append] at waits
        rcases waits with passed | queued
        · have keptIt :=
            answering.kept packet (by simpa [position] using passed)
              other otherMember
          rw [discards] at keptIt
          cases keptIt
        · exact
            answering.drained paused filter kept position packet queued
              flush member dooms.1
      constructor
      · rcases afterControl_cases paused with after | after <;>
          simp [after]
      · rcases afterControl_cases paused with after | after <;>
          simp [after]
      · intro flush member packet waits dooms
        exact (harmless flush member packet (waiting waits) dooms).elim
      · intro flush member packet waits dooms
        exact answering.stored flush member packet (waiting waits) dooms
      · exact noneRevived
  | drainEmpty paused filter position empty =>
      apply answering_of_same answering noneRevived waiting rfl
      · simp [position]
      · rfl
      · rfl
      · simp
      · intro _ _ _ _
        exact Or.inl empty
  | keep paused filter kept packet rest position holds spared =>
      apply answering_of_same answering noneRevived waiting rfl
      · simp [position]
      · rfl
      · rfl
      · intro other member flush flushMember
        simp only [Pc.kept, List.mem_append, List.mem_singleton] at member
        simp only [Pc.filters, List.mem_singleton] at flushMember
        rcases member with old | rfl
        · exact
            answering.kept other (by simpa [position] using old) flush
              (by simpa [position] using flushMember)
        · rw [flushMember]
          exact spared
      · intro otherPaused otherFilter otherKept samePosition
        cases samePosition
        exact Or.inr ⟨rfl, kept, position⟩
  | discard paused filter kept packet rest position holds named =>
      apply answering_of_same answering noneRevived waiting rfl
      · rfl
      · rfl
      · rfl
      · exact answering.kept
      · intro otherPaused otherFilter otherKept samePosition
        exact Or.inr ⟨rfl, otherKept, samePosition⟩
  | drainPacket paused filter packet rest position queued =>
      apply answering_of_same answering noneRevived waiting rfl
      · rfl
      · rfl
      · rfl
      · simp [position]
      · simp [position]
  | drainWake paused filter rest position queued =>
      apply answering_of_same answering noneRevived waiting rfl
      · rfl
      · rfl
      · rfl
      · simp [position]
      · simp [position]
  | report packet interrupted position =>
      apply answering_of_same answering noneRevived waiting rfl
      · cases interrupted <;> simp [position]
      · rfl
      · rfl
      · cases interrupted <;> simp
      · cases interrupted <;> simp
  | recv command rest position queued
  | stopClear command position running
  | loadPaused command position
  | delivered position empty
  | pop packet rest position holds
  | written packet position
  | write packet unwritten position more
  | haltClear packet unwritten position running
  | pauseSeen packet unwritten position paused
  | pauseClear packet unwritten position playing
  | flushSeen packet unwritten position requested
  | flushClear packet unwritten position quiet =>
      apply answering_of_same answering noneRevived waiting rfl
      · simp [position]
      · rfl
      · rfl
      · simp
      · simp

/-- A new request answers for what the pending ones named and named itself. -/
theorem answering_flush
    {state : State} {below : Option Nat}
    (recorded : state.Recorded)
    (answering : state.Answering)
    (fresh : ¬ Overwrites state (.flush below)) :
    (state.flush below).Answering := by
  have taken : (state.flush below).taken = state.taken :=
    List.take_append_of_le_length recorded.consumed
  have untaken :
      (state.flush below).untaken =
        state.untaken ++ [⟨below, state.sent, none⟩] :=
    List.drop_append_of_le_length recorded.consumed
  constructor
  · exact answering.kept
  · rw [taken]
    exact answering.drained
  · rw [taken]
    exact answering.taken
  · rw [untaken]
    intro flush member packet waits dooms
    refine ⟨encodeFlush_ne_none below, ?_⟩
    rw [List.mem_append, List.mem_singleton] at member
    rcases member with pending | rfl
    · by_contra spared
      rw [Bool.not_eq_false] at spared
      exact fresh ⟨flush, pending, packet, waits, dooms, spared⟩
    · exact discards_of_names dooms.2
  · intro packet writing
    rw [taken]
    exact answering.writing packet writing

/-- A packet sent now was queued before no call on record. -/
theorem answering_send
    {state : State} {index : Nat} {call : Call}
    (recorded : state.Recorded)
    (answering : state.Answering)
    (called : state.calls[index]? = some call) :
    State.Answering
      { state with
        channel := State.deliverTo state.pc state.channel call.command
        calls := state.calls.eraseIdx index
        sent := state.sent ++ call.command.packets
        flushes := State.returnFlush state.flushes state.plays call } := by
  have arriving :
      ∀ packet ∈ call.command.packets, ∀ flush ∈ state.flushes,
        packet ∉ flush.queued := by
    intro packet carried flush member queued
    have sent := recorded.queued flush member packet queued
    have inFlight : packet ∈ state.inFlight :=
      List.mem_flatMap.mpr
        ⟨call, List.mem_of_getElem? called, carried⟩
    exact
      (List.nodup_append.mp recorded.distinct).2.2 packet sent packet
        inFlight rfl
  have requests := returnFlush_requests state.flushes state.plays call
  have takenRequests :
      ((State.returnFlush state.flushes state.plays call).take
          state.consumed).map (fun flush => (flush.below, flush.queued)) =
        state.taken.map fun flush => (flush.below, flush.queued) := by
    rw [List.map_take, requests, ← List.map_take, State.taken]
  have untakenRequests :
      ((State.returnFlush state.flushes state.plays call).drop
          state.consumed).map (fun flush => (flush.below, flush.queued)) =
        state.untaken.map fun flush => (flush.below, flush.queued) := by
    rw [List.map_drop, requests, ← List.map_drop, State.untaken]
  constructor
  · exact answering.kept
  · intro paused filter kept position packet queued flush member
    rcases request_of_mem takenRequests member with
      ⟨other, otherMember, -, same⟩
    rw [same]
    have split :
        packet ∈ state.channel.flatMap Command.packets ∨
          packet ∈ call.command.packets := by
      have alive : state.pc ≠ .done := by
        simp [show state.pc = _ from position]
      rw [← List.mem_append]
      simpa [State.deliverTo, alive] using queued
    rcases split with old | new
    · exact
        answering.drained paused filter kept position packet old other
          otherMember
    · exact arriving packet new other (List.mem_of_mem_take otherMember)
  · intro flush member packet waits dooms
    rcases request_of_mem takenRequests member with
      ⟨other, otherMember, below, queued⟩
    have otherDooms : other.Dooms packet := by
      simpa only [FlushCall.Dooms, FlushCall.names, below, queued]
        using dooms
    rcases waiting_send state index call packet waits with old | new
    · exact answering.taken other otherMember packet old otherDooms
    · exact
        (arriving packet new other (List.mem_of_mem_take otherMember)
          otherDooms.1).elim
  · intro flush member packet waits dooms
    rcases request_of_mem untakenRequests member with
      ⟨other, otherMember, below, queued⟩
    have otherDooms : other.Dooms packet := by
      simpa only [FlushCall.Dooms, FlushCall.names, below, queued]
        using dooms
    rcases waiting_send state index call packet waits with old | new
    · exact answering.stored other otherMember packet old otherDooms
    · exact
        (arriving packet new other (List.mem_of_mem_drop otherMember)
          otherDooms.1).elim
  · intro packet writing flush member dooms
    rcases request_of_mem takenRequests member with
      ⟨other, otherMember, below, queued⟩
    apply answering.writing packet writing other otherMember
    simpa only [FlushCall.Dooms, FlushCall.names, below, queued]
      using dooms

theorem answering_step
    {state next : State} {act : Act}
    (unstopped : state.Unstopped)
    (recorded : state.Recorded)
    (answering : state.Answering)
    (fresh : ¬ Overwrites state act)
    (stepped : step state act = some next) :
    next.Answering := by
  rcases step_cases stepped with ⟨rfl, threadStep⟩ | callStep
  · exact answering_thread unstopped answering threadStep
  · cases callStep with
    | play seq timestamp pcm
    | setPaused paused
    | drop =>
        exact
          ⟨answering.kept, answering.drained, answering.taken,
            answering.stored, answering.writing⟩
    | flush below => exact answering_flush recorded answering fresh
    | send index call called =>
        exact answering_send recorded answering called

/--
No flush is lost in a run whose flush calls overwrite no request with queued
packets that the new one spares: no packet that a call taken up named among
those queued before it is written.
-/
theorem flushes_answered
    (schedule : List Act) (final : State)
    (noDrop : ∀ act ∈ schedule, act ≠ .drop)
    (reached : queue.exec spawn schedule = some final)
    (fresh :
      queue.Meets (fun state act => ¬ Overwrites state act)
        spawn schedule) :
    NoneRevived final := by
  have invariant :
      final.Unstopped ∧ final.Recorded ∧ final.Answering := by
    apply
      System.invariant_of_meets
        (fun state =>
          state.Unstopped ∧ state.Recorded ∧ state.Answering)
        ?_ ⟨unstopped_spawn, recorded_spawn, answering_spawn⟩
        ((System.meets_of_forall_mem noDrop spawn).and fresh) reached
    rintro state act next ⟨unstopped, recorded, answering⟩
      ⟨notDrop, notOverwriting⟩ stepped
    exact
      ⟨unstopped_step unstopped notDrop stepped,
        recorded_step recorded stepped,
        answering_step unstopped recorded answering notOverwriting
          stepped⟩
  exact invariant.2.2.writing

/-- The thread has not read its flags since its latest command. -/
def State.Unread (state : State) : Prop :=
  match state.pc with
  | .recv | .observeStop _ | .loadPaused _ => True
  | _ => False

/-- The queue after a flush call that nothing came between. -/
def State.flushed (state : State) (below : Option Nat) : State :=
  { state with
    channel := state.channel ++ [.wake]
    flushRequest := encodeFlush below
    flushes :=
      state.flushes ++ [⟨below, state.sent, some state.plays⟩] }

theorem flushed_of_sent
    {state : State} (below : Option Nat)
    (alive : state.pc ≠ .done) :
    queue.exec state [.flush below, .send state.calls.length] =
      some (state.flushed below) := by
  rw [System.exec_cons_iff]
  refine ⟨state.flush below, rfl, ?_⟩
  rw [System.exec_cons_iff]
  refine ⟨state.flushed below, ?_, rfl⟩
  have called :
      (state.flush below).calls[state.calls.length]? =
        some (.flush state.flushes.length) := by
    simp [State.flush]
  show State.send (state.flush below) state.calls.length = _
  simp only [State.send, called, Option.some.injEq]
  simp [State.flush, State.flushed, State.deliverTo, State.returnFlush,
    Call.command, Command.packets, alive, List.modify_eq_take_drop,
    List.eraseIdx_append_of_length_le]

/-- A request that was stored is taken up when the slot is empty. -/
theorem taken_up_thread
    {flush : FlushCall} {state next : State}
    (stored :
      flush ∈ state.taken ∨
        (flush ∈ state.flushes ∧ state.flushRequest ≠ flushNone))
    (threadStep : ThreadStep state next) :
    flush ∈ next.taken ∨
      (flush ∈ next.flushes ∧ next.flushRequest ≠ flushNone) := by
  have known : flush ∈ state.flushes :=
    stored.elim List.mem_of_mem_take And.left
  cases threadStep with
  | swapStop paused position
  | swapNone command paused position running quiet
  | swapSome command paused position running requested =>
      exact Or.inl (by simpa [State.taken, State.swapped] using known)
  | _ => exact stored

/--
A store that overwrites loses the request in the slot: when the thread is yet
to read its flags and not paused, it goes on to write a packet that the
request named, once it has taken both calls up.
-/
theorem overwriting_revives
    {schedule : List Act} {state : State} {below : Option Nat}
    (noDrop : ∀ act ∈ schedule, act ≠ .drop)
    (reached : queue.exec spawn schedule = some state)
    (overwrites : Overwrites state (.flush below))
    (unread : state.Unread)
    (playing : state.paused = false) :
    ∃ count final,
      queue.exec state
          (.flush below :: .send state.calls.length ::
            List.replicate count .thread) =
          some final ∧
        ¬ NoneRevived final := by
  rcases overwrites with
    ⟨flush, pending, packet, waits, dooms, spared⟩
  have unstopped : state.Unstopped :=
    System.invariant_of_meets State.Unstopped
      (fun state act next unstopped allowed stepped =>
        unstopped_step unstopped allowed stepped)
      unstopped_spawn (System.meets_of_forall_mem noDrop spawn) reached
  have known : flush ∈ state.flushes := List.mem_of_mem_drop pending
  have due : (state.flushed below).Due packet := by
    refine ⟨?_, playing, ?_, fun _ => spared, ?_⟩
    · exact
        ⟨unstopped.flag, by simpa [State.flushed] using unstopped.channel,
          unstopped.calls, unstopped.inHand, unstopped.alive⟩
    · simpa [State.waiting, State.flushed, Command.packets] using waits
    · cases position : state.pc <;>
        simp_all [State.Course, State.Unread, State.flushed]
  have stored :
      flush ∈ (state.flushed below).taken ∨
        (flush ∈ (state.flushed below).flushes ∧
          (state.flushed below).flushRequest ≠ flushNone) :=
    Or.inr ⟨List.mem_append_left _ known, encodeFlush_ne_none below⟩
  rcases due_is_written _ (fun _ _ => taken_up_thread) due stored with
    ⟨count, final, ran, writing, quiet, taken⟩
  refine ⟨count, final, ?_, ?_⟩
  · exact
      (System.exec_append_iff queue state final
        [.flush below, .send state.calls.length] _).mpr
        ⟨_, flushed_of_sent below unstopped.alive, ran⟩
  · intro noneRevived
    rcases taken with taken | ⟨-, requested⟩
    · exact noneRevived packet writing flush taken dooms
    · exact requested quiet

/-- Two flushes with rising boundaries, stored before the thread looks. -/
def risingFlushes : List Act :=
  [.play 3 0 [1], .send 0, .play 9 0 [2], .send 0,
    .flush (some 4), .send 0, .flush (some 7), .send 0] ++
    List.replicate 12 .thread

/-- The packet below the last boundary is not written, the other one is. -/
theorem flushes_answered_rising :
    ∃ final, queue.exec spawn risingFlushes = some final ∧
      final.pc = .write ⟨1, 9, 0, [2]⟩ [2] ∧ NoneRevived final :=
  ⟨_, rfl, rfl,
    flushes_answered risingFlushes _ (by decide) rfl (by decide)⟩

/-- An unbounded flush, and a bounded one before the thread looks. -/
def overwrittenFlush : List Act :=
  [.play 7 0 [1], .send 0,
    .flush none, .send 0, .flush (some 5), .send 0] ++
    List.replicate 10 .thread

/-- The unbounded flush is lost: the packet it named is written. -/
theorem flush_overwritten :
    ¬ ∀ (schedule : List Act) (final : State),
      (∀ act ∈ schedule, act ≠ .drop) →
        queue.exec spawn schedule = some final →
          NoneRevived final := by
  intro claim
  have ran :
      ∃ final, queue.exec spawn overwrittenFlush = some final ∧
        final.pc.writing = [⟨0, 7, 0, [1]⟩] ∧
          final.taken.head? =
            some ⟨none, [⟨0, 7, 0, [1]⟩], some 1⟩ :=
    ⟨_, rfl, rfl, rfl⟩
  rcases ran with ⟨final, reached, writing, taken⟩
  have noneRevived := claim overwrittenFlush final (by decide) reached
  have written : ⟨0, 7, 0, [1]⟩ ∈ final.pc.writing := by
    rw [writing]
    exact List.mem_singleton_self _
  exact
    noneRevived ⟨0, 7, 0, [1]⟩ written
      ⟨none, [⟨0, 7, 0, [1]⟩], some 1⟩ (List.mem_of_mem_head? taken)
      (by decide)

end OpenAirplay2.Player

import OpenAirplay2.Player.Steps

/-!
# Where the samples are

Every played sample is tagged with its packet and looked for in four places,
in play order: what the sink was given, what is left of the packet being
written, the packets waiting in the thread, and the packets in the channel.
`outstanding_step` says what one step does to that list: it cuts out the
losses of the step and appends what a send brings.  A law about a view of the
list survives a step exactly when the view does not see the losses.
-/

namespace OpenAirplay2.Player

open OpenAirplay2.Lib.Transition

/-- The samples of a packet, tagged with it. -/
def Packet.tagged (packet : Packet) : List (Packet × Sample) :=
  packet.pcm.map fun sample => (packet, sample)

/-- The command the thread has received and not yet matched on. -/
@[simp]
def Pc.inHand : Pc → List Command
  | .observeStop command => [command]
  | .loadPaused command => [command]
  | .swapFlush command _ => [command]
  | _ => []

/-- The packets the filter has already passed. -/
@[simp]
def Pc.kept : Pc → List Packet
  | .retain _ _ kept => kept
  | _ => []

/-- What is left to write of the packet being written. -/
@[simp]
def Pc.unwritten : Pc → List (Packet × Sample)
  | .write packet unwritten
  | .checkStop packet unwritten
  | .checkPaused packet unwritten
  | .checkFlush packet unwritten =>
      unwritten.map fun sample => (packet, sample)
  | _ => []

/-- The samples a sink call hands over. -/
@[simp]
def SinkCall.samples : SinkCall → List (Packet × Sample)
  | .write packet chunk => chunk.map fun sample => (packet, sample)
  | .flush => []

namespace State

variable (state : State)

/-- What the sink was given. -/
def written : List (Packet × Sample) :=
  state.sink.flatMap SinkCall.samples

/-- The packets not yet popped for writing, in channel order. -/
def waiting : List Packet :=
  state.pc.kept ++ state.held ++
    (state.pc.inHand ++ state.channel).flatMap Command.packets

/-- Every played sample the queue still knows about, in play order. -/
def outstanding : List (Packet × Sample) :=
  state.written ++ state.pc.unwritten ++
    state.waiting.flatMap Packet.tagged

/-- Every played sample, in play order. -/
def played : List (Packet × Sample) :=
  state.sent.flatMap Packet.tagged

/-- The samples the next step takes out of the queue without writing them. -/
def losses : Act → List (Packet × Sample)
  | .thread =>
      match state.pc with
      | .retain _ flush _ =>
          match state.held with
          | packet :: _ =>
              if keeps flush packet then [] else packet.tagged
          | [] => []
      | .checkPaused packet unwritten =>
          if state.paused then
            unwritten.map fun sample => (packet, sample)
          else
            []
      | .checkFlush packet unwritten =>
          if state.flushRequest = flushNone then
            []
          else
            unwritten.map fun sample => (packet, sample)
      | _ => []
  | _ => []

/-- No `Player::drop` is under way. -/
structure Unstopped : Prop where
  flag : state.stop = false
  channel : Command.stop ∉ state.channel
  calls : Call.stop ∉ state.calls
  inHand : Command.stop ∉ state.pc.inHand
  alive : state.pc ≠ .done

end State

theorem unstopped_spawn : spawn.Unstopped where
  flag := rfl
  channel := by simp [spawn]
  calls := by simp [spawn]
  inHand := by simp [spawn, Pc.inHand]
  alive := by simp [spawn]

theorem unstopped_thread
    {state next : State}
    (unstopped : state.Unstopped)
    (stepped : ThreadStep state next) :
    next.Unstopped := by
  rcases unstopped with ⟨flag, channel, calls, inHand, alive⟩
  cases stepped with
  | recv command rest position queued =>
      rw [queued, List.mem_cons, not_or] at channel
      exact
        ⟨flag, channel.2, calls, by simpa [Pc.inHand] using channel.1,
          by simp⟩
  | stopSeen command position stopped =>
      rw [flag] at stopped
      cases stopped
  | stopClear command position running =>
      rw [position] at inHand
      exact ⟨flag, channel, calls, by simpa [Pc.inHand] using inHand, by simp⟩
  | loadPaused command position =>
      rw [position] at inHand
      exact ⟨flag, channel, calls, by simpa [Pc.inHand] using inHand, by simp⟩
  | swapStop paused position =>
      rw [position] at inHand
      exact (inHand (by simp [Pc.inHand])).elim
  | swapNone command paused position running quiet =>
      rcases afterControl_cases paused with next | next <;>
        exact
          ⟨flag, channel, calls, by simp [next], by simp [next]⟩
  | swapSome command paused position running requested =>
      exact ⟨flag, channel, calls, by simp [Pc.inHand], by simp⟩
  | drainEmpty paused flush position empty =>
      exact ⟨flag, channel, calls, by simp [Pc.inHand], by simp⟩
  | drainPacket paused flush packet rest position queued =>
      rw [queued, List.mem_cons, not_or] at channel
      exact ⟨flag, channel.2, calls, inHand, alive⟩
  | drainWake paused flush rest position queued =>
      rw [queued, List.mem_cons, not_or] at channel
      exact ⟨flag, channel.2, calls, inHand, alive⟩
  | drainStop paused flush rest position queued =>
      rw [queued, List.mem_cons, not_or] at channel
      exact (channel.1 rfl).elim
  | retained paused flush kept position empty =>
      rcases afterControl_cases paused with next | next <;>
        exact
          ⟨flag, channel, calls, by simp [next], by simp [next]⟩
  | keep paused flush kept packet rest position holds spared =>
      exact ⟨flag, channel, calls, by simp [Pc.inHand], by simp⟩
  | discard paused flush kept packet rest position holds named =>
      exact ⟨flag, channel, calls, inHand, alive⟩
  | delivered position empty =>
      exact ⟨flag, channel, calls, by simp [Pc.inHand], by simp⟩
  | pop packet rest position holds =>
      exact ⟨flag, channel, calls, by simp [Pc.inHand], by simp⟩
  | written packet position =>
      exact ⟨flag, channel, calls, by simp [Pc.inHand], by simp⟩
  | write packet unwritten position more =>
      exact ⟨flag, channel, calls, by simp [Pc.inHand], by simp⟩
  | haltSeen packet unwritten position stopped =>
      rw [flag] at stopped
      cases stopped
  | haltClear packet unwritten position running =>
      exact ⟨flag, channel, calls, by simp [Pc.inHand], by simp⟩
  | pauseSeen packet unwritten position paused =>
      exact ⟨flag, channel, calls, by simp [Pc.inHand], by simp⟩
  | pauseClear packet unwritten position playing =>
      exact ⟨flag, channel, calls, by simp [Pc.inHand], by simp⟩
  | flushSeen packet unwritten position requested =>
      exact ⟨flag, channel, calls, by simp [Pc.inHand], by simp⟩
  | flushClear packet unwritten position quiet =>
      exact ⟨flag, channel, calls, by simp [Pc.inHand], by simp⟩
  | report packet interrupted position =>
      refine ⟨flag, channel, calls, ?_, ?_⟩ <;>
        cases interrupted <;> simp [Pc.inHand]

/-- Only `Player::drop` stops the thread. -/
theorem unstopped_step
    {state next : State} {act : Act}
    (unstopped : state.Unstopped)
    (noDrop : act ≠ .drop)
    (stepped : step state act = some next) :
    next.Unstopped := by
  rcases step_cases stepped with ⟨rfl, threadStep⟩ | callStep
  · exact unstopped_thread unstopped threadStep
  rcases unstopped with ⟨flag, channel, calls, inHand, alive⟩
  cases callStep with
  | play seq timestamp pcm =>
      exact
        ⟨flag, channel, by simpa [State.play] using calls, inHand, alive⟩
  | setPaused paused =>
      exact
        ⟨flag, channel, by simpa [State.setPaused] using calls, inHand,
          alive⟩
  | flush below =>
      exact
        ⟨flag, channel, by simpa [State.flush] using calls, inHand, alive⟩
  | drop => exact (noDrop rfl).elim
  | send index call waiting =>
      have callMember : call ∈ state.calls :=
        List.mem_of_getElem? waiting
      have notStop : call ≠ .stop := by
        rintro rfl
        exact calls callMember
      refine ⟨flag, ?_, ?_, inHand, alive⟩
      · simp only [State.deliverTo, alive, if_false, List.mem_append,
          List.mem_singleton, not_or]
        refine ⟨channel, ?_⟩
        cases call <;> simp [Call.command] at notStop ⊢
      · exact fun member => calls (List.mem_of_mem_eraseIdx member)

/-- The sink flush of the swap writes nothing. -/
theorem written_swapped (state : State) (paused : Bool) :
    (state.swapped paused).sink.flatMap SinkCall.samples =
      state.written := by
  simp only [State.swapped, State.written]
  split_ifs <;> simp

/-- A step that moves no sample, read as one that loses none. -/
theorem unmoved
    {state next : State} {act : Act}
    (same : next.outstanding = state.outstanding)
    (lossless : state.losses act = []) :
    ∃ before after,
      state.outstanding = before ++ state.losses act ++ after ∧
        next.outstanding = before ++ after :=
  ⟨[], state.outstanding, by simp [lossless], by simp [same]⟩

/-- A step of the thread cuts its losses out of the list. -/
theorem outstanding_thread
    {state next : State}
    (unstopped : state.Unstopped)
    (threadStep : ThreadStep state next) :
    ∃ before after,
      state.outstanding = before ++ state.losses .thread ++ after ∧
        next.outstanding = before ++ after := by
  cases threadStep with
  | recv command rest position queued =>
      apply unmoved
      · simp [State.outstanding, State.written, State.waiting, position,
          queued]
      · simp [State.losses, position]
  | stopSeen command position stopped =>
      rw [unstopped.flag] at stopped
      cases stopped
  | stopClear command position running =>
      apply unmoved
      · simp [State.outstanding, State.written, State.waiting, position]
      · simp [State.losses, position]
  | loadPaused command position =>
      apply unmoved
      · simp [State.outstanding, State.written, State.waiting, position]
      · simp [State.losses, position]
  | swapStop paused position =>
      have impossible := unstopped.inHand
      simp [position] at impossible
  | swapNone command paused position running quiet =>
      apply unmoved
      · have sameWritten := written_swapped state paused
        rcases afterControl_cases paused with next | next <;>
          simp only [State.outstanding, State.written, State.waiting,
            position, sameWritten, next] <;>
          simp [State.swapped]
      · simp [State.losses, position]
  | swapSome command paused position running requested =>
      apply unmoved
      · have sameWritten := written_swapped state paused
        simp only [State.outstanding, State.written, State.waiting,
          position, sameWritten]
        simp [State.swapped]
      · simp [State.losses, position]
  | drainEmpty paused flush position empty =>
      apply unmoved
      · simp [State.outstanding, State.written, State.waiting, position]
      · simp [State.losses, position]
  | drainPacket paused flush packet rest position queued =>
      apply unmoved
      · simp [State.outstanding, State.written, State.waiting, position,
          queued, Command.packets]
      · simp [State.losses, position]
  | drainWake paused flush rest position queued =>
      apply unmoved
      · simp [State.outstanding, State.written, State.waiting, position,
          queued, Command.packets]
      · simp [State.losses, position]
  | drainStop paused flush rest position queued =>
      have impossible := unstopped.channel
      simp [queued] at impossible
  | retained paused flush kept position empty =>
      apply unmoved
      · rcases afterControl_cases paused with next | next <;>
          simp [State.outstanding, State.written, State.waiting, position,
            empty, next]
      · simp [State.losses, position, empty]
  | keep paused flush kept packet rest position holds spared =>
      apply unmoved
      · simp [State.outstanding, State.written, State.waiting, position,
          holds]
      · simp [State.losses, position, holds, spared]
  | discard paused flush kept packet rest position holds named =>
      -- The filter takes the packet from between the kept and the rest.
      refine
        ⟨state.written ++ kept.flatMap Packet.tagged,
          (rest ++ state.channel.flatMap Command.packets).flatMap
            Packet.tagged, ?_, ?_⟩
      · simp [State.outstanding, State.waiting, State.losses, position,
          holds, named]
      · simp [State.outstanding, State.waiting, State.written, position]
  | delivered position empty =>
      apply unmoved
      · simp [State.outstanding, State.written, State.waiting, position]
      · simp [State.losses, position]
  | pop packet rest position holds =>
      apply unmoved
      · simp [State.outstanding, State.written, State.waiting, position,
          holds, Packet.tagged]
      · simp [State.losses, position]
  | written packet position =>
      apply unmoved
      · simp [State.outstanding, State.written, State.waiting, position]
      · simp [State.losses, position]
  | write packet unwritten position more =>
      apply unmoved
      · have rejoined :
            unwritten.map (fun sample => (packet, sample)) =
              (unwritten.take writeChunk).map
                  (fun sample => (packet, sample)) ++
                (unwritten.drop writeChunk).map
                  (fun sample => (packet, sample)) := by
          rw [← List.map_append, List.take_append_drop]
        simp only [State.outstanding, State.written, State.waiting,
          position, Pc.unwritten, rejoined]
        simp
      · simp [State.losses, position]
  | haltSeen packet unwritten position stopped =>
      rw [unstopped.flag] at stopped
      cases stopped
  | haltClear packet unwritten position running =>
      apply unmoved
      · simp [State.outstanding, State.written, State.waiting, position]
      · simp [State.losses, position]
  | pauseSeen packet unwritten position paused =>
      -- The break leaves the rest of the popped packet nowhere.
      refine
        ⟨state.written, state.waiting.flatMap Packet.tagged, ?_, ?_⟩
      · simp [State.outstanding, State.losses, position, paused]
      · simp [State.outstanding, State.waiting, State.written, position]
  | pauseClear packet unwritten position playing =>
      apply unmoved
      · simp [State.outstanding, State.written, State.waiting, position]
      · simp [State.losses, position, playing]
  | flushSeen packet unwritten position requested =>
      refine
        ⟨state.written, state.waiting.flatMap Packet.tagged, ?_, ?_⟩
      · simp [State.outstanding, State.losses, position, requested]
      · simp [State.outstanding, State.waiting, State.written, position]
  | flushClear packet unwritten position quiet =>
      apply unmoved
      · simp [State.outstanding, State.written, State.waiting, position]
      · simp [State.losses, position, quiet]
  | report packet interrupted position =>
      apply unmoved
      · cases interrupted <;>
          simp [State.outstanding, State.written, State.waiting, position]
      · simp [State.losses, position]

/-- A step of a handle appends what its send brings. -/
theorem outstanding_call
    {state next : State} {act : Act}
    (alive : state.pc ≠ .done)
    (callStep : CallStep state act next) :
    ∃ arriving,
      next.outstanding = state.outstanding ++ arriving ∧
        next.played = state.played ++ arriving := by
  cases callStep with
  | play seq timestamp pcm =>
      exact
        ⟨[], by simp [State.outstanding, State.written, State.waiting,
            State.play],
          by simp [State.played, State.play]⟩
  | setPaused paused =>
      exact
        ⟨[], by simp [State.outstanding, State.written, State.waiting,
            State.setPaused],
          by simp [State.played, State.setPaused]⟩
  | flush below =>
      exact
        ⟨[], by simp [State.outstanding, State.written, State.waiting,
            State.flush],
          by simp [State.played, State.flush]⟩
  | drop =>
      exact
        ⟨[], by simp [State.outstanding, State.written, State.waiting,
            State.drop],
          by simp [State.played, State.drop]⟩
  | send index call waiting =>
      refine ⟨call.command.packets.flatMap Packet.tagged, ?_, ?_⟩
      · simp [State.outstanding, State.written, State.waiting,
          State.deliverTo, alive]
      · simp [State.played]

/--
What a step does to the samples: it cuts the losses out of the list and
appends what a send brings.
-/
theorem outstanding_step
    {state next : State} {act : Act}
    (unstopped : state.Unstopped)
    (stepped : step state act = some next) :
    ∃ before after arriving,
      state.outstanding = before ++ state.losses act ++ after ∧
        next.outstanding = before ++ after ++ arriving ∧
          next.played = state.played ++ arriving := by
  rcases step_cases stepped with ⟨rfl, threadStep⟩ | callStep
  · rcases outstanding_thread unstopped threadStep with
      ⟨before, after, split, joined⟩
    refine ⟨before, after, [], split, ?_, ?_⟩
    · rw [joined, List.append_nil]
    · rw [State.played, (records_thread threadStep).1, List.append_nil,
        State.played]
  · rcases outstanding_call unstopped.alive callStep with
      ⟨arriving, grown, grownPlayed⟩
    have lossless : state.losses act = [] := by
      cases callStep <;> rfl
    exact
      ⟨state.outstanding, [], arriving, by simp [lossless],
        by simp [grown], grownPlayed⟩

/-! ## Laws about a view of the samples -/

/-- The view of what is outstanding is the view of what was played. -/
def Accounted
    {Seen : Type*}
    (view : List (Packet × Sample) → List Seen)
    (state : State) : Prop :=
  view state.outstanding = view state.played

theorem accounted_spawn
    {Seen : Type*}
    (view : List (Packet × Sample) → List Seen) :
    Accounted view spawn :=
  rfl

/-- A law survives a step exactly when its view does not see the losses. -/
theorem accounted_step_iff
    {Seen : Type*}
    {view : List (Packet × Sample) → List Seen}
    (viewAppend :
      ∀ left right, view (left ++ right) = view left ++ view right)
    {state next : State} {act : Act}
    (unstopped : state.Unstopped)
    (accounted : Accounted view state)
    (stepped : step state act = some next) :
    Accounted view next ↔ view (state.losses act) = [] := by
  rcases outstanding_step unstopped stepped with
    ⟨before, after, arriving, split, joined, grown⟩
  have law :
      view before ++ view (state.losses act) ++ view after =
        view state.played := by
    rw [← viewAppend, ← viewAppend, ← split]
    exact accounted
  rw [Accounted, joined, grown, viewAppend, viewAppend, viewAppend,
    List.append_left_inj, ← law, List.append_left_inj]
  constructor
  · intro same
    have lengths := congrArg List.length same
    rw [List.length_append] at lengths
    exact List.length_eq_zero_iff.mp (by omega)
  · intro unseen
    rw [unseen, List.append_nil]

end OpenAirplay2.Player

import OpenAirplay2.Player.Queue

/-!
# Inversion for the playback queue

`ThreadStep` lists what one step of the thread can do, guards included, and
`thread_cases` reads a step off it; `call_cases` does the same for the
handles.  Every invariant of the queue is a case analysis on these two.
-/

namespace OpenAirplay2.Player

open OpenAirplay2.Lib.Transition

/-- What one step of the playback thread can do. -/
inductive ThreadStep (state : State) : State → Prop where
  | recv (command : Command) (rest : List Command)
      (position : state.pc = .recv)
      (queued : state.channel = command :: rest) :
      ThreadStep state
        { state with channel := rest, pc := .observeStop command }
  | stopSeen (command : Command)
      (position : state.pc = .observeStop command)
      (stopped : state.stop = true) :
      ThreadStep state { state with pc := .done }
  | stopClear (command : Command)
      (position : state.pc = .observeStop command)
      (running : state.stop = false) :
      ThreadStep state { state with pc := .loadPaused command }
  | loadPaused (command : Command)
      (position : state.pc = .loadPaused command) :
      ThreadStep state
        { state with pc := .swapFlush command state.paused }
  | swapStop (paused : Bool)
      (position : state.pc = .swapFlush .stop paused) :
      ThreadStep state { state.swapped paused with pc := .done }
  | swapNone (command : Command) (paused : Bool)
      (position : state.pc = .swapFlush command paused)
      (running : command ≠ .stop)
      (quiet : state.flushRequest = flushNone) :
      ThreadStep state
        { state.swapped paused with
          held := state.held ++ command.packets
          pc := State.afterControl paused }
  | swapSome (command : Command) (paused : Bool)
      (position : state.pc = .swapFlush command paused)
      (running : command ≠ .stop)
      (requested : state.flushRequest ≠ flushNone) :
      ThreadStep state
        { state.swapped paused with
          held := state.held ++ command.packets
          pc := .drain paused state.flushRequest }
  | drainEmpty (paused : Bool) (flush : Nat)
      (position : state.pc = .drain paused flush)
      (empty : state.channel = []) :
      ThreadStep state { state with pc := .retain paused flush [] }
  | drainPacket (paused : Bool) (flush : Nat)
      (packet : Packet) (rest : List Command)
      (position : state.pc = .drain paused flush)
      (queued : state.channel = .pcm packet :: rest) :
      ThreadStep state
        { state with
          channel := rest
          held := state.held ++ [packet] }
  | drainWake (paused : Bool) (flush : Nat) (rest : List Command)
      (position : state.pc = .drain paused flush)
      (queued : state.channel = .wake :: rest) :
      ThreadStep state { state with channel := rest }
  | drainStop (paused : Bool) (flush : Nat) (rest : List Command)
      (position : state.pc = .drain paused flush)
      (queued : state.channel = .stop :: rest) :
      ThreadStep state { state with channel := rest, pc := .done }
  | retained (paused : Bool) (flush : Nat) (kept : List Packet)
      (position : state.pc = .retain paused flush kept)
      (empty : state.held = []) :
      ThreadStep state
        { state with held := kept, pc := State.afterControl paused }
  | keep (paused : Bool) (flush : Nat) (kept : List Packet)
      (packet : Packet) (rest : List Packet)
      (position : state.pc = .retain paused flush kept)
      (holds : state.held = packet :: rest)
      (spared : keeps flush packet = true) :
      ThreadStep state
        { state with
          held := rest
          pc := .retain paused flush (kept ++ [packet]) }
  | discard (paused : Bool) (flush : Nat) (kept : List Packet)
      (packet : Packet) (rest : List Packet)
      (position : state.pc = .retain paused flush kept)
      (holds : state.held = packet :: rest)
      (named : keeps flush packet = false) :
      ThreadStep state
        { state with
          held := rest
          pending := fetchSub state.pending packet.pcm.length
          discarded :=
            state.discarded ++ [(state.consumed - 1, packet)] }
  | delivered
      (position : state.pc = .deliver)
      (empty : state.held = []) :
      ThreadStep state { state with pc := .recv }
  | pop (packet : Packet) (rest : List Packet)
      (position : state.pc = .deliver)
      (holds : state.held = packet :: rest) :
      ThreadStep state
        { state with
          held := rest
          pending := fetchSub state.pending packet.pcm.length
          pc := .write packet packet.pcm }
  | written (packet : Packet)
      (position : state.pc = .write packet []) :
      ThreadStep state { state with pc := .report packet false }
  | write (packet : Packet) (unwritten : List Sample)
      (position : state.pc = .write packet unwritten)
      (more : unwritten ≠ []) :
      ThreadStep state
        { state with
          sink := state.sink ++ [.write packet (unwritten.take writeChunk)]
          pc := .checkStop packet (unwritten.drop writeChunk) }
  | haltSeen (packet : Packet) (unwritten : List Sample)
      (position : state.pc = .checkStop packet unwritten)
      (stopped : state.stop = true) :
      ThreadStep state { state with pc := .done }
  | haltClear (packet : Packet) (unwritten : List Sample)
      (position : state.pc = .checkStop packet unwritten)
      (running : state.stop = false) :
      ThreadStep state { state with pc := .checkPaused packet unwritten }
  | pauseSeen (packet : Packet) (unwritten : List Sample)
      (position : state.pc = .checkPaused packet unwritten)
      (paused : state.paused = true) :
      ThreadStep state { state with pc := .report packet true }
  | pauseClear (packet : Packet) (unwritten : List Sample)
      (position : state.pc = .checkPaused packet unwritten)
      (playing : state.paused = false) :
      ThreadStep state { state with pc := .checkFlush packet unwritten }
  | flushSeen (packet : Packet) (unwritten : List Sample)
      (position : state.pc = .checkFlush packet unwritten)
      (requested : state.flushRequest ≠ flushNone) :
      ThreadStep state { state with pc := .report packet true }
  | flushClear (packet : Packet) (unwritten : List Sample)
      (position : state.pc = .checkFlush packet unwritten)
      (quiet : state.flushRequest = flushNone) :
      ThreadStep state { state with pc := .write packet unwritten }
  | report (packet : Packet) (interrupted : Bool)
      (position : state.pc = .report packet interrupted) :
      ThreadStep state
        { state with
          reported := state.reported ++ [packet.timestamp]
          pc := if interrupted then .recv else .deliver }

theorem swapFlush_cases
    {state : State} {command : Command} {paused : Bool}
    (position : state.pc = .swapFlush command paused) :
    ThreadStep state (state.swapFlush command paused) := by
  by_cases stopped : command = .stop
  · subst stopped
    exact .swapStop paused position
  · have shape :
        state.swapFlush command paused =
          { state.swapped paused with
            held := state.held ++ command.packets
            pc :=
              if state.flushRequest = flushNone then
                State.afterControl paused
              else
                .drain paused state.flushRequest } := by
      cases command with
      | pcm packet => rfl
      | wake => rfl
      | stop => exact (stopped rfl).elim
    rw [shape]
    by_cases quiet : state.flushRequest = flushNone
    · rw [if_pos quiet]
      exact .swapNone command paused position stopped quiet
    · rw [if_neg quiet]
      exact .swapSome command paused position stopped quiet

/-- Every step of the thread is one of the listed ones. -/
theorem thread_cases
    {state next : State}
    (stepped : state.thread = some next) :
    ThreadStep state next := by
  unfold State.thread at stepped
  split at stepped
  case h_1 position =>
    split at stepped
    · cases stepped
    · next command rest queued =>
        cases stepped
        exact .recv command rest position queued
  case h_2 command position =>
    split at stepped
    · next stopped =>
        cases stepped
        exact .stopSeen command position stopped
    · next running =>
        cases stepped
        exact .stopClear command position (by simpa using running)
  case h_3 command position =>
    cases stepped
    exact .loadPaused command position
  case h_4 command paused position =>
    cases stepped
    exact swapFlush_cases position
  case h_5 paused flush position =>
    split at stepped
    · next empty =>
        cases stepped
        exact .drainEmpty paused flush position empty
    · next packet rest queued =>
        cases stepped
        exact .drainPacket paused flush packet rest position queued
    · next rest queued =>
        cases stepped
        exact .drainWake paused flush rest position queued
    · next rest queued =>
        cases stepped
        exact .drainStop paused flush rest position queued
  case h_6 paused flush kept position =>
    split at stepped
    · next empty =>
        cases stepped
        exact .retained paused flush kept position empty
    · next packet rest holds =>
        split at stepped
        · next spared =>
            cases stepped
            exact .keep paused flush kept packet rest position holds spared
        · next named =>
            cases stepped
            exact
              .discard paused flush kept packet rest position holds
                (by simpa using named)
  case h_7 position =>
    split at stepped
    · next empty =>
        cases stepped
        exact .delivered position empty
    · next packet rest holds =>
        cases stepped
        exact .pop packet rest position holds
  case h_8 packet unwritten position =>
    split at stepped
    · cases stepped
      exact .written packet position
    · cases stepped
      exact .write packet _ position (by simp)
  case h_9 packet unwritten position =>
    split at stepped
    · next stopped =>
        cases stepped
        exact .haltSeen packet unwritten position stopped
    · next running =>
        cases stepped
        exact .haltClear packet unwritten position (by simpa using running)
  case h_10 packet unwritten position =>
    split at stepped
    · next paused =>
        cases stepped
        exact .pauseSeen packet unwritten position paused
    · next playing =>
        cases stepped
        exact .pauseClear packet unwritten position (by simpa using playing)
  case h_11 packet unwritten position =>
    split at stepped
    · next quiet =>
        cases stepped
        exact .flushClear packet unwritten position quiet
    · next requested =>
        cases stepped
        exact .flushSeen packet unwritten position requested
  case h_12 packet interrupted position =>
    cases stepped
    exact .report packet interrupted position
  case h_13 => cases stepped

/-- What one step of a handle can do. -/
inductive CallStep (state : State) : Act → State → Prop where
  | play (seq timestamp : Nat) (pcm : List Sample) :
      CallStep state (.play seq timestamp pcm)
        (state.play seq timestamp pcm)
  | setPaused (paused : Bool) :
      CallStep state (.setPaused paused) (state.setPaused paused)
  | flush (below : Option Nat) :
      CallStep state (.flush below) (state.flush below)
  | drop : CallStep state .drop state.drop
  | send (index : Nat) (call : Call)
      (waiting : state.calls[index]? = some call) :
      CallStep state (.send index)
        { state with
          channel :=
            State.deliverTo state.pc state.channel call.command
          calls := state.calls.eraseIdx index
          sent := state.sent ++ call.command.packets
          flushes :=
            State.returnFlush state.flushes state.plays call }

/-- A step is one of the thread or one of a handle. -/
theorem step_cases
    {state next : State} {act : Act}
    (stepped : step state act = some next) :
    (act = .thread ∧ ThreadStep state next) ∨
      CallStep state act next := by
  cases act with
  | play seq timestamp pcm =>
      cases stepped
      exact Or.inr (.play seq timestamp pcm)
  | setPaused paused =>
      cases stepped
      exact Or.inr (.setPaused paused)
  | flush below =>
      cases stepped
      exact Or.inr (.flush below)
  | drop =>
      cases stepped
      exact Or.inr .drop
  | send index =>
      simp only [step, State.send] at stepped
      split at stepped
      · cases stepped
      · next call waiting =>
          cases stepped
          exact Or.inr (.send index call waiting)
  | thread => exact Or.inl ⟨rfl, thread_cases stepped⟩

/-! ## What a step of the thread can change -/

/-- The flush requests the thread has taken up and not yet carried out. -/
@[simp]
def Pc.filters : Pc → List Nat
  | .drain _ flush => [flush]
  | .retain _ flush _ => [flush]
  | _ => []

/-- The packet the thread is writing. -/
@[simp]
def Pc.writing : Pc → List Packet
  | .write packet _ | .checkStop packet _ | .checkPaused packet _
  | .checkFlush packet _ => [packet]
  | _ => []

/-- Once control is handled the thread waits or delivers. -/
theorem afterControl_cases (paused : Bool) :
    State.afterControl paused = .recv ∨
      State.afterControl paused = .deliver := by
  cases paused
  · exact Or.inr rfl
  · exact Or.inl rfl

/-- What the thread never touches. -/
theorem records_thread
    {state next : State}
    (threadStep : ThreadStep state next) :
    next.sent = state.sent ∧ next.calls = state.calls ∧
      next.plays = state.plays ∧ next.flushes = state.flushes := by
  cases threadStep <;> exact ⟨rfl, rfl, rfl, rfl⟩

theorem filters_afterControl (paused : Bool) :
    (State.afterControl paused).filters = [] := by
  cases paused <;> rfl

/-- What the thread filters for comes out of the flush slot. -/
theorem filters_thread
    {state next : State}
    (threadStep : ThreadStep state next) :
    next.pc.filters ⊆ state.pc.filters ∨
      (state.flushRequest ≠ flushNone ∧
        next.pc.filters = [state.flushRequest]) := by
  cases threadStep with
  | swapSome command paused position running requested =>
      exact Or.inr ⟨requested, rfl⟩
  | swapNone command paused position running quiet =>
      left
      show (State.afterControl paused).filters ⊆ _
      rw [filters_afterControl]
      exact List.nil_subset _
  | retained paused flush kept position empty =>
      left
      show (State.afterControl paused).filters ⊆ _
      rw [filters_afterControl]
      exact List.nil_subset _
  | report packet interrupted position =>
      cases interrupted <;> exact Or.inl (by simp)
  | discard paused flush kept packet rest position holds named =>
      exact Or.inl (List.Subset.refl _)
  | drainPacket paused flush packet rest position queued =>
      exact Or.inl (List.Subset.refl _)
  | drainWake paused flush rest position queued =>
      exact Or.inl (List.Subset.refl _)
  | _ => exact Or.inl (by simp_all)

/-- The thread leaves the slot as it is or empties it. -/
theorem flushRequest_thread
    {state next : State}
    (threadStep : ThreadStep state next) :
    next.flushRequest = state.flushRequest ∨
      next.flushRequest = flushNone := by
  cases threadStep with
  | swapStop paused position => exact Or.inr rfl
  | swapNone command paused position running quiet => exact Or.inr rfl
  | swapSome command paused position running requested => exact Or.inr rfl
  | _ => exact Or.inl rfl

theorem paused_thread
    {state next : State}
    (threadStep : ThreadStep state next) :
    next.paused = state.paused := by
  cases threadStep <;> rfl

/-- A swap takes up every call stored so far. -/
theorem consumed_thread
    {state next : State}
    (threadStep : ThreadStep state next) :
    next.consumed = state.consumed ∨
      (next.consumed = state.flushes.length ∧ next.pc.writing = []) := by
  cases threadStep with
  | swapStop paused position => exact Or.inr ⟨rfl, rfl⟩
  | swapNone command paused position running quiet =>
      right
      rcases afterControl_cases paused with after | after <;>
        exact ⟨rfl, by simp [after]⟩
  | swapSome command paused position running requested =>
      exact Or.inr ⟨rfl, rfl⟩
  | _ => exact Or.inl rfl

end OpenAirplay2.Player

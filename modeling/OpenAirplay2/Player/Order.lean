import OpenAirplay2.Lib.History
import OpenAirplay2.Player.Prompt

/-!
# Nothing is reordered or repeated

The sink is given a piece of each packet the thread pops, in channel order
and of each packet once.  A piece is the whole packet or some of its chunks.
A piece is left incomplete only at a look at the flags that finds one up,
and the request behind it came after the thread last received: the looks at
the top of the loop leave no older one standing.
-/

namespace OpenAirplay2.Player

open OpenAirplay2.Lib.Transition

/-- The packet being written, with what is left of it. -/
@[simp]
def Pc.current : Pc → List (Packet × List Sample)
  | .write packet unwritten | .checkStop packet unwritten
  | .checkPaused packet unwritten | .checkFlush packet unwritten =>
      [(packet, unwritten)]
  | _ => []

theorem writing_eq_current (pc : Pc) :
    pc.writing = pc.current.map Prod.fst := by
  cases pc <;> rfl

namespace State

variable (state : State)

/-- A look at the flags between two chunks of the packet finds one up. -/
def FindsRequest (packet : Packet) : Prop :=
  (∃ unwritten,
      state.pc = .checkStop packet unwritten ∧ state.stop = true) ∨
    (∃ unwritten,
      state.pc = .checkPaused packet unwritten ∧ state.paused = true) ∨
    ∃ unwritten,
      state.pc = .checkFlush packet unwritten ∧
        state.flushRequest ≠ flushNone

/-- The packet the next step breaks off. -/
def breaksOff : Act → List Packet
  | .thread =>
      match state.pc with
      | .checkStop packet _ => if state.stop then [packet] else []
      | .checkPaused packet _ => if state.paused then [packet] else []
      | .checkFlush packet _ =>
          if state.flushRequest = flushNone then [] else [packet]
      | _ => []
  | _ => []

end State

theorem findsRequest_of_breaksOff
    {state : State} {act : Act} {packet : Packet}
    (broken : packet ∈ state.breaksOff act) :
    act = .thread ∧ state.FindsRequest packet := by
  unfold State.breaksOff at broken
  split at broken
  case h_1 =>
    refine ⟨rfl, ?_⟩
    split at broken
    · next other unwritten position =>
        split at broken
        · next stopped =>
            rw [List.mem_singleton.mp broken]
            exact Or.inl ⟨unwritten, position, stopped⟩
        · cases broken
    · next other unwritten position =>
        split at broken
        · next paused =>
            rw [List.mem_singleton.mp broken]
            exact Or.inr (Or.inl ⟨unwritten, position, paused⟩)
        · cases broken
    · next other unwritten position =>
        split at broken
        · cases broken
        · next requested =>
            rw [List.mem_singleton.mp broken]
            exact Or.inr (Or.inr ⟨unwritten, position, requested⟩)
    · cases broken
  case h_2 => cases broken

/-! ## Pieces -/

/-- A packet, with what the sink was given of it. -/
abbrev Piece := Packet × List Sample

/-- A prefix of the packet that ends at a chunk boundary or with the packet. -/
def Piece.Chunked (piece : Piece) : Prop :=
  piece.2 <+: piece.1.pcm ∧
    (piece.2.length % 256 = 0 ∨ piece.2 = piece.1.pcm)

/-- A piece the thread has finished with. -/
def Piece.Finished (broken : List Packet) (piece : Piece) : Prop :=
  piece.Chunked ∧ (piece.2 ≠ piece.1.pcm → piece.1 ∈ broken)

/-- The piece of the packet being written, if there is one. -/
inductive Begun : List (Packet × List Sample) → List Piece → Prop where
  | idle : Begun [] []
  | writing (packet : Packet) (given unwritten : List Sample)
      (split : packet.pcm = given ++ unwritten)
      (boundary : given.length % 256 = 0 ∨ unwritten = []) :
      Begun [(packet, unwritten)] [(packet, given)]

theorem chunked_of_begun
    {current : List (Packet × List Sample)} {begun : List Piece}
    (begins : Begun current begun) :
    ∀ piece ∈ begun, piece.Chunked := by
  cases begins with
  | idle => simp
  | writing packet given unwritten split boundary =>
      intro piece member
      rw [List.mem_singleton.mp member]
      refine ⟨⟨unwritten, split.symm⟩, ?_⟩
      rcases boundary with whole | rfl
      · exact Or.inl whole
      · exact Or.inr (by simpa using split.symm)

/-- The sink was given pieces of packets, in channel order. -/
def InOrder (state : State) (broken : List Packet) : Prop :=
  ∃ finished begun : List Piece,
    List.Sublist
        ((finished ++ begun).map Prod.fst ++ state.waiting) state.sent ∧
      (chunks state.sink).flatten =
        ((finished ++ begun).map Prod.snd).flatten ∧
      (∀ piece ∈ finished, piece.Finished broken) ∧
      Begun state.pc.current begun

theorem inOrder_spawn : InOrder spawn [] :=
  ⟨[], [], List.Sublist.refl _, rfl, by simp, .idle⟩

/-- Pieces stay finished as more packets are broken off. -/
theorem finished_mono
    {broken : List Packet} {finished : List Piece}
    (ended : ∀ piece ∈ finished, piece.Finished broken)
    (more : List Packet) :
    ∀ piece ∈ finished, piece.Finished (broken ++ more) := by
  intro piece member
  rcases ended piece member with ⟨chunked, partly⟩
  exact ⟨chunked, fun short => List.mem_append_left _ (partly short)⟩

/-- The steps that write nothing and leave the current packet alone. -/
theorem inOrder_of_same
    {state next : State} {broken more : List Packet}
    (inOrder : InOrder state broken)
    (waiting : List.Sublist next.waiting state.waiting)
    (sent : next.sent = state.sent)
    (sink : (chunks next.sink).flatten = (chunks state.sink).flatten)
    (current : next.pc.current = state.pc.current) :
    InOrder next (broken ++ more) := by
  rcases inOrder with ⟨finished, begun, sublist, given, ended, begins⟩
  refine ⟨finished, begun, ?_, ?_, finished_mono ended more, ?_⟩
  · rw [sent]
    exact (waiting.append_left _).trans sublist
  · rw [sink, given]
  · rw [current]
    exact begins

/-- The thread is done with the current packet. -/
theorem inOrder_of_ended
    {state next : State} {broken more : List Packet}
    {packet : Packet} {unwritten : List Sample}
    (inOrder : InOrder state broken)
    (waiting : List.Sublist next.waiting state.waiting)
    (sent : next.sent = state.sent)
    (sink : next.sink = state.sink)
    (current : state.pc.current = [(packet, unwritten)])
    (idle : next.pc.current = [])
    (partly : unwritten ≠ [] → packet ∈ more) :
    InOrder next (broken ++ more) := by
  rcases inOrder with ⟨finished, begun, sublist, given, ended, begins⟩
  rw [current] at begins
  cases begins with
  | writing packet piece unwritten split boundary =>
      refine
        ⟨finished ++ [(packet, piece)], [], ?_, ?_, ?_, ?_⟩
      · rw [List.append_nil, sent]
        exact (waiting.append_left _).trans sublist
      · rw [List.append_nil, sink, given]
      · intro other member
        rw [List.mem_append] at member
        rcases member with old | new
        · exact finished_mono ended more other old
        · refine
            ⟨chunked_of_begun (.writing packet piece unwritten split boundary)
              other new, ?_⟩
          rw [List.mem_singleton.mp new]
          intro short
          apply List.mem_append_right
          apply partly
          rintro rfl
          exact short (by simpa using split.symm)
      · rw [idle]
        exact .idle

/-- The flush of the sink hands over no samples. -/
theorem chunks_swapped (state : State) (paused : Bool) :
    chunks (state.swapped paused).sink = chunks state.sink := by
  simp only [State.swapped]
  split_ifs
  · rw [chunks_append, chunks_flush, List.append_nil]
  · rfl

theorem current_afterControl (paused : Bool) :
    (State.afterControl paused).current = [] := by
  cases paused <;> rfl

theorem inOrder_thread
    {state next : State} {broken : List Packet}
    (inOrder : InOrder state broken)
    (threadStep : ThreadStep state next) :
    InOrder next (broken ++ state.breaksOff .thread) := by
  have waiting := waiting_sublist_thread threadStep
  cases threadStep with
  | pop packet rest position holds =>
      -- The front of the queue becomes the current packet.
      rcases inOrder with ⟨finished, begun, sublist, given, ended, begins⟩
      rw [position] at begins
      cases begins with
      | idle =>
          refine
            ⟨finished, [(packet, [])], ?_, ?_,
              finished_mono ended _, ?_⟩
          · simpa [State.waiting, position, holds] using sublist
          · simpa using given
          · exact .writing packet [] packet.pcm rfl (Or.inl rfl)
  | write packet unwritten position more =>
      rcases inOrder with ⟨finished, begun, sublist, given, ended, begins⟩
      rw [position] at begins
      cases begins with
      | writing _ piece _ split boundary =>
          refine
            ⟨finished, [(packet, piece ++ unwritten.take writeChunk)], ?_,
              ?_, finished_mono ended _, ?_⟩
          · simpa [State.waiting, position] using sublist
          · rw [chunks_append, List.flatten_append, given]
            simp
          · refine .writing packet _ _ ?_ ?_
            · rw [List.append_assoc, List.take_append_drop]
              exact split
            · rcases boundary with whole | nothing
              · by_cases rest : unwritten.length ≤ writeChunk
                · exact Or.inr (List.drop_eq_nil_of_le rest)
                · left
                  rw [List.length_append, List.length_take]
                  simp only [writeChunk] at rest ⊢
                  omega
              · exact (more nothing).elim
  | written packet position =>
      have current : state.pc.current = [(packet, [])] := by
        rw [position]
        rfl
      exact
        inOrder_of_ended inOrder waiting rfl rfl current rfl
          (fun some => (some rfl).elim)
  | haltSeen packet unwritten position stopped =>
      have current : state.pc.current = [(packet, unwritten)] := by
        rw [position]
        rfl
      refine inOrder_of_ended inOrder waiting rfl rfl current rfl ?_
      intro
      simp [State.breaksOff, position, stopped]
  | pauseSeen packet unwritten position paused =>
      have current : state.pc.current = [(packet, unwritten)] := by
        rw [position]
        rfl
      refine inOrder_of_ended inOrder waiting rfl rfl current rfl ?_
      intro
      simp [State.breaksOff, position, paused]
  | flushSeen packet unwritten position requested =>
      have current : state.pc.current = [(packet, unwritten)] := by
        rw [position]
        rfl
      refine inOrder_of_ended inOrder waiting rfl rfl current rfl ?_
      intro
      simp [State.breaksOff, position, requested]
  | swapStop paused position =>
      apply inOrder_of_same inOrder waiting rfl
      · exact congrArg List.flatten (chunks_swapped state paused)
      · simp [position]
  | swapNone command paused position running quiet =>
      apply inOrder_of_same inOrder waiting rfl
      · exact congrArg List.flatten (chunks_swapped state paused)
      · show (State.afterControl paused).current = state.pc.current
        rw [current_afterControl, position]
        rfl
  | swapSome command paused position running requested =>
      apply inOrder_of_same inOrder waiting rfl
      · exact congrArg List.flatten (chunks_swapped state paused)
      · simp [position]
  | retained paused flush kept position empty =>
      apply inOrder_of_same inOrder waiting rfl rfl
      show (State.afterControl paused).current = state.pc.current
      rw [current_afterControl, position]
      rfl
  | report packet interrupted position =>
      apply inOrder_of_same inOrder waiting rfl rfl
      cases interrupted <;> simp [position]
  | drainPacket paused flush packet rest position queued
  | drainWake paused flush rest position queued
  | discard paused flush kept packet rest position holds named =>
      exact inOrder_of_same inOrder waiting rfl rfl rfl
  | _ =>
      apply inOrder_of_same inOrder waiting rfl rfl
      simp_all

theorem inOrder_call
    {state next : State} {act : Act} {broken : List Packet}
    (inOrder : InOrder state broken)
    (callStep : CallStep state act next) :
    InOrder next (broken ++ state.breaksOff act) := by
  cases callStep with
  | send index call called =>
      -- What a send brings comes last in both lists.
      rcases inOrder with ⟨finished, begun, sublist, given, ended, begins⟩
      refine
        ⟨finished, begun, ?_, given, finished_mono ended _, begins⟩
      by_cases done : state.pc = .done
      · simp only [State.waiting, State.deliverTo, done, if_true]
        simp only [State.waiting, done] at sublist
        exact sublist.trans (List.sublist_append_left _ _)
      · simp only [State.waiting, State.deliverTo, done, if_false]
        simp only [State.waiting] at sublist
        simpa using sublist.append (List.Sublist.refl call.command.packets)
  | play seq timestamp pcm
  | setPaused paused
  | flush below
  | drop =>
      exact
        inOrder_of_same inOrder (List.Sublist.refl _) rfl rfl rfl

theorem inOrder_step
    {state next : State} {act : Act} {broken : List Packet}
    (inOrder : InOrder state broken)
    (stepped : step state act = some next) :
    InOrder next (broken ++ state.breaksOff act) := by
  rcases step_cases stepped with ⟨rfl, threadStep⟩ | callStep
  · exact inOrder_thread inOrder threadStep
  · exact inOrder_call inOrder callStep

/-! ## The round of a request -/

/-- The thread is past its look at the stop flag. -/
@[simp]
def Pc.pastStop : Pc → Bool
  | .recv | .observeStop _ | .done => false
  | _ => true

/-- The thread took the pause flag to be down. -/
@[simp]
def Pc.pastPause : Pc → Bool
  | .swapFlush _ paused | .drain paused _ | .retain paused _ _ => !paused
  | .deliver | .write _ _ | .checkStop _ _ | .checkPaused _ _
  | .checkFlush _ _ => true
  | .report _ interrupted => !interrupted
  | _ => false

/-- The thread has emptied the flush slot. -/
@[simp]
def Pc.pastFlush : Pc → Bool
  | .drain _ _ | .retain _ _ _ | .deliver | .write _ _ | .checkStop _ _
  | .checkPaused _ _ | .checkFlush _ _ => true
  | .report _ interrupted => !interrupted
  | _ => false

/-- Without a drop, the flag is down where the thread saw it down. -/
theorem stop_down_step
    {state next : State} {act : Act}
    (down : state.pc.pastStop = true → state.stop = false)
    (noDrop : act ≠ .drop)
    (stepped : step state act = some next) :
    next.pc.pastStop = true → next.stop = false := by
  rcases step_cases stepped with ⟨rfl, threadStep⟩ | callStep
  · cases threadStep with
    | swapNone command paused position running quiet =>
        intro
        exact down (by simp [position])
    | retained paused flush kept position empty =>
        intro
        exact down (by simp [position])
    | report packet interrupted position =>
        intro
        exact down (by simp [position])
    | _ => simp_all [State.swapped]
  · cases callStep with
    | drop => exact (noDrop rfl).elim
    | _ => exact down

/-- Without a pause, the flag is down where the thread took it to be. -/
theorem pause_down_step
    {state next : State} {act : Act}
    (down : state.pc.pastPause = true → state.paused = false)
    (noPause : act ≠ .setPaused true)
    (stepped : step state act = some next) :
    next.pc.pastPause = true → next.paused = false := by
  rcases step_cases stepped with ⟨rfl, threadStep⟩ | callStep
  · cases threadStep with
    | swapNone command paused position running quiet =>
        cases paused with
        | false =>
            intro
            exact down (by simp [position])
        | true => simp [State.afterControl]
    | retained paused flush kept position empty =>
        cases paused with
        | false =>
            intro
            exact down (by simp [position])
        | true => simp [State.afterControl]
    | report packet interrupted position =>
        cases interrupted with
        | false =>
            intro
            exact down (by simp [position])
        | true => simp
    | _ => simp_all [State.swapped]
  · cases callStep with
    | setPaused paused =>
        cases paused with
        | false =>
            intro
            rfl
        | true => exact (noPause rfl).elim
    | _ => exact down

/-- Without a flush, the slot is empty where the thread emptied it. -/
theorem flush_down_step
    {state next : State} {act : Act}
    (down : state.pc.pastFlush = true → state.flushRequest = flushNone)
    (noFlush : ∀ below, act ≠ .flush below)
    (stepped : step state act = some next) :
    next.pc.pastFlush = true → next.flushRequest = flushNone := by
  rcases step_cases stepped with ⟨rfl, threadStep⟩ | callStep
  · cases threadStep with
    | swapNone command paused position running quiet =>
        intro
        rfl
    | retained paused flush kept position empty =>
        intro
        exact down (by simp [position])
    | report packet interrupted position =>
        cases interrupted with
        | false =>
            intro
            exact down (by simp [position])
        | true => simp
    | _ => simp_all [State.swapped]
  · cases callStep with
    | flush below => exact (noFlush below rfl).elim
    | _ => exact down

/-- The act raises the flag that the thread is about to look at. -/
def Pc.LooksFor : Pc → Act → Prop
  | .checkStop _ _, .drop => True
  | .checkPaused _ _, .setPaused true => True
  | .checkFlush _ _, .flush _ => True
  | _, _ => False

/-- A flag found up past the thread's look was raised in the meantime. -/
theorem raised_since
    (past : Pc → Bool) (down : State → Prop) (quiet : Act → Prop)
    (kept :
      ∀ state act next, (past state.pc = true → down state) →
        quiet act → queue.step state act = some next →
          past next.pc = true → down next)
    {received found : State} {round : List Act}
    (before : past received.pc = false)
    (ran : queue.exec received round = some found)
    (after : past found.pc = true)
    (up : ¬ down found) :
    ∃ request ∈ round, ¬ quiet request := by
  by_contra absent
  push Not at absent
  have start : past received.pc = true → down received := by
    rw [before]
    intro isPast
    cases isPast
  have held :=
    System.invariant_of_meets
      (fun state : State => past state.pc = true → down state)
      kept start (System.meets_of_forall_mem absent received) ran
  exact up (held after)

/-- A flag found up was raised since the thread received. -/
theorem raised_since_recv
    {received found : State} {round : List Act} {packet : Packet}
    (position : received.pc = .recv)
    (ran : queue.exec received round = some found)
    (finds : found.FindsRequest packet) :
    ∃ request ∈ round, found.pc.LooksFor request := by
  rcases finds with
    ⟨unwritten, looks, stopped⟩ | ⟨unwritten, looks, paused⟩ |
      ⟨unwritten, looks, requested⟩
  · have raised :=
      raised_since Pc.pastStop (fun state => state.stop = false)
        (fun act => act ≠ .drop)
        (fun _ _ _ down quiet stepped => stop_down_step down quiet stepped)
        (by simp [position]) ran (by simp [looks]) (by simp [stopped])
    rcases raised with ⟨request, member, isDrop⟩
    rw [not_not] at isDrop
    refine ⟨request, member, ?_⟩
    rw [looks, isDrop]
    trivial
  · have raised :=
      raised_since Pc.pastPause (fun state => state.paused = false)
        (fun act => act ≠ .setPaused true)
        (fun _ _ _ down quiet stepped => pause_down_step down quiet stepped)
        (by simp [position]) ran (by simp [looks]) (by simp [paused])
    rcases raised with ⟨request, member, isPause⟩
    rw [not_not] at isPause
    refine ⟨request, member, ?_⟩
    rw [looks, isPause]
    trivial
  · have raised :=
      raised_since Pc.pastFlush (fun state => state.flushRequest = flushNone)
        (fun act => ∀ below, act ≠ .flush below)
        (fun _ _ _ down quiet stepped => flush_down_step down quiet stepped)
        (by simp [position]) ran (by simp [looks]) requested
    rcases raised with ⟨request, member, isFlush⟩
    push Not at isFlush
    rcases isFlush with ⟨below, isFlush⟩
    refine ⟨request, member, ?_⟩
    rw [looks, isFlush]
    trivial

/--
A look at the flags broke the packet off.  The flag it found up was raised in
the round of that look, after the thread received for the last time.
-/
def BrokenOff (schedule : List Act) (packet : Packet) : Prop :=
  ∃ before round after received found,
    schedule = before ++ round ++ .thread :: after ∧
      queue.exec spawn before = some received ∧
        received.pc = .recv ∧
          queue.exec received round = some found ∧
            (∀ begun middle, begun <+: round → begun ≠ [] →
              queue.exec received begun = some middle →
                middle.pc ≠ .recv) ∧
              found.FindsRequest packet ∧
                ∃ request ∈ round, found.pc.LooksFor request

theorem brokenOff_of_mem_collect
    {schedule : List Act} {packet : Packet}
    (broken : packet ∈ queue.collect State.breaksOff spawn schedule) :
    BrokenOff schedule packet := by
  rcases System.exists_step_of_mem_collect broken with
    ⟨past, act, after, found, split, reached, breaks⟩
  rcases findsRequest_of_breaksOff breaks with ⟨rfl, finds⟩
  have start : spawn.pc = .recv := rfl
  rcases
      System.exists_last_visit (fun state : State => state.pc = .recv)
        start reached with
    ⟨before, round, received, joined, visits, position, never⟩
  have ran : queue.exec received round = some found := by
    rw [joined, System.exec_append_iff] at reached
    rcases reached with ⟨middle, visitsAgain, ran⟩
    rw [visits, Option.some.injEq] at visitsAgain
    rw [visitsAgain]
    exact ran
  exact
    ⟨before, round, after, received, found, by rw [split, joined], visits,
      position, ran, never, finds,
      raised_since_recv position ran finds⟩

/-! ## The order of the samples -/

/--
What the sink was given is made of pieces: of some of the sent packets, in
their order and of each one once, each piece a whole packet or some of its
first chunks.  A packet given only in part is still being written, or was
broken off.
-/
theorem playback_in_order
    (schedule : List Act) (final : State)
    (reached : queue.exec spawn schedule = some final) :
    final.sent.Nodup ∧
      ∃ pieces : List Piece,
        List.Sublist (pieces.map Prod.fst) final.sent ∧
          (chunks final.sink).flatten = (pieces.map Prod.snd).flatten ∧
            ∀ piece ∈ pieces,
              piece.2 <+: piece.1.pcm ∧
                (piece.2.length % 256 = 0 ∨ piece.2 = piece.1.pcm) ∧
                  (piece.2 ≠ piece.1.pcm →
                    piece.1 ∈ final.pc.writing ∨
                      BrokenOff schedule piece.1) := by
  have recorded : final.Recorded :=
    System.invariant_of_reached State.Recorded
      (fun _ _ _ recorded stepped => recorded_step recorded stepped)
      recorded_spawn reached
  have inOrder : InOrder final (queue.collect State.breaksOff spawn schedule) :=
    System.invariant_of_collect InOrder
      (fun _ _ _ _ inOrder stepped => inOrder_step inOrder stepped)
      inOrder_spawn reached
  rcases inOrder with ⟨finished, begun, sublist, given, ended, begins⟩
  refine
    ⟨(List.nodup_append.mp recorded.distinct).1, finished ++ begun,
      (List.sublist_append_left _ _).trans sublist, given, ?_⟩
  intro piece member
  rw [List.mem_append] at member
  rcases member with left | now
  · rcases ended piece left with ⟨⟨isPrefix, boundary⟩, partly⟩
    refine ⟨isPrefix, boundary, ?_⟩
    intro short
    exact Or.inr (brokenOff_of_mem_collect (partly short))
  · rcases chunked_of_begun begins piece now with ⟨isPrefix, boundary⟩
    refine ⟨isPrefix, boundary, ?_⟩
    intro
    left
    rw [writing_eq_current]
    cases position : final.pc.current with
    | nil =>
        rw [position] at begins
        cases begins
        cases now
    | cons head rest =>
        rw [position] at begins
        cases begins with
        | writing packet piece unwritten split boundary =>
            rw [List.mem_singleton.mp now]
            exact List.mem_singleton_self _

/-- A packet of two chunks, as the first `play` call numbers it. -/
def twoChunks : Packet where
  number := 0
  seq := 7
  timestamp := 0
  pcm := List.replicate 300 0

/-- The thread has looked at the pause flag and not yet popped the packet. -/
def beforePop : List Act :=
  [.play 7 0 twoChunks.pcm, .send 0] ++ List.replicate 3 .thread

/-- The pause comes there, and cuts the packet short. -/
def pausedBeforePop : List Act :=
  beforePop ++ .setPaused true :: List.replicate 6 .thread

/-- The pieces of such a run: the first chunk of the packet. -/
theorem playback_in_order_paused :
    ∃ final,
      queue.exec spawn pausedBeforePop = some final ∧
        ∃ pieces : List Piece,
          List.Sublist (pieces.map Prod.fst) final.sent ∧
            (chunks final.sink).flatten =
              (pieces.map Prod.snd).flatten := by
  have ran :
      ∃ final, queue.exec spawn pausedBeforePop = some final :=
    ⟨_, rfl⟩
  rcases ran with ⟨final, reached⟩
  refine ⟨final, reached, ?_⟩
  rcases (playback_in_order pausedBeforePop final reached).2 with
    ⟨pieces, sublist, given, -⟩
  exact ⟨pieces, sublist, given⟩

/-- The packet that is being written when a request is made. -/
def State.caught (state : State) : Act → List Packet
  | .setPaused true | .flush _ | .drop => state.pc.writing
  | _ => []

/--
The packet was given only in part, and no request was made while it was being
written.
-/
theorem cut_short_before_pop :
    ¬ ∀ (schedule : List Act) (final : State),
      queue.exec spawn schedule = some final →
        final.pc.writing = [] →
          ∃ pieces : List Piece,
            List.Sublist (pieces.map Prod.fst) final.sent ∧
              (chunks final.sink).flatten =
                  (pieces.map Prod.snd).flatten ∧
                ∀ piece ∈ pieces,
                  piece.2 <+: piece.1.pcm ∧
                    (piece.2.length % 256 = 0 ∨ piece.2 = piece.1.pcm) ∧
                      (piece.2 ≠ piece.1.pcm →
                        piece.1 ∈
                          queue.collect State.caught spawn schedule) := by
  intro claim
  have ran :
      ∃ final,
        queue.exec spawn pausedBeforePop = some final ∧
          final.pc.writing = [] ∧ final.sent = [twoChunks] ∧
            (chunks final.sink).flatten.length = 256 :=
    ⟨_, rfl, rfl, rfl, by decide +kernel⟩
  have uncaught :
      queue.collect State.caught spawn pausedBeforePop = [] := rfl
  rcases ran with ⟨final, reached, idle, sent, length⟩
  rcases claim pausedBeforePop final reached idle with
    ⟨pieces, sublist, given, law⟩
  rw [sent] at sublist
  rw [given] at length
  have few := sublist.length_le
  rw [List.length_map, List.length_singleton] at few
  cases pieces with
  | nil => cases length
  | cons piece rest =>
      have alone : rest = [] := by
        rw [List.length_cons] at few
        exact List.length_eq_zero_iff.mp (by omega)
      subst alone
      have whole : piece.1 = twoChunks := by
        simpa using sublist
      have part : piece.2.length = 256 := by
        simpa using length
      have short : piece.2 ≠ piece.1.pcm := by
        intro same
        rw [same, whole, twoChunks, List.length_replicate] at part
        cases part
      have caught := (law piece (List.mem_singleton_self _)).2.2 short
      rw [uncaught] at caught
      cases caught

end OpenAirplay2.Player

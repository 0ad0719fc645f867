import OpenAirplay2.Player.Accounts

/-!
# The thread comes to rest

Left alone, the thread can only receive what is queued, filter and write what
it holds, and then block.  Every one of its steps lowers a rank, read
lexicographically: the commands left to receive, the stage of the iteration,
and the steps left within the stage.
-/

namespace OpenAirplay2.Player

open OpenAirplay2.Lib.Transition

/-- How far the thread is from its next `recv`. -/
def Pc.stage : Pc → Nat
  | .observeStop _ => 6
  | .loadPaused _ => 5
  | .swapFlush _ _ => 4
  | .drain _ _ => 3
  | .retain _ _ _ => 2
  | .deliver | .write _ _ | .checkStop _ _ | .checkPaused _ _
  | .checkFlush _ _ | .report _ _ => 1
  | .recv | .done => 0

/-- The steps left for the packet being written. -/
def Pc.work : Pc → Nat
  | .write _ unwritten => 5 * unwritten.length + 4
  | .checkStop _ unwritten => 5 * unwritten.length + 7
  | .checkPaused _ unwritten => 5 * unwritten.length + 6
  | .checkFlush _ unwritten => 5 * unwritten.length + 5
  | .report _ _ => 3
  | _ => 0

/-- The steps left for a packet not yet popped. -/
def Packet.work (packet : Packet) : Nat :=
  5 * packet.pcm.length + 5

/--
The rank of a state: the commands to receive, then the stage of the
iteration, then the steps left within the stage.
-/
def State.rank (state : State) : Nat × Nat × Nat :=
  (state.channel.length, state.pc.stage,
    state.pc.work + (state.held.map Packet.work).sum)

/-- The order in which the thread's steps descend. -/
abbrev RankLess : Nat × Nat × Nat → Nat × Nat × Nat → Prop :=
  Prod.Lex (· < ·) (Prod.Lex (· < ·) (· < ·))

theorem rankLess_wellFounded : WellFounded RankLess :=
  WellFounded.prod_lex Nat.lt_wfRel.wf
    (WellFounded.prod_lex Nat.lt_wfRel.wf Nat.lt_wfRel.wf)

theorem rankLess_channel
    {state next : State}
    (shorter : next.channel.length < state.channel.length) :
    RankLess next.rank state.rank :=
  Prod.Lex.left _ _ shorter

theorem rankLess_stage
    {state next : State}
    (channel : next.channel = state.channel)
    (earlier : next.pc.stage < state.pc.stage) :
    RankLess next.rank state.rank := by
  simp only [State.rank, channel]
  exact Prod.Lex.right _ (Prod.Lex.left _ _ earlier)

theorem rankLess_work
    {state next : State}
    (channel : next.channel = state.channel)
    (stage : next.pc.stage = state.pc.stage)
    (less :
      next.pc.work + (next.held.map Packet.work).sum <
        state.pc.work + (state.held.map Packet.work).sum) :
    RankLess next.rank state.rank := by
  simp only [State.rank, channel, stage]
  exact Prod.Lex.right _ (Prod.Lex.right _ less)

/-- Every step of the thread lowers its rank. -/
theorem rankLess_thread
    {state next : State}
    (threadStep : ThreadStep state next) :
    RankLess next.rank state.rank := by
  cases threadStep with
  | recv command rest position queued =>
      exact rankLess_channel (by simp [queued])
  | stopSeen command position stopped =>
      exact rankLess_stage rfl (by simp [position, Pc.stage])
  | stopClear command position running =>
      exact rankLess_stage rfl (by simp [position, Pc.stage])
  | loadPaused command position =>
      exact rankLess_stage rfl (by simp [position, Pc.stage])
  | swapStop paused position =>
      exact rankLess_stage rfl (by simp [position, Pc.stage])
  | swapNone command paused position running quiet =>
      refine rankLess_stage rfl ?_
      rcases afterControl_cases paused with next | next <;>
        simp [position, next, Pc.stage]
  | swapSome command paused position running requested =>
      exact rankLess_stage rfl (by simp [position, Pc.stage])
  | drainEmpty paused flush position empty =>
      exact rankLess_stage rfl (by simp [position, Pc.stage])
  | drainPacket paused flush packet rest position queued =>
      exact rankLess_channel (by simp [queued])
  | drainWake paused flush rest position queued =>
      exact rankLess_channel (by simp [queued])
  | drainStop paused flush rest position queued =>
      exact rankLess_channel (by simp [queued])
  | retained paused flush kept position empty =>
      refine rankLess_stage rfl ?_
      rcases afterControl_cases paused with next | next <;>
        simp [position, next, Pc.stage]
  | keep paused flush kept packet rest position holds spared =>
      refine rankLess_work rfl ?_ ?_
      · simp [position, Pc.stage]
      · simp [position, holds, Pc.work, Packet.work]
  | discard paused flush kept packet rest position holds named =>
      refine rankLess_work rfl ?_ ?_
      · simp [position, Pc.stage]
      · simp [position, holds, Pc.work, Packet.work]
  | delivered position empty =>
      exact rankLess_stage rfl (by simp [position, Pc.stage])
  | pop packet rest position holds =>
      refine rankLess_work rfl ?_ ?_
      · simp [position, Pc.stage]
      · simp only [position, holds, Pc.work, Packet.work, List.map_cons,
          List.sum_cons]
        omega
  | written packet position =>
      refine rankLess_work rfl ?_ ?_
      · simp [position, Pc.stage]
      · simp [position, Pc.work]
  | write packet unwritten position more =>
      refine rankLess_work rfl ?_ ?_
      · simp [position, Pc.stage]
      · have nonempty := List.length_pos_iff.mpr more
        simp only [position, Pc.work, List.length_drop, writeChunk]
        omega
  | haltSeen packet unwritten position stopped =>
      exact rankLess_stage rfl (by simp [position, Pc.stage])
  | haltClear packet unwritten position running =>
      refine rankLess_work rfl ?_ ?_
      · simp [position, Pc.stage]
      · simp [position, Pc.work]
  | pauseSeen packet unwritten position paused =>
      refine rankLess_work rfl ?_ ?_
      · simp [position, Pc.stage]
      · simp only [position, Pc.work]
        omega
  | pauseClear packet unwritten position playing =>
      refine rankLess_work rfl ?_ ?_
      · simp [position, Pc.stage]
      · simp [position, Pc.work]
  | flushSeen packet unwritten position requested =>
      refine rankLess_work rfl ?_ ?_
      · simp [position, Pc.stage]
      · simp only [position, Pc.work]
        omega
  | flushClear packet unwritten position quiet =>
      refine rankLess_work rfl ?_ ?_
      · simp [position, Pc.stage]
      · simp [position, Pc.work]
  | report packet interrupted position =>
      cases interrupted with
      | false =>
          refine rankLess_work rfl ?_ ?_
          · simp [position, Pc.stage]
          · simp [position, Pc.work]
      | true => exact rankLess_stage rfl (by simp [position, Pc.stage])

/-! ## A flush that nothing comes between -/

/-- The drain takes every queued packet off the channel. -/
theorem drain_pass
    {state : State} {paused : Bool} {filter : Nat}
    (position : state.pc = .drain paused filter)
    (running : .stop ∉ state.channel) :
    queue.exec state
        (List.replicate (state.channel.length + 1) .thread) =
      some
        { state with
          channel := []
          held := state.held ++ state.channel.flatMap Command.packets
          pc := .retain paused filter [] } := by
  induction queued : state.channel generalizing state with
  | nil =>
      simp [System.exec, queue, step, State.thread, position, queued]
  | cons command rest induction =>
      rw [queued, List.mem_cons, not_or] at running
      rw [List.length_cons, List.replicate_succ, System.exec_cons_iff]
      cases command with
      | pcm packet =>
          refine
            ⟨{ state with
                channel := rest
                held := state.held ++ [packet] }, ?_, ?_⟩
          · simp [queue, step, State.thread, position, queued]
          · rw [@induction
              { state with
                channel := rest
                held := state.held ++ [packet] } position running.2 rfl]
            simp [Command.packets]
      | wake =>
          refine ⟨{ state with channel := rest }, ?_, ?_⟩
          · simp [queue, step, State.thread, position, queued]
          · rw [@induction { state with channel := rest } position
              running.2 rfl]
            simp [Command.packets]
      | stop => exact (running.1 rfl).elim

/-- The filter parts what is held. -/
theorem retain_pass
    {state : State} {paused : Bool} {filter : Nat} {kept : List Packet}
    (position : state.pc = .retain paused filter kept) :
    ∃ pending,
      queue.exec state (List.replicate (state.held.length + 1) .thread) =
        some
          { state with
            pending := pending
            held := kept ++ state.held.filter (keeps filter)
            discarded :=
              state.discarded ++
                (state.held.filter fun packet => !keeps filter packet).map
                  fun packet => (state.consumed - 1, packet)
            pc := State.afterControl paused } := by
  induction holds : state.held generalizing state kept with
  | nil =>
      refine ⟨state.pending, ?_⟩
      simp [System.exec, queue, step, State.thread, position, holds]
  | cons packet rest induction =>
      rw [List.length_cons, List.replicate_succ]
      simp only [System.exec_cons_iff]
      cases keptHere : keeps filter packet with
      | true =>
          rcases @induction
              { state with
                held := rest
                pc := .retain paused filter (kept ++ [packet]) }
              (kept ++ [packet]) rfl rfl with
            ⟨pending, ran⟩
          refine ⟨pending, _, ?_, ran.trans ?_⟩
          · simp [queue, step, State.thread, position, holds, keptHere]
          · simp [keptHere]
      | false =>
          rcases @induction
              { state with
                held := rest
                pending := fetchSub state.pending packet.pcm.length
                discarded :=
                  state.discarded ++ [(state.consumed - 1, packet)] }
              kept position rfl with
            ⟨pending, ran⟩
          refine ⟨pending, _, ?_, ran.trans ?_⟩
          · simp [queue, step, State.thread, position, holds, keptHere]
          · simp [keptHere]

/-- From the swap's drain on, the thread keeps what its filter keeps. -/
theorem flush_pass
    {state : State} {paused : Bool} {filter : Nat}
    (position : state.pc = .drain paused filter)
    (running : .stop ∉ state.channel) :
    ∃ count final,
      queue.exec state (List.replicate count .thread) = some final ∧
        final.pc = State.afterControl paused ∧ final.channel = [] ∧
          final.held =
            (state.held ++ state.channel.flatMap Command.packets).filter
              (keeps filter) ∧
            final.discarded =
              state.discarded ++
                ((state.held ++
                      state.channel.flatMap Command.packets).filter
                    fun packet => !keeps filter packet).map
                  fun packet => (state.consumed - 1, packet) := by
  have drained := drain_pass position running
  rcases @retain_pass
      { state with
        channel := []
        held := state.held ++ state.channel.flatMap Command.packets
        pc := .retain paused filter [] }
      paused filter [] rfl with
    ⟨pending, retained⟩
  have ran :=
    (System.exec_append_iff queue state _ _ _).mpr ⟨_, drained, retained⟩
  rw [← List.replicate_add] at ran
  exact ⟨_, _, ran, rfl, rfl, rfl, rfl⟩

/-! ## The thread left alone -/

/-- A running thread without a step is blocked on an empty channel. -/
theorem blocked_of_thread_none
    {state : State}
    (alive : state.pc ≠ .done)
    (blocked : state.thread = none) :
    state.pc = .recv ∧ state.channel = [] := by
  unfold State.thread at blocked
  split at blocked
  case h_1 position =>
    split at blocked
    · next empty => exact ⟨position, empty⟩
    · cases blocked
  case h_13 position => exact (alive position).elim
  all_goals repeat' split at blocked
  all_goals cases blocked

/--
Left alone, the thread comes to rest on an empty channel, and keeps what its
steps keep.
-/
theorem thread_comes_to_rest
    (invariant : State → Prop)
    (preserved :
      ∀ state next, invariant state → state.Unstopped →
        queue.step state .thread = some next → invariant next)
    {state : State}
    (unstopped : state.Unstopped)
    (start : invariant state) :
    ∃ count final,
      queue.exec state (List.replicate count .thread) = some final ∧
        final.pc = .recv ∧ final.channel = [] ∧
          final.Unstopped ∧ invariant final := by
  have rested :=
    queue.repeat_comes_to_rest rankLess_wellFounded State.rank .thread
      (fun state => state.Unstopped ∧ invariant state)
      (fun state next holds stepped =>
        ⟨unstopped_thread holds.1 (thread_cases stepped),
          preserved state next holds.2 holds.1 stepped⟩)
      (fun state next _ stepped => rankLess_thread (thread_cases stepped))
      ⟨unstopped, start⟩
  rcases rested with
    ⟨count, final, reached, blocked, finalUnstopped, finalHolds⟩
  rcases blocked_of_thread_none finalUnstopped.alive blocked with
    ⟨position, empty⟩
  exact
    ⟨count, final, reached, position, empty, finalUnstopped, finalHolds⟩

end OpenAirplay2.Player

import OpenAirplay2.Player.Rest

/-!
# A packet that is due

A packet that waits while nothing stands against it is written: playback is
not paused, no filter ahead of the packet names it, and the thread has a
command to wake it.  Left alone the thread then receives, filters and writes
until it comes to the packet.
-/

namespace OpenAirplay2.Player

open OpenAirplay2.Lib.Transition

namespace State

variable (packet : Packet) (state : State)

/-- Nothing at this point of the iteration keeps the packet from its turn. -/
def Course : Prop :=
  match state.pc with
  | .recv => state.channel ≠ []
  | .observeStop _ | .loadPaused _ | .done => True
  | .swapFlush _ paused => paused = false
  | .drain paused filter =>
      paused = false ∧ keeps filter packet = true ∧
        state.flushRequest = flushNone
  | .retain paused filter kept =>
      paused = false ∧
        (packet ∈ kept ++ state.channel.flatMap Command.packets ∨
          keeps filter packet = true) ∧
          state.flushRequest = flushNone
  | .deliver | .write _ _ | .checkStop _ _ | .checkPaused _ _
  | .checkFlush _ _ => state.flushRequest = flushNone
  | .report _ interrupted =>
      interrupted = false ∧ state.flushRequest = flushNone

/-- The packet waits for its turn, and nothing will cost it that. -/
structure Due : Prop where
  unstopped : state.Unstopped
  playing : state.paused = false
  waits : packet ∈ state.waiting
  spared :
    state.flushRequest ≠ flushNone →
      keeps state.flushRequest packet = true
  course : state.Course packet

end State

/-- The packet's turn comes at the latest when it is alone. -/
theorem due_thread
    {packet : Packet} {state next : State}
    (due : state.Due packet)
    (threadStep : ThreadStep state next) :
    next.Due packet ∨
      (packet ∈ next.pc.writing ∧ next.flushRequest = flushNone) := by
  rcases due with ⟨unstopped, playing, waits, spared, course⟩
  have nextUnstopped := unstopped_thread unstopped threadStep
  have nextPlaying := (paused_thread threadStep).trans playing
  have nextSpared :
      next.flushRequest ≠ flushNone →
        keeps next.flushRequest packet = true := by
    rcases flushRequest_thread threadStep with same | none
    · rw [same]
      exact spared
    · exact fun requested => (requested none).elim
  have onward
      (nextWaits : packet ∈ next.waiting)
      (nextCourse : next.Course packet) :
      next.Due packet ∨
        (packet ∈ next.pc.writing ∧ next.flushRequest = flushNone) :=
    Or.inl ⟨nextUnstopped, nextPlaying, nextWaits, nextSpared, nextCourse⟩
  cases threadStep with
  | recv command rest position queued =>
      apply onward
      · simpa [State.waiting, position, queued, Pc.inHand] using waits
      · trivial
  | stopSeen command position stopped =>
      simp [unstopped.flag] at stopped
  | stopClear command position running =>
      apply onward
      · simpa [State.waiting, position, Pc.inHand] using waits
      · trivial
  | loadPaused command position =>
      apply onward
      · simpa [State.waiting, position, Pc.inHand] using waits
      · exact playing
  | swapStop paused position =>
      have impossible := unstopped.inHand
      simp [position] at impossible
  | swapNone command paused position running quiet =>
      simp only [State.Course, position] at course
      subst course
      apply onward
      · simpa [State.waiting, State.swapped, State.afterControl, position,
          Pc.inHand] using waits
      · rfl
  | swapSome command paused position running requested =>
      simp only [State.Course, position] at course
      apply onward
      · simpa [State.waiting, State.swapped, position, Pc.inHand]
          using waits
      · exact ⟨course, spared requested, rfl⟩
  | drainEmpty paused filter position empty =>
      simp only [State.Course, position] at course
      apply onward
      · simpa [State.waiting, position, Pc.inHand] using waits
      · exact ⟨course.1, Or.inr course.2.1, course.2.2⟩
  | drainPacket paused filter queuedPacket rest position queued =>
      simp only [State.Course, position] at course
      apply onward
      · simpa [State.waiting, position, queued, Pc.inHand,
          Command.packets] using waits
      · simpa only [State.Course, position] using course
  | drainWake paused filter rest position queued =>
      simp only [State.Course, position] at course
      apply onward
      · simpa [State.waiting, position, queued, Pc.inHand,
          Command.packets] using waits
      · simpa only [State.Course, position] using course
  | drainStop paused filter rest position queued =>
      have impossible := unstopped.channel
      simp [queued] at impossible
  | retained paused filter kept position empty =>
      simp only [State.Course, position] at course
      rcases course with ⟨rfl, -, quiet⟩
      apply onward
      · simpa [State.waiting, State.afterControl, position, empty,
          Pc.inHand] using waits
      · exact quiet
  | keep paused filter kept passed rest position holds passes =>
      simp only [State.Course, position] at course
      rcases course with ⟨unpaused, past, quiet⟩
      apply onward
      · simpa [State.waiting, position, holds, Pc.inHand] using waits
      · refine ⟨unpaused, ?_, quiet⟩
        rcases past with behind | passes
        · left
          rw [List.mem_append] at behind ⊢
          exact behind.imp_left (List.mem_append_left _)
        · exact Or.inr passes
  | discard paused filter kept named rest position holds discards =>
      simp only [State.Course, position] at course
      rcases course with ⟨unpaused, past, quiet⟩
      apply onward
      · -- The packet is not the one named, or there is another copy of it.
        simp only [State.waiting, position, holds, Pc.kept, Pc.inHand,
          List.nil_append, List.mem_append, List.mem_cons] at waits past ⊢
        rcases past with (passed | queued) | passes
        · exact Or.inl (Or.inl passed)
        · exact Or.inr queued
        · rcases waits with (passed | rfl | held) | queued
          · exact Or.inl (Or.inl passed)
          · rw [passes] at discards
            cases discards
          · exact Or.inl (Or.inr held)
          · exact Or.inr queued
      · simpa only [State.Course, position] using
          (⟨unpaused, past, quiet⟩ :
            _ ∧ _ ∧ state.flushRequest = flushNone)
  | delivered position empty =>
      apply onward
      · simpa [State.waiting, position, Pc.inHand] using waits
      · -- What is not held waits in the channel, which wakes the thread.
        intro silent
        have silent : state.channel = [] := silent
        simp [State.waiting, position, empty, silent, Pc.inHand] at waits
  | pop popped rest position holds =>
      simp only [State.Course, position] at course
      simp only [State.waiting, position, holds, Pc.kept, Pc.inHand,
        List.nil_append, List.mem_append, List.mem_cons] at waits
      rcases waits with (rfl | held) | queued
      · exact Or.inr ⟨List.mem_singleton_self _, course⟩
      · apply onward
        · simp [State.waiting, held]
        · exact course
      · apply onward
        · simp only [State.waiting, List.mem_append]
          exact Or.inr queued
        · exact course
  | written written position
  | write written unwritten position more
  | haltClear written unwritten position running
  | pauseClear written unwritten position unpaused
  | flushClear written unwritten position quiet =>
      simp only [State.Course, position] at course
      apply onward
      · simpa [State.waiting, position, Pc.inHand] using waits
      · first
          | exact course
          | exact ⟨rfl, course⟩
  | haltSeen written unwritten position stopped =>
      simp [unstopped.flag] at stopped
  | pauseSeen written unwritten position paused =>
      simp [playing] at paused
  | flushSeen written unwritten position requested =>
      simp only [State.Course, position] at course
      exact (requested course).elim
  | report written interrupted position =>
      simp only [State.Course, position] at course
      rcases course with ⟨rfl, quiet⟩
      apply onward
      · simpa [State.waiting, position, Pc.inHand] using waits
      · exact quiet

/-- A thread with a packet due is not blocked. -/
theorem thread_of_due
    {packet : Packet} {state : State}
    (due : state.Due packet) :
    ∃ next, queue.step state .thread = some next := by
  rw [← Option.isSome_iff_exists, Option.isSome_iff_ne_none]
  intro blocked
  rcases blocked_of_thread_none due.unstopped.alive blocked with
    ⟨position, empty⟩
  have woken := due.course
  simp only [State.Course, position] at woken
  exact woken empty

/--
Left alone, the thread comes to write a packet that is due, with no flush
waiting; and it keeps what its steps keep.
-/
theorem due_is_written
    (invariant : State → Prop)
    (preserved :
      ∀ state next, invariant state → ThreadStep state next →
        invariant next)
    {packet : Packet} {state : State}
    (due : state.Due packet)
    (start : invariant state) :
    ∃ count final,
      queue.exec state (List.replicate count .thread) = some final ∧
        packet ∈ final.pc.writing ∧ final.flushRequest = flushNone ∧
          invariant final := by
  have reaches :=
    queue.repeat_reaches rankLess_wellFounded State.rank .thread
      (fun state => state.Due packet ∧ invariant state)
      (fun state =>
        packet ∈ state.pc.writing ∧ state.flushRequest = flushNone ∧
          invariant state)
      ?_ ⟨due, start⟩
  · exact reaches
  · rintro state ⟨due, holds⟩
    rcases thread_of_due due with ⟨next, stepped⟩
    have threadStep := thread_cases stepped
    have kept := preserved state next holds threadStep
    refine ⟨next, stepped, rankLess_thread threadStep, ?_⟩
    rcases due_thread due threadStep with onward | ⟨writing, quiet⟩
    · exact Or.inl ⟨onward, kept⟩
    · exact Or.inr ⟨writing, quiet, kept⟩

end OpenAirplay2.Player

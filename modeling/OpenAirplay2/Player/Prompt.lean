import OpenAirplay2.Player.Overwrites

/-!
# Transport control is prompt

The thread looks at the flags between any two chunks, so at most one chunk
goes to the sink before a pause or a flush is heard.  What it may still write
is read off where it stands: nothing where a look at the flag comes before
the next chunk, one chunk where it does not.
-/

namespace OpenAirplay2.Player

open OpenAirplay2.Lib.Transition

/-- The chunk a sink call hands over, if it is a write. -/
@[simp]
def SinkCall.chunks : SinkCall → List (List Sample)
  | .write _ chunk => [chunk]
  | .flush => []

/-- The chunks of some sink calls, in order. -/
def chunks (calls : List SinkCall) : List (List Sample) :=
  calls.flatMap SinkCall.chunks

@[simp]
theorem chunks_append (left right : List SinkCall) :
    chunks (left ++ right) = chunks left ++ chunks right :=
  List.flatMap_append

@[simp]
theorem chunks_flush : chunks [.flush] = [] :=
  rfl

@[simp]
theorem chunks_write (packet : Packet) (chunk : List Sample) :
    chunks [.write packet chunk] = [chunk] :=
  rfl

/-- At most one chunk, of no more than 256 samples. -/
def AtMostOneChunk (calls : List SinkCall) : Prop :=
  (chunks calls).length ≤ 1 ∧
    ∀ chunk ∈ chunks calls, chunk.length ≤ 256

/--
The chunks the thread may still write before it looks at the pause flag.  Past
the look at the top of its loop the local copy decides.
-/
@[simp]
def Pc.untilPause : Pc → Nat
  | .swapFlush _ paused | .drain paused _ | .retain paused _ _ =>
      if paused then 0 else 1
  | .deliver | .write _ _ | .checkFlush _ _ => 1
  | .report _ interrupted => if interrupted then 0 else 1
  | _ => 0

/-- The chunks it may still write before it takes up a flush. -/
@[simp]
def Pc.untilFlush : Pc → Nat
  | .drain paused _ | .retain paused _ _ => if paused then 0 else 1
  | .deliver | .write _ _ => 1
  | .report _ interrupted => if interrupted then 0 else 1
  | _ => 0

/-- The calls of a stretch leave room for what the thread may still write. -/
structure Few (calls : List SinkCall) (left : Nat) : Prop where
  count : (chunks calls).length + left ≤ 1
  small : ∀ chunk ∈ chunks calls, chunk.length ≤ 256

namespace Few

theorem none_yet
    {left : Nat}
    (bound : left ≤ 1) :
    Few [] left where
  count := by simpa [chunks] using bound
  small := by simp [chunks]

theorem atMostOneChunk
    {calls : List SinkCall} {left : Nat}
    (few : Few calls left) :
    AtMostOneChunk calls :=
  ⟨(Nat.le_add_right _ _).trans few.count, few.small⟩

theorem mono
    {calls : List SinkCall} {left fewer : Nat}
    (few : Few calls left)
    (less : fewer ≤ left) :
    Few calls fewer :=
  ⟨(Nat.add_le_add_left less _).trans few.count, few.small⟩

/-- A chunk is written out of what was left. -/
theorem write
    {calls : List SinkCall} {left : Nat}
    (few : Few calls (left + 1))
    (packet : Packet) (unwritten : List Sample) :
    Few (calls ++ [.write packet (unwritten.take writeChunk)]) left := by
  rcases few with ⟨count, small⟩
  constructor
  · simp only [chunks_append, chunks_write, List.length_append,
      List.length_singleton]
    omega
  · intro chunk member
    simp only [chunks_append, chunks_write, List.mem_append,
      List.mem_singleton] at member
    rcases member with old | rfl
    · exact small chunk old
    · exact List.length_take_le _ _

/-- A sink flush writes nothing. -/
theorem flush
    {calls : List SinkCall} {left : Nat}
    (few : Few calls left) :
    Few (calls ++ [.flush]) left := by
  rcases few with ⟨count, small⟩
  exact ⟨by simpa using count, by simpa using small⟩

end Few

/-- What the next step of the thread asks of the sink. -/
def State.sinkCalls (state : State) : List SinkCall :=
  match state.pc with
  | .swapFlush _ paused =>
      if state.flushRequest != flushNone || (paused && !state.wasPaused) then
        [.flush]
      else
        []
  | .write packet (sample :: rest) =>
      [.write packet ((sample :: rest).take writeChunk)]
  | _ => []

theorem sink_swapped
    {state : State} {command : Command} {paused : Bool}
    (position : state.pc = .swapFlush command paused) :
    (state.swapped paused).sink = state.sink ++ state.sinkCalls := by
  simp only [State.swapped, State.sinkCalls, position]
  split_ifs
  · rfl
  · exact (List.append_nil _).symm

theorem sink_thread
    {state next : State}
    (threadStep : ThreadStep state next) :
    next.sink = state.sink ++ state.sinkCalls := by
  cases threadStep with
  | swapStop paused position => exact sink_swapped position
  | swapNone command paused position running quiet =>
      exact sink_swapped position
  | swapSome command paused position running requested =>
      exact sink_swapped position
  | write packet unwritten position more =>
      cases unwritten with
      | nil => exact (more rfl).elim
      | cons sample rest => simp [State.sinkCalls, position]
  | _ => simp_all [State.sinkCalls]

/-- A handle call moves neither the thread nor the sink. -/
theorem still_call
    {state next : State} {act : Act}
    (callStep : CallStep state act next) :
    next.pc = state.pc ∧ next.sink = state.sink := by
  cases callStep <;> exact ⟨rfl, rfl⟩

/-! ## Pausing -/

theorem untilPause_le (pc : Pc) : pc.untilPause ≤ 1 := by
  cases pc with
  | swapFlush command paused => cases paused <;> simp
  | drain paused flush => cases paused <;> simp
  | retain paused flush kept => cases paused <;> simp
  | report packet interrupted => cases interrupted <;> simp
  | _ => simp

/-- While the flag is up, a step writes only what was left. -/
theorem few_paused_thread
    {state next : State} {calls : List SinkCall}
    (raised : state.paused = true)
    (few : Few calls state.pc.untilPause)
    (threadStep : ThreadStep state next) :
    Few (calls ++ state.sinkCalls) next.pc.untilPause := by
  have swapped :
      ∀ command paused, state.pc = .swapFlush command paused →
        Few (calls ++ state.sinkCalls) state.pc.untilPause := by
    intro command paused position
    simp only [State.sinkCalls, position]
    rw [position] at few
    split_ifs
    · exact few.flush
    · rw [List.append_nil]
      exact few
  cases threadStep with
  | write packet unwritten position more =>
      cases unwritten with
      | nil => exact (more rfl).elim
      | cons sample rest =>
          rw [position] at few
          simp only [State.sinkCalls, position]
          exact few.write packet (sample :: rest)
  | swapStop paused position =>
      exact (swapped _ _ position).mono (Nat.zero_le _)
  | swapNone command paused position running quiet =>
      refine (swapped _ _ position).mono ?_
      cases paused <;> simp [position, State.afterControl]
  | swapSome command paused position running requested =>
      refine (swapped _ _ position).mono ?_
      simp [position]
  | pauseClear packet unwritten position playing =>
      rw [raised] at playing
      cases playing
  | retained paused flush kept position empty =>
      simp only [State.sinkCalls, position, List.append_nil]
      refine few.mono ?_
      cases paused <;> simp [position, State.afterControl]
  | report packet interrupted position =>
      simp only [State.sinkCalls, position, List.append_nil]
      refine few.mono ?_
      cases interrupted <;> simp [position]
  | drainPacket paused flush packet rest position queued
  | drainWake paused flush rest position queued
  | discard paused flush kept packet rest position holds named =>
      rw [position] at few
      simp only [State.sinkCalls, position, List.append_nil]
      exact few
  | _ =>
      simp_all only [State.sinkCalls, List.append_nil]
      exact few.mono (by simp)

/-- The flag stays up until it is stored again. -/
theorem paused_call
    {state next : State} {act : Act}
    (raised : state.paused = true)
    (kept : act ≠ .setPaused false)
    (callStep : CallStep state act next) :
    next.paused = true := by
  cases callStep with
  | setPaused paused =>
      cases paused
      · exact (kept rfl).elim
      · rfl
  | _ => exact raised

/-- What the thread has written since a pause that is still in force. -/
def PausedSince (start : List SinkCall) (state : State) : Prop :=
  state.paused = true ∧
    ∃ calls, state.sink = start ++ calls ∧ Few calls state.pc.untilPause

theorem pausedSince_step
    {start : List SinkCall} {state next : State} {act : Act}
    (since : PausedSince start state)
    (kept : act ≠ .setPaused false)
    (stepped : step state act = some next) :
    PausedSince start next := by
  rcases since with ⟨raised, calls, sink, few⟩
  rcases step_cases stepped with ⟨rfl, threadStep⟩ | callStep
  · refine
      ⟨(paused_thread threadStep).trans raised, calls ++ state.sinkCalls,
        ?_, few_paused_thread raised few threadStep⟩
    rw [sink_thread threadStep, sink, List.append_assoc]
  · rcases still_call callStep with ⟨samePc, sameSink⟩
    refine ⟨paused_call raised kept callStep, calls, ?_, ?_⟩
    · rw [sameSink, sink]
    · rw [samePc]
      exact few

/-! ## Flushing -/

theorem untilFlush_le (pc : Pc) : pc.untilFlush ≤ 1 := by
  cases pc with
  | drain paused flush => cases paused <;> simp
  | retain paused flush kept => cases paused <;> simp
  | report packet interrupted => cases interrupted <;> simp
  | _ => simp

/-- A waiting request is taken up by a flush of the sink, or goes on waiting. -/
theorem few_flush_thread
    {state next : State} {calls : List SinkCall}
    (waiting : state.flushRequest ≠ flushNone)
    (few : Few calls state.pc.untilFlush)
    (threadStep : ThreadStep state next) :
    state.sinkCalls = [.flush] ∨
      (next.flushRequest ≠ flushNone ∧ .flush ∉ state.sinkCalls ∧
        Few (calls ++ state.sinkCalls) next.pc.untilFlush) := by
  have taken :
      ∀ command paused, state.pc = .swapFlush command paused →
        state.sinkCalls = [.flush] := by
    intro command paused position
    simp [State.sinkCalls, position, waiting]
  cases threadStep with
  | swapStop paused position => exact Or.inl (taken _ _ position)
  | swapNone command paused position running quiet =>
      exact Or.inl (taken _ _ position)
  | swapSome command paused position running requested =>
      exact Or.inl (taken _ _ position)
  | flushClear packet unwritten position quiet =>
      exact (waiting quiet).elim
  | write packet unwritten position more =>
      cases unwritten with
      | nil => exact (more rfl).elim
      | cons sample rest =>
          rw [position] at few
          simp only [State.sinkCalls, position]
          exact Or.inr ⟨waiting, by simp, few.write packet (sample :: rest)⟩
  | retained paused flush kept position empty =>
      simp only [State.sinkCalls, position, List.append_nil]
      refine Or.inr ⟨waiting, by simp, few.mono ?_⟩
      cases paused <;> simp [position, State.afterControl]
  | report packet interrupted position =>
      simp only [State.sinkCalls, position, List.append_nil]
      refine Or.inr ⟨waiting, by simp, few.mono ?_⟩
      cases interrupted <;> simp [position]
  | drainPacket paused flush packet rest position queued
  | drainWake paused flush rest position queued
  | discard paused flush kept packet rest position holds named =>
      rw [position] at few
      simp only [State.sinkCalls, position, List.append_nil]
      exact Or.inr ⟨waiting, by simp, few⟩
  | _ =>
      simp_all only [State.sinkCalls, List.append_nil]
      exact Or.inr ⟨waiting, by simp, few.mono (by simp)⟩

/-- A request goes on waiting through the calls of the handles. -/
theorem flushRequest_call
    {state next : State} {act : Act}
    (waiting : state.flushRequest ≠ flushNone)
    (callStep : CallStep state act next) :
    next.flushRequest ≠ flushNone := by
  cases callStep with
  | flush below => exact encodeFlush_ne_none below
  | _ => exact waiting

/-- The calls before the first flush of the sink. -/
def beforeFlush (calls : List SinkCall) : List SinkCall :=
  calls.takeWhile fun call => call != .flush

theorem beforeFlush_of_not_mem
    {calls : List SinkCall}
    (noFlush : .flush ∉ calls) :
    beforeFlush calls = calls := by
  rw [beforeFlush, List.takeWhile_eq_self_iff]
  intro call member
  rw [bne_iff_ne]
  intro same
  exact noFlush (same ▸ member)

theorem beforeFlush_append
    {calls : List SinkCall}
    (flushed : .flush ∈ calls)
    (more : List SinkCall) :
    beforeFlush (calls ++ more) = beforeFlush calls := by
  induction calls with
  | nil => cases flushed
  | cons call rest induction =>
      by_cases here : call = .flush
      · simp [beforeFlush, here]
      · have later : .flush ∈ rest := by
          rcases List.mem_cons.mp flushed with same | later
          · exact (here same.symm).elim
          · exact later
        have passed : (call != SinkCall.flush) = true := by
          rw [bne_iff_ne]
          exact here
        simp only [List.cons_append, beforeFlush, List.takeWhile_cons, passed,
          if_true]
        exact congrArg (call :: ·) (induction later)

/-- What the thread has written since a flush request, up to the sink flush. -/
def FlushedSince (start : List SinkCall) (state : State) : Prop :=
  ∃ calls, state.sink = start ++ calls ∧
    ((state.flushRequest ≠ flushNone ∧ .flush ∉ calls ∧
        Few calls state.pc.untilFlush) ∨
      (.flush ∈ calls ∧ AtMostOneChunk (beforeFlush calls)))

theorem flushedSince_step
    {start : List SinkCall} {state next : State} {act : Act}
    (since : FlushedSince start state)
    (stepped : step state act = some next) :
    FlushedSince start next := by
  rcases since with ⟨calls, sink, phase⟩
  rcases step_cases stepped with ⟨rfl, threadStep⟩ | callStep
  · refine ⟨calls ++ state.sinkCalls, ?_, ?_⟩
    · rw [sink_thread threadStep, sink, List.append_assoc]
    · rcases phase with ⟨waiting, noFlush, few⟩ | ⟨flushed, atMost⟩
      · rcases few_flush_thread waiting few threadStep with
          taken | ⟨stillWaiting, quiet, stillFew⟩
        · right
          rw [taken]
          refine ⟨by simp, ?_⟩
          have cut : beforeFlush (calls ++ [.flush]) = calls := by
            rw [beforeFlush,
              List.takeWhile_append_of_pos (by
                intro call member
                rw [bne_iff_ne]
                intro same
                exact noFlush (same ▸ member))]
            simp
          rw [cut]
          exact few.atMostOneChunk
        · left
          refine ⟨stillWaiting, ?_, stillFew⟩
          rw [List.mem_append, not_or]
          exact ⟨noFlush, quiet⟩
      · right
        rw [beforeFlush_append flushed]
        exact ⟨List.mem_append_left _ flushed, atMost⟩
  · rcases still_call callStep with ⟨samePc, sameSink⟩
    refine ⟨calls, by rw [sameSink, sink], ?_⟩
    rcases phase with ⟨waiting, noFlush, few⟩ | done
    · left
      rw [samePc]
      exact ⟨flushRequest_call waiting callStep, noFlush, few⟩
    · exact Or.inr done

/-! ## The two bounds -/

/--
Whatever the thread is doing when a pause is stored, it writes at most one
chunk before the next resume; and at most one after a flush is stored, before
it flushes the sink.
-/
theorem control_is_prompt (state : State) :
    (∀ during final,
        queue.exec (state.setPaused true) during = some final →
          Act.setPaused false ∉ during →
            ∃ calls,
              final.sink = state.sink ++ calls ∧ AtMostOneChunk calls) ∧
      ∀ below during final,
        queue.exec (state.flush below) during = some final →
          ∃ calls,
            final.sink = state.sink ++ calls ∧
              AtMostOneChunk (beforeFlush calls) := by
  constructor
  · intro during final ran unresumed
    have kept :
        ∀ act ∈ during, act ≠ .setPaused false := by
      intro act member same
      exact unresumed (same ▸ member)
    have start : PausedSince state.sink (state.setPaused true) :=
      ⟨rfl, [], (List.append_nil _).symm, .none_yet (untilPause_le _)⟩
    have since : PausedSince state.sink final :=
      System.invariant_of_meets (PausedSince state.sink)
        (fun _ _ _ since kept stepped => pausedSince_step since kept stepped)
        start (System.meets_of_forall_mem kept _) ran
    rcases since with ⟨-, calls, sink, few⟩
    exact ⟨calls, sink, few.atMostOneChunk⟩
  · intro below during final ran
    have start : FlushedSince state.sink (state.flush below) :=
      ⟨[], (List.append_nil _).symm,
        Or.inl
          ⟨encodeFlush_ne_none below, List.not_mem_nil,
            .none_yet (untilFlush_le _)⟩⟩
    have since : FlushedSince state.sink final :=
      System.invariant_of_reached (FlushedSince state.sink)
        (fun _ _ _ since stepped => flushedSince_step since stepped)
        start ran
    rcases since with ⟨calls, sink, ⟨-, noFlush, few⟩ | ⟨-, atMost⟩⟩
    · refine ⟨calls, sink, ?_⟩
      rw [beforeFlush_of_not_mem noFlush]
      exact few.atMostOneChunk
    · exact ⟨calls, sink, atMost⟩

/-- The thread has popped a packet of two chunks and written the first. -/
def betweenChunks : List Act :=
  [.play 7 0 (List.replicate 300 0), .send 0] ++ List.replicate 7 .thread

/-- The pause and a flush come between the two chunks. -/
theorem control_is_prompt_between_chunks :
    ∃ state final,
      queue.exec spawn betweenChunks = some state ∧
        state.sink.length = 1 ∧
          queue.exec (state.setPaused true)
              (.flush none :: List.replicate 2 .thread) =
            some final ∧
          ∃ calls,
            final.sink = state.sink ++ calls ∧ AtMostOneChunk calls := by
  have ran :
      ∃ state final,
        queue.exec spawn betweenChunks = some state ∧
          state.sink.length = 1 ∧
            queue.exec (state.setPaused true)
                (.flush none :: List.replicate 2 .thread) =
              some final :=
    ⟨_, _, rfl, rfl, rfl⟩
  rcases ran with ⟨state, final, reached, written, paused⟩
  refine ⟨state, final, reached, written, paused, ?_⟩
  exact (control_is_prompt state).1 _ final paused (by decide)

end OpenAirplay2.Player

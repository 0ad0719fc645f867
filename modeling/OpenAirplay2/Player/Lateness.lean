import OpenAirplay2.Player.Records

/-!
# Flush requests that are taken up late

The thread takes a request up at a time of its own, and drains the whole
channel for it.  A packet played after the call returned meets the filter all
the same, unless the thread had been through the channel by then.
-/

namespace OpenAirplay2.Player

open OpenAirplay2.Lib.Transition

/--
The call governs the packet: it names it, and had not returned when its
`play` call started.
-/
def FlushCall.governs (flush : FlushCall) (packet : Packet) : Bool :=
  flush.names packet && !flush.returnedBefore packet

/-- The request stands for a call, which governs the packet. -/
def Governed (call : Option FlushCall) (packet : Packet) : Prop :=
  ∃ flush ∈ call, flush.governs packet = true

instance (call : Option FlushCall) (packet : Packet) :
    Decidable (Governed call packet) :=
  inferInstanceAs (Decidable (∃ flush ∈ call, _))

/--
The packet was played after some flush call had returned, and no later call
names it.
-/
def State.clears (state : State) (packet : Packet) : Bool :=
  (state.flushes.any fun flush => flush.returnedBefore packet) &&
    state.flushes.all fun flush => !flush.governs packet

/-- The samples of the packets no call governs. -/
def State.clearSamples (state : State) :
    List (Packet × Sample) → List (Packet × Sample) :=
  List.filter fun tagged => state.clears tagged.1

/-- A flush only affects audio that was buffered when it was requested. -/
structure OnlyBuffered (state : State) : Prop where
  discarded :
    ∀ entry ∈ state.discarded, ∀ flush,
      state.flushes[entry.1]? = some flush →
        flush.returnedBefore entry.2 = false
  delivered : Accounted state.clearSamples state

/--
The thread takes up a request whose filter discards a queued packet that the
call does not govern; or such a packet is sent while the thread drains the
channel; or the thread breaks off a packet that no call governs.
-/
def Oversteps (state : State) : Act → Prop
  | .thread =>
      match state.pc with
      | .swapFlush _ _ =>
          state.flushRequest ≠ flushNone ∧
            ∃ packet ∈ state.waiting,
              keeps state.flushRequest packet = false ∧
                ¬ Governed state.flushes.getLast? packet
      | .checkPaused packet unwritten =>
          state.paused = true ∧ unwritten ≠ [] ∧
            state.clears packet = true
      | .checkFlush packet unwritten =>
          state.flushRequest ≠ flushNone ∧ unwritten ≠ [] ∧
            state.clears packet = true
      | _ => False
  | .send index =>
      match state.pc with
      | .drain _ filter =>
          ∃ call ∈ state.calls[index]?, ∃ packet ∈ call.command.packets,
            keeps filter packet = false ∧
              ¬ Governed state.flushes[state.consumed - 1]? packet
      | _ => False
  | _ => False

instance (state : State) (act : Act) : Decidable (Oversteps state act) := by
  unfold Oversteps
  split
  · split <;> infer_instance
  · split <;> infer_instance
  · infer_instance

/-- The packets the filter under way is still going to judge. -/
def State.judged (state : State) : List Packet :=
  match state.pc with
  | .drain _ _ => state.held ++ state.channel.flatMap Command.packets
  | .retain _ _ _ => state.held
  | _ => []

/-- Whatever the filter under way discards is governed by its call. -/
def State.Rightful (state : State) : Prop :=
  ∀ filter ∈ state.pc.filters, ∀ packet ∈ state.judged,
    keeps filter packet = false →
      Governed state.flushes[state.consumed - 1]? packet

theorem rightful_spawn : spawn.Rightful := by
  simp [State.Rightful, spawn]

/-- What a filter judges was waiting, or was judged already. -/
theorem rightful_thread
    {state next : State}
    (rightful : state.Rightful)
    (within : ¬ Oversteps state .thread)
    (threadStep : ThreadStep state next) :
    next.Rightful := by
  intro filter member packet judged discards
  cases threadStep with
  | swapSome command paused position running requested =>
      simp only [Oversteps, position, not_and, not_exists, not_not]
        at within
      rw [Pc.filters, List.mem_singleton] at member
      rw [member] at discards
      have waits : packet ∈ state.waiting := by
        simpa [State.waiting, position, State.judged, State.swapped]
          using judged
      have governed := within requested packet waits discards
      rw [List.getLast?_eq_getElem?] at governed
      exact governed
  | swapNone command paused position running quiet =>
      rcases afterControl_cases paused with after | after <;>
        simp [after] at member
  | retained paused flush kept position empty =>
      rcases afterControl_cases paused with after | after <;>
        simp [after] at member
  | report reported interrupted position =>
      cases interrupted <;> simp at member
  | drainEmpty paused flush position empty =>
      apply rightful filter _ packet _ discards
      · simpa [position] using member
      · simpa [State.judged, position, empty] using judged
  | drainPacket paused flush arrived rest position queued =>
      apply rightful filter member packet _ discards
      simpa [State.judged, position, queued, Command.packets] using judged
  | drainWake paused flush rest position queued =>
      apply rightful filter member packet _ discards
      simpa [State.judged, position, queued, Command.packets] using judged
  | keep paused flush kept passed rest position holds spared =>
      apply rightful filter _ packet _ discards
      · simpa [position] using member
      · simp only [State.judged, position, holds] at judged ⊢
        exact List.mem_cons_of_mem _ judged
  | discard paused flush kept named rest position holds discarded =>
      apply rightful filter member packet _ discards
      simp only [State.judged, position, holds] at judged ⊢
      exact List.mem_cons_of_mem _ judged
  | _ => simp at member

/-- A record returned before a packet was so before a step of a handle. -/
theorem returnedBefore_call
    {state next : State} {act : Act} {packet : Packet} {index : Nat}
    {flush : FlushCall}
    (numbered : packet.number < state.plays)
    (callStep : CallStep state act next)
    (found : next.flushes[index]? = some flush)
    (returned : flush.returnedBefore packet = true) :
    ∃ old, state.flushes[index]? = some old ∧
      old.returnedBefore packet = true := by
  cases callStep with
  | play seq timestamp pcm => exact ⟨flush, found, returned⟩
  | setPaused paused => exact ⟨flush, found, returned⟩
  | drop => exact ⟨flush, found, returned⟩
  | flush below =>
      simp only [State.flush, List.getElem?_append] at found
      split at found
      · exact ⟨flush, found, returned⟩
      · have fresh := List.mem_of_getElem? found
        rw [List.mem_singleton] at fresh
        rw [fresh] at returned
        cases returned
  | send place call called =>
      simp only [returnFlush_getElem?, Option.map_eq_some_iff] at found
      rcases found with ⟨old, recordedCall, rfl⟩
      refine ⟨old, recordedCall, ?_⟩
      by_cases own : call = .flush index
      · -- It returns now, after the packet's play had started.
        simp only [own, if_true, FlushCall.returnedBefore,
          decide_eq_true_eq] at returned
        omega
      · simpa only [own, if_false] using returned

/-- A call that governs a packet still does after a step of a handle. -/
theorem governs_call
    {state next : State} {act : Act} {packet : Packet} {index : Nat}
    {flush : FlushCall}
    (numbered : packet.number < state.plays)
    (callStep : CallStep state act next)
    (found : state.flushes[index]? = some flush)
    (governs : flush.governs packet = true) :
    ∃ new, next.flushes[index]? = some new ∧
      new.governs packet = true := by
  cases callStep with
  | play seq timestamp pcm => exact ⟨flush, found, governs⟩
  | setPaused paused => exact ⟨flush, found, governs⟩
  | drop => exact ⟨flush, found, governs⟩
  | flush below =>
      refine ⟨flush, ?_, governs⟩
      rcases List.getElem?_eq_some_iff.mp found with ⟨bound, -⟩
      simp only [State.flush]
      rw [List.getElem?_append_left bound, found]
  | send place call called =>
      simp only [returnFlush_getElem?, found, Option.map_some,
        Option.some.injEq, exists_eq_left']
      by_cases own : call = .flush index
      · simp only [FlushCall.governs, Bool.and_eq_true] at governs
        simp only [own, if_true, FlushCall.governs, Bool.and_eq_true,
          Bool.not_eq_true']
        refine ⟨governs.1, ?_⟩
        simp only [FlushCall.returnedBefore, decide_eq_false_iff_not]
        omega
      · simpa only [own, if_false] using governs

/-- A packet clear after a step of a handle was clear before it. -/
theorem clears_call
    {state next : State} {act : Act} {packet : Packet}
    (numbered : packet.number < state.plays)
    (callStep : CallStep state act next)
    (cleared : next.clears packet = true) :
    state.clears packet = true := by
  simp only [State.clears, Bool.and_eq_true, List.any_eq_true,
    List.all_eq_true, Bool.not_eq_true'] at cleared ⊢
  rcases cleared with ⟨⟨flush, member, returned⟩, ungoverned⟩
  constructor
  · rcases List.getElem?_of_mem member with ⟨index, found⟩
    rcases returnedBefore_call numbered callStep found returned with
      ⟨old, recordedCall, before⟩
    exact ⟨old, List.mem_of_getElem? recordedCall, before⟩
  · intro old oldMember
    rcases List.getElem?_of_mem oldMember with ⟨index, found⟩
    by_contra governs
    rw [Bool.not_eq_false] at governs
    rcases governs_call numbered callStep found governs with
      ⟨new, recordedCall, still⟩
    rw [ungoverned new (List.mem_of_getElem? recordedCall)] at still
    cases still

theorem governed_call
    {state next : State} {act : Act} {packet : Packet} {index : Nat}
    (numbered : packet.number < state.plays)
    (callStep : CallStep state act next)
    (governed : Governed state.flushes[index]? packet) :
    Governed next.flushes[index]? packet := by
  rcases governed with ⟨flush, found, governs⟩
  exact governs_call numbered callStep found governs

theorem judged_subset_waiting
    (state : State) :
    state.judged ⊆ state.waiting := by
  intro packet judged
  cases position : state.pc with
  | drain paused flush =>
      simpa [State.judged, State.waiting, position] using judged
  | retain paused flush kept =>
      simp only [State.judged, position] at judged
      simp [State.waiting, judged]
  | _ => simp [State.judged, position] at judged

/-- Only a send during a drain brings a filter more to judge. -/
theorem judged_call
    {state next : State} {act : Act} {packet : Packet}
    (callStep : CallStep state act next)
    (judged : packet ∈ next.judged) :
    packet ∈ state.judged ∨
      ∃ index call, act = .send index ∧
        state.calls[index]? = some call ∧
          packet ∈ call.command.packets ∧
            ∃ paused flush, state.pc = .drain paused flush := by
  cases callStep with
  | play seq timestamp pcm => exact Or.inl judged
  | setPaused paused => exact Or.inl judged
  | flush below => exact Or.inl judged
  | drop => exact Or.inl judged
  | send index call called =>
      cases position : state.pc with
      | drain paused flush =>
          have split :
              packet ∈ state.held ++
                  state.channel.flatMap Command.packets ∨
                packet ∈ call.command.packets := by
            rw [← List.mem_append]
            simpa [State.judged, position, State.deliverTo] using judged
          rcases split with old | new
          · left
            simpa [State.judged, position] using old
          · exact
              Or.inr ⟨index, call, rfl, called, new, paused, flush, rfl⟩
      | retain paused flush kept =>
          left
          simpa [State.judged, position] using judged
      | _ => simp [State.judged, position] at judged

theorem rightful_call
    {state next : State} {act : Act}
    (recorded : state.Recorded)
    (rightful : state.Rightful)
    (within : ¬ Oversteps state act)
    (callStep : CallStep state act next) :
    next.Rightful := by
  have sameConsumed : next.consumed = state.consumed := by
    cases callStep <;> rfl
  have sameFilters : next.pc.filters = state.pc.filters := by
    cases callStep <;> rfl
  intro filter member packet judged discards
  rw [sameFilters] at member
  rw [sameConsumed]
  rcases judged_call callStep judged with
    old | ⟨index, call, rfl, called, carried, paused, flush, position⟩
  · have sent := recorded.waiting packet (judged_subset_waiting state old)
    have numbered :=
      recorded.numbered packet (List.mem_append_left _ sent)
    exact
      governed_call numbered callStep
        (rightful filter member packet old discards)
  · have inFlight : packet ∈ state.inFlight :=
      List.mem_flatMap.mpr
        ⟨call, List.mem_of_getElem? called, carried⟩
    have numbered :=
      recorded.numbered packet (List.mem_append_right _ inFlight)
    have same : filter = flush := by
      simpa [position] using member
    simp only [Oversteps, position, not_exists, not_and, not_not]
      at within
    exact
      governed_call numbered callStep
        (within call called packet carried (by rwa [← same]))

theorem mem_played
    {state : State} {tagged : Packet × Sample}
    (member : tagged ∈ state.played) :
    tagged.1 ∈ state.sent := by
  rcases List.mem_flatMap.mp member with ⟨packet, sent, inPacket⟩
  rcases List.mem_map.mp inPacket with ⟨sample, -, rfl⟩
  exact sent

/-- Every outstanding sample is one of a sent packet. -/
def State.Sourced (state : State) : Prop :=
  ∀ tagged ∈ state.outstanding, tagged.1 ∈ state.sent

theorem sourced_spawn : spawn.Sourced := by
  simp [State.Sourced, State.outstanding, State.written, State.waiting,
    spawn]

theorem sent_grows
    {state next : State} {act : Act}
    (stepped : step state act = some next) :
    state.sent ⊆ next.sent := by
  rcases step_cases stepped with ⟨-, threadStep⟩ | callStep
  · rw [(records_thread threadStep).1]
    exact List.Subset.refl _
  · cases callStep with
    | send index call called => exact List.subset_append_left _ _
    | play seq timestamp pcm
    | setPaused paused
    | flush below
    | drop => exact List.Subset.refl _

theorem sourced_step
    {state next : State} {act : Act}
    (unstopped : state.Unstopped)
    (sourced : state.Sourced)
    (stepped : step state act = some next) :
    next.Sourced := by
  rcases outstanding_step unstopped stepped with
    ⟨before, after, arriving, split, joined, grown⟩
  intro tagged member
  rw [joined, List.mem_append, List.mem_append] at member
  rcases member with (first | second) | third
  · apply sent_grows stepped
    apply sourced
    simp [split, first]
  · apply sent_grows stepped
    apply sourced
    simp [split, second]
  · apply mem_played
    rw [grown]
    exact List.mem_append_right _ third

/-- A governed packet is not clear. -/
theorem not_clears_of_governed
    {state : State} {packet : Packet} {index : Nat}
    (governed : Governed state.flushes[index]? packet) :
    state.clears packet = false := by
  rcases governed with ⟨flush, found, governs⟩
  by_contra cleared
  simp only [State.clears, Bool.not_eq_false, Bool.and_eq_true,
    List.all_eq_true, Bool.not_eq_true'] at cleared
  have ungoverned := cleared.2 flush (List.mem_of_getElem? found)
  rw [governs] at ungoverned
  cases ungoverned

/-- The clear samples of one packet. -/
theorem clearSamples_packet
    {state : State} {packet : Packet} {samples : List Sample}
    (unclear : samples ≠ [] → state.clears packet = false) :
    state.clearSamples (samples.map fun sample => (packet, sample)) =
      [] := by
  rcases eq_or_ne samples [] with empty | more
  · simp [State.clearSamples, empty]
  · simp [State.clearSamples, unclear more]

/-- Within its rights the thread loses no clear sample. -/
theorem clearSamples_losses
    {state : State} {act : Act}
    (rightful : state.Rightful)
    (within : ¬ Oversteps state act) :
    state.clearSamples (state.losses act) = [] := by
  have nothing : state.clearSamples [] = [] := rfl
  cases act with
  | thread =>
      cases position : state.pc with
      | retain paused flush kept =>
          cases holds : state.held with
          | nil => simp [State.losses, position, holds, nothing]
          | cons packet rest =>
              cases passed : keeps flush packet with
              | true =>
                  simp [State.losses, position, holds, passed, nothing]
              | false =>
                  have governed :=
                    rightful flush (by simp [position]) packet
                      (by simp [State.judged, position, holds]) passed
                  simp only [State.losses, position, holds, passed]
                  exact
                    clearSamples_packet fun _ =>
                      not_clears_of_governed governed
      | checkPaused packet unwritten =>
          simp only [Oversteps, position, not_and, Bool.not_eq_true]
            at within
          by_cases paused : state.paused = true
          · simp only [State.losses, position, paused, if_true]
            exact clearSamples_packet (within paused)
          · simp [State.losses, position, paused, nothing]
      | checkFlush packet unwritten =>
          simp only [Oversteps, position, not_and, Bool.not_eq_true]
            at within
          by_cases quiet : state.flushRequest = flushNone
          · simp [State.losses, position, quiet, nothing]
          · simp only [State.losses, position, quiet, if_false]
            exact clearSamples_packet (within quiet)
      | _ => simp [State.losses, position, nothing]
  | _ => simp [State.losses, nothing]

/-- Fewer packets are clear after a step, among those already sent. -/
theorem clears_step
    {state next : State} {act : Act} {packet : Packet}
    (recorded : state.Recorded)
    (stepped : step state act = some next)
    (sent : packet ∈ state.sent)
    (cleared : next.clears packet = true) :
    state.clears packet = true := by
  rcases step_cases stepped with ⟨-, threadStep⟩ | callStep
  · simpa only [State.clears, (records_thread threadStep).2.2.2]
      using cleared
  · have numbered :=
      recorded.numbered packet (List.mem_append_left _ sent)
    exact clears_call numbered callStep cleared

/-- What is clear after a step is found among what was clear before. -/
theorem clearSamples_step
    {state next : State} {act : Act}
    (recorded : state.Recorded)
    (stepped : step state act = some next)
    {samples : List (Packet × Sample)}
    (sent : ∀ tagged ∈ samples, tagged.1 ∈ state.sent) :
    next.clearSamples (state.clearSamples samples) =
      next.clearSamples samples := by
  simp only [State.clearSamples, List.filter_filter]
  apply List.filter_congr
  intro tagged member
  cases cleared : next.clears tagged.1 with
  | false => rfl
  | true =>
      rw [clears_step recorded stepped (sent tagged member) cleared]
      rfl

/-- What the filter discards, the call it is for governs. -/
theorem discarded_step
    {state next : State} {act : Act}
    (recorded : state.Recorded)
    (rightful : state.Rightful)
    (onlyBuffered : OnlyBuffered state)
    (stepped : step state act = some next) :
    ∀ entry ∈ next.discarded, ∀ flush,
      next.flushes[entry.1]? = some flush →
        flush.returnedBefore entry.2 = false := by
  intro entry member flush found
  rcases step_cases stepped with ⟨-, threadStep⟩ | callStep
  · rw [(records_thread threadStep).2.2.2] at found
    rcases discarded_thread threadStep entry member with
      old | ⟨paused, filter, kept, rest, position, holds, own, discards⟩
    · exact onlyBuffered.discarded entry old flush found
    · have governed :=
        rightful filter (by simp [position]) entry.2
          (by simp [State.judged, position, holds]) discards
      rcases governed with ⟨governor, recordedCall, governs⟩
      rw [← own, Option.mem_def, found, Option.some.injEq]
        at recordedCall
      rw [recordedCall]
      simp only [FlushCall.governs, Bool.and_eq_true,
        Bool.not_eq_true'] at governs
      exact governs.2
  · have same : next.discarded = state.discarded := by
      cases callStep <;> rfl
    rw [same] at member
    have numbered :=
      recorded.numbered entry.2
        (List.mem_append_left _ (recorded.discarded entry member))
    by_contra returned
    rw [Bool.not_eq_false] at returned
    rcases returnedBefore_call numbered callStep found returned with
      ⟨old, recordedCall, before⟩
    rw [onlyBuffered.discarded entry member old recordedCall] at before
    cases before

theorem onlyBuffered_step
    {state next : State} {act : Act}
    (unstopped : state.Unstopped)
    (recorded : state.Recorded)
    (sourced : state.Sourced)
    (rightful : state.Rightful)
    (onlyBuffered : OnlyBuffered state)
    (within : ¬ Oversteps state act)
    (stepped : step state act = some next) :
    OnlyBuffered next := by
  constructor
  · exact discarded_step recorded rightful onlyBuffered stepped
  · have losses : next.clearSamples (state.losses act) = [] := by
      have sent : ∀ tagged ∈ state.losses act, tagged.1 ∈ state.sent := by
        intro tagged member
        apply sourced
        rcases outstanding_step unstopped stepped with
          ⟨before, after, arriving, split, -, -⟩
        simp [split, member]
      rw [← clearSamples_step recorded stepped sent,
        clearSamples_losses rightful within]
      rfl
    have accounted : Accounted next.clearSamples state := by
      have sentPlayed :
          ∀ tagged ∈ state.played, tagged.1 ∈ state.sent :=
        fun tagged member => mem_played member
      rw [Accounted, ← clearSamples_step recorded stepped sourced,
        ← clearSamples_step recorded stepped sentPlayed,
        onlyBuffered.delivered]
    exact
      (accounted_step_iff (fun _ _ => List.filter_append _ _) unstopped
        accounted stepped).mpr losses

theorem rightful_step
    {state next : State} {act : Act}
    (recorded : state.Recorded)
    (rightful : state.Rightful)
    (within : ¬ Oversteps state act)
    (stepped : step state act = some next) :
    next.Rightful := by
  rcases step_cases stepped with ⟨rfl, threadStep⟩ | callStep
  · exact rightful_thread rightful within threadStep
  · exact rightful_call recorded rightful within callStep

/--
In a run in which the thread never takes up a request too late, and breaks
off no packet that no call governs, a flush only affects audio that was
buffered when it was requested.
-/
theorem flush_spares_later
    (schedule : List Act) (final : State)
    (noDrop : ∀ act ∈ schedule, act ≠ .drop)
    (reached : queue.exec spawn schedule = some final)
    (within :
      queue.Meets (fun state act => ¬ Oversteps state act)
        spawn schedule) :
    OnlyBuffered final := by
  have nothingDiscarded : OnlyBuffered spawn :=
    ⟨by simp [spawn], accounted_spawn _⟩
  have invariant :
      (final.Unstopped ∧ final.Recorded ∧ final.Sourced) ∧
        final.Rightful ∧ OnlyBuffered final := by
    apply
      System.invariant_of_meets
        (fun state =>
          (state.Unstopped ∧ state.Recorded ∧ state.Sourced) ∧
            state.Rightful ∧ OnlyBuffered state)
        ?_
        ⟨⟨unstopped_spawn, recorded_spawn, sourced_spawn⟩,
          rightful_spawn, nothingDiscarded⟩
        ((System.meets_of_forall_mem noDrop spawn).and within) reached
    rintro state act next
      ⟨⟨unstopped, recorded, sourced⟩, rightful, onlyBuffered⟩
      ⟨notDrop, within⟩ stepped
    exact
      ⟨⟨unstopped_step unstopped notDrop stepped,
          recorded_step recorded stepped,
          sourced_step unstopped sourced stepped⟩,
        rightful_step recorded rightful within stepped,
        onlyBuffered_step unstopped recorded sourced rightful
          onlyBuffered within stepped⟩
  exact invariant.2.2

/-- A flush is over before the next packet is played. -/
def flushThenPlay : List Act :=
  [.flush none, .send 0] ++ List.replicate 7 .thread ++
    [.play 7 0 [1], .send 0] ++ List.replicate 12 .thread

/-- The packet is written. -/
theorem flush_spares_later_played :
    ∃ final, queue.exec spawn flushThenPlay = some final ∧
      final.clearSamples final.written = [(⟨0, 7, 0, [1]⟩, 1)] ∧
        OnlyBuffered final :=
  ⟨_, rfl, rfl,
    flush_spares_later flushThenPlay _ (by decide) rfl (by decide)⟩

/-- The packet is played after the flush returned, before the thread looks. -/
def playedTooSoon : List Act :=
  [.flush none, .send 0, .play 7 0 [1], .send 0] ++
    List.replicate 7 .thread

/-- The flush discards it all the same. -/
theorem flush_discards_later :
    ¬ ∀ (schedule : List Act) (final : State),
      (∀ act ∈ schedule, act ≠ .drop) →
        queue.exec spawn schedule = some final →
          OnlyBuffered final := by
  intro claim
  have ran :
      ∃ final, queue.exec spawn playedTooSoon = some final ∧
        final.discarded = [(0, ⟨0, 7, 0, [1]⟩)] ∧
          final.flushes[0]? = some ⟨none, [], some 0⟩ :=
    ⟨_, rfl, rfl, rfl⟩
  rcases ran with ⟨final, reached, discarded, recordedCall⟩
  have onlyBuffered := claim playedTooSoon final (by decide) reached
  have notReturned :=
    onlyBuffered.discarded (0, ⟨0, 7, 0, [1]⟩) (by simp [discarded])
      ⟨none, [], some 0⟩ recordedCall
  cases notReturned

end OpenAirplay2.Player

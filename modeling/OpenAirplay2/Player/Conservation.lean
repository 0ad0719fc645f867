import OpenAirplay2.Player.Attention

/-!
# What pause and flush leave alone

Two laws of the queue are laws about a view of the outstanding samples: under
pauses alone no sample may be lost at all, and under bounded flushes no sample
of a packet at or above every boundary.  The thread breaks both at the same
place, between two chunks of a packet it has already popped, where the rest
of that packet is in no queue any more.
-/

namespace OpenAirplay2.Player

open OpenAirplay2.Lib.Transition

/-! ## Pausing -/

/-- The calls of a run that only plays, pauses and resumes. -/
def Act.PlaysOrPauses : Act → Prop
  | .play _ _ _ | .setPaused _ | .send _ | .thread => True
  | .flush _ | .drop => False

instance (act : Act) : Decidable act.PlaysOrPauses :=
  match act with
  | .play _ _ _ | .setPaused _ | .send _ | .thread => instDecidableTrue
  | .flush _ | .drop => instDecidableFalse

/-- No flush has been requested. -/
structure State.Unflushed (state : State) : Prop where
  slot : state.flushRequest = flushNone
  filters : state.pc.filters = []

/-- Every played sample is written or still queued, in play order. -/
def Conserved (state : State) : Prop :=
  Accounted (List.map Prod.snd) state

/-- The thread is about to break off a packet that is not fully written. -/
def CutsForPause (state : State) : Act → Prop
  | .thread =>
      match state.pc with
      | .checkPaused _ unwritten => state.paused = true ∧ unwritten ≠ []
      | _ => False
  | _ => False

instance (state : State) (act : Act) :
    Decidable (CutsForPause state act) :=
  match act with
  | .thread => by
      unfold CutsForPause
      generalize state.pc = pc
      exact
        match pc with
        | .checkPaused _ _ => inferInstance
        | .recv | .observeStop _ | .loadPaused _ | .swapFlush _ _
        | .drain _ _ | .retain _ _ _ | .deliver | .write _ _
        | .checkStop _ _ | .checkFlush _ _ | .report _ _ | .done =>
            instDecidableFalse
  | .play _ _ _ | .setPaused _ | .flush _ | .drop | .send _ =>
      instDecidableFalse

theorem unflushed_spawn : spawn.Unflushed :=
  ⟨rfl, rfl⟩

theorem unflushed_thread
    {state next : State}
    (unflushed : state.Unflushed)
    (threadStep : ThreadStep state next) :
    next.Unflushed := by
  constructor
  · rcases flushRequest_thread threadStep with same | emptied
    · rw [same]
      exact unflushed.slot
    · exact emptied
  · rcases filters_thread threadStep with fewer | ⟨requested, -⟩
    · rw [unflushed.filters] at fewer
      exact List.subset_nil.mp fewer
    · exact (requested unflushed.slot).elim

theorem unflushed_step
    {state next : State} {act : Act}
    (unflushed : state.Unflushed)
    (allowed : act.PlaysOrPauses)
    (stepped : step state act = some next) :
    next.Unflushed := by
  rcases step_cases stepped with ⟨rfl, threadStep⟩ | callStep
  · exact unflushed_thread unflushed threadStep
  · cases callStep with
    | flush below => exact allowed.elim
    | play seq timestamp pcm
    | setPaused paused
    | drop
    | send index call waiting =>
        exact ⟨unflushed.slot, unflushed.filters⟩

/-- Without flushes the only losses are those of a cut packet. -/
theorem losses_unflushed
    {state : State} (act : Act)
    (unflushed : state.Unflushed) :
    (state.losses act).map Prod.snd = [] ↔
      ¬ CutsForPause state act := by
  rcases unflushed with ⟨slot, filters⟩
  cases act with
  | thread =>
      cases position : state.pc with
      | retain paused flush kept => simp [position] at filters
      | checkPaused packet unwritten =>
          by_cases paused : state.paused = true <;>
            simp [State.losses, CutsForPause, position, paused]
      | checkFlush packet unwritten =>
          simp [State.losses, CutsForPause, position, slot]
      | _ => simp [State.losses, CutsForPause, position]
  | _ => simp [State.losses, CutsForPause]

theorem noDrop_of_playsOrPauses
    {act : Act}
    (allowed : act.PlaysOrPauses) :
    act ≠ .drop := by
  rintro rfl
  exact allowed

/-- Without flushes nothing is drained. -/
theorem heard_of_unflushed
    {state : State} (act : Act)
    (unflushed : state.Unflushed) :
    ¬ DeafDrain state act := by
  have filters := unflushed.filters
  intro deafDrain
  cases act with
  | thread =>
      cases position : state.pc with
      | drain paused flush => simp [position] at filters
      | _ => simp [DeafDrain, position] at deafDrain
  | _ => exact deafDrain

/-- What a run without flushes keeps. -/
theorem unflushed_run
    {schedule : List Act} {final : State}
    (allowed : ∀ act ∈ schedule, act.PlaysOrPauses)
    (reached : queue.exec spawn schedule = some final) :
    final.Unstopped ∧ final.Unflushed ∧ final.Attentive := by
  refine
    System.invariant_of_meets
      (fun state =>
        state.Unstopped ∧ state.Unflushed ∧ state.Attentive)
      ?_ ⟨unstopped_spawn, unflushed_spawn, attentive_spawn⟩
      (System.meets_of_forall_mem allowed spawn) reached
  rintro state act next ⟨unstopped, unflushed, attentive⟩ allowed stepped
  exact
    ⟨unstopped_step unstopped (noDrop_of_playsOrPauses allowed) stepped,
      unflushed_step unflushed allowed stepped,
      attentive_step attentive (heard_of_unflushed act unflushed)
        stepped⟩

/-- What the thread keeps while it plays on with nobody calling. -/
structure PlayingOn (sent : List Packet) (state : State) : Prop where
  unflushed : state.Unflushed
  attentive : state.Attentive
  conserved : Conserved state
  playing : state.paused = false
  calls : state.calls = []
  sent : state.sent = sent

theorem playingOn_thread
    {sent : List Packet} {state next : State}
    (playingOn : PlayingOn sent state)
    (unstopped : state.Unstopped)
    (stepped : queue.step state .thread = some next) :
    PlayingOn sent next := by
  rcases playingOn with
    ⟨unflushed, attentive, conserved, playing, calls, sentSame⟩
  change step state .thread = some next at stepped
  have threadStep : ThreadStep state next := thread_cases stepped
  have whole : ¬ CutsForPause state .thread := by
    intro cuts
    cases position : state.pc with
    | checkPaused packet unwritten =>
        simp [CutsForPause, position, playing] at cuts
    | _ => simp [CutsForPause, position] at cuts
  exact
    { unflushed := unflushed_thread unflushed threadStep
      attentive :=
        attentive_step attentive (heard_of_unflushed .thread unflushed)
          stepped
      conserved :=
        (accounted_step_iff (fun _ _ => List.map_append) unstopped
          conserved stepped).mpr
          ((losses_unflushed .thread unflushed).mpr whole)
      playing := (paused_thread threadStep).trans playing
      calls := (records_thread threadStep).2.1.trans calls
      sent := (records_thread threadStep).1.trans sentSame }

/--
A pause loses no sample as long as the thread does not break off a packet for
it, and only then.  Every sample then reaches the sink once the pause is
over.
-/
theorem pause_conserves_iff
    (schedule : List Act) (final : State)
    (allowed : ∀ act ∈ schedule, act.PlaysOrPauses)
    (reached : queue.exec spawn schedule = some final) :
    (queue.Always Conserved spawn schedule ↔
        queue.Meets (fun state act => ¬ CutsForPause state act)
          spawn schedule) ∧
      (queue.Meets (fun state act => ¬ CutsForPause state act)
          spawn schedule →
        final.paused = false → final.calls = [] →
          ∃ count resting,
            queue.exec final (List.replicate count .thread) =
                some resting ∧
              resting.written.map Prod.snd =
                final.played.map Prod.snd) := by
  have decided :
      queue.Always Conserved spawn schedule ↔
        queue.Meets (fun state act => ¬ CutsForPause state act)
          spawn schedule := by
    refine
      System.always_iff_meets
        (fun state => state.Unstopped ∧ state.Unflushed)
        ?_ ?_ ⟨final, reached⟩ ⟨unstopped_spawn, unflushed_spawn⟩
        (accounted_spawn _)
        (System.meets_of_forall_mem allowed spawn)
    · rintro state act next ⟨unstopped, unflushed⟩ - allowed stepped -
      exact
        ⟨unstopped_step unstopped (noDrop_of_playsOrPauses allowed)
            stepped,
          unflushed_step unflushed allowed stepped⟩
    · rintro state act next ⟨unstopped, unflushed⟩ conserved - stepped
      rw [Conserved,
        accounted_step_iff (fun _ _ => List.map_append) unstopped
          conserved stepped]
      exact losses_unflushed act unflushed
  refine ⟨decided, ?_⟩
  intro whole playing calls
  have conserved : Conserved final :=
    System.always_iff_forall_prefix.mp (decided.mpr whole)
      schedule final (List.prefix_refl schedule) reached
  rcases unflushed_run allowed reached with
    ⟨unstopped, unflushed, attentive⟩
  rcases thread_comes_to_rest (PlayingOn final.sent)
      (fun state next playingOn unstopped stepped =>
        playingOn_thread playingOn unstopped stepped)
      unstopped
      ⟨unflushed, attentive, conserved, playing, calls, rfl⟩ with
    ⟨count, resting, ran, waits, drained, -, playingOn⟩
  refine ⟨count, resting, ran, ?_⟩
  have handled : resting.Handled :=
    handled_of_idle playingOn.attentive
      ⟨waits, drained, playingOn.calls⟩
  have nothingHeld : resting.held = [] :=
    handled.held playingOn.playing
  have onlyWritten : resting.outstanding = resting.written := by
    simp [State.outstanding, State.waiting, waits, drained, nothingHeld]
  have samePlayed : resting.played = final.played := by
    rw [State.played, playingOn.sent, State.played]
  calc
    resting.written.map Prod.snd = resting.outstanding.map Prod.snd := by
      rw [onlyWritten]
    _ = resting.played.map Prod.snd := playingOn.conserved
    _ = final.played.map Prod.snd := by rw [samePlayed]

/-- A packet queued during a pause is written after the resume. -/
theorem pause_conserves_resumed :
    ∃ final count resting,
      queue.exec spawn (heldPacket ++ [.setPaused false, .send 0]) =
          some final ∧
        queue.exec final (List.replicate count .thread) =
            some resting ∧
          resting.written.map Prod.snd = [1] := by
  have decision :=
    pause_conserves_iff
      (heldPacket ++ [.setPaused false, .send 0]) _ (by decide) rfl
  rcases decision.2 (by decide) rfl rfl with
    ⟨count, resting, ran, written⟩
  exact ⟨_, count, resting, rfl, ran, written⟩

/-- The thread has written the first chunk of a packet of 257 samples. -/
def firstChunk : List Act :=
  .play 10 0 (List.replicate 257 0) :: .send 0 ::
    List.replicate 6 .thread

/-- Between the two chunks the sender pauses. -/
def cutForPause : List Act :=
  firstChunk ++ [.setPaused true, .thread, .thread]

set_option maxRecDepth 2000 in
/-- The last sample is in no queue any more, and no resume brings it back. -/
theorem pause_drops_rest :
    ¬ ∀ (schedule : List Act) (final : State),
      (∀ act ∈ schedule, act.PlaysOrPauses) →
        queue.exec spawn schedule = some final →
          Conserved final := by
  intro claim
  have ran :
      ∃ final, queue.exec spawn cutForPause = some final ∧
        final.outstanding.length = 256 ∧ final.played.length = 257 :=
    ⟨_, rfl, rfl, rfl⟩
  rcases ran with ⟨final, reached, left, played⟩
  have conserved := claim cutForPause final (by decide) reached
  have lengths := congrArg List.length conserved
  simp only [List.length_map, left, played] at lengths
  cases lengths

/-! ## Flushing up to a boundary -/

/-- The calls of a run that only plays and flushes up to 24-bit boundaries. -/
def Act.PlaysOrFlushesBelow : Act → Prop
  | .play _ _ _ | .send _ | .thread => True
  | .flush (some boundary) => boundary < 2 ^ 24
  | .flush none | .setPaused _ | .drop => False

instance (act : Act) : Decidable act.PlaysOrFlushesBelow :=
  match act with
  | .play _ _ _ | .send _ | .thread => instDecidableTrue
  | .flush (some boundary) =>
      inferInstanceAs (Decidable (boundary < 2 ^ 24))
  | .flush none | .setPaused _ | .drop => instDecidableFalse

/-- The packet is at or above the boundary the act flushes to. -/
def Act.spares (packet : Packet) : Act → Bool
  | .flush (some boundary) => boundary ≤ packet.seq
  | _ => true

/-- The packet is at or above every boundary of the run. -/
def spared (schedule : List Act) (packet : Packet) : Bool :=
  schedule.all (Act.spares packet)

/-- The samples of the packets the run spares. -/
def sparedSamples (schedule : List Act) :
    List (Packet × Sample) → List (Packet × Sample) :=
  List.filter fun tagged => spared schedule tagged.1

/--
Every sample of a packet the run spares is written or still queued, in play
order.
-/
def Retained (schedule : List Act) (state : State) : Prop :=
  Accounted (sparedSamples schedule) state

/--
The thread is about to break off a packet that the run spares and that is not
fully written.
-/
def CutsForFlush (schedule : List Act) (state : State) : Act → Prop
  | .thread =>
      match state.pc with
      | .checkFlush packet unwritten =>
          state.flushRequest ≠ flushNone ∧ unwritten ≠ [] ∧
            spared schedule packet = true
      | _ => False
  | _ => False

instance (schedule : List Act) (state : State) (act : Act) :
    Decidable (CutsForFlush schedule state act) :=
  match act with
  | .thread => by
      unfold CutsForFlush
      generalize state.pc = pc
      exact
        match pc with
        | .checkFlush _ _ => inferInstance
        | .recv | .observeStop _ | .loadPaused _ | .swapFlush _ _
        | .drain _ _ | .retain _ _ _ | .deliver | .write _ _
        | .checkStop _ _ | .checkPaused _ _ | .report _ _ | .done =>
            instDecidableFalse
  | .play _ _ _ | .setPaused _ | .flush _ | .drop | .send _ =>
      instDecidableFalse

/-- A request whose filter keeps every packet the run spares. -/
def SparingRequest (schedule : List Act) (flush : Nat) : Prop :=
  ∀ packet, spared schedule packet = true → keeps flush packet = true

/-- Every request under way comes from a flush of the run. -/
structure State.Sparing (schedule : List Act) (state : State) : Prop where
  playing : state.paused = false
  slot :
    state.flushRequest ≠ flushNone →
      SparingRequest schedule state.flushRequest
  filters : ∀ flush ∈ state.pc.filters, SparingRequest schedule flush

theorem sparing_spawn (schedule : List Act) :
    spawn.Sparing schedule where
  playing := rfl
  slot := fun requested => (requested rfl).elim
  filters := by simp [spawn]

/-- A bounded flush of the run keeps what the run spares. -/
theorem sparingRequest_of_mem
    {schedule : List Act} {boundary : Nat}
    (member : Act.flush (some boundary) ∈ schedule)
    (bounded : boundary < 2 ^ 24) :
    SparingRequest schedule (encodeFlush (some boundary)) := by
  intro packet sparedPacket
  have above : boundary ≤ packet.seq := by
    have spares := List.all_eq_true.mp sparedPacket _ member
    simpa [Act.spares] using spares
  have unsaturated : boundary + 1 < u64Max := by
    simp only [u64Max]
    omega
  exact (keeps_encodeFlush_iff unsaturated packet).mpr above

theorem sparing_step
    {schedule : List Act} {state next : State} {act : Act}
    (sparing : state.Sparing schedule)
    (allowed : act ∈ schedule ∧ act.PlaysOrFlushesBelow)
    (stepped : step state act = some next) :
    next.Sparing schedule := by
  rcases sparing with ⟨playing, slot, filters⟩
  rcases step_cases stepped with ⟨rfl, threadStep⟩ | callStep
  · constructor
    · rw [paused_thread threadStep]
      exact playing
    · intro requested
      rcases flushRequest_thread threadStep with same | emptied
      · rw [same] at requested ⊢
        exact slot requested
      · exact (requested emptied).elim
    · intro flush member
      rcases filters_thread threadStep with fewer | ⟨requested, taken⟩
      · exact filters flush (fewer member)
      · rw [taken, List.mem_singleton] at member
        rw [member]
        exact slot requested
  · cases callStep with
    | play seq timestamp pcm => exact ⟨playing, slot, filters⟩
    | send index call waiting => exact ⟨playing, slot, filters⟩
    | setPaused paused => exact allowed.2.elim
    | drop => exact allowed.2.elim
    | flush below =>
        cases below with
        | none => exact allowed.2.elim
        | some boundary =>
            have sparingRequest :=
              sparingRequest_of_mem allowed.1 allowed.2
            exact ⟨playing, fun _ => sparingRequest, filters⟩

/-- The samples of one packet are spared together. -/
theorem sparedSamples_packet
    (schedule : List Act) (packet : Packet) (samples : List Sample) :
    sparedSamples schedule (samples.map fun sample => (packet, sample)) =
        [] ↔
      ¬ (samples ≠ [] ∧ spared schedule packet = true) := by
  cases decided : spared schedule packet with
  | true =>
      simp [sparedSamples, decided, List.eq_nil_iff_forall_not_mem]
  | false => simp [sparedSamples, decided]

/-- Of the spared packets only a cut one loses samples. -/
theorem losses_sparing
    {schedule : List Act} {state : State} (act : Act)
    (sparing : state.Sparing schedule) :
    sparedSamples schedule (state.losses act) = [] ↔
      ¬ CutsForFlush schedule state act := by
  rcases sparing with ⟨playing, slot, filters⟩
  have nothing : sparedSamples schedule [] = [] := rfl
  cases act with
  | thread =>
      cases position : state.pc with
      | retain paused flush kept =>
          have keepsSpared : SparingRequest schedule flush :=
            filters flush (by simp [position])
          cases holds : state.held with
          | nil => simp [State.losses, CutsForFlush, position, holds, nothing]
          | cons packet rest =>
              cases kept : keeps flush packet with
              | true =>
                  simp [State.losses, CutsForFlush, position, holds, kept,
                    nothing]
              | false =>
                  have named : ¬ spared schedule packet = true := by
                    intro sparedPacket
                    have contradiction := keepsSpared packet sparedPacket
                    rw [kept] at contradiction
                    cases contradiction
                  simp [State.losses, CutsForFlush, position, holds, kept,
                    Packet.tagged, sparedSamples_packet, named]
      | checkPaused packet unwritten =>
          simp [State.losses, CutsForFlush, position, playing, nothing]
      | checkFlush packet unwritten =>
          by_cases quiet : state.flushRequest = flushNone
          · simp [State.losses, CutsForFlush, position, quiet, nothing]
          · simp [State.losses, CutsForFlush, position, quiet,
              sparedSamples_packet]
      | _ => simp [State.losses, CutsForFlush, position, nothing]
  | _ => simp [State.losses, CutsForFlush, nothing]

theorem noDrop_of_playsOrFlushesBelow
    {act : Act}
    (allowed : act.PlaysOrFlushesBelow) :
    act ≠ .drop := by
  rintro rfl
  exact allowed

/--
Bounded flushes take no sample of a packet at or above every boundary as
long as the thread does not break such a packet off, and only then.
-/
theorem flush_retains_iff
    (schedule : List Act) (final : State)
    (allowed : ∀ act ∈ schedule, act.PlaysOrFlushesBelow)
    (reached : queue.exec spawn schedule = some final) :
    queue.Always (Retained schedule) spawn schedule ↔
      queue.Meets (fun state act => ¬ CutsForFlush schedule state act)
        spawn schedule := by
  have ownAllowed :
      ∀ act ∈ schedule, act ∈ schedule ∧ act.PlaysOrFlushesBelow :=
    fun act member => ⟨member, allowed act member⟩
  apply
    System.always_iff_meets
      (fun state => state.Unstopped ∧ state.Sparing schedule)
      ?_ ?_ ⟨final, reached⟩ ⟨unstopped_spawn, sparing_spawn schedule⟩
      (accounted_spawn _)
      (System.meets_of_forall_mem ownAllowed spawn)
  · rintro state act next ⟨unstopped, sparing⟩ - allowed stepped -
    exact
      ⟨unstopped_step unstopped
          (noDrop_of_playsOrFlushesBelow allowed.2) stepped,
        sparing_step sparing allowed stepped⟩
  · rintro state act next ⟨unstopped, sparing⟩ retained - stepped
    have survives :
        Retained schedule next ↔
          sparedSamples schedule (state.losses act) = [] :=
      accounted_step_iff (fun _ _ => List.filter_append _ _) unstopped
        retained stepped
    exact survives.trans (losses_sparing act sparing)

/-- A flush to an earlier boundary leaves a queued packet whole. -/
theorem flush_retains_queued :
    queue.Always
      (Retained
        ([.play 10 0 [1, 2], .send 0, .flush (some 5), .send 0] ++
          List.replicate 16 .thread))
      spawn
      ([.play 10 0 [1, 2], .send 0, .flush (some 5), .send 0] ++
        List.replicate 16 .thread) :=
  (flush_retains_iff
    ([.play 10 0 [1, 2], .send 0, .flush (some 5), .send 0] ++
      List.replicate 16 .thread)
    _ (by decide) rfl).mpr (by decide)

/-- Between the two chunks the sender flushes to an earlier boundary. -/
def cutForFlush : List Act :=
  firstChunk ++ [.flush (some 5), .thread, .thread, .thread]

set_option maxRecDepth 2000 in
/-- The packet is stamped 10, and its last sample is gone. -/
theorem flush_cuts_later_packet :
    ¬ ∀ (schedule : List Act) (final : State),
      (∀ act ∈ schedule, act.PlaysOrFlushesBelow) →
        queue.exec spawn schedule = some final →
          Retained schedule final := by
  intro claim
  have ran :
      ∃ final, queue.exec spawn cutForFlush = some final ∧
        (sparedSamples cutForFlush final.outstanding).length = 256 ∧
          (sparedSamples cutForFlush final.played).length = 257 :=
    ⟨_, rfl, rfl, rfl⟩
  rcases ran with ⟨final, reached, left, played⟩
  have retained := claim cutForFlush final (by decide) reached
  have lengths := congrArg List.length retained
  rw [left, played] at lengths
  cases lengths

end OpenAirplay2.Player

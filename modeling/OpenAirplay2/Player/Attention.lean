import OpenAirplay2.Player.Rest

/-!
# Whether a control signal is missed

A handle raises a flag and then sends a `Wake`; the thread reads the flags
once for every command it receives.  The drain of a flush takes commands off
the channel without reading the flags again, so it can swallow the `Wake` of
a later call.

The thread attends to every signal as long as no drain ends deaf: with an
empty channel, no call in flight, and a flag it has not read.  Conversely a
deaf drain cannot be made good by the thread, which comes to rest with the
signal unheard.
-/

namespace OpenAirplay2.Player

open OpenAirplay2.Lib.Transition

namespace State

variable (state : State)

/-- The thread is blocked in `recv` and no call is between store and send. -/
structure Idle : Prop where
  position : state.pc = .recv
  channel : state.channel = []
  calls : state.calls = []

/-- Every flag is handled, and nothing is held without a pause. -/
structure Handled : Prop where
  flush : state.flushRequest = flushNone
  pause : state.paused = state.wasPaused
  held : state.paused = false → state.held = []

/-- Something will wake the thread. -/
def Signalled : Prop :=
  state.channel ≠ [] ∨ state.calls ≠ []

/-- The thread will not read some raised flag before its next `recv`. -/
def Unheard : Prop :=
  match state.pc with
  | .recv => ¬ state.Handled
  | .observeStop _ | .loadPaused _ | .drain _ _ | .done => False
  | .swapFlush _ paused => state.paused ≠ paused
  | .retain paused _ _ =>
      state.paused ≠ paused ∨ state.flushRequest ≠ flushNone
  | .deliver | .write _ _ | .checkStop _ _ | .checkPaused _ _
  | .checkFlush _ _ | .report _ false =>
      state.paused = true ∨ state.flushRequest ≠ flushNone
  | .report _ true => True

/-- What the thread last noted of the pause flag. -/
def Noted : Prop :=
  match state.pc with
  | .drain paused _ | .retain paused _ _ => state.wasPaused = paused
  | .deliver | .write _ _ | .checkStop _ _ | .checkPaused _ _
  | .checkFlush _ _ | .report _ _ => state.wasPaused = false
  | _ => True

/-- What carries the attention of the thread through a run. -/
structure Attentive : Prop where
  noted : state.Noted
  signalled : state.Unheard → state.Signalled

/-- The thread is between its swap of the flush slot and its next receive. -/
def PastSwap : Prop :=
  match state.pc with
  | .observeStop _ | .loadPaused _ | .swapFlush _ _ | .done => False
  | _ => True

end State

/--
A drain that ends deaf: the channel is empty, no call is in flight, and a
flag differs from what the iteration read.
-/
def DeafDrain (state : State) : Act → Prop
  | .thread =>
      match state.pc with
      | .drain paused _ =>
          state.channel = [] ∧ state.calls = [] ∧
            (state.paused ≠ paused ∨ state.flushRequest ≠ flushNone)
      | _ => False
  | _ => False

instance (state : State) (act : Act) : Decidable (DeafDrain state act) :=
  match act with
  | .thread => by
      unfold DeafDrain
      generalize state.pc = pc
      exact
        match pc with
        | .drain _ _ => inferInstance
        | .recv | .observeStop _ | .loadPaused _ | .swapFlush _ _
        | .retain _ _ _ | .deliver | .write _ _ | .checkStop _ _
        | .checkPaused _ _ | .checkFlush _ _ | .report _ _ | .done =>
            instDecidableFalse
  | .play _ _ _ | .setPaused _ | .flush _ | .drop | .send _ =>
      instDecidableFalse

theorem attentive_spawn : spawn.Attentive where
  noted := trivial
  signalled := fun unheard => (unheard ⟨rfl, rfl, fun _ => rfl⟩).elim

/-- Every step of a handle leaves something that wakes a running thread. -/
theorem signalled_call
    {state next : State} {act : Act}
    (alive : state.pc ≠ .done)
    (callStep : CallStep state act next) :
    next.Signalled := by
  cases callStep with
  | play seq timestamp pcm => exact Or.inr (by simp [State.play])
  | setPaused paused => exact Or.inr (by simp [State.setPaused])
  | flush below => exact Or.inr (by simp [State.flush])
  | drop => exact Or.inr (by simp [State.drop])
  | send index call waiting =>
      exact Or.inl (by simp [State.deliverTo, alive])

theorem noted_call
    {state next : State} {act : Act}
    (noted : state.Noted)
    (callStep : CallStep state act next) :
    next.Noted := by
  have samePc : next.pc = state.pc := by
    cases callStep <;> rfl
  have sameNote : next.wasPaused = state.wasPaused := by
    cases callStep <;> rfl
  simpa only [State.Noted, samePc, sameNote] using noted

theorem noted_afterControl
    {state : State} {paused : Bool}
    (position : state.pc = State.afterControl paused)
    (noted : state.wasPaused = paused) :
    state.Noted := by
  cases paused <;>
    simp [State.Noted, position, State.afterControl, noted]

theorem noted_thread
    {state next : State}
    (noted : state.Noted)
    (threadStep : ThreadStep state next) :
    next.Noted := by
  cases threadStep with
  | swapNone command paused position running quiet =>
      exact noted_afterControl rfl rfl
  | retained paused flush kept position empty =>
      exact
        noted_afterControl rfl (by simpa [State.Noted, position] using noted)
  | report packet interrupted position =>
      cases interrupted <;>
        simp_all [State.Noted]
  | _ => simp_all [State.Noted, State.swapped]

theorem noted_step
    {state next : State} {act : Act}
    (noted : state.Noted)
    (stepped : step state act = some next) :
    next.Noted := by
  rcases step_cases stepped with ⟨rfl, threadStep⟩ | callStep
  · exact noted_thread noted threadStep
  · exact noted_call noted callStep

theorem attentive_call
    {state next : State} {act : Act}
    (attentive : state.Attentive)
    (callStep : CallStep state act next) :
    next.Attentive := by
  refine ⟨noted_call attentive.noted callStep, ?_⟩
  intro unheard
  by_cases alive : state.pc = .done
  · have samePc : next.pc = state.pc := by
      cases callStep <;> rfl
    simp [State.Unheard, samePc, alive] at unheard
  · exact signalled_call alive callStep

/-- Once control is handled, only a flag raised since has to be signalled. -/
theorem signalled_afterControl
    {state : State} {paused : Bool}
    (position : state.pc = State.afterControl paused)
    (noted : state.wasPaused = paused)
    (signalled :
      state.paused ≠ paused ∨ state.flushRequest ≠ flushNone →
        state.Signalled)
    (unheard : state.Unheard) :
    state.Signalled := by
  cases paused with
  | false =>
      have delivers : state.pc = .deliver := position
      apply signalled
      simpa [State.Unheard, delivers] using unheard
  | true =>
      have waits : state.pc = .recv := position
      simp only [State.Unheard, waits] at unheard
      apply signalled
      by_contra quiet
      simp only [ne_eq, not_or, not_not] at quiet
      apply unheard
      refine ⟨quiet.2, quiet.1.trans noted.symm, ?_⟩
      intro playing
      rw [quiet.1] at playing
      cases playing

/-- A step of the thread that does not end a drain deaf stays signalled. -/
theorem signalled_thread
    {state next : State}
    (attentive : state.Attentive)
    (heard : ¬ DeafDrain state .thread)
    (threadStep : ThreadStep state next)
    (unheard : next.Unheard) :
    next.Signalled := by
  rcases attentive with ⟨noted, signalled⟩
  cases threadStep with
  | recv command rest position queued => exact unheard.elim
  | stopSeen command position stopped => exact unheard.elim
  | stopClear command position running => exact unheard.elim
  | loadPaused command position => exact (unheard rfl).elim
  | swapStop paused position => exact unheard.elim
  | swapNone command paused position running quiet =>
      simp only [State.Unheard, position] at signalled
      refine signalled_afterControl rfl rfl ?_ unheard
      rintro (raised | requested)
      · exact signalled raised
      · exact (requested rfl).elim
  | swapSome command paused position running requested =>
      exact unheard.elim
  | drainEmpty paused flush position empty =>
      by_contra silent
      simp only [State.Signalled, not_or, not_not] at silent
      apply heard
      simp only [DeafDrain, position]
      exact ⟨empty, silent.2, unheard⟩
  | drainPacket paused flush packet rest position queued =>
      simp [State.Unheard, position] at unheard
  | drainWake paused flush rest position queued =>
      simp [State.Unheard, position] at unheard
  | drainStop paused flush rest position queued => exact unheard.elim
  | retained paused flush kept position empty =>
      simp only [State.Noted, position] at noted
      simp only [State.Unheard, position] at signalled
      exact signalled_afterControl rfl noted signalled unheard
  | keep paused flush kept packet rest position holds spared =>
      simp only [State.Unheard, position] at signalled
      exact signalled unheard
  | discard paused flush kept packet rest position holds named =>
      simp only [State.Unheard, position] at signalled unheard
      exact signalled unheard
  | delivered position empty =>
      simp only [State.Noted, position] at noted
      simp only [State.Unheard, position] at signalled
      apply signalled
      by_contra quiet
      simp only [not_or, not_not, Bool.not_eq_true] at quiet
      exact
        unheard
          ⟨quiet.2, quiet.1.trans noted.symm, fun _ => empty⟩
  | pauseSeen packet unwritten position paused =>
      simp only [State.Unheard, position] at signalled
      exact signalled (Or.inl paused)
  | flushSeen packet unwritten position requested =>
      simp only [State.Unheard, position] at signalled
      exact signalled (Or.inr requested)
  | haltSeen packet unwritten position stopped => exact unheard.elim
  | report packet interrupted position =>
      cases interrupted with
      | false =>
          simp only [State.Unheard, position] at signalled
          exact signalled unheard
      | true =>
          simp only [State.Unheard, position] at signalled
          exact signalled trivial
  | pop packet rest position holds
  | written packet position
  | write packet unwritten position more
  | haltClear packet unwritten position running
  | pauseClear packet unwritten position playing
  | flushClear packet unwritten position quiet =>
      simp only [State.Unheard, position] at signalled
      exact signalled unheard

theorem attentive_step
    {state next : State} {act : Act}
    (attentive : state.Attentive)
    (heard : ¬ DeafDrain state act)
    (stepped : step state act = some next) :
    next.Attentive := by
  rcases step_cases stepped with ⟨rfl, threadStep⟩ | callStep
  · exact
      ⟨noted_thread attentive.noted threadStep,
        signalled_thread attentive heard threadStep⟩
  · exact attentive_call attentive callStep

/-- An attentive thread that has come to rest has handled every flag. -/
theorem handled_of_idle
    {state : State}
    (attentive : state.Attentive)
    (idle : state.Idle) :
    state.Handled := by
  by_contra unhandled
  have unheard : state.Unheard := by
    simpa [State.Unheard, idle.position] using unhandled
  rcases attentive.signalled unheard with queued | inFlight
  · exact queued idle.channel
  · exact inFlight idle.calls

/-! ## A deaf drain is not made good -/

/--
Nothing is queued or in flight, the thread is past its swap, and some flag
differs from what it noted.
-/
structure State.Deaf (state : State) : Prop where
  pastSwap : state.PastSwap
  channel : state.channel = []
  calls : state.calls = []
  raised :
    state.paused ≠ state.wasPaused ∨ state.flushRequest ≠ flushNone

theorem deaf_of_deafDrain
    {state : State}
    (noted : state.Noted)
    (deafDrain : DeafDrain state .thread) :
    state.Deaf := by
  cases position : state.pc with
  | drain paused flush =>
      simp only [DeafDrain, position] at deafDrain
      simp only [State.Noted, position] at noted
      rcases deafDrain with ⟨empty, silent, raised⟩
      exact
        ⟨by simp [State.PastSwap, position], empty, silent,
          by rwa [noted]⟩
  | _ => simp [DeafDrain, position] at deafDrain

/-- Past its swap the thread acts on no flag again before it receives. -/
theorem deaf_thread
    {state next : State}
    (deaf : state.Deaf)
    (unstopped : state.Unstopped)
    (threadStep : ThreadStep state next) :
    next.Deaf := by
  rcases deaf with ⟨pastSwap, channel, calls, raised⟩
  cases threadStep with
  | recv command rest position queued
  | drainPacket paused flush packet rest position queued
  | drainWake paused flush rest position queued
  | drainStop paused flush rest position queued =>
      simp [channel] at queued
  | stopSeen command position stopped
  | stopClear command position running
  | loadPaused command position
  | swapStop paused position
  | swapNone command paused position running quiet
  | swapSome command paused position running requested =>
      simp [State.PastSwap, position] at pastSwap
  | retained paused flush kept position empty =>
      have past : (State.afterControl paused = .recv ∨
          State.afterControl paused = .deliver) :=
        afterControl_cases paused
      rcases past with next | next <;>
        exact ⟨by simp [State.PastSwap, next], channel, calls, raised⟩
  | haltSeen packet unwritten position stopped =>
      simp [unstopped.flag] at stopped
  | report packet interrupted position =>
      cases interrupted <;> exact ⟨trivial, channel, calls, raised⟩
  | discard paused flush kept packet rest position holds named =>
      exact ⟨pastSwap, channel, calls, raised⟩
  | _ => exact ⟨trivial, channel, calls, raised⟩

/--
No control signal is missed by a run none of whose drains ends deaf; and
from a state in which a drain ends deaf, the thread left alone comes to rest
with a flag unhandled.
-/
theorem signals_handled
    (schedule : List Act) (final : State)
    (noDrop : ∀ act ∈ schedule, act ≠ .drop)
    (reached : queue.exec spawn schedule = some final) :
    (queue.Meets (fun state act => ¬ DeafDrain state act) spawn schedule →
        final.Idle → final.Handled) ∧
      (DeafDrain final .thread →
        ∃ count resting,
          queue.exec final (List.replicate count .thread) =
              some resting ∧
            resting.Idle ∧ ¬ resting.Handled) := by
  constructor
  · intro heard idle
    have attentive : final.Attentive :=
      System.invariant_of_meets State.Attentive
        (fun state act next attentive heard stepped =>
          attentive_step attentive heard stepped)
        attentive_spawn heard reached
    exact handled_of_idle attentive idle
  · intro deafDrain
    have running : final.Unstopped ∧ final.Noted :=
      System.invariant_of_meets
        (fun state => state.Unstopped ∧ state.Noted)
        (fun state act next holds allowed stepped =>
          ⟨unstopped_step holds.1 allowed stepped,
            noted_step holds.2 stepped⟩)
        ⟨unstopped_spawn, trivial⟩
        (System.meets_of_forall_mem noDrop spawn) reached
    have deaf := deaf_of_deafDrain running.2 deafDrain
    rcases thread_comes_to_rest State.Deaf
        (fun state next deaf unstopped stepped =>
          deaf_thread deaf unstopped (thread_cases stepped))
        running.1 deaf with
      ⟨count, resting, ran, waits, drained, -, stillDeaf⟩
    refine
      ⟨count, resting, ran, ⟨waits, drained, stillDeaf.calls⟩, ?_⟩
    intro handled
    rcases stillDeaf.raised with paused | requested
    · exact paused handled.pause
    · exact requested handled.flush

/-- The thread is paused, with a packet held. -/
def heldPacket : List Act :=
  [.setPaused true, .send 0, .thread, .thread, .thread, .thread,
    .play 7 0 [1], .send 0, .thread, .thread, .thread, .thread]

/-- The resume is heard and the held packet written. -/
theorem signals_handled_resumed :
    ∃ final,
      queue.exec spawn
          (heldPacket ++
            .setPaused false :: .send 0 :: List.replicate 12 .thread) =
          some final ∧
        final.Handled := by
  refine ⟨_, rfl, ?_⟩
  exact
    (signals_handled
      (heldPacket ++
        .setPaused false :: .send 0 :: List.replicate 12 .thread)
      _ (by decide) rfl).1 (by decide) ⟨rfl, rfl, rfl⟩

/--
A flush wakes the thread, which reads the pause flag; the resume comes before
the swap, and the drain swallows its `Wake`.
-/
def swallowedResume : List Act :=
  heldPacket ++
    [.flush (some 5), .send 0, .thread, .thread, .thread,
      .setPaused false, .send 0,
      .thread, .thread, .thread, .thread, .thread]

/-- The resume is missed: the thread blocks with the held audio unplayed. -/
theorem resume_missed :
    ¬ ∀ (schedule : List Act) (final : State),
      (∀ act ∈ schedule, act ≠ .drop) →
        queue.exec spawn schedule = some final →
          final.Idle → final.Handled := by
  intro claim
  have ran :
      ∃ final, queue.exec spawn swallowedResume = some final ∧
        final.Idle ∧ final.paused ≠ final.wasPaused :=
    ⟨_, rfl, ⟨rfl, rfl, rfl⟩, by decide⟩
  rcases ran with ⟨final, reached, idle, differs⟩
  exact
    differs
      (claim swallowedResume final (by decide) reached idle).pause

end OpenAirplay2.Player

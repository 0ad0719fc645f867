import OpenAirplay2.Reporting.Brackets

/-!
# Where playback is said to be

Two writers tell the host a position.  A progress line of the sender is told
once, with its differences saturated; a playback thread tells its own when
the second it last told changes, with differences that wrap.

The two agree on a track that does not span the wrap of the time stamps.  The
thread remembers what it told itself and not what the sender did, and what
the host was told last follows the audio as long as nobody else tells a
position and no other track is anchored.
-/

namespace OpenAirplay2.Reporting

open OpenAirplay2.Control
open OpenAirplay2.Control.Session
open OpenAirplay2.Lib.Str
open OpenAirplay2.Lib.Transition
open OpenAirplay2.Player
  (Duration Track framesToDuration saturatingSub)
open OpenAirplay2.Takeover (streamPlatform)

variable {Db : Type}

/-! ## Differences of time stamps -/

theorem saturatingSub_of_le
    {left right : UInt32}
    (ordered : right ≤ left) :
    saturatingSub left right = left - right := by
  rw [saturatingSub, if_neg (UInt32.not_lt.mpr ordered)]

theorem saturatingSub_of_lt
    {left right : UInt32}
    (below : left < right) :
    saturatingSub left right = 0 := by
  rw [saturatingSub, if_pos below]

/-- On a track that does not span the wrap, nothing inside lies below. -/
theorem le_of_inside
    {start current ends : UInt32}
    (flat : start ≤ ends)
    (inside : current - start ≤ ends - start) :
    start ≤ current := by
  rw [UInt32.le_iff_toNat_le] at flat inside ⊢
  rw [UInt32.toNat_sub, UInt32.toNat_sub] at inside
  have start_lt := start.toNat_lt
  have current_lt := current.toNat_lt
  have ends_lt := ends.toNat_lt
  omega

/-- One frame takes longer than nothing. -/
theorem framesToDuration_eq_zero_iff
    (frames : UInt32) (format : Option Nat) :
    framesToDuration frames (aacParams format).1 = 0 ↔ frames = 0 := by
  show frames.toNat * 1000000000 / 44100 = 0 ↔ frames = 0
  rw [← UInt32.toNat_inj, UInt32.toNat_zero]
  omega

theorem extent_inside
    {track : Track}
    {ts : UInt32}
    {rate : Nat}
    (positive : rate ≠ 0)
    (inside : ts - track.start ≤ track.ends - track.start) :
    extent track ts rate =
      some
        (framesToDuration (ts - track.start) rate,
          framesToDuration (track.ends - track.start) rate) := by
  rw [extent, if_neg positive]
  exact if_neg (UInt32.not_lt.mpr inside)

/-! ## The sender's position -/

/-- The value of a progress line with the three time stamps. -/
def IsProgress (value : String) (start current ends : UInt32) : Prop :=
  (split value '/').map (parseU32 ∘ trim) =
    [some start, some current, some ends]

/-- What a progress line does during a session. -/
theorem effects_setProgress
    {session : Session Db}
    {value : String}
    {start current ends : UInt32}
    (line : IsProgress value start current ends)
    (active : session.sessionActive = true) :
    (session.setProgress value).effects =
      session.effects ++
        [.anchor (some ⟨start, ends⟩),
          .event
            (.progress
              (framesToDuration (saturatingSub current start)
                (aacParams session.audioFormat).1)
              (framesToDuration (saturatingSub ends start)
                (aacParams session.audioFormat).1))] := by
  rw [IsProgress] at line
  simp only [setProgress, line]
  rw [if_pos (by exact active)]
  simp only [sendEvent, perform, List.append_assoc, List.cons_append,
    List.nil_append]

/--
The line is told with the elapsed time and the duration that the player finds
for the track that it anchors, at the time stamp that it names.
-/
def Agrees (session : Session Db) (value : String) (track : Track)
    (current : UInt32) : Prop :=
  ∃ elapsed duration,
    (session.setProgress value).effects =
        session.effects ++
          [.anchor (some track), .event (.progress elapsed duration)] ∧
      extent track current (aacParams session.audioFormat).1 =
        some (elapsed, duration)

/-- The two positions agree exactly on tracks that do not span the wrap. -/
theorem agrees_iff
    (session : Session Db)
    (value : String)
    (start current ends : UInt32)
    (line : IsProgress value start current ends)
    (active : session.sessionActive = true)
    (inside : current - start ≤ ends - start) :
    Agrees session value ⟨start, ends⟩ current ↔ start ≤ ends := by
  have told := effects_setProgress line active
  have found :
      extent ⟨start, ends⟩ current (aacParams session.audioFormat).1 =
        some
          (framesToDuration (current - start)
              (aacParams session.audioFormat).1,
            framesToDuration (ends - start)
              (aacParams session.audioFormat).1) :=
    extent_inside (Nat.succ_ne_zero 44099) inside
  constructor
  · rintro ⟨elapsed, duration, effects, same⟩
    by_contra spans
    have below : ends < start := UInt32.not_le.mp spans
    rw [found] at same
    cases same
    rw [told, saturatingSub_of_lt below] at effects
    have events := List.append_cancel_left effects
    simp only [List.cons.injEq, Effect.event.injEq,
      Event.progress.injEq, and_true, true_and] at events
    have zero :
        framesToDuration 0 (aacParams session.audioFormat).1 = 0 :=
      (framesToDuration_eq_zero_iff 0 session.audioFormat).mpr rfl
    have long := events.2.symm.trans zero
    rw [framesToDuration_eq_zero_iff, UInt32.sub_eq_iff_eq_add,
      UInt32.zero_add] at long
    exact absurd long (UInt32.ne_of_lt below)
  · intro flat
    rw [saturatingSub_of_le flat,
      saturatingSub_of_le (le_of_inside flat inside)] at told
    exact ⟨_, _, told, found⟩

/-- A session whose stream has started. -/
def playingSession : Session Unit :=
  (Session.new streamPlatform ⟨"192.0.2.1"⟩ ⟨"192.0.2.2"⟩).startStream []

/-- Ten seconds that do not span the wrap. -/
theorem agrees_ten_seconds :
    Agrees playingSession "0/44100/441000" ⟨0, 441000⟩ 44100 ↔
      (0 : UInt32) ≤ 441000 := by
  apply agrees_iff playingSession "0/44100/441000" 0 44100 441000
  · show List.map _ _ = _
    decide +kernel
  · rfl
  · decide

/-- Two seconds across the wrap: the line says nothing has been played. -/
theorem wrapped_track_disagrees :
    ¬ ∀ (session : Session Unit) (value : String)
        (start current ends : UInt32),
      IsProgress value start current ends →
        session.sessionActive = true →
          current - start ≤ ends - start →
            Agrees session value ⟨start, ends⟩ current := by
  intro claim
  have line :
      IsProgress "4294947295/24099/68199" 4294947295 24099 68199 := by
    show List.map _ _ = _
    decide +kernel
  rcases claim playingSession _ _ _ _ line rfl (by decide) with
    ⟨elapsed, duration, effects, found⟩
  rw [effects_setProgress line rfl] at effects
  have events := List.append_cancel_left effects
  have same :
      some (elapsed, duration) = some (1000000000, 2000000000) := by
    rw [← found]
    decide +kernel
  cases same
  revert events
  decide +kernel

/-! ## The thread's position -/

/-- The position an event tells. -/
def progressOf : Event Db → Option (Duration × Duration)
  | .progress elapsed duration => some (elapsed, duration)
  | _ => none

/-- The last position on the channel. -/
def lastProgress (events : List (Event Db)) : Option (Duration × Duration) :=
  (events.filterMap progressOf).getLast?

theorem lastProgress_concat
    (events : List (Event Db)) (elapsed duration : Duration) :
    lastProgress (events ++ [.progress elapsed duration]) =
      some (elapsed, duration) := by
  rw [lastProgress, List.filterMap_append]
  exact List.getLast?_concat

theorem lastProgress_concat_none
    (events : List (Event Db))
    (event : Event Db)
    (other : progressOf event = none) :
    lastProgress (events ++ [event]) = lastProgress events := by
  rw [lastProgress, List.filterMap_append,
    List.filterMap_cons_none other, List.filterMap_nil, List.append_nil]
  rfl

/-- The last position names the second of the time, and the duration. -/
def Names (events : List (Event Db)) (elapsed duration : Duration) : Prop :=
  ∃ said,
    lastProgress events = some (said, duration) ∧
      asSecs said = asSecs elapsed

/-- `played` from its call to its return. -/
def handed (platform : Platform Db) (connection : Connection Db)
    (stream : Nat) (ts : UInt32) : Option (Connection Db) :=
  (step platform connection (.played stream ts)).bind fun next =>
    if (next.threads stream).any (·.sending.isSome) then
      step platform next (.report stream)
    else
      some next

/-- During a session, the thread plays a packet that lies on the track. -/
structure Plays (connection : Connection Db) (stream : Nat) (ts : UInt32)
    (reporter : Reporter) (elapsed duration : Duration) : Prop where
  active : connection.session.sessionActive = true
  thread : connection.threads stream = some reporter
  idle : reporter.sending = none
  inside :
    ∃ track,
      connection.anchor = some track ∧
        extent track ts reporter.rate = some (elapsed, duration)

/-- What the thread has told before is not told again. -/
theorem handed_again
    (platform : Platform Db)
    {connection : Connection Db}
    {stream : Nat}
    {ts : UInt32}
    {reporter : Reporter}
    {elapsed duration : Duration}
    (plays : Plays connection stream ts reporter elapsed duration)
    (again : reporter.reported = some (asSecs elapsed)) :
    ∃ told,
      handed platform connection stream ts = some told ∧
        told.events = connection.events := by
  rcases plays with ⟨-, thread, idle, track, anchor, found⟩
  have same : reporter.played connection.anchor ts = reporter := by
    simp only [Reporter.played, anchor, found, if_pos again]
  refine ⟨connection.setThread stream reporter, ?_, rfl⟩
  simp only [handed, step, thread, idle, same, Option.bind_some,
    Connection.setThread, Function.update_self, Option.any_some,
    Option.isSome_none, Bool.false_eq_true, if_false]

/-- What it has not told is told. -/
theorem handed_anew
    (platform : Platform Db)
    {connection : Connection Db}
    {stream : Nat}
    {ts : UInt32}
    {reporter : Reporter}
    {elapsed duration : Duration}
    (plays : Plays connection stream ts reporter elapsed duration)
    (anew : reporter.reported ≠ some (asSecs elapsed)) :
    ∃ told,
      handed platform connection stream ts = some told ∧
        told.events =
          connection.events ++ [.progress elapsed duration] := by
  rcases plays with ⟨-, thread, idle, track, anchor, found⟩
  have next :
      reporter.played connection.anchor ts =
        { reporter with
          reported := some (asSecs elapsed)
          sending := some (elapsed, duration) } := by
    simp only [Reporter.played, anchor, found, if_neg anew]
  simp only [handed, step, thread, idle, next, Option.bind_some,
    Connection.setThread, Function.update_self, Option.any_some,
    Option.isSome_some, if_true]
  exact ⟨_, rfl, rfl⟩

/--
After the packet, the last position on the channel names its second and the
duration of the track; and if that was so before, nothing was told.
-/
def Follows (platform : Platform Db) (connection : Connection Db) :
    Act → Prop
  | .played stream ts =>
      ∀ reporter elapsed duration told,
        Plays connection stream ts reporter elapsed duration →
          handed platform connection stream ts = some told →
            Names told.events elapsed duration ∧
              (Names connection.events elapsed duration →
                told.events = connection.events)
  | _ => True

/--
The second of the packet is the one the thread told last exactly if the last
position on the channel names it together with the duration of the track.
-/
def InStep (connection : Connection Db) : Act → Prop
  | .played stream ts =>
      ∀ reporter elapsed duration,
        Plays connection stream ts reporter elapsed duration →
          (reporter.reported = some (asSecs elapsed) ↔
            Names connection.events elapsed duration)
  | _ => True

theorem follows_iff_inStep
    (platform : Platform Db) (connection : Connection Db) (act : Act) :
    Follows platform connection act ↔ InStep connection act := by
  cases act with
  | played stream ts =>
      constructor
      · intro follows reporter elapsed duration plays
        by_cases again : reporter.reported = some (asSecs elapsed)
        · rcases handed_again platform plays again with
            ⟨told, done, silent⟩
          have named :=
            (follows reporter elapsed duration told plays done).1
          rw [silent] at named
          exact iff_of_true again named
        · rcases handed_anew platform plays again with
            ⟨told, done, longer⟩
          refine iff_of_false again ?_
          intro named
          have silent :=
            (follows reporter elapsed duration told plays done).2 named
          rw [longer, List.append_right_eq_self] at silent
          cases silent
      · intro inStep reporter elapsed duration told plays done
        have decided := inStep reporter elapsed duration plays
        by_cases again : reporter.reported = some (asSecs elapsed)
        · rcases handed_again platform plays again with
            ⟨other, done_too, silent⟩
          rw [done] at done_too
          cases done_too
          rw [silent]
          exact ⟨decided.mp again, fun _ => rfl⟩
        · rcases handed_anew platform plays again with
            ⟨other, done_too, longer⟩
          rw [done] at done_too
          cases done_too
          rw [longer]
          refine ⟨⟨elapsed, lastProgress_concat _ _ _, rfl⟩, ?_⟩
          intro named
          exact absurd (decided.mpr named) again
  | request => exact Iff.rfl
  | close => exact Iff.rfl
  | effect => exact Iff.rfl
  | report => exact Iff.rfl

/-! ## What keeps the thread in step -/

/--
What the thread told last, or is about to tell, is what it remembers, and is
of the track that is anchored.
-/
def Own (stream : Nat) (connection : Connection Db) : Prop :=
  ∃ reporter track elapsed,
    connection.threads stream = some reporter ∧
      connection.anchor = some track ∧
      reporter.reported = some (asSecs elapsed) ∧
      reporter.sending.or (lastProgress connection.events) =
        some
          (elapsed,
            framesToDuration (track.ends - track.start) reporter.rate)

/-- Nothing else is told of a position, anchored, or done to the thread. -/
def Quiet (stream : Nat) (connection : Connection Db) : Act → Prop
  | .effect =>
      match connection.effects.head? with
      | some (.event event) => progressOf event = none
      | some (.anchor _) => False
      | some (.startPlayer other _) => other ≠ stream
      | some (.closeSink other) => other ≠ stream
      | _ => True
  | .report other => other = stream
  | _ => True

/-- The extent of a packet has the duration of the track. -/
theorem duration_of_extent
    {track : Track}
    {ts : UInt32}
    {rate : Nat}
    {elapsed duration : Duration}
    (found : extent track ts rate = some (elapsed, duration)) :
    duration = framesToDuration (track.ends - track.start) rate := by
  rw [extent] at found
  split at found
  · cases found
  · dsimp only at found
    split at found
    · cases found
    · cases found
      rfl

/-- A thread whose own position stands last is in step. -/
theorem Own.inStep
    {stream : Nat}
    {connection : Connection Db}
    (own : Own stream connection)
    (ts : UInt32) :
    InStep connection (.played stream ts) := by
  rcases own with ⟨reporter, track, said, thread, anchor, reported, last⟩
  intro other elapsed duration plays
  rcases plays with ⟨-, thread_too, idle, track_too, anchor_too, found⟩
  rw [thread] at thread_too
  cases thread_too
  rw [anchor] at anchor_too
  cases anchor_too
  rw [idle, Option.none_or] at last
  rw [reported, Option.some.injEq]
  constructor
  · intro same
    refine ⟨said, ?_, same⟩
    rw [last, duration_of_extent found]
  · rintro ⟨named, is_last, same⟩
    rw [last] at is_last
    cases is_last
    exact same

/-- What the thread finds to tell is its own. -/
theorem own_of_anew
    {stream : Nat}
    {connection : Connection Db}
    {reporter : Reporter}
    {track : Track}
    {ts : UInt32}
    {elapsed duration : Duration}
    (anchor : connection.anchor = some track)
    (found : extent track ts reporter.rate = some (elapsed, duration)) :
    Own stream
      (connection.setThread stream
        { reporter with
          reported := some (asSecs elapsed)
          sending := some (elapsed, duration) }) := by
  refine ⟨_, track, elapsed, Function.update_self .., anchor, rfl, ?_⟩
  rw [duration_of_extent found]
  rfl

/-- A packet that is told anew, and one that is not, keep it so. -/
theorem Own.played
    {stream : Nat}
    {connection : Connection Db}
    {reporter : Reporter}
    (own : Own stream connection)
    (thread : connection.threads stream = some reporter)
    (ts : UInt32) :
    Own stream
      (connection.setThread stream
        (reporter.played connection.anchor ts)) := by
  rcases own with ⟨_, track, said, thread_too, anchor, reported, last⟩
  rw [thread] at thread_too
  cases thread_too
  simp only [Reporter.played, anchor]
  cases found : extent track ts reporter.rate with
  | none =>
      exact ⟨reporter, track, said, Function.update_self .., anchor,
        reported, last⟩
  | some position =>
      rcases position with ⟨elapsed, duration⟩
      dsimp only
      split
      · exact ⟨reporter, track, said, Function.update_self .., anchor,
          reported, last⟩
      · exact own_of_anew anchor found

/-- The report of what was found keeps it so. -/
theorem Own.reported
    {stream : Nat}
    {connection : Connection Db}
    {reporter : Reporter}
    {elapsed duration : Duration}
    (own : Own stream connection)
    (thread : connection.threads stream = some reporter)
    (found : reporter.sending = some (elapsed, duration)) :
    Own stream
      { connection.setThread stream { reporter with sending := none } with
        events := connection.events ++ [.progress elapsed duration] } := by
  rcases own with ⟨_, track, said, thread_too, anchor, reported, last⟩
  rw [thread] at thread_too
  cases thread_too
  rw [found, Option.some_or] at last
  cases last
  refine ⟨_, track, elapsed, Function.update_self .., anchor, reported, ?_⟩
  exact lastProgress_concat _ _ _

/-- An effect that is quiet keeps it so. -/
theorem Own.perform
    {platform : Platform Db}
    {stream : Nat}
    {connection next : Connection Db}
    (own : Own stream connection)
    (quiet : Quiet stream connection .effect)
    (stepped : step platform connection .effect = some next) :
    Own stream next := by
  rcases own with ⟨reporter, track, said, thread, anchor, reported, last⟩
  simp only [Quiet] at quiet
  cases reporting_cases stepped with
  | effect effect rest performed effects isPerformed =>
      rw [effects, List.head?_cons] at quiet
      have elsewhere (other : Nat) (value : Option Reporter)
          (differs : other ≠ stream) :
          Function.update connection.threads other value stream =
            some reporter := by
        rw [Function.update_of_ne differs.symm]
        exact thread
      cases effect with
      | event event =>
          cases isPerformed
          refine ⟨reporter, track, said, thread, anchor, reported, ?_⟩
          rw [lastProgress_concat_none connection.events event quiet]
          exact last
      | anchor => cases quiet
      | startPlayer other rate =>
          cases isPerformed
          exact ⟨reporter, track, said, elsewhere other _ quiet, anchor,
            reported, last⟩
      | closeSink other =>
          rw [Connection.perform, Option.ite_none_left_eq_some]
            at isPerformed
          rcases isPerformed with ⟨-, isPerformed⟩
          cases isPerformed
          exact ⟨reporter, track, said, elsewhere other _ quiet, anchor,
            reported, last⟩
      | _ =>
          cases isPerformed
          exact ⟨reporter, track, said, thread, anchor, reported, last⟩

theorem Own.step
    {platform : Platform Db}
    {stream : Nat}
    {connection next : Connection Db}
    {act : Act}
    (own : Own stream connection)
    (quiet : Quiet stream connection act)
    (stepped : step platform connection act = some next) :
    Own stream next := by
  cases reporting_cases stepped with
  | effect => exact own.perform quiet stepped
  | request request ports isOpen finished => exact own
  | close isOpen finished => exact own
  | played other ts reporter thread idle =>
      by_cases same : other = stream
      · subst same
        exact own.played thread ts
      · rcases own with
          ⟨mine, track, said, isMine, anchor, reported, last⟩
        refine ⟨mine, track, said, ?_, anchor, reported, last⟩
        rw [← isMine]
        exact Function.update_of_ne (Ne.symm same) _ _
  | report other reporter elapsed duration thread found =>
      have same : other = stream := quiet
      subst same
      exact own.reported thread found

/-- The audio is followed as long as nothing else is told or anchored. -/
theorem follows_of_quiet
    (platform : Platform Db)
    (localIp peerIp : IpAddr)
    {stream : Nat}
    {connection : Connection Db}
    {schedule : List Act}
    (own : Own stream connection)
    (quiet :
      (reporting platform localIp peerIp).Meets (Quiet stream) connection
        schedule) :
    (reporting platform localIp peerIp).Meets
      (fun state act =>
        ∀ ts, act = .played stream ts → Follows platform state act)
      connection schedule := by
  apply System.meets_of_invariant (Own stream) _ _ own quiet
  · intro state act next own quiet stepped
    exact own.step quiet stepped
  · rintro state act own - ts rfl
    exact (follows_iff_inStep platform state _).mpr (own.inStep ts)

end OpenAirplay2.Reporting

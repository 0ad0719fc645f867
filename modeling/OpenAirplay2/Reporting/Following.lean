import OpenAirplay2.Lib.History
import OpenAirplay2.Reporting.Positions

/-!
# Whether the position follows the audio

What a run has done to the position of a stream is read off its acts: which
packets lay on the track, which positions were told, what was anchored.  A
packet needs no attention as long as nobody interferes.  After a progress
line, or another track, the position follows the audio exactly if the packet
lies both in the second of the thread's packet before it and at the position
told last, or neither.
-/

namespace OpenAirplay2.Reporting

open OpenAirplay2.Control
open OpenAirplay2.Lib.Transition
open OpenAirplay2.Player (Duration Track framesToDuration)
open OpenAirplay2.Takeover (streamPlatform)

variable {Db : Type}

/-! ## What the acts have done -/

/-- What an act does to the position of a stream. -/
inductive Mark where
  /-- The thread starts, or is joined. -/
  | renewed
  /-- The thread is handed a packet that lies on the anchored track. -/
  | packet (second : Nat) (duration : Duration) (active : Bool)
  /-- The thread sends the position of that packet. -/
  | sent
  /-- A progress line, or another thread, tells a position. -/
  | told (second : Nat) (duration : Duration)
  | anchored
deriving DecidableEq, Repr

/-- What an effect does to the position of the stream. -/
def effectMarks (stream : Nat) : Effect Db → List Mark
  | .event (.progress elapsed duration) =>
      [.told (asSecs elapsed) duration]
  | .anchor _ => [.anchored]
  | .startPlayer other _ => if other = stream then [.renewed] else []
  | .closeSink other => if other = stream then [.renewed] else []
  | _ => []

/-- What an act does to the position of the stream. -/
def marks (stream : Nat) (connection : Connection Db) : Act → List Mark
  | .played other ts =>
      if other = stream then
        match connection.threads stream, connection.anchor with
        | some reporter, some track =>
            match extent track ts reporter.rate with
            | some (elapsed, duration) =>
                [.packet (asSecs elapsed) duration
                  connection.session.sessionActive]
            | none => []
        | _, _ => []
      else []
  | .report other =>
      if other = stream then [.sent]
      else
        match (connection.threads other).bind (·.sending) with
        | some (elapsed, duration) => [.told (asSecs elapsed) duration]
        | none => []
  | .effect =>
      match connection.effects with
      | effect :: _ => effectMarks stream effect
      | [] => []
  | _ => []

/-- What is to be known of the acts so far. -/
structure Past where
  /-- The second of the thread's last packet on a track, with its duration. -/
  packet : Option (Nat × Duration)
  /-- The position told last, by a progress line or for a packet. -/
  last : Option (Nat × Duration)
  /-- That packet was played in a session, and nobody interfered since. -/
  calm : Bool
deriving DecidableEq, Repr

namespace Past

def new : Past where
  packet := none
  last := none
  calm := false

def note (past : Past) : Mark → Past
  | .renewed => { past with packet := none, calm := false }
  | .packet second duration active =>
      { past with packet := some (second, duration), calm := active }
  | .sent => { past with last := past.packet }
  | .told second duration =>
      { past with last := some (second, duration), calm := false }
  | .anchored => { past with calm := false }

def after (log : List Mark) : Past :=
  log.foldl note new

/--
Nobody interfered since the thread's packet before; or the packet lies in its
second and at the position told last, or in neither.
-/
def Allows (past : Past) (second : Nat) (duration : Duration) : Prop :=
  past.calm = true ∨
    (past.packet.map Prod.fst = some second ↔
      past.last = some (second, duration))

theorem after_append (first second : List Mark) :
    after (first ++ second) = second.foldl note (after first) :=
  List.foldl_append

end Past

/-- Every packet on the track that the thread plays in a session. -/
def Heeds (stream : Nat) (log : List Mark) (connection : Connection Db) :
    Act → Prop
  | .played other ts =>
      other = stream →
        ∀ reporter elapsed duration,
          Plays connection stream ts reporter elapsed duration →
            (Past.after log).Allows (asSecs elapsed) duration
  | _ => True

/-! ## The past is what the thread and the channel know -/

/-- The second and the duration of a position. -/
def secondOf (position : Duration × Duration) : Nat × Duration :=
  (asSecs position.1, position.2)

/--
The thread remembers the second of its last packet and has nothing to send
but that packet's position.
-/
structure Recalls (stream : Nat) (connection : Connection Db)
    (past : Past) : Prop where
  reported :
    ∀ reporter, connection.threads stream = some reporter →
      reporter.reported = past.packet.map Prod.fst
  sending :
    ∀ reporter position, connection.threads stream = some reporter →
      reporter.sending = some position →
        past.packet = some (secondOf position)
  last : (lastProgress connection.events).map secondOf = past.last

/-- In a calm past the position that stands last is the thread's own. -/
def Calm (stream : Nat) (connection : Connection Db) (past : Past) : Prop :=
  past.calm = true → Own stream connection

section Steps

variable
    {platform : Platform Db}
    {connection next : Connection Db}
    {stream : Nat}
    {past : Past}

/-- The last position names what the past has as told last. -/
theorem Recalls.names_iff
    (recalls : Recalls stream connection past)
    (elapsed duration : Duration) :
    Names connection.events elapsed duration ↔
      past.last = some (asSecs elapsed, duration) := by
  rw [← recalls.last, Option.map_eq_some_iff]
  constructor
  · rintro ⟨said, isLast, same⟩
    exact ⟨(said, duration), isLast, Prod.ext same rfl⟩
  · rintro ⟨⟨said, other⟩, isLast, same⟩
    rw [secondOf, Prod.mk.injEq] at same
    exact ⟨said, same.2 ▸ isLast, same.1⟩

/-- A packet that the past allows is one in step. -/
theorem Recalls.allows_iff
    (recalls : Recalls stream connection past)
    (calm : Calm stream connection past)
    {ts : UInt32} {reporter : Reporter} {elapsed duration : Duration}
    (plays : Plays connection stream ts reporter elapsed duration) :
    past.Allows (asSecs elapsed) duration ↔
      (reporter.reported = some (asSecs elapsed) ↔
        Names connection.events elapsed duration) := by
  rw [recalls.names_iff, recalls.reported reporter plays.thread]
  constructor
  · rintro (undisturbed | same)
    · have own := calm undisturbed
      rw [← recalls.reported reporter plays.thread, ← recalls.names_iff]
      exact own.inStep ts reporter elapsed duration plays
    · exact same
  · exact Or.inr

theorem Recalls.heeds_iff
    {log : List Mark}
    (recalls : Recalls stream connection (Past.after log))
    (calm : Calm stream connection (Past.after log)) (act : Act) :
    Heeds stream log connection act ↔
      ∀ ts, act = .played stream ts → InStep connection act := by
  cases act with
  | played other ts =>
      constructor
      · rintro heeds ts isPlayed reporter elapsed duration plays
        cases isPlayed
        exact
          (recalls.allows_iff calm plays).mp
            (heeds rfl reporter elapsed duration plays)
      · rintro inStep rfl reporter elapsed duration plays
        exact
          (recalls.allows_iff calm plays).mpr
            (inStep ts rfl reporter elapsed duration plays)
  | _ => exact iff_of_true trivial fun _ isPlayed => nomatch isPlayed

/-! ### What is remembered -/

/-- Nothing happens to the stream or to what is told of positions. -/
theorem Recalls.of_same
    (recalls : Recalls stream connection past)
    (thread : next.threads stream = connection.threads stream)
    (events :
      lastProgress next.events = lastProgress connection.events) :
    Recalls stream next past where
  reported := thread ▸ recalls.reported
  sending := thread ▸ recalls.sending
  last := events ▸ recalls.last

/-- A position is told by somebody else. -/
theorem Recalls.tell
    (recalls : Recalls stream connection past)
    (elapsed duration : Duration)
    (thread : next.threads stream = connection.threads stream)
    (events :
      next.events = connection.events ++ [.progress elapsed duration]) :
    Recalls stream next (past.note (.told (asSecs elapsed) duration)) where
  reported := thread ▸ recalls.reported
  sending := thread ▸ recalls.sending
  last := by
    rw [events, lastProgress_concat]
    rfl

/-- A thread that has just started remembers nothing. -/
theorem Recalls.renew
    (recalls : Recalls stream connection past)
    {thread : Option Reporter}
    (isThread : next.threads stream = thread)
    (fresh :
      ∀ reporter ∈ thread,
        reporter.reported = none ∧ reporter.sending = none)
    (events : next.events = connection.events) :
    Recalls stream next (past.note .renewed) where
  reported := fun reporter isReporter =>
    (fresh reporter (isThread ▸ isReporter)).1
  sending := by
    intro reporter position isReporter isSending
    rw [(fresh reporter (isThread ▸ isReporter)).2] at isSending
    cases isSending
  last := events ▸ recalls.last

theorem recalls_effect
    (recalls : Recalls stream connection past)
    (stepped : step platform connection .effect = some next) :
    Recalls stream next
      ((marks stream connection .effect).foldl Past.note past) := by
  cases reporting_cases stepped with
  | effect effect rest performed effects isPerformed =>
      simp only [marks, effects]
      have elsewhere {other : Nat} (differs : other ≠ stream)
          (thread : Option Reporter) :
          Function.update connection.threads other thread stream =
            connection.threads stream :=
        Function.update_of_ne (Ne.symm differs) _ _
      cases effect with
      | event event =>
          cases isPerformed
          cases event with
          | progress elapsed duration =>
              exact recalls.tell elapsed duration rfl rfl
          | _ => exact recalls.of_same rfl (lastProgress_concat_none _ _ rfl)
      | startPlayer other rate =>
          cases isPerformed
          rw [effectMarks]
          split
          · next same =>
              subst same
              refine recalls.renew (Function.update_self ..) ?_ rfl
              rintro _ ⟨⟩
              exact ⟨rfl, rfl⟩
          · next differs => exact recalls.of_same (elsewhere differs _) rfl
      | closeSink other =>
          rw [Connection.perform, Option.ite_none_left_eq_some]
            at isPerformed
          rcases isPerformed with ⟨-, isPerformed⟩
          cases isPerformed
          rw [effectMarks]
          split
          · next same =>
              subst same
              refine recalls.renew (Function.update_self ..) ?_ rfl
              rintro _ ⟨⟩
          · next differs => exact recalls.of_same (elsewhere differs _) rfl
      | _ =>
          cases isPerformed
          exact ⟨recalls.reported, recalls.sending, recalls.last⟩

/-- The thread is handed a packet: it remembers one that lies on the track. -/
theorem recalls_played
    (recalls : Recalls stream connection past)
    {ts : UInt32} {reporter : Reporter}
    (thread : connection.threads stream = some reporter)
    (idle : reporter.sending = none) :
    Recalls stream
      (connection.setThread stream
        (reporter.played connection.anchor ts))
      ((marks stream connection (.played stream ts)).foldl Past.note
        past) := by
  have isReported := recalls.reported reporter thread
  have isThread {other now : Reporter}
      (found :
        (connection.setThread stream now).threads stream = some other) :
      other = now :=
    Option.some.inj (found.symm.trans (connection.threads_setThread ..))
  simp only [marks, if_true, thread, Reporter.played]
  cases anchor : connection.anchor with
  | none =>
      refine recalls.of_same ?_ rfl
      rw [Connection.threads_setThread, thread]
  | some track =>
      dsimp only
      cases found : extent track ts reporter.rate with
      | none =>
          refine recalls.of_same ?_ rfl
          rw [Connection.threads_setThread, thread]
      | some position =>
          rcases position with ⟨elapsed, duration⟩
          dsimp only
          split
          · next again =>
              constructor
              · intro other found
                rw [isThread found]
                exact again
              · intro other position found isSending
                rw [isThread found, idle] at isSending
                cases isSending
              · exact recalls.last
          · constructor
            · intro other found
              rw [isThread found]
              rfl
            · intro other position found isSending
              rw [isThread found] at isSending
              cases isSending
              rfl
            · exact recalls.last

theorem recalls_report
    (recalls : Recalls stream connection past)
    {reporter : Reporter} {elapsed duration : Duration}
    (thread : connection.threads stream = some reporter)
    (found : reporter.sending = some (elapsed, duration)) :
    Recalls stream
      { connection.setThread stream { reporter with sending := none } with
        events := connection.events ++ [.progress elapsed duration] }
      (past.note .sent) := by
  constructor
  · intro other isThread
    cases (connection.threads_setThread ..).symm.trans isThread
    exact recalls.reported reporter thread
  · intro other position isThread isSending
    cases (connection.threads_setThread ..).symm.trans isThread
    cases isSending
  · rw [lastProgress_concat]
    exact (recalls.sending reporter _ thread found).symm

theorem recalls_step
    (recalls : Recalls stream connection past)
    {act : Act}
    (stepped : step platform connection act = some next) :
    Recalls stream next
      ((marks stream connection act).foldl Past.note past) := by
  cases reporting_cases stepped with
  | effect => exact recalls_effect recalls stepped
  | request request ports isOpen finished => exact recalls.of_same rfl rfl
  | close isOpen finished => exact recalls.of_same rfl rfl
  | played other ts reporter thread idle =>
      by_cases same : other = stream
      · subst same
        exact recalls_played recalls thread idle
      · simp only [marks, if_neg same]
        refine recalls.of_same ?_ rfl
        exact Function.update_of_ne (Ne.symm same) _ _
  | report other reporter elapsed duration thread found =>
      by_cases same : other = stream
      · subst same
        simp only [marks, if_true]
        exact recalls_report recalls thread found
      · simp only [marks, if_neg same, thread, Option.bind_some, found]
        apply recalls.tell elapsed duration _ rfl
        exact Function.update_of_ne (Ne.symm same) _ _

/-! ### What is calm -/

/-- What was told last is the position of the packet before. -/
theorem own_of_again
    {reporter : Reporter} {track : Track} {ts : UInt32}
    {elapsed duration : Duration}
    (idle : reporter.sending = none)
    (anchor : connection.anchor = some track)
    (found : extent track ts reporter.rate = some (elapsed, duration))
    (again : reporter.reported = some (asSecs elapsed))
    (names : Names connection.events elapsed duration) :
    Own stream
      (connection.setThread stream
        (reporter.played connection.anchor ts)) := by
  have same : reporter.played connection.anchor ts = reporter := by
    simp only [Reporter.played, anchor, found, if_pos again]
  rcases names with ⟨said, isLast, isSecond⟩
  rw [same]
  refine
    ⟨reporter, track, said, connection.threads_setThread .., anchor,
      isSecond ▸ again, ?_⟩
  rw [idle, Option.none_or]
  show lastProgress connection.events = _
  rw [isLast, duration_of_extent found]

/-- After a packet on the track that is in step, the position is its own. -/
theorem own_of_inStep
    {reporter : Reporter} {track : Track} {ts : UInt32}
    {elapsed duration : Duration}
    (idle : reporter.sending = none)
    (anchor : connection.anchor = some track)
    (found : extent track ts reporter.rate = some (elapsed, duration))
    (inStep :
      reporter.reported = some (asSecs elapsed) →
        Names connection.events elapsed duration) :
    Own stream
      (connection.setThread stream
        (reporter.played connection.anchor ts)) := by
  by_cases again : reporter.reported = some (asSecs elapsed)
  · exact own_of_again idle anchor found again (inStep again)
  · have anew :
        reporter.played connection.anchor ts =
          { reporter with
            reported := some (asSecs elapsed)
            sending := some (elapsed, duration) } := by
      simp only [Reporter.played, anchor, found, if_neg again]
    rw [anew]
    exact own_of_anew anchor found

/-- An effect that leaves the past calm is quiet. -/
theorem quiet_of_calm
    {effect : Effect Db} {rest : List (Effect Db)}
    (effects : connection.effects = effect :: rest)
    (calm :
      ((effectMarks stream effect).foldl Past.note past).calm = true) :
    past.calm = true ∧ Quiet stream connection .effect := by
  simp only [Quiet, effects, List.head?_cons]
  cases effect with
  | event event =>
      cases event with
      | progress => cases calm
      | _ => exact ⟨calm, rfl⟩
  | anchor => cases calm
  | startPlayer other rate =>
      rw [effectMarks] at calm
      split at calm
      · cases calm
      · next differs => exact ⟨calm, differs⟩
  | closeSink other =>
      rw [effectMarks] at calm
      split at calm
      · cases calm
      · next differs => exact ⟨calm, differs⟩
  | _ => exact ⟨calm, trivial⟩

theorem calm_effect
    (calm : Calm stream connection past)
    (stepped : step platform connection .effect = some next) :
    Calm stream next
      ((marks stream connection .effect).foldl Past.note past) := by
  intro still
  cases reporting_cases stepped with
  | effect effect rest performed effects isPerformed =>
      simp only [marks, effects] at still
      rcases quiet_of_calm effects still with ⟨before, quiet⟩
      exact (calm before).perform quiet stepped

theorem calm_played
    {log : List Mark} {ts : UInt32} {reporter : Reporter}
    (recalls : Recalls stream connection (Past.after log))
    (calm : Calm stream connection (Past.after log))
    (heeds : Heeds stream log connection (.played stream ts))
    (thread : connection.threads stream = some reporter)
    (idle : reporter.sending = none) :
    Calm stream
      (connection.setThread stream
        (reporter.played connection.anchor ts))
      ((marks stream connection (.played stream ts)).foldl Past.note
        (Past.after log)) := by
  intro still
  cases anchor : connection.anchor with
  | none =>
      simp only [marks, if_true, thread, anchor] at still
      exact anchor ▸ (calm still).played thread ts
  | some track =>
      cases found : extent track ts reporter.rate with
      | none =>
          simp only [marks, if_true, thread, anchor, found] at still
          exact anchor ▸ (calm still).played thread ts
      | some position =>
          rcases position with ⟨elapsed, duration⟩
          simp only [marks, if_true, thread, anchor, found] at still
          have plays :
              Plays connection stream ts reporter elapsed duration :=
            ⟨still, thread, idle, track, anchor, found⟩
          have inStep :=
            (recalls.allows_iff calm plays).mp
              (heeds rfl reporter elapsed duration plays)
          exact anchor ▸ own_of_inStep idle anchor found inStep.mp

/-- The packets that heed the past keep it calm. -/
theorem calm_step
    {log : List Mark} {act : Act}
    (recalls : Recalls stream connection (Past.after log))
    (calm : Calm stream connection (Past.after log))
    (heeds : Heeds stream log connection act)
    (stepped : step platform connection act = some next) :
    Calm stream next
      ((marks stream connection act).foldl Past.note (Past.after log)) := by
  have quietly (quiet : Quiet stream connection act) :
      Calm stream next (Past.after log) :=
    fun still => (calm still).step quiet stepped
  cases reporting_cases stepped with
  | effect => exact calm_effect calm stepped
  | request request ports isOpen finished => exact quietly trivial
  | close isOpen finished => exact quietly trivial
  | played other ts reporter thread idle =>
      by_cases same : other = stream
      · subst same
        exact calm_played recalls calm heeds thread idle
      · simp only [marks, if_neg same]
        exact quietly trivial
  | report other reporter elapsed duration thread found =>
      by_cases same : other = stream
      · simp only [marks, if_pos same]
        exact quietly same
      · simp only [marks, if_neg same, thread, Option.bind_some, found]
        intro still
        cases still

end Steps

/-! ## The audio is followed -/

theorem recalls_initial
    (platform : Platform Db) (localIp peerIp : IpAddr) (stream : Nat) :
    Recalls stream (reporting platform localIp peerIp).initial .new where
  reported := fun _ thread => nomatch thread
  sending := fun _ _ thread => nomatch thread
  last := rfl

/--
The position follows the audio exactly if every packet heeds what the acts
before it have done to the position of its stream.
-/
theorem position_follows_iff
    (platform : Platform Db)
    (localIp peerIp : IpAddr)
    (schedule : List Act) :
    (reporting platform localIp peerIp).Meets (Follows platform)
        (reporting platform localIp peerIp).initial schedule ↔
      ∀ stream,
        (reporting platform localIp peerIp).MeetsAfter (marks stream)
          (Heeds stream) []
          (reporting platform localIp peerIp).initial schedule := by
  have each (stream : Nat) :
      (reporting platform localIp peerIp).MeetsAfter (marks stream)
          (Heeds stream) []
          (reporting platform localIp peerIp).initial schedule ↔
        (reporting platform localIp peerIp).Meets
          (fun state act =>
            ∀ ts, act = .played stream ts → InStep state act)
          (reporting platform localIp peerIp).initial schedule :=
    System.meetsAfter_iff
      (fun connection log =>
        Recalls stream connection (Past.after log) ∧
          Calm stream connection (Past.after log))
      (fun _ _ act holds => holds.1.heeds_iff holds.2 act)
      (fun _ _ _ _ holds heeds stepped => by
        rw [Past.after_append]
        exact
          ⟨recalls_step holds.1 stepped,
            calm_step holds.1 holds.2 heeds stepped⟩)
      ⟨recalls_initial platform localIp peerIp stream,
        fun calm => nomatch calm⟩
  simp only [each, System.meets_iff_forall_prefix,
    follows_iff_inStep platform]
  constructor
  · intro inStep stream before act after middle split reached ts _
    exact inStep before act after middle split reached
  · intro inStep before act after middle split reached
    cases act with
    | played stream ts =>
        exact
          inStep stream before _ after middle split reached ts rfl
    | _ => trivial

/-- The sender says that it is at five of the ten seconds. -/
def setFiveSeconds : Request where
  method := "SET_PARAMETER"
  target := "rtsp://192.0.2.1/1"
  protocol := "RTSP/1.0"
  headers := [("Content-Type", "text/parameters")]
  body := Lib.Str.asciiBytes "progress: 0/220500/441000\r\n"

/-- One second has been played and told, then the sender speaks. -/
def spokenBetween : List Act :=
  startsOne ++
    [.request setTenSeconds ⟨none, none⟩, .effect, .effect,
      .played 0 44100, .report 0,
      .request setFiveSeconds ⟨none, none⟩, .effect, .effect]

/-- The next packet of that second leaves what the sender said. -/
theorem position_falls_behind :
    ¬ ∀ (platform : Platform Unit) (localIp peerIp : IpAddr)
        (schedule : List Act),
      (reporting platform localIp peerIp).Meets (Follows platform)
        (reporting platform localIp peerIp).initial schedule := by
  intro claim
  have meets : oneSender.Meets (Follows streamPlatform) oneSender.initial
      (spokenBetween ++ [.played 0 45000]) :=
    claim streamPlatform _ _ _
  have facts :
      (oneSender.exec oneSender.initial spokenBetween).map
          (fun connection =>
            (connection.session.sessionActive, connection.threads 0,
              connection.anchor, lastProgress connection.events)) =
        some
          (true, some ⟨44100, some 1, none⟩, some ⟨0, 441000⟩,
            some (5000000000, 10000000000)) := by
    decide +kernel
  rcases Option.map_eq_some_iff.mp facts with
    ⟨connection, reached, isState⟩
  simp only [Prod.mk.injEq] at isState
  rcases isState with ⟨active, thread, anchor, last⟩
  have found :
      extent ⟨0, 441000⟩ 45000 44100 = some (1020408163, 10000000000) := by
    decide +kernel
  have plays :
      Plays connection 0 45000 ⟨44100, some 1, none⟩ 1020408163
        10000000000 :=
    ⟨active, thread, rfl, _, anchor, found⟩
  rcases handed_again streamPlatform plays rfl with ⟨told, done, silent⟩
  have follows :=
    System.meets_iff_forall_prefix.mp meets spokenBetween
      (.played 0 45000) [] connection rfl reached
  rcases (follows _ _ _ told plays done).1 with ⟨said, named, second⟩
  rw [silent, last] at named
  cases named
  revert second
  decide

end OpenAirplay2.Reporting

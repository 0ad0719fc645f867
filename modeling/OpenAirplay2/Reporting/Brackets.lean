import OpenAirplay2.Reporting.Held
import OpenAirplay2.Takeover.Sinks

/-!
# Sessions told in brackets

What a connection tells obeys a rule as long as a playback thread reports no
position outside a session and no request begins what the rule forbids: a
session inside a session, or a pause outside.

The host is told of each session once it starts and once it ends, and of
tracks in between, if no stream is started while a session is active.
-/

namespace OpenAirplay2.Reporting

open OpenAirplay2.Control
open OpenAirplay2.Lib.Trace
open OpenAirplay2.Lib.Transition
open OpenAirplay2.Takeover (streamPlatform streamSetup)

variable {Db : Type}

/-! ## The start and the end of a session -/

section Operations

variable
    {rule : Bool → Event Db → Prop}
    {session : Session Db}

/-- A stream that starts tells of its session and what was kept for it. -/
theorem tells_startStream
    (fair : Fair rule) (latched : Latched session)
    (obeys :
      ∀ rate channels peer,
        rule session.sessionActive (.sessionStarted rate channels peer))
    (key : Pairing.Bytes) :
    Tells rule session (session.startStream key) := by
  have inside :
      ∀ event ∈
          session.pendingMetadata.toList ++
            session.pendingArtwork.toList,
        event.isInside = true := by
    intro event member
    rcases List.mem_append.mp member with isMetadata | isArtwork
    · exact latched.1 event (Option.mem_toList.mp isMetadata)
    · exact latched.2 event (Option.mem_toList.mp isArtwork)
  rcases tells_startEffects session key with
    ⟨rate, channels, peer, told⟩
  constructor
  · refine ⟨_, effects_startStream session key, ?_, ?_⟩
    · rw [told]
      exact ⟨obeys rate channels peer, (lawful_latched fair inside).1⟩
    · rw [told]
      exact (lawful_latched fair inside).2
  · intro _
    constructor
    · intro _ member
      cases member
    · intro _ member
      cases member

theorem tells_startsAfter
    {next : Session Db}
    (fair : Fair rule) (latched : Latched session)
    (obeys :
      ∀ rate channels peer,
        rule session.sessionActive (.sessionStarted rate channels peer))
    (after : StartsAfter session next) :
    Tells rule session next := by
  rcases after with ⟨middle, key, moves, active, rfl⟩
  have before : Tells rule session middle :=
    Tells.of_moves fair (fun _ _ => False.elim) moves
  apply before.trans
  apply tells_startStream fair (before.latched latched)
  rw [active]
  exact obeys

/-- The end of a session is told if it is active, and leaves it inactive. -/
theorem tells_drop (fair : Fair rule) :
    Tells rule session session.drop := by
  have moves : Moves (fun _ _ => False) session session.endSession :=
    moves_endSession session
  have ended : Tells rule session session.endSession :=
    Tells.of_moves fair (fun _ _ => False.elim) moves
  have nothing :
      tells
          (session.endSession.tasks.map .abort ++
              session.endSession.player.toList.map .closeSink ++
            session.endSession.activeGuard.toList.map .dropGuard) =
        ([] : List (Event Db)) := by
    rw [tells_append, tells_append, tells_map_eq_nil fun _ => rfl,
      tells_map_eq_nil fun _ => rfl, tells_map_eq_nil fun _ => rfl]
    rfl
  exact
    (ended.trans (Tells.performAll nothing)).trans
      (Tells.of_eq rfl rfl id)

theorem sessionActive_drop (session : Session Db) :
    session.drop.sessionActive = false := by
  show session.endSession.sessionActive = false
  unfold Session.endSession
  split
  · rfl
  · next inactive => exact Bool.not_eq_true _ ▸ inactive

end Operations

/-! ## What is told of a connection -/

/--
The events obey the rule, those of the operation under way do once they are
told, and then the host knows whether the session is active.
-/
structure Watched
    (rule : Bool → Event Db → Prop) (connection : Connection Db) :
    Prop where
  settled : connection.session.effects = []
  lawful : Lawful nowOpen rule false connection.events
  ahead :
    Lawful nowOpen rule (inSession connection.events)
      (tells connection.effects)
  leads :
    (tells connection.effects).foldl nowOpen
        (inSession connection.events) =
      connection.session.sessionActive
  latched : Latched connection.session
  closed :
    connection.closed = true → connection.session.sessionActive = false

/--
The rule lets the session start that a request starts, and lets the host know
of the pause that it brings; positions are reported inside a session.
-/
def Allowed
    (rule : Bool → Event Db → Prop) (platform : Platform Db)
    (connection : Connection Db) : Act → Prop
  | .request request ports =>
      (request.method = "SETUP" →
        startsStream platform ports request.body = true →
          ∀ rate channels peer,
            rule connection.session.sessionActive
              (.sessionStarted rate channels peer)) ∧
        ∀ active paused,
          RequestPauses platform connection.session request active
              paused →
            rule active (.paused paused)
  | .report stream =>
      connection.unsent stream = true → inSession connection.events = true
  | _ => True

section Steps

variable
    {rule : Bool → Event Db → Prop}
    {platform : Platform Db}
    {connection next : Connection Db}

/-- Between two requests the host knows whether the session is active. -/
theorem Watched.inSession_eq
    (watched : Watched rule connection)
    (finished : connection.effects = []) :
    inSession connection.events = connection.session.sessionActive := by
  have leads := watched.leads
  rw [finished] at leads
  exact leads

/-- An operation is watched if what it tells obeys the rule. -/
theorem Watched.operate
    (watched : Watched rule connection)
    (finished : connection.effects = [])
    {session : Session Db}
    (tells : Tells rule connection.session session)
    (closed : connection.closed = true → session.sessionActive = false) :
    Watched rule (connection.operate session) := by
  rcases tells.effects with ⟨extra, effects, lawful, leads⟩
  rw [watched.settled, List.nil_append] at effects
  rw [← watched.inSession_eq finished] at lawful leads
  constructor
  · rfl
  · exact watched.lawful
  · show Lawful nowOpen rule _ (Reporting.tells session.effects)
    rw [effects]
    exact lawful
  · show (Reporting.tells session.effects).foldl nowOpen _ = _
    rw [effects]
    exact leads
  · exact tells.latched watched.latched
  · exact closed

theorem watched_request
    (fair : Fair rule) (watched : Watched rule connection)
    (finished : connection.effects = [])
    (isOpen : connection.closed = false)
    {request : Request} {ports : Ports}
    (allowed :
      Allowed rule platform connection (.request request ports)) :
    Watched rule
      (connection.operate
        (dispatched platform connection.session ports request)) := by
  apply watched.operate finished
  · rcases dispatched_moves platform connection.session ports request with
      moves | ⟨isSetup, starts, after⟩
    · exact Tells.of_moves fair allowed.2 moves
    · exact
        tells_startsAfter fair watched.latched (allowed.1 isSetup starts)
          after
  · rw [isOpen]
    intro closed
    cases closed

theorem watched_close
    (fair : Fair rule) (watched : Watched rule connection)
    (finished : connection.effects = []) :
    Watched rule
      { connection.operate connection.session.drop with
        closed := true } := by
  have operated :=
    watched.operate finished (tells_drop fair)
      fun _ => sessionActive_drop connection.session
  constructor
  · exact operated.settled
  · exact operated.lawful
  · exact operated.ahead
  · exact operated.leads
  · exact operated.latched
  · exact fun _ => sessionActive_drop connection.session

/-- An effect tells its event and leaves the session as it is. -/
theorem Connection.perform_eq
    {effect : Effect Db}
    (performed : connection.perform effect = some next) :
    next.events = connection.events ++ (told effect).toList ∧
      next.session = connection.session ∧
        next.closed = connection.closed := by
  cases effect with
  | event event =>
      cases performed
      exact ⟨rfl, rfl, rfl⟩
  | closeSink stream =>
      rw [Connection.perform, Option.ite_none_left_eq_some] at performed
      rcases performed with ⟨-, performed⟩
      cases performed
      exact ⟨(List.append_nil _).symm, rfl, rfl⟩
  | _ =>
      cases performed
      exact ⟨(List.append_nil _).symm, rfl, rfl⟩

theorem watched_effect
    (watched : Watched rule connection)
    {effect : Effect Db} {rest : List (Effect Db)}
    (effects : connection.effects = effect :: rest)
    (performed : connection.perform effect = some next) :
    Watched rule { next with effects := rest } := by
  rcases Connection.perform_eq performed with ⟨events, session, closed⟩
  have split :
      tells connection.effects = (told effect).toList ++ tells rest := by
    rw [effects]
    show tells ([effect] ++ rest) = _
    rw [tells_append, tells, List.filterMap_cons, List.filterMap_nil]
    cases told effect <;> rfl
  have ahead := watched.ahead
  have leads := watched.leads
  rw [split, lawful_append_iff] at ahead
  rw [split, List.foldl_append] at leads
  constructor
  · exact session ▸ watched.settled
  · show Lawful nowOpen rule false next.events
    rw [events, lawful_append_iff]
    exact ⟨watched.lawful, ahead.1⟩
  · show Lawful nowOpen rule (inSession next.events) (tells rest)
    rw [events, inSession_append]
    exact ahead.2
  · show (tells rest).foldl nowOpen (inSession next.events) =
      next.session.sessionActive
    rw [events, inSession_append, session]
    exact leads
  · exact session ▸ watched.latched
  · show next.closed = true → next.session.sessionActive = false
    rw [closed, session]
    exact watched.closed

/-- A position is told inside a session and leaves it open. -/
theorem watched_report
    (fair : Fair rule) (watched : Watched rule connection)
    (opened : inSession connection.events = true)
    (stream : Nat) (reporter : Reporter)
    (elapsed duration : Player.Duration) :
    Watched rule
      { connection.setThread stream reporter with
        events := connection.events ++ [.progress elapsed duration] } := by
  have stays :
      inSession (connection.events ++ [.progress elapsed duration]) =
        inSession connection.events := by
    rw [inSession_append]
    rfl
  constructor
  · exact watched.settled
  · show Lawful nowOpen rule false (connection.events ++ _)
    rw [lawful_append_iff]
    refine ⟨watched.lawful, ?_, trivial⟩
    show rule (inSession connection.events) _
    rw [opened]
    exact fair.inside _ rfl
  · show Lawful nowOpen rule (inSession (connection.events ++ _)) _
    rw [stays]
    exact watched.ahead
  · show (tells connection.effects).foldl nowOpen
      (inSession (connection.events ++ _)) = _
    rw [stays]
    exact watched.leads
  · exact watched.latched
  · exact watched.closed

/-- What a step that is allowed tells obeys the rule. -/
theorem watched_step
    (fair : Fair rule) (watched : Watched rule connection)
    {act : Act} (allowed : Allowed rule platform connection act)
    (stepped : step platform connection act = some next) :
    Watched rule next := by
  cases reporting_cases stepped with
  | request request ports isOpen finished =>
      exact watched_request fair watched finished isOpen allowed
  | close isOpen finished => exact watched_close fair watched finished
  | effect effect rest performed effects isPerformed =>
      exact watched_effect watched effects isPerformed
  | played stream ts reporter thread idle =>
      exact
        { settled := watched.settled
          lawful := watched.lawful
          ahead := watched.ahead
          leads := watched.leads
          latched := watched.latched
          closed := watched.closed }
  | report stream reporter elapsed duration thread found =>
      have unsent : connection.unsent stream = true := by
        rw [Connection.unsent, thread, Option.any_some, found]
        rfl
      exact watched_report fair watched (allowed unsent) _ _ _ _

end Steps

theorem watched_initial
    (rule : Bool → Event Db → Prop) (platform : Platform Db)
    (localIp peerIp : IpAddr) :
    Watched rule (reporting platform localIp peerIp).initial where
  settled := rfl
  lawful := trivial
  ahead := trivial
  leads := rfl
  latched := by
    constructor
    · intro _ member
      cases member
    · intro _ member
      cases member
  closed := fun closed => nomatch closed

/-- A run whose steps are all allowed is watched to its end. -/
theorem watched_run
    {rule : Bool → Event Db → Prop} (fair : Fair rule)
    {platform : Platform Db} {localIp peerIp : IpAddr}
    {schedule : List Act} {connection : Connection Db}
    (allowed :
      (reporting platform localIp peerIp).Meets (Allowed rule platform)
        (reporting platform localIp peerIp).initial schedule)
    (reached :
      (reporting platform localIp peerIp).exec
          (reporting platform localIp peerIp).initial schedule =
        some connection) :
    Watched rule connection :=
  System.invariant_of_meets (Watched rule)
    (fun _ _ _ watched allowed stepped =>
      watched_step fair watched allowed stepped)
    (watched_initial rule platform localIp peerIp) allowed reached

/-! ## Brackets -/

/--
A session starts when none is open and ends when one is; what concerns a
track is told in between.
-/
structure WellBracketed (events : List (Event Db)) : Prop where
  started :
    ∀ before rate channels peer after,
      events = before ++ .sessionStarted rate channels peer :: after →
        inSession before = false
  ended :
    ∀ before after,
      events = before ++ .sessionEnded :: after → inSession before = true
  inside :
    ∀ before event after,
      events = before ++ event :: after → event.isInside = true →
        inSession before = true

/-- The brackets, event by event. -/
def bracketRule (opened : Bool) : Event Db → Prop
  | .sessionStarted _ _ _ => opened = false
  | .sessionEnded => opened = true
  | event => event.isInside = true → opened = true

theorem fair_bracketRule :
    Fair (bracketRule : Bool → Event Db → Prop) where
  free := by
    intro opened event free
    cases event with
    | volume =>
        intro inside
        cases inside
    | flushed =>
        intro inside
        cases inside
    | _ => cases free
  inside := by
    intro event inside
    cases event with
    | sessionStarted => cases inside
    | sessionEnded => cases inside
    | _ => exact fun _ => rfl
  ended := rfl

theorem wellBracketed_of_lawful
    {events : List (Event Db)}
    (lawful : Lawful nowOpen bracketRule false events) :
    WellBracketed events := by
  rw [lawful_iff_forall_split] at lawful
  constructor
  · intro before rate channels peer after split
    exact lawful before _ after split
  · intro before after split
    exact lawful before _ after split
  · intro before event after split inside
    have obeys := lawful before event after split
    cases event with
    | sessionStarted => cases inside
    | sessionEnded => cases inside
    | _ => exact obeys inside

/--
A `SETUP` starts a stream only when no session is active, and no thread finds
a position to tell outside a session or keeps one past its end.
-/
def Orderly (platform : Platform Db) (connection : Connection Db) :
    Act → Prop
  | .request request ports =>
      request.method = "SETUP" →
        startsStream platform ports request.body = true →
          connection.session.sessionActive = false
  | act => Timely connection act

instance (platform : Platform Db) (connection : Connection Db)
    (act : Act) : Decidable (Orderly platform connection act) :=
  match act with
  | .request request ports =>
      inferInstanceAs
        (Decidable
          (request.method = "SETUP" →
            startsStream platform ports request.body = true →
              connection.session.sessionActive = false))
  | .close => instDecidableTrue
  | .effect => inferInstanceAs (Decidable (Timely connection .effect))
  | .played stream ts =>
      inferInstanceAs (Decidable (Timely connection (.played stream ts)))
  | .report _ => instDecidableTrue

theorem timely_of_orderly
    {platform : Platform Db} {connection : Connection Db} {act : Act}
    (orderly : Orderly platform connection act) :
    Timely connection act := by
  cases act with
  | request => trivial
  | _ => exact orderly

theorem allowed_of_orderly
    {platform : Platform Db} {connection : Connection Db} {act : Act}
    (held : Held connection)
    (orderly : Orderly platform connection act) :
    Allowed bracketRule platform connection act := by
  cases act with
  | request request ports =>
      constructor
      · exact fun isSetup starts _ _ _ => orderly isSetup starts
      · intro _ _ _ inside
        cases inside
  | report stream => exact held.within stream
  | _ => trivial

/--
In every run whose steps are orderly the host is told of sessions one after
the other, of tracks inside them only, and of the end of the last one by the
time the connection is dropped.
-/
theorem sessions_bracketed
    (platform : Platform Db) (localIp peerIp : IpAddr)
    (schedule : List Act) (connection : Connection Db)
    (orderly :
      (reporting platform localIp peerIp).Meets (Orderly platform)
        (reporting platform localIp peerIp).initial schedule)
    (reached :
      (reporting platform localIp peerIp).exec
          (reporting platform localIp peerIp).initial schedule =
        some connection) :
    WellBracketed connection.events ∧
      (connection.closed = true → connection.effects = [] →
        inSession connection.events = false) := by
  have allowed :=
    System.meets_of_invariant Held
      (fun _ _ _ held orderly stepped =>
        held_step held (timely_of_orderly orderly) stepped)
      (fun _ _ held orderly => allowed_of_orderly held orderly)
      (held_initial platform localIp peerIp) orderly
  have watched := watched_run fair_bracketRule allowed reached
  constructor
  · exact wellBracketed_of_lawful watched.lawful
  · intro closed finished
    rw [watched.inSession_eq finished]
    exact watched.closed closed

/-! ## Positions outside a session -/

section Outside

variable
    (platform : Platform Db)
    {connection : Connection Db}
    {stream : Nat}

/-- What is held back while no session is open is told outside one. -/
theorem not_wellBracketed_of_unsent
    (outside : inSession connection.events = false)
    (unsent : connection.unsent stream = true) :
    ∃ told,
      step platform connection (.report stream) = some told ∧
        ¬ WellBracketed told.events := by
  rcases (Option.any_eq_true _ _).mp unsent with ⟨reporter, thread, isFound⟩
  rcases Option.isSome_iff_exists.mp isFound with
    ⟨⟨elapsed, duration⟩, found⟩
  refine
    ⟨{ connection.setThread stream { reporter with sending := none } with
        events := connection.events ++ [.progress elapsed duration] },
      ?_, ?_⟩
  · simp only [step, thread, found]
  · intro bracketed
    have opened :=
      bracketed.inside connection.events (.progress elapsed duration) []
        rfl rfl
    rw [outside] at opened
    cases opened

/-- So is the position of a packet that is to be told of. -/
theorem not_wellBracketed_of_untold
    {reporter : Reporter} {ts : UInt32}
    (outside : inSession connection.events = false)
    (thread : connection.threads stream = some reporter)
    (idle : reporter.sending = none)
    (untold : connection.untold stream ts = true) :
    ∃ found told,
      step platform connection (.played stream ts) = some found ∧
        step platform found (.report stream) = some told ∧
          ¬ WellBracketed told.events := by
  let found :=
    connection.setThread stream (reporter.played connection.anchor ts)
  have unsent : found.unsent stream = true := by
    rw [Connection.unsent, Connection.threads_setThread, Option.any_some]
    exact sending_of_untold thread untold
  have outsideStill : inSession found.events = false := outside
  rcases not_wellBracketed_of_unsent platform outsideStill unsent with
    ⟨told, reported, outsideToo⟩
  refine ⟨found, told, ?_, reported, outsideToo⟩
  simp only [step, thread, idle, found]

end Outside

/-! ## A session, and one inside another -/

/-- The ten seconds of a track. -/
def setTenSeconds : Request where
  method := "SET_PARAMETER"
  target := "rtsp://192.0.2.1/1"
  protocol := "RTSP/1.0"
  headers := [("Content-Type", "text/parameters")]
  body := Lib.Str.asciiBytes "progress: 0/0/441000\r\n"

def teardownRequest : Request where
  method := "TEARDOWN"
  target := "rtsp://192.0.2.1/1"
  protocol := "RTSP/1.0"
  headers := []
  body := []

/-- The stream starts, up to its task. -/
def startsOne : List Act :=
  .request streamSetup ⟨some 49152, some 49153⟩ ::
    List.replicate 6 .effect

def oneSender : System (Connection Unit) Act :=
  reporting streamPlatform ⟨"192.0.2.1"⟩ ⟨"192.0.2.2"⟩

theorem sessions_bracketed_torn_down :
    WellBracketed
      [.sessionStarted 44100 2 ⟨"192.0.2.2"⟩,
        .progress 0 10000000000,
        .progress 1000000000 10000000000,
        (.sessionEnded : Event Unit)] := by
  let playsOne : List Act :=
    [.request setTenSeconds ⟨none, none⟩, .effect, .effect,
      .played 0 44100, .report 0,
      .request teardownRequest ⟨none, none⟩, .effect, .close]
  let schedule : List Act :=
    startsOne ++ playsOne ++ List.replicate 3 Act.effect
  have events :
      (oneSender.exec oneSender.initial schedule).map
          (fun connection => connection.events) =
        some
          [.sessionStarted 44100 2 ⟨"192.0.2.2"⟩,
            .progress 0 10000000000,
            .progress 1000000000 10000000000,
            .sessionEnded] := by
    decide +kernel
  rcases Option.map_eq_some_iff.mp events with
    ⟨connection, reached, isEvents⟩
  rw [← isEvents]
  exact
    (sessions_bracketed streamPlatform _ _ schedule connection
      (by decide +kernel) reached).1

/-- A second `SETUP` starts a session before the first has ended. -/
theorem sessions_nested :
    ¬ ∀ (platform : Platform Unit) (localIp peerIp : IpAddr)
        (schedule : List Act) (connection : Connection Unit),
      (reporting platform localIp peerIp).exec
            (reporting platform localIp peerIp).initial schedule =
          some connection →
        WellBracketed connection.events ∧
          (connection.closed = true → connection.effects = [] →
            inSession connection.events = false) := by
  intro claim
  have events :
      (oneSender.exec oneSender.initial (startsOne ++ startsOne)).map
          (fun connection => connection.events) =
        some
          [.sessionStarted 44100 2 ⟨"192.0.2.2"⟩,
            .sessionStarted 44100 2 ⟨"192.0.2.2"⟩] := by
    decide +kernel
  rcases Option.map_eq_some_iff.mp events with
    ⟨connection, reached, isEvents⟩
  have bracketed := (claim streamPlatform _ _ _ _ reached).1
  rw [isEvents] at bracketed
  exact
    absurd (bracketed.started [_] 44100 2 ⟨"192.0.2.2"⟩ [] rfl)
      (by decide)

end OpenAirplay2.Reporting

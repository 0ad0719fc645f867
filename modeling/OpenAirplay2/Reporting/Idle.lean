import OpenAirplay2.Display.Publisher
import OpenAirplay2.Reporting.Brackets

/-!
# An idle receiver looks idle

The events of a connection are published in the order they were told, some
of them later than others.  A snapshot without a session shows nothing else
of one, as long as the host is told of positions and of a pause inside a
session only.
-/

namespace OpenAirplay2.Reporting

open OpenAirplay2.Control
open OpenAirplay2.Display
  (Feed Message Snapshot Wire display published snapshot_of_exec toMessage)
open OpenAirplay2.Lib.Trace
open OpenAirplay2.Lib.Transition
open OpenAirplay2.Takeover (streamPlatform)

variable {Db : Type}

/-- Without a session there is nothing of one to be seen. -/
def LooksIdle (snapshot : Snapshot Db) : Prop :=
  snapshot.session = none →
    snapshot.track = none ∧ snapshot.artwork = none ∧
      snapshot.progress = none ∧ snapshot.paused = false

instance [DecidableEq Db] (snapshot : Snapshot Db) :
    Decidable (LooksIdle snapshot) :=
  inferInstanceAs
    (Decidable
      (snapshot.session = none →
        snapshot.track = none ∧ snapshot.artwork = none ∧
          snapshot.progress = none ∧ snapshot.paused = false))

/-- What must not be told outside a session. -/
def idleRule (opened : Bool) : Event Db → Prop
  | .paused paused => paused = true → opened = true
  | event => event.isInside = true → opened = true

theorem fair_idleRule :
    Fair (idleRule : Bool → Event Db → Prop) where
  free := by
    intro opened event free
    cases event with
    | volume =>
        intro inside
        cases inside
    | flushed =>
        intro inside
        cases inside
    | _ => cases free
  inside := by
    intro event inside
    cases event with
    | paused => cases inside
    | _ => exact fun _ => rfl
  ended := fun _ => rfl

/-! ## The snapshot follows the channel -/

section Snapshots

variable
    {wire : Wire}
    {opened : Bool}
    {snapshot : Snapshot Db}

/-- The snapshot has a session when one is open, and else looks idle. -/
def Shows (opened : Bool) (snapshot : Snapshot Db) : Prop :=
  snapshot.session.isSome = opened ∧ LooksIdle snapshot

/-- While a session is shown there is nothing else to see to. -/
theorem shows_of_isSome
    (isSome : snapshot.session.isSome = true) : Shows true snapshot := by
  refine ⟨isSome, ?_⟩
  intro isNone
  rw [isNone] at isSome
  cases isSome

theorem shows_apply
    (shows : Shows opened snapshot)
    {event : Event Db} (obeys : idleRule opened event)
    {message : Message Db} (isMessage : toMessage wire event = some message) :
    Shows (nowOpen opened event) (snapshot.apply message) := by
  rcases shows with ⟨isOpen, idle⟩
  cases event with
  | sessionStarted rate channels peer =>
      cases isMessage
      exact shows_of_isSome rfl
  | volume db =>
      cases isMessage
      exact ⟨isOpen, idle⟩
  | paused paused =>
      cases isMessage
      refine ⟨isOpen, ?_⟩
      intro isNone
      rcases idle isNone with ⟨track, artwork, progress, -⟩
      refine ⟨track, artwork, progress, ?_⟩
      show paused = false
      rw [← Bool.not_eq_true]
      intro isPaused
      have active := isOpen.trans (obeys isPaused)
      rw [show snapshot.session = none from isNone] at active
      cases active
  | flushed =>
      cases isMessage
      exact ⟨isOpen, idle⟩
  | sessionEnded =>
      cases isMessage
      exact ⟨rfl, fun _ => ⟨rfl, rfl, rfl, rfl⟩⟩
  | _ =>
      cases isMessage
      have active := obeys rfl
      subst active
      exact shows_of_isSome isOpen

/-- A lawful channel, published to its end. -/
theorem shows_events
    {events : List (Event Db)}
    (shows : Shows opened snapshot)
    (lawful : Lawful nowOpen idleRule opened events) :
    Shows (events.foldl nowOpen opened)
      (snapshot.applyAll (events.filterMap (toMessage wire))) := by
  induction events generalizing opened snapshot with
  | nil => exact shows
  | cons event rest induction =>
      have isMessage :
          ∃ message, toMessage wire event = some message := by
        cases event <;> exact ⟨_, rfl⟩
      rcases isMessage with ⟨message, isMessage⟩
      rw [List.filterMap_cons_some isMessage, List.foldl_cons]
      exact induction (shows_apply shows lawful.1 isMessage) lawful.2

end Snapshots

theorem shows_new (name version : String) :
    Shows false (Feed.new name version : Feed Db).snapshot :=
  ⟨rfl, fun _ => ⟨rfl, rfl, rfl, rfl⟩⟩

/-! ## Runs -/

/--
Playback is paused only while a session is active, and no thread sends a
position between the end of a session and the start of the next.
-/
def Restful (platform : Platform Db) (connection : Connection Db) :
    Act → Prop
  | .request request _ =>
      request.method = "SETRATEANCHORTIME" →
        (parseRateAnchor platform request.body).map Prod.fst = some 0 →
          connection.session.sessionActive = true
  | .report _ => inSession connection.events = true
  | _ => True

instance (platform : Platform Db) (connection : Connection Db)
    (act : Act) : Decidable (Restful platform connection act) :=
  match act with
  | .request request _ =>
      inferInstanceAs
        (Decidable
          (request.method = "SETRATEANCHORTIME" →
            (parseRateAnchor platform request.body).map Prod.fst =
                some 0 →
              connection.session.sessionActive = true))
  | .report _ =>
      inferInstanceAs (Decidable (inSession connection.events = true))
  | .close => instDecidableTrue
  | .effect => instDecidableTrue
  | .played _ _ => instDecidableTrue

theorem allowed_of_restful
    {platform : Platform Db} {connection : Connection Db} {act : Act}
    (restful : Restful platform connection act) :
    Allowed idleRule platform connection act := by
  cases act with
  | request request ports =>
      constructor
      · intro _ _ _ _ _ inside
        cases inside
      · rintro active paused ⟨isRate, rfl, rate, anchor, parsed, isPaused⟩
        intro pauses
        apply restful isRate
        rw [isPaused, beq_iff_eq] at pauses
        rw [parsed, Option.map_some, pauses]
  | report stream => exact fun _ => restful
  | _ => trivial

/-- What was told so far is published, in order. -/
theorem looksIdle_of_watched
    {connection : Connection Db}
    (watched : Watched idleRule connection)
    {wire : Wire} {name version : String}
    {publishing : List (Display.Act Db)} {feed : Feed Db}
    (inOrder : published publishing <+: connection.events)
    (fed :
      (display wire name version).exec
          (display wire name version).initial publishing =
        some feed) :
    LooksIdle feed.snapshot := by
  rcases inOrder with ⟨later, events⟩
  have lawful := watched.lawful
  rw [← events, lawful_append_iff] at lawful
  rw [snapshot_of_exec fed]
  exact (shows_events (shows_new name version) lawful.1).2

/--
In every run whose steps are restful, and however far its events have been
published, a snapshot without a session has no track, no artwork and no
progress, and is not paused.
-/
theorem idle_looks_idle
    (platform : Platform Db) (localIp peerIp : IpAddr)
    (schedule : List Act) (connection : Connection Db)
    (restful :
      (reporting platform localIp peerIp).Meets (Restful platform)
        (reporting platform localIp peerIp).initial schedule)
    (reached :
      (reporting platform localIp peerIp).exec
          (reporting platform localIp peerIp).initial schedule =
        some connection)
    (wire : Wire) (name version : String)
    (publishing : List (Display.Act Db)) (feed : Feed Db)
    (inOrder : published publishing <+: connection.events)
    (fed :
      (display wire name version).exec
          (display wire name version).initial publishing =
        some feed) :
    LooksIdle feed.snapshot := by
  have allowed := restful.mono fun _ _ => allowed_of_restful
  exact
    looksIdle_of_watched (watched_run fair_idleRule allowed reached)
      inOrder fed

/-- The same, where it is said of packets when they are played. -/
def Punctual (platform : Platform Db) (connection : Connection Db) :
    Act → Prop
  | .request request _ =>
      request.method = "SETRATEANCHORTIME" →
        (parseRateAnchor platform request.body).map Prod.fst = some 0 →
          connection.session.sessionActive = true
  | act => Timely connection act

theorem timely_of_punctual
    {platform : Platform Db} {connection : Connection Db} {act : Act}
    (punctual : Punctual platform connection act) :
    Timely connection act := by
  cases act with
  | request => trivial
  | _ => exact punctual

theorem allowed_of_punctual
    {platform : Platform Db} {connection : Connection Db} {act : Act}
    (held : Held connection)
    (punctual : Punctual platform connection act) :
    Allowed idleRule platform connection act := by
  cases act with
  | request request ports =>
      have restful :
          Restful platform connection (.request request ports) :=
        punctual
      exact allowed_of_restful restful
  | report stream => exact held.within stream
  | _ => trivial

/--
A receiver looks idle in every run in which no packet that would be told of is
played outside a session, and none is kept past its end.
-/
theorem looks_idle_of_punctual
    {platform : Platform Db} {localIp peerIp : IpAddr}
    {schedule : List Act} {connection : Connection Db}
    (punctual :
      (reporting platform localIp peerIp).Meets (Punctual platform)
        (reporting platform localIp peerIp).initial schedule)
    (reached :
      (reporting platform localIp peerIp).exec
          (reporting platform localIp peerIp).initial schedule =
        some connection)
    {wire : Wire} {name version : String}
    {publishing : List (Display.Act Db)} {feed : Feed Db}
    (inOrder : published publishing <+: connection.events)
    (fed :
      (display wire name version).exec
          (display wire name version).initial publishing =
        some feed) :
    LooksIdle feed.snapshot := by
  have allowed :=
    System.meets_of_invariant Held
      (fun _ _ _ held punctual stepped =>
        held_step held (timely_of_punctual punctual) stepped)
      (fun _ _ held punctual => allowed_of_punctual held punctual)
      (held_initial platform localIp peerIp) punctual
  exact
    looksIdle_of_watched (watched_run fair_idleRule allowed reached)
      inOrder fed

/-! ## A pause inside a session, and one outside -/

/-- A binary property list: the rate is zero. -/
def pauseBody : Pairing.Bytes :=
  [98, 112, 108, 105, 115, 116, 48, 48, 209, 1, 2, 84, 114, 97, 116, 101,
    16, 0, 8, 11, 16, 0, 0, 0, 0, 0, 0, 1, 1, 0, 0, 0, 0, 0, 0, 0, 3, 0, 0,
    0, 0, 0, 0, 0, 0, 0, 0, 0, 0, 0, 0, 0, 18]

/-- Crates that read this body, too. -/
def pausePlatform : Platform Unit :=
  { streamPlatform with
    readPlist := fun body =>
      if body = pauseBody then
        some (.dictionary [("rate", .integer 0)])
      else
        streamPlatform.readPlist body }

def pauseRequest : Request where
  method := "SETRATEANCHORTIME"
  target := "rtsp://192.0.2.1/1"
  protocol := "RTSP/1.0"
  headers := []
  body := pauseBody

def pausingSender : System (Connection Unit) Act :=
  reporting pausePlatform ⟨"192.0.2.1"⟩ ⟨"192.0.2.2"⟩

/-- Each event is published and broadcast. -/
def publishAll (events : List (Event Unit)) : List (Display.Act Unit) :=
  events.flatMap fun event => [.publish event, .broadcast]

def living : System (Feed Unit) (Display.Act Unit) :=
  display ⟨fun _ => "", fun _ => none⟩ "Living Room" "0.4.0"

theorem idle_looks_idle_torn_down :
    ∃ feed,
      living.exec living.initial
            (publishAll
              [.sessionStarted 44100 2 ⟨"192.0.2.2"⟩, .paused true,
                .sessionEnded]) =
          some feed ∧
        feed.snapshot.session = none ∧ LooksIdle feed.snapshot := by
  let pausesOne : List Act :=
    [.request pauseRequest ⟨none, none⟩, .effect, .effect,
      .request teardownRequest ⟨none, none⟩, .effect]
  let schedule : List Act := startsOne ++ pausesOne
  let events : List (Event Unit) :=
    [.sessionStarted 44100 2 ⟨"192.0.2.2"⟩, .paused true, .sessionEnded]
  have told :
      (pausingSender.exec pausingSender.initial schedule).map
          (fun connection => connection.events) = some events := by
    decide +kernel
  have sessions :
      (living.exec living.initial (publishAll events)).map
          (fun feed => feed.snapshot.session) = some none := by
    decide +kernel
  rcases Option.map_eq_some_iff.mp told with
    ⟨connection, reached, isEvents⟩
  rcases Option.map_eq_some_iff.mp sessions with ⟨feed, fed, session⟩
  refine ⟨feed, fed, session, ?_⟩
  apply
    idle_looks_idle pausePlatform _ _ schedule connection
      (by decide +kernel) reached _ _ _ (publishAll events) feed _ fed
  rw [isEvents]
  exact List.prefix_rfl

/-- A pause before any session is shown. -/
theorem idle_looks_paused :
    ¬ ∀ (platform : Platform Unit) (localIp peerIp : IpAddr)
        (schedule : List Act) (connection : Connection Unit),
      (reporting platform localIp peerIp).exec
            (reporting platform localIp peerIp).initial schedule =
          some connection →
        ∀ (wire : Wire) (name version : String)
          (publishing : List (Display.Act Unit)) (feed : Feed Unit),
          published publishing <+: connection.events →
            (display wire name version).exec
                (display wire name version).initial publishing =
              some feed →
              LooksIdle feed.snapshot := by
  intro claim
  have told :
      (pausingSender.exec pausingSender.initial
          [.request pauseRequest ⟨none, none⟩, .effect]).map
          (fun connection => connection.events) = some [.paused true] := by
    decide +kernel
  have snapshots :
      (living.exec living.initial (publishAll [.paused true])).map
          (fun feed => (feed.snapshot.session, feed.snapshot.paused)) =
        some (none, true) := by
    decide +kernel
  rcases Option.map_eq_some_iff.mp told with
    ⟨connection, reached, isEvents⟩
  rcases Option.map_eq_some_iff.mp snapshots with ⟨feed, fed, shown⟩
  have inOrder :
      published (publishAll [.paused true]) <+: connection.events := by
    rw [isEvents]
    exact List.prefix_rfl
  have idle :=
    claim pausePlatform _ _ _ connection reached _ _ _ _ feed inOrder fed
  rw [Prod.mk.injEq] at shown
  have notPaused := (idle shown.1).2.2.2
  rw [shown.2] at notPaused
  cases notPaused

end OpenAirplay2.Reporting

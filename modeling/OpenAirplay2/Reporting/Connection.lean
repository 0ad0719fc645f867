import OpenAirplay2.Control.Effects
import OpenAirplay2.Lib.Trace
import OpenAirplay2.Lib.Transition

/-!
# What a connection reports

The requests of one connection and its playback threads tell the host what
happens, over one channel.  A request is dispatched once the effects of the
one before it have been carried out; between two effects the playback threads
report positions.

A thread reads the extent of the track, and the position it found is sent in
a step of its own.  A player that is dropped waits for its thread, so not
before the thread has sent what it found.
-/

namespace OpenAirplay2.Reporting

open OpenAirplay2.Control
open OpenAirplay2.Lib.Trace
open OpenAirplay2.Lib.Transition
open OpenAirplay2.Player (Duration Track framesToDuration)

variable {Db : Type}

/-- `Position`, without the channel and the extent it shares. -/
structure Reporter where
  rate : Nat
  /-- The second last reported. -/
  reported : Option Nat
  /-- What `played` found and has not sent. -/
  sending : Option (Duration × Duration)
deriving DecidableEq, Repr

/-- Where `ts` sits within `track`, if it does; the time stamps wrap. -/
def extent (track : Track) (ts : UInt32) (rate : Nat) :
    Option (Duration × Duration) :=
  if rate = 0 then
    none
  else
    let played := ts - track.start
    let total := track.ends - track.start
    if total < played then
      none
    else
      some (framesToDuration played rate, framesToDuration total rate)

/-- `Duration::as_secs`. -/
def asSecs (duration : Duration) : Nat :=
  duration / 1000000000

/-- `played`, up to the event it sends. -/
def Reporter.played (reporter : Reporter) (track : Option Track)
    (ts : UInt32) : Reporter :=
  match track with
  | none => reporter
  | some track =>
      match extent track ts reporter.rate with
      | none => reporter
      | some (elapsed, duration) =>
          if reporter.reported = some (asSecs elapsed) then
            reporter
          else
            { reporter with
              reported := some (asSecs elapsed)
              sending := some (elapsed, duration) }

/-- A connection, the playback threads it started, and the host's channel. -/
structure Connection (Db : Type) where
  session : Session Db
  /-- What is left of the operation under way. -/
  effects : List (Effect Db)
  closed : Bool
  anchor : Option Track
  threads : Nat → Option Reporter
  events : List (Event Db)

inductive Act where
  | request (request : Request) (ports : Ports)
  | close
  | effect
  | played (stream : Nat) (ts : UInt32)
  | report (stream : Nat)

namespace Connection

/-- The session of an operation, with its effects ahead. -/
def operate (connection : Connection Db) (session : Session Db) :
    Connection Db :=
  { connection with
    session := { session with effects := [] }
    effects := session.effects }

/-- One effect; a player is joined when its thread has nothing to send. -/
def perform (connection : Connection Db) :
    Effect Db → Option (Connection Db)
  | .event event =>
      some { connection with events := connection.events ++ [event] }
  | .anchor track => some { connection with anchor := track }
  | .startPlayer stream rate =>
      some
        { connection with
          threads :=
            Function.update connection.threads stream
              (some { rate := rate, reported := none, sending := none }) }
  | .closeSink stream =>
      if (connection.threads stream).any (·.sending.isSome) then
        none
      else
        some
          { connection with
            threads := Function.update connection.threads stream none }
  | .openSink _ _ _ => some connection
  | .setPaused _ _ => some connection
  | .flush _ _ => some connection
  | .spawn _ => some connection
  | .abort _ => some connection
  | .dropGuard _ => some connection

/-- A playback thread goes on to another state. -/
def setThread (connection : Connection Db) (stream : Nat)
    (reporter : Reporter) : Connection Db :=
  { connection with
    threads := Function.update connection.threads stream (some reporter) }

@[simp]
theorem threads_setThread
    (connection : Connection Db) (stream : Nat) (reporter : Reporter) :
    (connection.setThread stream reporter).threads stream =
      some reporter :=
  Function.update_self ..

/-- The thread has found a position that it has not sent. -/
def unsent (connection : Connection Db) (stream : Nat) : Bool :=
  (connection.threads stream).any fun reporter => reporter.sending.isSome

/--
The packet lies within the anchored track, in a second that its thread has not
reported.
-/
def untold (connection : Connection Db) (stream : Nat) (ts : UInt32) :
    Bool :=
  (connection.threads stream).any fun reporter =>
    connection.anchor.any fun track =>
      (extent track ts reporter.rate).any fun position =>
        reporter.reported != some (asSecs position.1)

/-- The effect to come tells of the end of the session. -/
def ending (connection : Connection Db) : Bool :=
  match connection.effects with
  | .event .sessionEnded :: _ => true
  | _ => false

end Connection

def step (platform : Platform Db) (connection : Connection Db) :
    Act → Option (Connection Db)
  | .request request ports =>
      if connection.closed = false ∧ connection.effects = [] then
        some
          (connection.operate
            (dispatched platform connection.session ports request))
      else
        none
  | .close =>
      if connection.closed = false ∧ connection.effects = [] then
        some
          { connection.operate connection.session.drop with closed := true }
      else
        none
  | .effect =>
      match connection.effects with
      | [] => none
      | effect :: rest =>
          (connection.perform effect).map fun next =>
            { next with effects := rest }
  | .played stream ts =>
      match connection.threads stream with
      | none => none
      | some reporter =>
          match reporter.sending with
          | none =>
              some
                (connection.setThread stream
                  (reporter.played connection.anchor ts))
          | some _ => none
  | .report stream =>
      match connection.threads stream with
      | none => none
      | some reporter =>
          match reporter.sending with
          | none => none
          | some (elapsed, duration) =>
              some
                { connection.setThread stream
                    { reporter with sending := none } with
                  events :=
                    connection.events ++ [.progress elapsed duration] }

/-- One connection, from its first request on. -/
def reporting (platform : Platform Db) (localIp peerIp : IpAddr) :
    System (Connection Db) Act where
  initial :=
    { session := Session.new platform localIp peerIp
      effects := []
      closed := false
      anchor := none
      threads := fun _ => none
      events := [] }
  step := step platform

/-- What one step can do. -/
inductive ReportingStep (platform : Platform Db)
    (connection : Connection Db) : Act → Connection Db → Prop where
  | request (request : Request) (ports : Ports)
      (isOpen : connection.closed = false)
      (finished : connection.effects = []) :
      ReportingStep platform connection (.request request ports)
        (connection.operate
          (dispatched platform connection.session ports request))
  | close
      (isOpen : connection.closed = false)
      (finished : connection.effects = []) :
      ReportingStep platform connection .close
        { connection.operate connection.session.drop with closed := true }
  | effect (effect : Effect Db) (rest : List (Effect Db))
      (performed : Connection Db)
      (effects : connection.effects = effect :: rest)
      (isPerformed : connection.perform effect = some performed) :
      ReportingStep platform connection .effect
        { performed with effects := rest }
  | played (stream : Nat) (ts : UInt32) (reporter : Reporter)
      (thread : connection.threads stream = some reporter)
      (idle : reporter.sending = none) :
      ReportingStep platform connection (.played stream ts)
        (connection.setThread stream
          (reporter.played connection.anchor ts))
  | report (stream : Nat) (reporter : Reporter)
      (elapsed duration : Duration)
      (thread : connection.threads stream = some reporter)
      (found : reporter.sending = some (elapsed, duration)) :
      ReportingStep platform connection (.report stream)
        { connection.setThread stream { reporter with sending := none } with
          events := connection.events ++ [.progress elapsed duration] }

theorem reporting_cases
    {platform : Platform Db} {connection next : Connection Db} {act : Act}
    (stepped : step platform connection act = some next) :
    ReportingStep platform connection act next := by
  cases act with
  | request request ports =>
      rw [step, Option.ite_none_right_eq_some] at stepped
      rcases stepped with ⟨⟨isOpen, finished⟩, same⟩
      cases same
      exact .request request ports isOpen finished
  | close =>
      rw [step, Option.ite_none_right_eq_some] at stepped
      rcases stepped with ⟨⟨isOpen, finished⟩, same⟩
      cases same
      exact .close isOpen finished
  | effect =>
      simp only [step] at stepped
      split at stepped
      · cases stepped
      · next effect rest effects =>
          rcases Option.map_eq_some_iff.mp stepped with
            ⟨performed, isPerformed, rfl⟩
          exact .effect effect rest performed effects isPerformed
  | played stream ts =>
      simp only [step] at stepped
      split at stepped
      · cases stepped
      · next reporter thread =>
          split at stepped
          · next idle =>
              cases stepped
              exact .played stream ts reporter thread idle
          · cases stepped
  | report stream =>
      simp only [step] at stepped
      split at stepped
      · cases stepped
      · next reporter thread =>
          split at stepped
          · cases stepped
          · next elapsed duration found =>
              cases stepped
              exact .report stream reporter elapsed duration thread found

/-! ## Sessions on the channel -/

/-- Whether a session is open, as the host was told. -/
def nowOpen (opened : Bool) : Event Db → Bool
  | .sessionStarted _ _ _ => true
  | .sessionEnded => false
  | _ => opened

/-- The last that was told of a session is that it started. -/
def inSession (events : List (Event Db)) : Bool :=
  events.foldl nowOpen false

/-- What the host is told by an effect. -/
def told : Effect Db → Option (Event Db)
  | .event event => some event
  | _ => none

/-- What the host is told by a list of effects. -/
def tells (effects : List (Effect Db)) : List (Event Db) :=
  effects.filterMap told

theorem inSession_append (first second : List (Event Db)) :
    inSession (first ++ second) =
      second.foldl nowOpen (inSession first) :=
  List.foldl_append

theorem tells_append (first second : List (Effect Db)) :
    tells (first ++ second) = tells first ++ tells second :=
  List.filterMap_append

/-- Effects that are no events tell nothing. -/
theorem tells_map_eq_nil
    {α : Type} {effect : α → Effect Db}
    (nothing : ∀ item, told (effect item) = none) (items : List α) :
    tells (items.map effect) = [] := by
  rw [tells, List.filterMap_map, List.filterMap_eq_nil_iff]
  exact fun item _ => nothing item

theorem tells_map_event (events : List (Event Db)) :
    tells (events.map .event) = events := by
  rw [tells, List.filterMap_map]
  exact List.filterMap_some

/-- A stream that starts tells of its session and what was kept for it. -/
theorem tells_startEffects (session : Session Db) (key : Pairing.Bytes) :
    ∃ rate channels peer,
      tells (startEffects session key) =
        .sessionStarted rate channels peer ::
          (session.pendingMetadata.toList ++
            session.pendingArtwork.toList) := by
  let params := aacParams session.audioFormat
  let kept :=
    session.pendingMetadata.toList ++ session.pendingArtwork.toList
  let spawned : List (Effect Db) :=
    [.spawn
      (.bufferedAudio session.peerIp key session.streams
        (Player.maxQueuedSamples params.1 params.2))]
  have silent :
      tells (session.player.toList.map .closeSink ++ spawned) = [] := by
    rw [tells_append, tells_map_eq_nil fun _ => rfl]
    rfl
  refine ⟨params.1, params.2, session.peerIp, ?_⟩
  rw [startEffects, tells_append]
  show _ :: tells (kept.map .event) ++
      tells (session.player.toList.map .closeSink ++ spawned) =
    _
  rw [tells_map_event, silent, List.append_nil]

theorem nowOpen_of_isFree
    {event : Event Db} (free : event.isFree = true) (opened : Bool) :
    nowOpen opened event = opened := by
  cases event with
  | sessionStarted => cases free
  | sessionEnded => cases free
  | _ => rfl

theorem nowOpen_of_isInside
    {event : Event Db} (inside : event.isInside = true) (opened : Bool) :
    nowOpen opened event = opened := by
  cases event with
  | sessionStarted => cases inside
  | sessionEnded => cases inside
  | _ => rfl

theorem told_of_isSilent
    {effect : Effect Db} (silent : effect.isSilent = true) :
    told effect = none := by
  cases effect with
  | event => cases silent
  | _ => rfl

/-- A rule that what is told of a track meets inside a session. -/
structure Fair (rule : Bool → Event Db → Prop) : Prop where
  free : ∀ opened event, event.isFree = true → rule opened event
  inside : ∀ event, event.isInside = true → rule true event
  ended : rule true .sessionEnded

/-! ## What an operation tells -/

/-- What is kept for the next session concerns a track. -/
def Latched (session : Session Db) : Prop :=
  (∀ event ∈ session.pendingMetadata, event.isInside = true) ∧
    ∀ event ∈ session.pendingArtwork, event.isInside = true

/-- What an operation tells obeys the rule and says what becomes of the
session. -/
structure Tells (rule : Bool → Event Db → Prop)
    (session next : Session Db) : Prop where
  effects :
    ∃ extra, next.effects = session.effects ++ extra ∧
      Lawful nowOpen rule session.sessionActive (tells extra) ∧
        (tells extra).foldl nowOpen session.sessionActive =
          next.sessionActive
  latched : Latched session → Latched next

namespace Tells

variable
    {rule : Bool → Event Db → Prop}
    {session middle next : Session Db}

/-- Nothing is told. -/
theorem of_eq
    (effects : next.effects = session.effects)
    (sessionActive : next.sessionActive = session.sessionActive)
    (latched : Latched session → Latched next) :
    Tells rule session next where
  effects := ⟨[], by rw [effects, List.append_nil], trivial,
    sessionActive.symm⟩
  latched := latched

theorem refl (session : Session Db) : Tells rule session session :=
  of_eq rfl rfl id

theorem trans
    (before : Tells rule session middle)
    (after : Tells rule middle next) :
    Tells rule session next where
  effects := by
    rcases before.effects with ⟨first, firstEffects, firstLaw, leads⟩
    rcases after.effects with ⟨second, secondEffects, secondLaw, ends⟩
    refine ⟨first ++ second, ?_, ?_, ?_⟩
    · rw [secondEffects, firstEffects, List.append_assoc]
    · rw [tells_append, lawful_append_iff, leads]
      exact ⟨firstLaw, secondLaw⟩
    · rw [tells_append, List.foldl_append, leads]
      exact ends
  latched := fun latched => after.latched (before.latched latched)

/-- One event is told. -/
theorem sendEvent
    {event : Event Db}
    (obeys : rule session.sessionActive event)
    (keeps :
      nowOpen session.sessionActive event = session.sessionActive) :
    Tells rule session (session.sendEvent event) where
  effects := ⟨[.event event], rfl, ⟨obeys, trivial⟩, keeps⟩
  latched := id

/-- Effects that tell nothing. -/
theorem performAll
    {effects : List (Effect Db)} (nothing : tells effects = []) :
    Tells rule session (session.performAll effects) where
  effects := by
    refine ⟨effects, rfl, ?_, ?_⟩
    · rw [nothing]
      trivial
    · rw [nothing]
      rfl
  latched := id

theorem of_move
    {pauses : Bool → Bool → Prop}
    (fair : Fair rule)
    (paused :
      ∀ active paused, pauses active paused → rule active (.paused paused))
    (move : Move pauses session next) :
    Tells rule session next := by
  cases move with
  | update effects _ _ _ sessionActive metadata artwork =>
      apply of_eq effects sessionActive
      rintro ⟨isMetadata, isArtwork⟩
      constructor
      · intro event member
        exact (metadata event member).elim (isMetadata event) id
      · intro event member
        exact (artwork event member).elim (isArtwork event) id
  | @silent effect isSilent =>
      have nothing : tells [effect] = [] := by
        rw [tells, List.filterMap_cons_none (told_of_isSilent isSilent)]
        rfl
      exact performAll nothing
  | free isFree =>
      exact sendEvent (fair.free _ _ isFree) (nowOpen_of_isFree isFree _)
  | pause allowed => exact sendEvent (paused _ _ allowed) rfl
  | inside isInside active =>
      apply sendEvent
      · rw [active]
        exact fair.inside _ isInside
      · exact nowOpen_of_isInside isInside _
  | ended active =>
      constructor
      · refine ⟨[.event .sessionEnded], rfl, ⟨?_, trivial⟩, rfl⟩
        rw [active]
        exact fair.ended
      · exact id

theorem of_moves
    {pauses : Bool → Bool → Prop}
    (fair : Fair rule)
    (paused :
      ∀ active paused, pauses active paused → rule active (.paused paused))
    (moves : Moves pauses session next) :
    Tells rule session next := by
  induction moves with
  | refl => exact refl session
  | tail _ move before => exact before.trans (of_move fair paused move)

end Tells

/-- What was kept for the session is told in it. -/
theorem lawful_latched
    {rule : Bool → Event Db → Prop} (fair : Fair rule)
    {events : List (Event Db)}
    (inside : ∀ event ∈ events, event.isInside = true) :
    Lawful nowOpen rule true events ∧
      events.foldl nowOpen true = true := by
  induction events with
  | nil => exact ⟨trivial, rfl⟩
  | cons event rest induction =>
      rw [List.forall_mem_cons] at inside
      have keeps := nowOpen_of_isInside inside.1 true
      rcases induction inside.2 with ⟨lawful, opened⟩
      constructor
      · refine ⟨fair.inside event inside.1, ?_⟩
        rw [keeps]
        exact lawful
      · rw [List.foldl_cons, keeps]
        exact opened

end OpenAirplay2.Reporting

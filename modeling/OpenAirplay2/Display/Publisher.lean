import OpenAirplay2.Display.Protocol
import OpenAirplay2.Lib.Transition

/-!
# The publisher and a client

The publisher folds each event into its snapshot and then broadcasts it.  A
client subscribes, is sent the snapshot, and from then on what it receives;
the channel keeps the last messages only and tells a client that fell behind,
which is sent the snapshot again.

The lock of the snapshot and the channel are separate, so the two halves of a
publication, and those of a resync, interleave in every way.  What the client
was sent, followed by what is still ahead of it, gives the snapshot: what it
receives twice is the end of the history, and replaying that is harmless.
-/

namespace OpenAirplay2.Display

open OpenAirplay2.Control (Event)
open OpenAirplay2.Lib.Transition

variable {Db : Type}

/-- Messages buffered per client. -/
def channelCapacity : Nat := 64

/-- Where `serve_client` stands. -/
inductive Serving where
  | away
  /-- Before the first snapshot is sent. -/
  | subscribed
  | streaming
  /-- It was told that it fell behind, before it is resynced. -/
  | lagged
deriving DecidableEq, Repr

/-- The publisher, its channel and one of the clients. -/
structure Feed (Db : Type) where
  snapshot : Snapshot Db
  /-- The message that was applied and is about to be broadcast. -/
  publishing : Option (Message Db)
  /-- Everything sent on the channel; the last of it is retained. -/
  sent : List (Message Db)
  /-- How many other clients are subscribed. -/
  others : Nat
  client : Serving
  /-- The client's position on the channel. -/
  next : Nat
  /-- What the client was sent. -/
  frames : List (Message Db)

inductive Act (Db : Type) where
  | publish (event : Event Db)
  | broadcast
  | others (count : Nat)
  | subscribe
  | sendSnapshot
  | receive
  | disconnect

namespace Feed

/-- `Publisher::new`. -/
def new (name version : String) : Feed Db where
  snapshot := .ofReceiver { name := name, version := version }
  publishing := none
  sent := []
  others := 0
  client := .away
  next := 0
  frames := []

/-- The first half of `publish`, under the lock. -/
def publish (wire : Wire) (feed : Feed Db) (event : Event Db) : Feed Db :=
  match toMessage wire event with
  | none => feed
  | some message =>
      { feed with
        snapshot := feed.snapshot.apply message
        publishing := some message }

/-- `changes.send`: nothing is kept when nobody is subscribed. -/
def broadcast (feed : Feed Db) (message : Message Db) : Feed Db :=
  { feed with
    publishing := none
    sent :=
      if feed.client = .away ∧ feed.others = 0 then feed.sent
      else feed.sent ++ [message] }

/-- A new receiver gets what is sent from now on. -/
def subscribe (feed : Feed Db) : Feed Db :=
  { feed with
    client := .subscribed
    next := feed.sent.length
    frames := [] }

def sendSnapshot (feed : Feed Db) : Feed Db :=
  { feed with
    client := .streaming
    frames := feed.frames ++ [.snapshot feed.snapshot] }

/--
`changes.recv` and what becomes of it: a client whose next message is gone is
told once and goes on with the oldest one retained.
-/
def receive (feed : Feed Db) : Option (Feed Db) :=
  if feed.next < feed.sent.length - channelCapacity then
    some
      { feed with
        client := .lagged
        next := feed.sent.length - channelCapacity }
  else
    match feed.sent[feed.next]? with
    | none => none
    | some message =>
        some
          { feed with
            next := feed.next + 1
            frames := feed.frames ++ [message] }

end Feed

def step (wire : Wire) (feed : Feed Db) : Act Db → Option (Feed Db)
  | .publish event =>
      match feed.publishing with
      | none => some (feed.publish wire event)
      | some _ => none
  | .broadcast => feed.publishing.map feed.broadcast
  | .others count => some { feed with others := count }
  | .subscribe =>
      match feed.client with
      | .away => some feed.subscribe
      | _ => none
  | .sendSnapshot =>
      match feed.client with
      | .subscribed => some feed.sendSnapshot
      | .lagged => some feed.sendSnapshot
      | _ => none
  | .receive =>
      match feed.client with
      | .streaming => feed.receive
      | _ => none
  | .disconnect =>
      match feed.client with
      | .away => none
      | _ => some { feed with client := .away }

/-- One publisher and one of its clients. -/
def display (wire : Wire) (name version : String) :
    System (Feed Db) (Act Db) where
  initial := Feed.new name version
  step := step wire

/-! ## What is ahead of the client -/

/-- What the client has not received. -/
def Feed.unread (feed : Feed Db) : List (Message Db) :=
  match feed.client with
  | .away => []
  | _ => feed.sent.drop feed.next

/-- The end of the history, from the client's position on. -/
def Feed.ahead (feed : Feed Db) : List (Message Db) :=
  feed.unread ++ feed.publishing.toList

structure Sound (feed : Feed Db) : Prop where
  bound : feed.client ≠ .away → feed.next ≤ feed.sent.length
  history :
    ∃ (start : Snapshot Db) (before : List (Message Db)),
      feed.snapshot = start.applyAll (before ++ feed.ahead)
  streaming :
    feed.client = .streaming →
      ∀ start : Snapshot Db,
        (start.applyAll feed.frames).applyAll feed.ahead = feed.snapshot
  fresh : feed.client = .subscribed → feed.frames = []
  /-- A client that was told it fell behind has more to receive. -/
  lagged : feed.client = .lagged → feed.next < feed.sent.length

section Steps

variable
    {wire : Wire}
    {feed next : Feed Db}

theorem Feed.unread_away
    (away : feed.client = .away) : feed.unread = [] := by
  rw [Feed.unread, away]

theorem Feed.unread_connected
    (connected : feed.client ≠ .away) :
    feed.unread = feed.sent.drop feed.next := by
  rw [Feed.unread]
  split
  · next away => exact absurd away connected
  · rfl

/-- A message is applied and put at the end of what is ahead. -/
theorem sound_publish
    (sound : Sound feed) (idle : feed.publishing = none)
    (event : Event Db) :
    Sound (feed.publish wire event) := by
  unfold Feed.publish
  split
  · exact sound
  · next message _ =>
      have ahead :
          Feed.ahead
              { feed with
                snapshot := feed.snapshot.apply message
                publishing := some message } =
            feed.ahead ++ [message] := by
        show feed.unread ++ [message] =
          feed.unread ++ feed.publishing.toList ++ [message]
        rw [idle, Option.toList_none, List.append_nil]
      constructor
      · exact sound.bound
      · rcases sound.history with ⟨start, before, history⟩
        refine ⟨start, before, ?_⟩
        rw [ahead, ← List.append_assoc, Snapshot.applyAll_append,
          ← history]
        rfl
      · intro streaming start
        rw [ahead, Snapshot.applyAll_append,
          sound.streaming streaming start]
        rfl
      · exact sound.fresh
      · exact sound.lagged

/-- The message goes from the publisher to the channel. -/
theorem Feed.ahead_broadcast
    {message : Message Db}
    (publishing : feed.publishing = some message)
    (bound : feed.client ≠ .away → feed.next ≤ feed.sent.length)
    (connected : feed.client ≠ .away) :
    (feed.broadcast message).ahead = feed.ahead := by
  have still : (feed.broadcast message).client ≠ .away := connected
  have sent :
      (feed.broadcast message).sent = feed.sent ++ [message] := by
    show (if feed.client = .away ∧ feed.others = 0 then feed.sent
      else feed.sent ++ [message]) = _
    rw [if_neg fun nobody => connected nobody.1]
  rw [Feed.ahead, Feed.ahead, Feed.unread_connected still,
    Feed.unread_connected connected, publishing, sent]
  show (feed.sent ++ [message]).drop feed.next ++ [] =
    feed.sent.drop feed.next ++ [message]
  rw [List.append_nil, List.drop_append_of_le_length (bound connected)]

theorem sound_broadcast
    {message : Message Db}
    (sound : Sound feed) (publishing : feed.publishing = some message) :
    Sound (feed.broadcast message) := by
  by_cases away : feed.client = .away
  · constructor
    · exact fun connected => absurd away connected
    · rcases sound.history with ⟨start, before, history⟩
      refine ⟨start, before ++ feed.ahead, ?_⟩
      have still : (feed.broadcast message).client = .away := away
      have nothing : (feed.broadcast message).ahead = [] := by
        rw [Feed.ahead, Feed.unread_away still]
        rfl
      rw [nothing, List.append_nil]
      exact history
    · intro streaming
      cases away.symm.trans streaming
    · intro subscribed
      cases away.symm.trans subscribed
    · intro lagged
      cases away.symm.trans lagged
  · have ahead := Feed.ahead_broadcast publishing sound.bound away
    have longer :
        feed.sent.length ≤ (feed.broadcast message).sent.length := by
      show feed.sent.length ≤ (if _ then _ else _ : List _).length
      split <;> simp
    constructor
    · exact fun connected => (sound.bound connected).trans longer
    · rw [ahead]
      exact sound.history
    · rw [ahead]
      exact sound.streaming
    · exact sound.fresh
    · exact fun lagged => (sound.lagged lagged).trans_le longer

theorem sound_subscribe
    (sound : Sound feed) (away : feed.client = .away) :
    Sound feed.subscribe := by
  have ahead : feed.subscribe.ahead = feed.ahead := by
    rw [Feed.ahead, Feed.ahead, Feed.unread_away away]
    show feed.sent.drop feed.sent.length ++ _ = _
    rw [List.drop_length]
    rfl
  constructor
  · exact fun _ => Nat.le_refl _
  · rw [ahead]
    exact sound.history
  · intro streaming
    cases streaming
  · exact fun _ => rfl
  · intro lagged
    cases lagged

/-- The snapshot holds the end of the history; replaying it is harmless. -/
theorem sound_sendSnapshot
    (sound : Sound feed) (connected : feed.client ≠ .away) :
    Sound feed.sendSnapshot := by
  have ahead : feed.sendSnapshot.ahead = feed.ahead := by
    rw [Feed.ahead, Feed.ahead, Feed.unread_connected connected]
    rfl
  constructor
  · exact fun _ => sound.bound connected
  · rw [ahead]
    exact sound.history
  · intro _ start
    rcases sound.history with ⟨first, before, history⟩
    rw [ahead]
    show (start.applyAll
      (feed.frames ++ [.snapshot feed.snapshot])).applyAll _ = _
    rw [Snapshot.applyAll_append]
    show feed.snapshot.applyAll feed.ahead = feed.snapshot
    rw [history]
    exact Snapshot.applyAll_replay first before feed.ahead
  · intro subscribed
    cases subscribed
  · intro lagged
    cases lagged

/-- What the client missed stays in the history, before its position. -/
theorem sound_lag
    (sound : Sound feed) (connected : feed.client ≠ .away)
    (behind : feed.next < feed.sent.length - channelCapacity) :
    Sound
      { feed with
        client := .lagged
        next := feed.sent.length - channelCapacity } := by
  have skipped :
      feed.ahead =
        (feed.sent.drop feed.next).take
            (feed.sent.length - channelCapacity - feed.next) ++
          (feed.sent.drop (feed.sent.length - channelCapacity) ++
            feed.publishing.toList) := by
    have position :
        feed.next + (feed.sent.length - channelCapacity - feed.next) =
          feed.sent.length - channelCapacity :=
      Nat.add_sub_of_le behind.le
    rw [Feed.ahead, Feed.unread_connected connected, ← List.append_assoc]
    congr 1
    conv_rhs => rw [← position, ← List.drop_drop, position]
    exact (List.take_append_drop _ _).symm
  rcases sound.history with ⟨start, before, history⟩
  constructor
  · exact fun _ => Nat.sub_le _ _
  · refine
      ⟨start,
        before ++
          (feed.sent.drop feed.next).take
            (feed.sent.length - channelCapacity - feed.next), ?_⟩
    rw [skipped, ← List.append_assoc] at history
    exact history
  · intro streaming
    cases streaming
  · intro subscribed
    cases subscribed
  · intro _
    have capacity : 0 < channelCapacity := by decide
    show feed.sent.length - channelCapacity < feed.sent.length
    omega

/-- A message goes from what is ahead to what the client was sent. -/
theorem sound_take
    {message : Message Db}
    (sound : Sound feed) (streaming : feed.client = .streaming)
    (isNext : feed.sent[feed.next]? = some message) :
    Sound
      { feed with
        next := feed.next + 1
        frames := feed.frames ++ [message] } := by
  have connected : feed.client ≠ .away := by
    rw [streaming]
    exact Serving.noConfusion
  rcases List.getElem?_eq_some_iff.mp isNext with ⟨inside, isMessage⟩
  have ahead :
      feed.ahead =
        message ::
          Feed.ahead
            { feed with
              next := feed.next + 1
              frames := feed.frames ++ [message] } := by
    have later :
        Feed.unread
            { feed with
              next := feed.next + 1
              frames := feed.frames ++ [message] } =
          feed.sent.drop (feed.next + 1) :=
      Feed.unread_connected connected
    rw [Feed.ahead, Feed.unread_connected connected,
      List.drop_eq_getElem_cons inside, isMessage, Feed.ahead, later]
    rfl
  rcases sound.history with ⟨start, before, history⟩
  constructor
  · exact fun _ => inside
  · refine ⟨start, before ++ [message], ?_⟩
    rw [ahead] at history
    rw [List.append_assoc]
    exact history
  · intro _ start
    have folded := sound.streaming streaming start
    rw [ahead] at folded
    show (start.applyAll (feed.frames ++ [message])).applyAll _ = _
    rw [Snapshot.applyAll_append]
    exact folded
  · intro subscribed
    cases streaming.symm.trans subscribed
  · intro lagged
    cases streaming.symm.trans lagged

theorem sound_receive
    (sound : Sound feed) (streaming : feed.client = .streaming)
    (received : feed.receive = some next) :
    Sound next := by
  unfold Feed.receive at received
  split at received
  · next behind =>
      cases received
      apply sound_lag sound _ behind
      rw [streaming]
      exact Serving.noConfusion
  · split at received
    · cases received
    · next message isNext =>
        cases received
        exact sound_take sound streaming isNext

theorem sound_disconnect (sound : Sound feed) :
    Sound { feed with client := .away } := by
  rcases sound.history with ⟨start, before, history⟩
  constructor
  · exact fun still => absurd rfl still
  · refine ⟨start, before ++ feed.unread, ?_⟩
    rw [List.append_assoc]
    exact history
  · intro streaming
    cases streaming
  · intro subscribed
    cases subscribed
  · intro lagged
    cases lagged

theorem sound_step
    {act : Act Db}
    (sound : Sound feed) (stepped : step wire feed act = some next) :
    Sound next := by
  cases act with
  | publish event =>
      simp only [step] at stepped
      split at stepped
      · next idle =>
          cases stepped
          exact sound_publish sound idle event
      · cases stepped
  | broadcast =>
      rcases Option.map_eq_some_iff.mp stepped with
        ⟨message, publishing, rfl⟩
      exact sound_broadcast sound publishing
  | others count =>
      cases stepped
      exact
        ⟨sound.bound, sound.history, sound.streaming, sound.fresh,
          sound.lagged⟩
  | subscribe =>
      simp only [step] at stepped
      split at stepped
      · next away =>
          cases stepped
          exact sound_subscribe sound away
      · cases stepped
  | sendSnapshot =>
      simp only [step] at stepped
      split at stepped
      · next subscribed =>
          cases stepped
          apply sound_sendSnapshot sound
          rw [subscribed]
          exact Serving.noConfusion
      · next lagged =>
          cases stepped
          apply sound_sendSnapshot sound
          rw [lagged]
          exact Serving.noConfusion
      · cases stepped
  | receive =>
      simp only [step] at stepped
      split at stepped
      · next streaming => exact sound_receive sound streaming stepped
      · cases stepped
  | disconnect =>
      simp only [step] at stepped
      split at stepped
      · cases stepped
      · cases stepped
        exact sound_disconnect sound

end Steps

theorem sound_new (name version : String) :
    Sound (Feed.new name version : Feed Db) where
  bound connected := absurd rfl connected
  history := ⟨.ofReceiver { name := name, version := version }, [], rfl⟩
  streaming streaming := nomatch streaming
  fresh subscribed := nomatch subscribed
  lagged lagged := nomatch lagged

/-! ## The snapshot of a run -/

/-- The event that an act publishes. -/
def Act.published : Act Db → Option (Event Db)
  | .publish event => some event
  | _ => none

/-- The events that a schedule publishes, in order. -/
def published (schedule : List (Act Db)) : List (Event Db) :=
  schedule.filterMap Act.published

/-- Only what is published changes the snapshot, and its message is applied. -/
theorem snapshot_step
    {wire : Wire} {feed next : Feed Db} {act : Act Db}
    (stepped : step wire feed act = some next) :
    next.snapshot =
      feed.snapshot.applyAll
        (act.published.toList.filterMap (toMessage wire)) := by
  cases act with
  | publish event =>
      simp only [step] at stepped
      split at stepped
      · cases stepped
        show (feed.publish wire event).snapshot =
          feed.snapshot.applyAll ([event].filterMap (toMessage wire))
        unfold Feed.publish
        split
        · next message =>
            rw [List.filterMap_cons_none message]
            rfl
        · next message isMessage =>
            rw [List.filterMap_cons_some isMessage]
            rfl
      · cases stepped
  | broadcast =>
      rcases Option.map_eq_some_iff.mp stepped with ⟨message, -, rfl⟩
      rfl
  | others count =>
      cases stepped
      rfl
  | subscribe =>
      simp only [step] at stepped
      split at stepped <;> cases stepped
      rfl
  | sendSnapshot =>
      simp only [step] at stepped
      split at stepped <;> cases stepped <;> rfl
  | receive =>
      simp only [step] at stepped
      split at stepped
      · unfold Feed.receive at stepped
        split at stepped
        · cases stepped
          rfl
        · split at stepped <;> cases stepped
          rfl
      · cases stepped
  | disconnect =>
      simp only [step] at stepped
      split at stepped <;> cases stepped
      rfl

/-- The snapshot is what the events published so far add up to. -/
theorem snapshot_of_exec
    {wire : Wire} {name version : String}
    {schedule : List (Act Db)} {feed final : Feed Db}
    (reached :
      (display wire name version).exec feed schedule = some final) :
    final.snapshot =
      feed.snapshot.applyAll
        ((published schedule).filterMap (toMessage wire)) := by
  induction schedule generalizing feed with
  | nil =>
      rw [System.exec_nil, Option.some.injEq] at reached
      rw [reached]
      rfl
  | cons act rest induction =>
      rw [System.exec_cons_iff] at reached
      rcases reached with ⟨next, stepped, reachedRest⟩
      have split :
          published (act :: rest) =
            act.published.toList ++ published rest := by
        rw [published, List.filterMap_cons]
        cases act.published <;> rfl
      rw [induction reachedRest, snapshot_step stepped, split,
        List.filterMap_append, Snapshot.applyAll_append]

/-! ## A client that keeps up -/

/--
The client was sent its snapshot and everything in its channel, and no
publication is between its two steps.
-/
def Feed.CaughtUp (feed : Feed Db) : Prop :=
  feed.client ≠ .away ∧ feed.frames ≠ [] ∧
    feed.next = feed.sent.length ∧ feed.publishing = none

theorem streaming_of_caughtUp
    {feed : Feed Db} (sound : Sound feed) (caughtUp : feed.CaughtUp) :
    feed.client = .streaming := by
  rcases caughtUp with ⟨connected, sentSome, consumed, -⟩
  cases client : feed.client with
  | away => exact absurd client connected
  | subscribed => exact absurd (sound.fresh client) sentSome
  | streaming => rfl
  | lagged => exact absurd consumed (sound.lagged client).ne

/--
Whenever a client has consumed everything in its channel and no publication
is under way, folding all it was sent gives the publisher's snapshot.
-/
theorem client_converges
    (wire : Wire) (name version : String)
    (schedule : List (Act Db)) (feed : Feed Db)
    (reached :
      (display wire name version).exec
        (display wire name version).initial schedule = some feed)
    (caughtUp : feed.CaughtUp)
    (start : Snapshot Db) :
    start.applyAll feed.frames = feed.snapshot := by
  have sound : Sound feed :=
    System.invariant_of_reached Sound
      (fun _ _ _ holds stepped => sound_step holds stepped)
      (sound_new name version) reached
  have streaming := streaming_of_caughtUp sound caughtUp
  rcases caughtUp with ⟨connected, -, consumed, idle⟩
  have nothing : feed.ahead = [] := by
    rw [Feed.ahead, Feed.unread_connected connected, consumed, idle,
      List.drop_length]
    rfl
  have folded := sound.streaming streaming start
  rw [nothing] at folded
  exact folded

/-- A wire format for senders without artwork and without IPv6. -/
def plainWire : Wire where
  base64 _ := ""
  toIpv4Mapped _ := none

/--
A client that subscribes in the middle of a publication and then misses two
of sixty-six messages.
-/
def fallsBehind : List (Act Nat) :=
  [.publish (.volume 1), .subscribe, .broadcast, .sendSnapshot] ++
    (List.replicate 66 [.publish (.volume 2), .broadcast]).flatten ++
    [.receive, .sendSnapshot] ++ List.replicate 64 .receive

theorem client_converges_fallsBehind :
    ∃ feed,
      (display plainWire "Living Room" "0.4.0").exec
          (display plainWire "Living Room" "0.4.0").initial
          fallsBehind = some feed ∧
        feed.frames.length = 66 ∧ feed.CaughtUp ∧
          ∀ start, Snapshot.applyAll start feed.frames = feed.snapshot := by
  have run :
      ((display plainWire "Living Room" "0.4.0").exec
          (display plainWire "Living Room" "0.4.0").initial
          fallsBehind).map
          (fun feed =>
            (feed.client, feed.frames.length, feed.next,
              feed.sent.length, feed.publishing)) =
        some (.streaming, 66, 67, 67, none) := by
    decide +kernel
  rcases Option.map_eq_some_iff.mp run with ⟨feed, reached, found⟩
  simp only [Prod.mk.injEq] at found
  rcases found with ⟨streaming, frames, next, sent, idle⟩
  have caughtUp : feed.CaughtUp := by
    refine ⟨?_, ?_, next.trans sent.symm, idle⟩
    · rw [streaming]
      exact Serving.noConfusion
    · rw [← List.length_pos_iff, frames]
      exact Nat.succ_pos 65
  refine ⟨feed, reached, frames, caughtUp, ?_⟩
  exact
    client_converges plainWire "Living Room" "0.4.0" fallsBehind feed
      reached caughtUp

end OpenAirplay2.Display

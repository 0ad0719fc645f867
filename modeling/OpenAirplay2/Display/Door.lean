import OpenAirplay2.Display.Publisher
import OpenAirplay2.Lib.Lines
import OpenAirplay2.Lib.Simulation

/-!
# Any number of displays, and the password

The publisher serves any number of clients at once, over TCP and over the
local socket.  Each connection subscribes first and then shakes hands; over
TCP a password may be asked for, and a connection that presents another one
is refused.

Seen from any one of its connections the hub is the publisher with a single
client, so what holds of that client holds of each of them.
-/

namespace OpenAirplay2.Display

open OpenAirplay2.Control (Event)
open OpenAirplay2.Lib.Str (utf8 utf8_eq_nil_iff)
open OpenAirplay2.Lib.Transition
open OpenAirplay2.Pairing (Bytes)

/-! ## The password -/

/-- `a.get(i).copied().unwrap_or(0)`. -/
def byteAt (bytes : Bytes) (index : Nat) : UInt8 :=
  bytes[index]?.getD 0

/-- The differences that the comparison collects, over the longer length. -/
def difference (a b : Bytes) : Nat :=
  (List.range (max a.length b.length)).foldl
    (fun diff i => diff ||| (byteAt a i ^^^ byteAt b i).toNat)
    (a.length ^^^ b.length)

/-- Constant-time equality. -/
def constantTimeEq (a b : Bytes) : Bool :=
  difference a b == 0

theorem foldl_or_eq_zero
    (value : Nat → Nat) (indices : List Nat) (start : Nat) :
    indices.foldl (fun diff i => diff ||| value i) start = 0 ↔
      start = 0 ∧ ∀ i ∈ indices, value i = 0 := by
  induction indices generalizing start with
  | nil => simp
  | cons index rest induction =>
      rw [List.foldl_cons, induction, Nat.or_eq_zero_iff]
      simp only [List.mem_cons, forall_eq_or_imp, and_assoc]

theorem toNat_xor_eq_zero (x y : UInt8) :
    (x ^^^ y).toNat = 0 ↔ x = y := by
  rw [← UInt8.toNat_zero, UInt8.toNat_inj, UInt8.xor_eq_zero_iff]

theorem constantTimeEq_iff (a b : Bytes) :
    constantTimeEq a b = true ↔ a = b := by
  rw [constantTimeEq, beq_iff_eq, difference, foldl_or_eq_zero,
    Nat.xor_eq_zero_iff]
  simp only [List.mem_range, toNat_xor_eq_zero]
  constructor
  · rintro ⟨length, same⟩
    apply List.ext_getElem length
    intro index inA inB
    have here := same index (lt_max_of_lt_left inA)
    rwa [byteAt, byteAt, List.getElem?_eq_getElem inA,
      List.getElem?_eq_getElem inB] at here
  · rintro rfl
    exact ⟨rfl, fun _ _ => rfl⟩

/-- The header that a client has to present. -/
def bearer (password : String) : Bytes :=
  utf8 ("Bearer " ++ password).toList

theorem bearer_ne_nil (password : String) : bearer password ≠ [] := by
  rw [bearer, ne_eq, utf8_eq_nil_iff, String.toList_append]
  exact List.cons_ne_nil _ _

/-! ## The hub -/

/-- Where a connection came in. -/
inductive Listener where
  | tcp
  | unix
deriving DecidableEq, Repr

/-- One run of `serve_client`. -/
structure Subscriber (Db : Type) where
  listener : Listener
  /-- The WebSocket handshake is over. -/
  upgraded : Bool
  serving : Serving
  next : Nat
  frames : List (Message Db)

/-- The publisher, its channel and all its clients. -/
structure Hub (Db : Type) where
  snapshot : Snapshot Db
  publishing : Option (Message Db)
  sent : List (Message Db)
  connections : Nat → Option (Subscriber Db)
  /-- How many connections there have been. -/
  accepted : Nat

variable {Db : Type}

namespace Hub

inductive Act (Db : Type) where
  | publish (event : Event Db)
  | broadcast
  | accept (listener : Listener)
  /-- The upgrade request, with its `Authorization` if it has one. -/
  | handshake (id : Nat) (authorization : Option Bytes)
  | sendSnapshot (id : Nat)
  | receive (id : Nat)
  /-- The client or the stream is gone, at any point. -/
  | close (id : Nat)

/-- `Publisher::new`, and nobody connected. -/
def new (name version : String) : Hub Db where
  snapshot := .ofReceiver { name := name, version := version }
  publishing := none
  sent := []
  connections := fun _ => none
  accepted := 0

/-- The other connections; those that were refused do not count. -/
def others (hub : Hub Db) (id : Nat) : Nat :=
  (List.range hub.accepted).countP fun other =>
    other ≠ id && (hub.connections other).isSome

/-- Somebody is subscribed. -/
def subscribed (hub : Hub Db) : Bool :=
  (List.range hub.accepted).any fun id => (hub.connections id).isSome

/-- What one of the connections is of. -/
def feed (hub : Hub Db) (id : Nat) (connection : Subscriber Db) :
    Feed Db where
  snapshot := hub.snapshot
  publishing := hub.publishing
  sent := hub.sent
  others := hub.others id
  client := connection.serving
  next := connection.next
  frames := connection.frames

def put (hub : Hub Db) (id : Nat) (connection : Option (Subscriber Db)) :
    Hub Db :=
  { hub with
    connections := Function.update hub.connections id connection }

/-- `serve` and `serve_unix`: the new client subscribes at once. -/
def accept (hub : Hub Db) (listener : Listener) : Hub Db :=
  { hub with
    connections :=
      Function.update hub.connections hub.accepted
        (some
          { listener := listener
            upgraded := false
            serving := .subscribed
            next := hub.sent.length
            frames := [] })
    accepted := hub.accepted + 1 }

/-- The check of the upgrade request, on the listener that has one. -/
def admits
    (password : Option String) (listener : Listener)
    (authorization : Option Bytes) : Bool :=
  match listener, password with
  | .unix, _ => true
  | .tcp, none => true
  | .tcp, some password =>
      constantTimeEq (authorization.getD []) (bearer password)

/-- One act of a connection that is past its handshake. -/
def serve
    (wire : Wire) (hub : Hub Db) (id : Nat) (act : Display.Act Db) :
    Option (Hub Db) :=
  (hub.connections id).bind fun connection =>
    if connection.upgraded then
      (Display.step wire (hub.feed id connection) act).map fun feed =>
        hub.put id
          (some
            { connection with
              serving := feed.client
              next := feed.next
              frames := feed.frames })
    else none

/-- One step of the publisher or of a connection. -/
def step
    (wire : Wire) (password : Option String) (hub : Hub Db) :
    Act Db → Option (Hub Db)
  | .publish event =>
      match hub.publishing with
      | some _ => none
      | none =>
          match toMessage wire event with
          | none => some hub
          | some message =>
              some
                { hub with
                  snapshot := hub.snapshot.apply message
                  publishing := some message }
  | .broadcast =>
      hub.publishing.map fun message =>
        { hub with
          publishing := none
          sent :=
            if hub.subscribed then hub.sent ++ [message] else hub.sent }
  | .accept listener => some (hub.accept listener)
  | .handshake id authorization =>
      (hub.connections id).bind fun connection =>
        if connection.upgraded then none
        else if admits password connection.listener authorization then
          some (hub.put id (some { connection with upgraded := true }))
        else some (hub.put id none)
  | .sendSnapshot id => hub.serve wire id .sendSnapshot
  | .receive id => hub.serve wire id .receive
  | .close id =>
      (hub.connections id).map fun _ => hub.put id none

/-- The now-playing endpoint, with all that connect to it. -/
def system
    (wire : Wire) (password : Option String) (name version : String) :
    System (Hub Db) (Act Db) where
  initial := new name version
  step := step wire password

/-! ## One connection of the hub -/

/-- What an act of the hub is for one of its connections. -/
def Act.seenFrom
    (password : Option String) (id : Nat) (hub : Hub Db) :
    Act Db → List (Display.Act Db)
  | .publish event => [.publish event]
  | .broadcast => [.others (hub.others id), .broadcast]
  | .accept _ => if hub.accepted = id then [.subscribe] else []
  | .handshake other authorization =>
      match hub.connections other with
      | some connection =>
          if other = id ∧
              admits password connection.listener authorization = false
          then [.disconnect]
          else []
      | none => []
  | .sendSnapshot other => if other = id then [.sendSnapshot] else []
  | .receive other => if other = id then [.receive] else []
  | .close other => if other = id then [.disconnect] else []

/-- Connections are numbered on. -/
def Fresh (hub : Hub Db) : Prop :=
  ∀ id, hub.accepted ≤ id → hub.connections id = none

/-- The connection is the client of a feed. -/
structure Seen (id : Nat) (hub : Hub Db) (feed : Feed Db) : Prop where
  fresh : hub.Fresh
  snapshot : feed.snapshot = hub.snapshot
  publishing : feed.publishing = hub.publishing
  sent : feed.sent = hub.sent
  gone : hub.connections id = none → feed.client = .away
  there :
    ∀ connection, hub.connections id = some connection →
      connection.serving ≠ .away ∧ feed.client = connection.serving ∧
        feed.next = connection.next ∧ feed.frames = connection.frames

theorem seen_new (id : Nat) (name version : String) :
    Seen id (new name version : Hub Db) (Feed.new name version) where
  fresh _ _ := rfl
  snapshot := rfl
  publishing := rfl
  sent := rfl
  gone _ := rfl
  there _ found := by cases found

section Steps

variable
    {wire : Wire}
    {name version : String}
    {password : Option String}
    {id : Nat}
    {hub next : Hub Db}
    {feed : Feed Db}

theorem subscribed_iff (fresh : hub.Fresh) :
    hub.subscribed = true ↔ ∃ other, (hub.connections other).isSome := by
  rw [subscribed, List.any_eq_true]
  constructor
  · rintro ⟨other, _, there⟩
    exact ⟨other, there⟩
  · rintro ⟨other, there⟩
    refine ⟨other, ?_, there⟩
    rw [List.mem_range]
    by_contra above
    rw [fresh other (Nat.not_lt.mp above)] at there
    cases there

theorem others_eq_zero_iff (fresh : hub.Fresh) :
    hub.others id = 0 ↔
      ∀ other, other ≠ id → hub.connections other = none := by
  rw [others, List.countP_eq_zero]
  constructor
  · intro none other differs
    by_cases below : other < hub.accepted
    · have here := none other (List.mem_range.mpr below)
      simpa [differs] using here
    · exact fresh other (Nat.not_lt.mp below)
  · intro none other _
    by_cases differs : other ≠ id
    · simp [none other differs]
    · simp [differs]

/-- Nobody hears a message when neither this nor another connection does. -/
theorem Seen.unheard_iff (seen : Seen id hub feed) :
    (feed.client = .away ∧ hub.others id = 0) ↔
      hub.subscribed = false := by
  rw [← Bool.not_eq_true, subscribed_iff seen.fresh,
    others_eq_zero_iff seen.fresh, not_exists]
  constructor
  · rintro ⟨away, none⟩ other
    by_cases differs : other = id
    · cases found : hub.connections other with
      | none => simp
      | some connection =>
          rw [differs] at found
          rcases seen.there connection found with ⟨here, same, _⟩
          exact absurd (same.symm.trans away) here
    · simp [none other differs]
  · intro none
    refine ⟨seen.gone (by simpa using none id), ?_⟩
    intro other _
    simpa using none other

/-- What the connection is does not change. -/
theorem Seen.still
    (seen : Seen id hub feed)
    (fresh : next.Fresh)
    (snapshot : next.snapshot = hub.snapshot)
    (publishing : next.publishing = hub.publishing)
    (sent : next.sent = hub.sent)
    (same : next.connections id = hub.connections id) :
    Seen id next feed where
  fresh := fresh
  snapshot := by rw [snapshot, seen.snapshot]
  publishing := by rw [publishing, seen.publishing]
  sent := by rw [sent, seen.sent]
  gone := by rw [same]; exact seen.gone
  there := by rw [same]; exact seen.there

theorem Fresh.put
    (fresh : hub.Fresh) {other : Nat}
    {connection : Subscriber Db}
    (there : hub.connections other = some connection)
    (after : Option (Subscriber Db)) :
    (hub.put other after).Fresh := by
  intro id above
  show Function.update hub.connections other after id = none
  have differs : id ≠ other := by
    rintro rfl
    rw [fresh id above] at there
    cases there
  rw [Function.update_of_ne differs]
  exact fresh id above

/-- Another connection changes. -/
theorem Seen.put_of_ne
    (seen : Seen id hub feed) {other : Nat} (differs : other ≠ id)
    {connection : Subscriber Db}
    (there : hub.connections other = some connection)
    (after : Option (Subscriber Db)) :
    Seen id (hub.put other after) feed := by
  apply seen.still (seen.fresh.put there after) rfl rfl rfl
  show Function.update hub.connections other after id = _
  rw [Function.update_of_ne differs.symm]

theorem step_subscribe_of_away (away : feed.client = .away) :
    Display.step wire feed .subscribe = some feed.subscribe := by
  simp only [Display.step, away]

theorem step_disconnect_of_here (here : feed.client ≠ .away) :
    Display.step wire feed .disconnect =
      some { feed with client := .away } := by
  cases client : feed.client with
  | away => exact absurd client here
  | subscribed => simp only [Display.step, client]
  | streaming => simp only [Display.step, client]
  | lagged => simp only [Display.step, client]

/-- The connection is gone. -/
theorem Seen.put_none
    (seen : Seen id hub feed) {connection : Subscriber Db}
    (there : hub.connections id = some connection) :
    ∃ after,
      Display.step wire feed .disconnect = some after ∧
        Seen id (hub.put id none) after := by
  rcases seen.there connection there with ⟨here, same, _⟩
  rw [← same] at here
  refine ⟨{ feed with client := .away }, step_disconnect_of_here here, ?_⟩
  have left : (hub.put id none).connections id = none :=
    Function.update_self _ _ _
  refine
    ⟨seen.fresh.put there none, seen.snapshot, seen.publishing,
      seen.sent, fun _ => rfl, ?_⟩
  intro other found
  rw [left] at found
  cases found

/-- What a connection does past its handshake, it does as the client. -/
theorem step_reads
    {act : Display.Act Db} {after : Feed Db}
    (reads : act = .sendSnapshot ∨ act = .receive)
    (stepped : Display.step wire feed act = some after) :
    after.snapshot = feed.snapshot ∧
      after.publishing = feed.publishing ∧
        after.sent = feed.sent ∧
          after.client ≠ .away ∧
            ∀ count,
              Display.step wire { feed with others := count } act =
                some { after with others := count } := by
  rcases reads with rfl | rfl
  · rw [Display.step] at stepped
    cases serving : feed.client with
    | away => simp [serving] at stepped
    | streaming => simp [serving] at stepped
    | subscribed =>
        simp only [serving, Option.some.injEq] at stepped
        rw [← stepped]
        refine ⟨rfl, rfl, rfl, Serving.noConfusion, ?_⟩
        intro count
        simp only [Display.step]
        rfl
    | lagged =>
        simp only [serving, Option.some.injEq] at stepped
        rw [← stepped]
        refine ⟨rfl, rfl, rfl, Serving.noConfusion, ?_⟩
        intro count
        simp only [Display.step]
        rfl
  · rw [Display.step] at stepped
    cases serving : feed.client with
    | away => simp [serving] at stepped
    | subscribed => simp [serving] at stepped
    | lagged => simp [serving] at stepped
    | streaming =>
        simp only [serving, Feed.receive] at stepped
        by_cases behind :
            feed.next < feed.sent.length - channelCapacity
        · rw [if_pos behind, Option.some.injEq] at stepped
          rw [← stepped]
          refine ⟨rfl, rfl, rfl, Serving.noConfusion, ?_⟩
          intro count
          simp only [Display.step, Feed.receive]
          rw [if_pos behind]
        · rw [if_neg behind] at stepped
          cases isNext : feed.sent[feed.next]? with
          | none => simp [isNext] at stepped
          | some message =>
              simp only [isNext, Option.some.injEq] at stepped
              rw [← stepped]
              refine ⟨rfl, rfl, rfl, Serving.noConfusion, ?_⟩
              intro count
              simp only [Display.step, Feed.receive]
              rw [if_neg behind]
              simp only [isNext]

theorem serve_eq_some
    {other : Nat} {act : Display.Act Db}
    (stepped : hub.serve wire other act = some next) :
    ∃ connection after,
      hub.connections other = some connection ∧
        connection.upgraded = true ∧
          Display.step wire (hub.feed other connection) act =
              some after ∧
            next =
              hub.put other
                (some
                  { connection with
                    serving := after.client
                    next := after.next
                    frames := after.frames }) := by
  rw [serve, Option.bind_eq_some_iff] at stepped
  rcases stepped with ⟨connection, there, stepped⟩
  split at stepped
  · next upgraded =>
      rcases Option.map_eq_some_iff.mp stepped with ⟨after, ran, rfl⟩
      exact ⟨connection, after, there, upgraded, ran, rfl⟩
  · cases stepped

/-- Past its handshake the connection goes on as the client does. -/
theorem Seen.serve
    (seen : Seen id hub feed)
    {other : Nat} {act : Display.Act Db}
    (reads : act = .sendSnapshot ∨ act = .receive)
    (stepped : hub.serve wire other act = some next) :
    ∃ after,
      (display wire name version).exec feed
          (if other = id then [act] else []) = some after ∧
        Seen id next after := by
  rcases serve_eq_some stepped with
    ⟨connection, after, there, _, ran, rfl⟩
  by_cases same : other = id
  · subst same
    rcases step_reads reads ran with
      ⟨snapshot, publishing, sent, here, anyOthers⟩
    rcases seen.there connection there with ⟨_, client, position, frames⟩
    have isFeed :
        { hub.feed other connection with others := feed.others } =
          feed := by
      rw [Hub.feed, ← seen.snapshot, ← seen.publishing, ← seen.sent,
        ← client, ← position, ← frames]
    have matched := anyOthers feed.others
    rw [isFeed] at matched
    refine ⟨{ after with others := feed.others }, ?_, ?_⟩
    · rw [if_pos rfl, System.exec_cons_iff]
      exact ⟨_, matched, rfl⟩
    · have found :
          (hub.put other
              (some
                { connection with
                  serving := after.client
                  next := after.next
                  frames := after.frames })).connections other =
            some
              { connection with
                serving := after.client
                next := after.next
                frames := after.frames } :=
        Function.update_self _ _ _
      refine
        ⟨seen.fresh.put there _, snapshot, publishing, sent, ?_, ?_⟩
      · intro gone
        rw [found] at gone
        cases gone
      · intro now isNow
        rw [found, Option.some.injEq] at isNow
        rw [← isNow]
        exact ⟨here, rfl, rfl, rfl⟩
  · rw [if_neg same]
    exact ⟨feed, rfl, seen.put_of_ne same there _⟩

theorem fresh_accept
    (fresh : hub.Fresh) (listener : Listener) :
    (hub.accept listener).Fresh := by
  intro id above
  show Function.update hub.connections hub.accepted _ id = none
  rw [Function.update_of_ne (Nat.ne_of_gt above)]
  exact fresh id (Nat.le_of_succ_le above)

/-- An event goes into the slot of the feed as into the hub's. -/
theorem Seen.publish
    (seen : Seen id hub feed) {event : Event Db}
    (stepped : Hub.step wire password hub (.publish event) = some next) :
    ∃ after,
      (display wire name version).exec feed
          (Act.seenFrom password id hub (.publish event)) = some after ∧
        Seen id next after := by
  cases busy : hub.publishing with
  | some message =>
      simp only [Hub.step, busy] at stepped
      cases stepped
  | none =>
      have quiet : feed.publishing = none := seen.publishing.trans busy
      have published :
          Display.step wire feed (.publish event) =
            some (feed.publish wire event) := by
        rw [Display.step, quiet]
      refine ⟨feed.publish wire event, ?_, ?_⟩
      · rw [Act.seenFrom, System.exec_cons_iff]
        exact ⟨_, published, rfl⟩
      · cases meaning : toMessage wire event with
        | none =>
            simp only [Hub.step, busy, meaning, Option.some.injEq]
              at stepped
            simp only [Feed.publish, meaning]
            rw [← stepped]
            exact seen
        | some message =>
            simp only [Hub.step, busy, meaning, Option.some.injEq]
              at stepped
            simp only [Feed.publish, meaning]
            rw [← stepped]
            refine
              ⟨seen.fresh, ?_, rfl, seen.sent, seen.gone, seen.there⟩
            show feed.snapshot.apply message = _
            rw [seen.snapshot]

/-- A message is sent to the client with the others. -/
theorem Seen.broadcast
    (seen : Seen id hub feed)
    (stepped : Hub.step wire password hub (.broadcast) = some next) :
    ∃ after,
      (display wire name version).exec feed
          (Act.seenFrom password id hub (.broadcast)) = some after ∧
        Seen id next after := by
  rcases Option.map_eq_some_iff.mp stepped with
    ⟨message, publishing, rfl⟩
  have pending : feed.publishing = some message :=
    seen.publishing.trans publishing
  refine
    ⟨Feed.broadcast { feed with others := hub.others id } message,
      ?_, ?_⟩
  · rw [Act.seenFrom, System.exec_cons_iff]
    refine ⟨{ feed with others := hub.others id }, rfl, ?_⟩
    rw [System.exec_cons_iff]
    refine ⟨_, ?_, rfl⟩
    show feed.publishing.map _ = _
    rw [pending]
    rfl
  · refine
      ⟨seen.fresh, seen.snapshot, rfl, ?_, seen.gone, seen.there⟩
    show (if feed.client = .away ∧ hub.others id = 0 then feed.sent
      else feed.sent ++ [message]) = _
    rw [seen.sent]
    by_cases heard : hub.subscribed = true
    · have isHeard : ¬(feed.client = .away ∧ hub.others id = 0) := by
        rw [seen.unheard_iff, heard]
        exact Bool.noConfusion
      rw [if_neg isHeard, if_pos heard]
    · rw [Bool.not_eq_true] at heard
      rw [if_pos (seen.unheard_iff.mpr heard), heard]
      rfl

/-- A connection is accepted: this one subscribes. -/
theorem Seen.accept
    (seen : Seen id hub feed) {listener : Listener}
    (stepped : Hub.step wire password hub (.accept listener) = some next) :
    ∃ after,
      (display wire name version).exec feed
          (Act.seenFrom password id hub (.accept listener)) = some after ∧
        Seen id next after := by
  rw [Hub.step, Option.some.injEq] at stepped
  rw [← stepped, Act.seenFrom]
  have fresh := fresh_accept seen.fresh listener
  split
  · next isNew =>
      have away : feed.client = .away :=
        seen.gone (seen.fresh id isNew.le)
      refine ⟨feed.subscribe, ?_, ?_⟩
      · rw [System.exec_cons_iff]
        refine ⟨feed.subscribe, ?_, rfl⟩
        exact @step_subscribe_of_away _ wire _ away
      · have found :
            (hub.accept listener).connections id =
              some
                { listener := listener
                  upgraded := false
                  serving := .subscribed
                  next := hub.sent.length
                  frames := [] } := by
          show Function.update hub.connections hub.accepted _ id = _
          rw [isNew, Function.update_self]
        refine
          ⟨fresh, seen.snapshot, seen.publishing, seen.sent, ?_, ?_⟩
        · intro gone
          rw [found] at gone
          cases gone
        · intro connection isNow
          rw [found, Option.some.injEq] at isNow
          rw [← isNow]
          refine ⟨Serving.noConfusion, rfl, ?_, rfl⟩
          show feed.sent.length = hub.sent.length
          rw [seen.sent]
  · next isOther =>
      refine ⟨feed, rfl, seen.still fresh rfl rfl rfl ?_⟩
      show Function.update hub.connections hub.accepted _ id = _
      rw [Function.update_of_ne (Ne.symm isOther)]

/-- A handshake is refused or not: this one leaves or stays. -/
theorem Seen.handshake
    (seen : Seen id hub feed)
    {other : Nat} {authorization : Option Bytes}
    (stepped :
      Hub.step wire password hub (.handshake other authorization) =
        some next) :
    ∃ after,
      (display wire name version).exec feed
          (Act.seenFrom password id hub
            (.handshake other authorization)) =
          some after ∧
        Seen id next after := by
  rw [Hub.step, Option.bind_eq_some_iff] at stepped
  rcases stepped with ⟨connection, there, stepped⟩
  rw [Act.seenFrom, there]
  split at stepped
  · cases stepped
  · split at stepped
    · next admitted =>
        rw [Option.some.injEq] at stepped
        rw [← stepped]
        have noRefusal :
            ¬(other = id ∧
              admits password connection.listener authorization =
                false) := by
          rw [admitted]
          exact fun refused => Bool.noConfusion refused.2
        refine ⟨feed, ?_, ?_⟩
        · show (display wire name version).exec feed
            (if _ then _ else _) = _
          rw [if_neg noRefusal]
          rfl
        · by_cases same : other = id
          · subst same
            have found :
                (hub.put other
                    (some { connection with upgraded := true }
                      )).connections other =
                  some { connection with upgraded := true } :=
              Function.update_self _ _ _
            refine
              ⟨seen.fresh.put there _, seen.snapshot,
                seen.publishing, seen.sent, ?_, ?_⟩
            · intro gone
              rw [found] at gone
              cases gone
            · intro now isNow
              rw [found, Option.some.injEq] at isNow
              rw [← isNow]
              exact seen.there connection there
          · exact seen.put_of_ne same there _
    · next refused =>
        rw [Option.some.injEq] at stepped
        rw [← stepped]
        rw [Bool.not_eq_true] at refused
        by_cases same : other = id
        · subst same
          rcases @Seen.put_none _ wire _ _ _ seen _ there with
            ⟨after, matched, seenAfter⟩
          refine ⟨after, ?_, seenAfter⟩
          show (display wire name version).exec feed
            (if _ then _ else _) = _
          rw [if_pos ⟨rfl, refused⟩, System.exec_cons_iff]
          exact ⟨_, matched, rfl⟩
        · refine ⟨feed, ?_, seen.put_of_ne same there _⟩
          show (display wire name version).exec feed
            (if _ then _ else _) = _
          rw [if_neg fun both => same both.1]
          rfl

/-- A connection ends: this one leaves. -/
theorem Seen.close
    (seen : Seen id hub feed) {other : Nat}
    (stepped : Hub.step wire password hub (.close other) = some next) :
    ∃ after,
      (display wire name version).exec feed
          (Act.seenFrom password id hub (.close other)) = some after ∧
        Seen id next after := by
  rcases Option.map_eq_some_iff.mp stepped with
    ⟨connection, there, rfl⟩
  rw [Act.seenFrom]
  by_cases same : other = id
  · subst same
    rcases @Seen.put_none _ wire _ _ _ seen _ there with
      ⟨after, matched, seenAfter⟩
    refine ⟨after, ?_, seenAfter⟩
    rw [if_pos rfl, System.exec_cons_iff]
    exact ⟨_, matched, rfl⟩
  · rw [if_neg same]
    exact ⟨feed, rfl, seen.put_of_ne same there _⟩

/-- Every act of the hub is one of the client or none. -/
theorem Seen.step
    {act : Act Db}
    (seen : Seen id hub feed)
    (stepped : Hub.step wire password hub act = some next) :
    ∃ after,
      (display wire name version).exec feed
          (act.seenFrom password id hub) = some after ∧
        Seen id next after := by
  cases act with
  | publish event => exact seen.publish stepped
  | broadcast => exact seen.broadcast stepped
  | accept listener => exact seen.accept stepped
  | handshake other authorization => exact seen.handshake stepped
  | sendSnapshot other => exact seen.serve (Or.inl rfl) stepped
  | receive other => exact seen.serve (Or.inr rfl) stepped
  | close other => exact seen.close stepped

end Steps

/-- The hub, seen from one of its connections, is the single feed. -/
def simulation
    (wire : Wire) (password : Option String) (name version : String)
    (id : Nat) :
    Simulation (@system Db wire password name version)
      (@display Db wire name version) where
  related := Seen id
  acts hub act := act.seenFrom password id hub
  start := seen_new id name version
  step _ _ _ _ seen stepped := seen.step stepped

/-! ## Every client -/

/-- The event that an act publishes. -/
def Act.published : Act Db → Option (Event Db)
  | .publish event => some event
  | _ => none

/-- A connection sees just what is published. -/
theorem published_seenFrom
    (password : Option String) (id : Nat) (hub : Hub Db) (act : Act Db) :
    Display.published (act.seenFrom password id hub) =
      act.published.toList := by
  cases act with
  | publish event => rfl
  | broadcast => rfl
  | accept listener =>
      rw [Act.seenFrom]
      split <;> rfl
  | handshake other authorization =>
      rw [Act.seenFrom]
      split
      · split <;> rfl
      · rfl
  | sendSnapshot other =>
      rw [Act.seenFrom]
      split <;> rfl
  | receive other =>
      rw [Act.seenFrom]
      split <;> rfl
  | close other =>
      rw [Act.seenFrom]
      split <;> rfl

theorem published_collect
    {wire : Wire} {password : Option String} {name version : String}
    (id : Nat) {hub final : Hub Db} {schedule : List (Act Db)}
    (reached :
      (system wire password name version).exec hub schedule =
        some final) :
    Display.published
        ((system wire password name version).collect
          (fun hub act => act.seenFrom password id hub) hub schedule) =
      schedule.filterMap Act.published := by
  induction schedule generalizing hub with
  | nil => rfl
  | cons act rest induction =>
      rw [System.exec_cons_iff] at reached
      rcases reached with ⟨next, stepped, reachedRest⟩
      rw [System.collect_cons stepped, Display.published,
        List.filterMap_append, List.filterMap_cons]
      have here := published_seenFrom password id hub act
      have later := induction reachedRest
      rw [Display.published] at here later
      rw [here, later]
      cases act.published <;> rfl

/-! ## Nothing without the password -/

/-- The upgrade requests of an act. -/
def Act.requests : Act Db → List (Nat × Option Bytes)
  | .handshake id authorization => [(id, authorization)]
  | _ => []

/-- Whoever is past the handshake was admitted, and is the only one served. -/
structure Guarded
    (password : Option String) (hub : Hub Db)
    (requests : List (Nat × Option Bytes)) : Prop where
  admitted :
    ∀ id connection, hub.connections id = some connection →
      connection.upgraded = true →
        ∃ authorization,
          (id, authorization) ∈ requests ∧
            admits password connection.listener authorization = true
  served :
    ∀ id connection, hub.connections id = some connection →
      connection.frames ≠ [] → connection.upgraded = true

theorem guarded_new
    (password : Option String) (name version : String) :
    Guarded password (new name version : Hub Db) [] where
  admitted _ _ found := by cases found
  served _ _ found := by cases found

section Guard

variable
    {wire : Wire}
    {password : Option String}
    {hub next : Hub Db}
    {requests : List (Nat × Option Bytes)}

theorem Guarded.more
    (guarded : Guarded password hub requests)
    (same : next.connections = hub.connections)
    (more : List (Nat × Option Bytes)) :
    Guarded password next (requests ++ more) where
  admitted id connection found upgraded := by
    rw [same] at found
    rcases guarded.admitted id connection found upgraded with
      ⟨authorization, there, admitted⟩
    exact ⟨authorization, List.mem_append_left _ there, admitted⟩
  served id connection found := by
    rw [same] at found
    exact guarded.served id connection found

theorem Guarded.update
    (guarded : Guarded password hub requests)
    {id : Nat} {after : Option (Subscriber Db)}
    (changed :
      next.connections = Function.update hub.connections id after)
    (more : List (Nat × Option Bytes))
    (admitted :
      ∀ connection, after = some connection →
        connection.upgraded = true →
          ∃ authorization,
            (id, authorization) ∈ requests ++ more ∧
              admits password connection.listener authorization = true)
    (served :
      ∀ connection, after = some connection →
        connection.frames ≠ [] → connection.upgraded = true) :
    Guarded password next (requests ++ more) where
  admitted other connection found upgraded := by
    rw [changed, Function.update_apply] at found
    split at found
    · next same =>
        rw [same]
        exact admitted connection found upgraded
    · rcases guarded.admitted other connection found upgraded with
        ⟨authorization, there, isAdmitted⟩
      exact ⟨authorization, List.mem_append_left _ there, isAdmitted⟩
  served other connection found some := by
    rw [changed, Function.update_apply] at found
    split at found
    · exact served connection found some
    · exact guarded.served other connection found some

theorem Guarded.serve
    (guarded : Guarded password hub requests)
    {id : Nat} {act : Display.Act Db}
    (stepped : hub.serve wire id act = some next) :
    Guarded password next (requests ++ []) := by
  rcases serve_eq_some stepped with
    ⟨connection, after, there, upgraded, _, rfl⟩
  refine guarded.update rfl [] ?_ ?_
  · intro now isNow _
    rw [List.append_nil]
    rw [Option.some.injEq] at isNow
    rw [← isNow]
    exact guarded.admitted id connection there upgraded
  · intro now isNow _
    rw [Option.some.injEq] at isNow
    rw [← isNow]
    exact upgraded

theorem Guarded.step
    {act : Act Db}
    (guarded : Guarded password hub requests)
    (stepped : Hub.step wire password hub act = some next) :
    Guarded password next (requests ++ act.requests) := by
  cases act with
  | publish event =>
      cases busy : hub.publishing with
      | some message =>
          simp only [Hub.step, busy] at stepped
          cases stepped
      | none =>
          cases meaning : toMessage wire event with
          | none =>
              simp only [Hub.step, busy, meaning, Option.some.injEq]
                at stepped
              exact guarded.more (by rw [← stepped]) _
          | some message =>
              simp only [Hub.step, busy, meaning, Option.some.injEq]
                at stepped
              exact guarded.more (by rw [← stepped]) _
  | broadcast =>
      rcases Option.map_eq_some_iff.mp stepped with ⟨_, _, rfl⟩
      apply guarded.more
      rfl
  | accept listener =>
      rw [Hub.step, Option.some.injEq] at stepped
      rw [← stepped]
      refine guarded.update rfl [] ?_ ?_
      · intro connection isNew upgraded
        rw [Option.some.injEq] at isNew
        rw [← isNew] at upgraded
        cases upgraded
      · intro connection isNew served
        rw [Option.some.injEq] at isNew
        rw [← isNew] at served
        exact absurd rfl served
  | handshake id authorization =>
      rw [Hub.step, Option.bind_eq_some_iff] at stepped
      rcases stepped with ⟨connection, there, stepped⟩
      split at stepped
      · cases stepped
      · split at stepped
        · next admitted =>
            rw [Option.some.injEq] at stepped
            rw [← stepped]
            refine guarded.update rfl _ ?_ ?_
            · intro now isNow _
              rw [Option.some.injEq] at isNow
              rw [← isNow]
              exact
                ⟨authorization,
                  List.mem_append_right _ (List.mem_singleton_self _),
                  admitted⟩
            · intro now isNow _
              rw [Option.some.injEq] at isNow
              rw [← isNow]
        · rw [Option.some.injEq] at stepped
          rw [← stepped]
          refine guarded.update rfl _ ?_ ?_
          · intro now isNow
            cases isNow
          · intro now isNow
            cases isNow
  | sendSnapshot id => exact guarded.serve stepped
  | receive id => exact guarded.serve stepped
  | close id =>
      rcases Option.map_eq_some_iff.mp stepped with ⟨_, _, rfl⟩
      refine guarded.update rfl _ ?_ ?_
      · intro now isNow
        cases isNow
      · intro now isNow
        cases isNow

end Guard

/--
Where a password is set, a connection over TCP that was sent anything had
presented exactly that password before.
-/
theorem password_before_frames
    {wire : Wire} {secret name version : String}
    {schedule : List (Act Db)} {hub : Hub Db}
    {id : Nat} {connection : Subscriber Db}
    (reached :
      (system wire (some secret) name version).exec (new name version)
        schedule = some hub)
    (there : hub.connections id = some connection)
    (overTcp : connection.listener = .tcp)
    (served : connection.frames ≠ []) :
    .handshake id (some (bearer secret)) ∈ schedule := by
  have guarded :=
    @System.invariant_of_collect _ _ _
      (system wire (some secret) name version)
      (fun _ act => act.requests) (Guarded (some secret))
      (fun _ _ _ _ guarded stepped => guarded.step stepped)
      _ _ [] schedule (guarded_new (some secret) name version) reached
  rcases
    guarded.admitted id connection there
      (guarded.served id connection there served) with
    ⟨authorization, requested, admitted⟩
  rw [overTcp, admits, constantTimeEq_iff] at admitted
  have presented : authorization = some (bearer secret) := by
    cases authorization with
    | none => exact absurd admitted.symm (bearer_ne_nil secret)
    | some bytes => exact congrArg some admitted
  rw [List.nil_append] at requested
  rcases System.exists_step_of_mem_collect requested with
    ⟨before, act, after, _, split, _, isRequest⟩
  rw [split]
  apply List.mem_append_right
  apply List.mem_cons.mpr
  left
  cases act with
  | handshake other presentedHere =>
      have same := List.mem_singleton.mp isRequest
      rw [Prod.mk.injEq] at same
      rw [← same.1, ← same.2, presented]
  | publish event => cases isRequest
  | broadcast => cases isRequest
  | accept listener => cases isRequest
  | sendSnapshot other => cases isRequest
  | receive other => cases isRequest
  | close other => cases isRequest

/-! ## A display at hand and two at a distance -/

/-- One shows the password, and another does not. -/
def threeDisplays : List (Act Nat) :=
  [.accept .unix, .handshake 0 none, .sendSnapshot 0, .accept .tcp,
    .accept .tcp, .publish (.volume 1), .broadcast, .handshake 2 none,
    .handshake 1 (some (bearer "secret")), .sendSnapshot 1, .receive 0,
    .receive 1]

theorem threeDisplays_ends :
    (((system plainWire (some "secret") "Living Room" "0.4.0").exec
          (new "Living Room" "0.4.0") threeDisplays).any fun hub =>
        (hub.connections 1).any fun connection =>
          connection.listener == .tcp && !connection.frames.isEmpty &&
            connection.next == hub.sent.length &&
            hub.publishing.isNone) =
      true := by
  decide +kernel

/-- The display over TCP is served. -/
theorem threeDisplays_served :
    ∃ hub connection,
      (system plainWire (some "secret") "Living Room" "0.4.0").exec
          (new "Living Room" "0.4.0") threeDisplays = some hub ∧
        hub.connections 1 = some connection ∧
          connection.listener = .tcp ∧ connection.frames ≠ [] ∧
            connection.next = hub.sent.length ∧
              hub.publishing = none := by
  rcases Option.any_eq_true _ _ |>.mp threeDisplays_ends with
    ⟨hub, reached, ends⟩
  rcases Option.any_eq_true _ _ |>.mp ends with ⟨connection, there, ends⟩
  simp only [Bool.and_eq_true, beq_iff_eq, Bool.not_eq_true',
    List.isEmpty_eq_false_iff, Option.isNone_iff_eq_none] at ends
  exact
    ⟨hub, connection, reached, there, ends.1.1.1, ends.1.1.2, ends.1.2,
      ends.2⟩

theorem password_before_frames_threeDisplays :
    .handshake 1 (some (bearer "secret")) ∈ threeDisplays := by
  rcases threeDisplays_served with
    ⟨hub, connection, reached, there, overTcp, served, _, _⟩
  exact password_before_frames reached there overTcp served

end Hub

end OpenAirplay2.Display

import OpenAirplay2.Control.Effects

/-!
# Takeover between connections

All connections of a receiver share one active slot.  A `SETUP` claims it: the
claim takes the slot, tells the previous holder to close and waits until that
holder's guard is dropped.  A connection notices that it was told to close
when it next waits for a request.

Every access to the slot, every notification and every effect of a session
operation is a step of its own, so the connections interleave at all of them.
Requests that the loop answers itself touch neither the slot nor the session
and are left out.  A guard is dropped in one step: what follows the unlocking
of the slot only resolves the wait of a claim.

A ticket is the number of a claim.  `claims` lists who made them.
-/

namespace OpenAirplay2.Takeover

open OpenAirplay2.Control
open OpenAirplay2.Lib.Transition

variable {Db : Type}

/-- Who holds the slot; the ticket stands for `finished`. -/
structure Holder where
  id : Nat
  ticket : Nat
deriving DecidableEq, Repr

/-- Where a connection stands in its request loop. -/
inductive Phase (Db : Type) where
  /-- In the select between its eviction and the next request. -/
  | reading
  /-- With a `SETUP`, before the slot is locked. -/
  | claiming (request : Request) (ports : Ports)
  /-- In `claim`, before the previous holder is notified. -/
  | notifying (request : Request) (ports : Ports) (ticket : Nat)
      (previous : Holder)
  /-- In `claim`, waiting for the previous holder to finish. -/
  | awaiting (request : Request) (ports : Ports) (ticket : Nat)
      (previous : Holder)
  /-- The guard was returned and is about to go into the session. -/
  | guarded (request : Request) (ports : Ports) (ticket : Nat)
  /-- Before the request is dispatched. -/
  | dispatching (request : Request) (ports : Ports)
  /-- Effects under way, and where they lead. -/
  | acting (effects : List (Effect Db)) (next : Phase Db)
  | closed
deriving DecidableEq

/-- A connection: its session, the permit of its eviction, its phase. -/
structure Conn (Db : Type) where
  session : Session Db
  permit : Bool
  phase : Phase Db
deriving DecidableEq

/-- The shared slot and what the host sees, over all connections. -/
structure Receiver (Db : Type) where
  slot : Option Holder
  claims : List Nat
  /-- The tickets whose guard was dropped. -/
  finished : List Nat
  conns : Nat → Conn Db
  /-- The sinks that were made and not dropped, by connection and stream. -/
  live : List (Nat × Nat)
  events : List (Event Db)

/-- What a connection can do next. -/
inductive Act where
  | read (id : Nat) (request : Request) (ports : Ports)
  | lock (id : Nat)
  | notify (id : Nat)
  | finish (id : Nat)
  | timeout (id : Nat)
  | install (id : Nat)
  | dispatch (id : Nat)
  | effect (id : Nat)
  | evict (id : Nat)
  | close (id : Nat)
deriving DecidableEq, Repr

/-- A session operation: its effects are carried out one by one. -/
def Conn.operate (conn : Conn Db) (session : Session Db)
    (next : Phase Db) : Conn Db :=
  { conn with
    session := { session with effects := [] }
    phase := .acting session.effects next }

namespace Receiver

def setConn (receiver : Receiver Db) (id : Nat) (conn : Conn Db) :
    Receiver Db :=
  { receiver with conns := Function.update receiver.conns id conn }

/-- The connection goes on to another phase. -/
def enter (receiver : Receiver Db) (id : Nat) (phase : Phase Db) :
    Receiver Db :=
  receiver.setConn id { receiver.conns id with phase := phase }

/-- The lock of `claim`: take the slot, unless it is held already. -/
def lock (receiver : Receiver Db) (id : Nat) (request : Request)
    (ports : Ports) : Receiver Db :=
  if receiver.slot.any (·.id == id) then
    receiver.enter id (.dispatching request ports)
  else
    let ticket := receiver.claims.length
    { receiver with
      slot := some { id := id, ticket := ticket }
      claims := receiver.claims ++ [id] }.enter id
        (match receiver.slot with
          | none => .guarded request ports ticket
          | some previous => .notifying request ports ticket previous)

/-- The previous holder is told to close. -/
def notify (receiver : Receiver Db) (id : Nat) (request : Request)
    (ports : Ports) (ticket : Nat) (previous : Holder) : Receiver Db :=
  let notified :=
    receiver.setConn previous.id
      { receiver.conns previous.id with permit := true }
  notified.enter id (.awaiting request ports ticket previous)

/-- The guard that was returned goes into the session. -/
def install (receiver : Receiver Db) (id : Nat) (request : Request)
    (ports : Ports) (ticket : Nat) : Receiver Db :=
  let conn := receiver.conns id
  receiver.setConn id
    (conn.operate
      (conn.session.setActiveGuard { id := id, ticket := ticket })
      (.dispatching request ports))

def dispatch (platform : Platform Db) (receiver : Receiver Db) (id : Nat)
    (request : Request) (ports : Ports) : Receiver Db :=
  let conn := receiver.conns id
  receiver.setConn id
    (conn.operate (dispatched platform conn.session ports request)
      .reading)

/-- One effect of connection `id`. -/
def perform (receiver : Receiver Db) (id : Nat) :
    Effect Db → Receiver Db
  | .event event =>
      { receiver with events := receiver.events ++ [event] }
  | .openSink stream _ _ =>
      { receiver with live := (id, stream) :: receiver.live }
  | .closeSink stream =>
      { receiver with live := receiver.live.erase (id, stream) }
  | .dropGuard guard =>
      { receiver with
        slot :=
          if receiver.slot.any (·.id == guard.id) then none
          else receiver.slot
        finished := guard.ticket :: receiver.finished }
  | .anchor _ => receiver
  | .startPlayer _ _ => receiver
  | .setPaused _ _ => receiver
  | .flush _ _ => receiver
  | .spawn _ => receiver
  | .abort _ => receiver

/-- The connection leaves its loop and its session is dropped. -/
def leave (receiver : Receiver Db) (id : Nat) : Receiver Db :=
  let conn := receiver.conns id
  receiver.setConn id
    ({ conn with permit := false }.operate conn.session.drop .closed)

end Receiver

/-- What an act does to the connection that takes it, by its phase. -/
def step (platform : Platform Db) (receiver : Receiver Db) :
    Act → Option (Receiver Db)
  | .read id request ports =>
      match (receiver.conns id).phase with
      | .reading =>
          if (receiver.conns id).permit then
            none
          else if request.method = "SETUP" then
            some (receiver.enter id (.claiming request ports))
          else
            some (receiver.enter id (.dispatching request ports))
      | _ => none
  | .lock id =>
      match (receiver.conns id).phase with
      | .claiming request ports => some (receiver.lock id request ports)
      | _ => none
  | .notify id =>
      match (receiver.conns id).phase with
      | .notifying request ports ticket previous =>
          some (receiver.notify id request ports ticket previous)
      | _ => none
  | .finish id =>
      match (receiver.conns id).phase with
      | .awaiting request ports ticket previous =>
          if previous.ticket ∈ receiver.finished then
            some (receiver.enter id (.guarded request ports ticket))
          else
            none
      | _ => none
  | .timeout id =>
      match (receiver.conns id).phase with
      | .awaiting request ports ticket _ =>
          some (receiver.enter id (.guarded request ports ticket))
      | _ => none
  | .install id =>
      match (receiver.conns id).phase with
      | .guarded request ports ticket =>
          some (receiver.install id request ports ticket)
      | _ => none
  | .dispatch id =>
      match (receiver.conns id).phase with
      | .dispatching request ports =>
          some (receiver.dispatch platform id request ports)
      | _ => none
  | .effect id =>
      match (receiver.conns id).phase with
      | .acting [] next => some (receiver.enter id next)
      | .acting (effect :: rest) next =>
          some ((receiver.perform id effect).enter id (.acting rest next))
      | _ => none
  | .evict id =>
      match (receiver.conns id).phase with
      | .reading =>
          if (receiver.conns id).permit then some (receiver.leave id)
          else none
      | _ => none
  | .close id =>
      match (receiver.conns id).phase with
      | .reading => some (receiver.leave id)
      | _ => none

/-- The connections of one receiver. -/
def takeover (platform : Platform Db) (peerIp : Nat → IpAddr)
    (localIp : IpAddr) : System (Receiver Db) Act where
  initial :=
    { slot := none
      claims := []
      finished := []
      conns := fun id =>
        { session := Session.new platform localIp (peerIp id)
          permit := false
          phase := .reading }
      live := []
      events := [] }
  step := step platform

/-! ## What a step can do -/

section Steps

variable
    (platform : Platform Db)
    (receiver : Receiver Db)

/-- The steps, with what each of them finds. -/
inductive Stepped : Act → Receiver Db → Prop where
  | readSetup {id : Nat} {request : Request} {ports : Ports}
      (reading : (receiver.conns id).phase = .reading)
      (unnoticed : (receiver.conns id).permit = false)
      (isSetup : request.method = "SETUP") :
      Stepped (.read id request ports)
        (receiver.enter id (.claiming request ports))
  | readOther {id : Nat} {request : Request} {ports : Ports}
      (reading : (receiver.conns id).phase = .reading)
      (unnoticed : (receiver.conns id).permit = false)
      (notSetup : request.method ≠ "SETUP") :
      Stepped (.read id request ports)
        (receiver.enter id (.dispatching request ports))
  | lock {id : Nat} {request : Request} {ports : Ports}
      (claiming : (receiver.conns id).phase = .claiming request ports) :
      Stepped (.lock id) (receiver.lock id request ports)
  | notify {id : Nat} {request : Request} {ports : Ports} {ticket : Nat}
      {previous : Holder}
      (notifying :
        (receiver.conns id).phase =
          .notifying request ports ticket previous) :
      Stepped (.notify id)
        (receiver.notify id request ports ticket previous)
  | finish {id : Nat} {request : Request} {ports : Ports} {ticket : Nat}
      {previous : Holder}
      (awaiting :
        (receiver.conns id).phase =
          .awaiting request ports ticket previous)
      (finished : previous.ticket ∈ receiver.finished) :
      Stepped (.finish id)
        (receiver.enter id (.guarded request ports ticket))
  | timeout {id : Nat} {request : Request} {ports : Ports} {ticket : Nat}
      {previous : Holder}
      (awaiting :
        (receiver.conns id).phase =
          .awaiting request ports ticket previous) :
      Stepped (.timeout id)
        (receiver.enter id (.guarded request ports ticket))
  | install {id : Nat} {request : Request} {ports : Ports} {ticket : Nat}
      (guarded :
        (receiver.conns id).phase = .guarded request ports ticket) :
      Stepped (.install id) (receiver.install id request ports ticket)
  | dispatch {id : Nat} {request : Request} {ports : Ports}
      (dispatching :
        (receiver.conns id).phase = .dispatching request ports) :
      Stepped (.dispatch id)
        (receiver.dispatch platform id request ports)
  | resume {id : Nat} {next : Phase Db}
      (acting : (receiver.conns id).phase = .acting [] next) :
      Stepped (.effect id) (receiver.enter id next)
  | perform {id : Nat} {effect : Effect Db} {rest : List (Effect Db)}
      {next : Phase Db}
      (acting :
        (receiver.conns id).phase = .acting (effect :: rest) next) :
      Stepped (.effect id)
        ((receiver.perform id effect).enter id (.acting rest next))
  | evict {id : Nat}
      (reading : (receiver.conns id).phase = .reading)
      (noticed : (receiver.conns id).permit = true) :
      Stepped (.evict id) (receiver.leave id)
  | close {id : Nat}
      (reading : (receiver.conns id).phase = .reading) :
      Stepped (.close id) (receiver.leave id)

variable {platform receiver}

theorem step_cases
    {act : Act} {next : Receiver Db}
    (stepped : step platform receiver act = some next) :
    Stepped platform receiver act next := by
  cases act with
  | read id request ports =>
      simp only [step] at stepped
      split at stepped
      · next reading =>
          split at stepped
          · cases stepped
          · next unnoticed =>
              rw [Bool.not_eq_true] at unnoticed
              split at stepped
              · next isSetup =>
                  cases stepped
                  exact .readSetup reading unnoticed isSetup
              · next notSetup =>
                  cases stepped
                  exact .readOther reading unnoticed notSetup
      · cases stepped
  | lock id =>
      simp only [step] at stepped
      split at stepped
      · next claiming =>
          cases stepped
          exact .lock claiming
      · cases stepped
  | notify id =>
      simp only [step] at stepped
      split at stepped
      · next notifying =>
          cases stepped
          exact .notify notifying
      · cases stepped
  | finish id =>
      simp only [step] at stepped
      split at stepped
      · next awaiting =>
          split at stepped
          · next finished =>
              cases stepped
              exact .finish awaiting finished
          · cases stepped
      · cases stepped
  | timeout id =>
      simp only [step] at stepped
      split at stepped
      · next awaiting =>
          cases stepped
          exact .timeout awaiting
      · cases stepped
  | install id =>
      simp only [step] at stepped
      split at stepped
      · next guarded =>
          cases stepped
          exact .install guarded
      · cases stepped
  | dispatch id =>
      simp only [step] at stepped
      split at stepped
      · next dispatching =>
          cases stepped
          exact .dispatch dispatching
      · cases stepped
  | effect id =>
      simp only [step] at stepped
      split at stepped
      · next acting =>
          cases stepped
          exact .resume acting
      · next acting =>
          cases stepped
          exact .perform acting
      · cases stepped
  | evict id =>
      simp only [step] at stepped
      split at stepped
      · next reading =>
          split at stepped
          · next noticed =>
              cases stepped
              exact .evict reading noticed
          · cases stepped
      · cases stepped
  | close id =>
      simp only [step] at stepped
      split at stepped
      · next reading =>
          cases stepped
          exact .close reading
      · cases stepped

end Steps

end OpenAirplay2.Takeover

import OpenAirplay2.Display.Frames
import OpenAirplay2.Display.Screen
import OpenAirplay2.Lib.History

/-!
# The client of a display

The client goes through its endpoints round after round and reports what
becomes of it; the display takes the reports out of a channel and sends back
what was chosen on the picker.  Either may stop at any time, and the keys of
the display fall between any two steps of the client.

Without an endpoint the candidates of the machine are probed until one is
chosen, which is then treated like an endpoint that was given.
-/

namespace OpenAirplay2.Display

open OpenAirplay2.Lib.Transition
open OpenAirplay2.Pairing (Bytes)

/-! ## Endpoints -/

/-- What to show a human for this endpoint. -/
def Endpoint.label : Endpoint → String
  | .url text => text
  | .socket path => path

theorem Endpoint.label_parse (value : String) :
    (Endpoint.parse value).label = value := by
  rw [Endpoint.parse]
  split <;> rfl

/-- The pre-socket default, kept as the last candidate. -/
def defaultTcpEndpoint : String := "ws://127.0.0.1:7392"

/-- `PathBuf::join`, of a name without a separator. -/
def joinPath (directory name : String) : String :=
  if directory.toList.getLast? = some '/' then directory ++ name
  else directory ++ "/" ++ name

/-- Where to look when no endpoint was given. -/
def defaultEndpoints (xdgRuntimeDir : Option String) : List Endpoint :=
  let user :=
    (xdgRuntimeDir.filter fun directory => !directory.isEmpty).map
      fun directory =>
        Endpoint.socket
          (joinPath (joinPath directory "openairplay2") "tui.sock")
  user.toList ++
    [.socket "/run/openairplay2/tui.sock", .url defaultTcpEndpoint]

/-! ## The client -/

/-- First reconnect delay, in milliseconds. -/
def firstBackoff : Nat := 500

def maxBackoff : Nat := 5000

/-- Where the client stands. -/
inductive Phase where
  /-- Before the next endpoint of the round, or its end. -/
  | round (rest : List Endpoint)
  | attempting (endpoint : Endpoint) (rest : List Endpoint)
  | streaming (endpoint : Endpoint) (rest : List Endpoint)
  | asleep
  | stopped
deriving DecidableEq, Repr

/-- `run`, or `run_local_or_selected` before a choice was made. -/
structure Client (Db : Type) where
  /-- The endpoint is given or chosen. -/
  decided : Bool
  endpoints : List Endpoint
  backoff : Nat
  /-- What `run` reports at the end of the round. -/
  update : Update Db
  phase : Phase

namespace Client

variable {Db : Type}

def run (endpoints : List Endpoint) : Client Db where
  decided := true
  endpoints := endpoints
  backoff := firstBackoff
  update := .disconnected
  phase := .round endpoints

def runLocalOrSelected (candidates : List Endpoint) : Client Db where
  decided := false
  endpoints := candidates
  backoff := firstBackoff
  update := .disconnected
  phase := .round candidates

variable (client : Client Db)

def enter (phase : Phase) : Client Db :=
  { client with phase := phase }

/-- An attempt or a connection that ends with an error. -/
def failed (unauthorized : Bool) (rest : List Endpoint) : Client Db :=
  { client with
    backoff := if unauthorized then maxBackoff else client.backoff
    update := if unauthorized then .unauthorized else client.update
    phase := .round rest }

/-- A connection that was there earns a fresh backoff. -/
def dropped (rest : List Endpoint) : Client Db :=
  { client with
    backoff := firstBackoff
    update := .disconnected
    phase := .round rest }

/-- After the sleep, a new round. -/
def woken : Client Db :=
  { client with
    backoff := min (client.backoff * 2) maxBackoff
    update := .disconnected
    phase := .round client.endpoints }

end Client

/-- What arrives on a connection. -/
inductive WsMessage where
  | text (text : String)
  | close
  | other
deriving DecidableEq, Repr

/-! ## The client and the display -/

/-- The client, the channels both ways, and the display. -/
structure Viewer (Db : Type) where
  client : Client Db
  updates : List (Update Db)
  selections : List Endpoint
  screen : Screen Db
  /-- The display runs, and may still choose. -/
  choosing : Bool
  /-- The display has not dropped the updates. -/
  listening : Bool

namespace Viewer

variable {Db : Type}

inductive Act where
  | advance
  | fail (unauthorized : Bool)
  | connect
  | frame (message : WsMessage)
  /-- The connection ends without a close frame. -/
  | ended
  | wake
  | select
  | discover (discovery : Discovery)
  | deliver
  | pickerMove (delta : Int)
  | choose
  | quit
  | leave
deriving DecidableEq, Repr

/-- `main`, past the arguments: which client is started for which screen. -/
def start
    (endpoint : Option String) (discover : Bool)
    (candidates : List Endpoint) (images : Graphics) : Viewer Db :=
  let screen (label : String) : Screen Db :=
    if discover then (Screen.new label images).forceDiscovery
    else Screen.new label images
  let viewer (client : Client Db) (label : String) : Viewer Db :=
    { client := client
      updates := []
      selections := []
      screen := screen label
      choosing := true
      listening := true }
  match endpoint, discover with
  | some value, _ => viewer (Client.run [Endpoint.parse value]) value
  | none, true =>
      viewer (Client.runLocalOrSelected []) "receivers on the network"
  | none, false =>
      viewer (Client.runLocalOrSelected candidates) "local receiver"

variable (viewer : Viewer Db)

/-- The client goes on. -/
def proceed (client : Client Db) : Viewer Db :=
  { viewer with client := client }

/-- `updates.send`; a client that nobody listens to returns. -/
def send (update : Update Db) (client : Client Db) : Viewer Db :=
  if viewer.listening then
    { viewer with
      updates := viewer.updates ++ [update]
      client := client }
  else viewer.proceed (client.enter .stopped)

/-- A choice was received. -/
def selected (endpoint : Endpoint) (rest : List Endpoint) : Viewer Db :=
  { viewer with
    client := Client.run [endpoint]
    selections := rest }

/-- The head of the loop, before the choice. -/
def probe (endpoint : Endpoint) (rest : List Endpoint) : Viewer Db :=
  match viewer.selections with
  | choice :: later => viewer.selected choice later
  | [] =>
      viewer.proceed
        (viewer.client.enter
          (if viewer.choosing then .attempting endpoint rest
          else .stopped))

/-- The next endpoint of the round, or the end of it. -/
def advance (rest : List Endpoint) : Viewer Db :=
  match rest with
  | [] =>
      viewer.send
        (if viewer.client.decided then viewer.client.update
        else .noLocalReceiver)
        (viewer.client.enter .asleep)
  | endpoint :: rest =>
      if viewer.client.decided then
        viewer.proceed (viewer.client.enter (.attempting endpoint rest))
      else viewer.probe endpoint rest

/-- The connection was there and is gone. -/
def drop (rest : List Endpoint) : Viewer Db :=
  if viewer.client.decided then
    viewer.proceed (viewer.client.dropped [])
  else viewer.send .disconnected (viewer.client.dropped rest)

/-- A frame that says nothing new is skipped. -/
def hear (floats : Floats Db) (text : String) : Viewer Db :=
  match parse floats text with
  | some message => viewer.send (.message message) viewer.client
  | none => viewer

/-- Enter on the picker. -/
def choose : Viewer Db :=
  { viewer with
    screen := viewer.screen.choose.1
    selections :=
      viewer.selections ++ viewer.screen.choose.2.toList }

def step
    (floats : Floats Db) (decode : String → Option Bytes)
    (viewer : Viewer Db) : Act → Option (Viewer Db)
  | .advance =>
      match viewer.client.phase with
      | .round rest => some (viewer.advance rest)
      | _ => none
  | .fail unauthorized =>
      match viewer.client.phase with
      | .attempting _ rest =>
          some (viewer.proceed (viewer.client.failed unauthorized rest))
      | .streaming _ rest =>
          some (viewer.proceed (viewer.client.failed unauthorized rest))
      | _ => none
  | .connect =>
      match viewer.client.phase with
      | .attempting endpoint rest =>
          some
            (viewer.send (.connected endpoint.label)
              (viewer.client.enter (.streaming endpoint rest)))
      | _ => none
  | .frame message =>
      match viewer.client.phase, message with
      | .streaming _ _, .text text => some (viewer.hear floats text)
      | .streaming _ rest, .close => some (viewer.drop rest)
      | .streaming _ _, .other => some viewer
      | _, _ => none
  | .ended =>
      match viewer.client.phase with
      | .streaming _ rest => some (viewer.drop rest)
      | _ => none
  | .wake =>
      match viewer.client.phase with
      | .asleep => some (viewer.proceed viewer.client.woken)
      | _ => none
  | .select =>
      match viewer.client.phase, viewer.client.decided with
      | .asleep, false =>
          match viewer.selections with
          | choice :: later => some (viewer.selected choice later)
          | [] =>
              if viewer.choosing then none
              else some (viewer.proceed (viewer.client.enter .stopped))
      | _, _ => none
  | .discover discovery =>
      if viewer.listening then
        some
          { viewer with
            updates := viewer.updates ++ [.discovery discovery] }
      else some viewer
  | .deliver =>
      match viewer.choosing, viewer.updates with
      | true, update :: rest =>
          some
            { viewer with
              updates := rest
              screen := viewer.screen.apply decode update }
      | _, _ => none
  | .pickerMove delta =>
      if viewer.choosing then
        some { viewer with screen := viewer.screen.pickerMove delta }
      else none
  | .choose => if viewer.choosing then some viewer.choose else none
  | .quit =>
      if viewer.choosing then some { viewer with choosing := false }
      else none
  | .leave =>
      if viewer.choosing then none
      else some { viewer with listening := false }

def system
    (floats : Floats Db) (decode : String → Option Bytes)
    (start : Viewer Db) : System (Viewer Db) Act where
  initial := start
  step := step floats decode

end Viewer

end OpenAirplay2.Display

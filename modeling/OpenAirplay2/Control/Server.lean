import OpenAirplay2.Control.Cipher
import OpenAirplay2.Control.Fairplay
import OpenAirplay2.Control.Http
import OpenAirplay2.Control.Session
import OpenAirplay2.Pairing.PairSetup

/-!
# The request loop of a connection

Every request goes to the pairing state machine, is refused while the channel
is in the clear, or is dispatched: to the session by its method, and to the
stateless endpoints otherwise.

What the active slot answers to a claim, the draws of a challenge and the
ports of a bind come with a request.  `claims`, `operations`, `answers` and
`secrets` are bookkeeping.
-/

namespace OpenAirplay2.Control

open OpenAirplay2.Lib.Str
open OpenAirplay2.Lib.Transition
open OpenAirplay2.Pairing
  (Bytes Digest Draws Outcome PairSetup completedKey completedKey_of_done)

variable {Db : Type}

def infoContentType : String := "application/x-apple-binary-plist"

def pairingContentType : String := "application/octet-stream"

def parametersContentType : String := "text/parameters"

/-- What a connection is created with. -/
structure Context (Db : Type) where
  platform : Platform Db
  crypto : Crypto
  sha512 : Bytes → Digest
  password : Option String
  /-- `info_plist` of the configuration and the identity. -/
  infoPlist : Bytes
  localIp : IpAddr
  peerIp : IpAddr

/-- A request, with what the outside answers while it is handled. -/
structure Input where
  request : Request
  draws : Draws
  ports : Ports
  guard : Option Guard
deriving DecidableEq, Repr

/-! ## Session requests -/

/-- The session operations a method stands for. -/
inductive Operation where
  | handleSetup
  | getParameter
  | setParameter
  | setRateAnchor
  | flush
  | teardown
  | ack
deriving DecidableEq, Repr

/-- The method arms of `dispatch_session`. -/
def Operation.ofMethod : String → Option Operation
  | "SETUP" => some .handleSetup
  | "GET_PARAMETER" => some .getParameter
  | "SET_PARAMETER" => some .setParameter
  | "SETRATEANCHORTIME" => some .setRateAnchor
  | "FLUSHBUFFERED" => some .flush
  | "TEARDOWN" => some .teardown
  | "RECORD" => some .ack
  | "SETPEERS" => some .ack
  | "SETPEERSX" => some .ack
  | _ => none

/-- The body of an arm of `dispatch_session`. -/
def Operation.run (platform : Platform Db) (session : Session Db)
    (ports : Ports) (request : Request) :
    Operation → Session Db × Response
  | .handleSetup =>
      match session.handleSetup platform ports request.body with
      | (next, .ok body) =>
          (next,
            (Response.ok request.protocol).withBody infoContentType body)
      | (next, .error _) =>
          (next, Response.new request.protocol 400 "Bad Request")
  | .getParameter =>
      (session,
        (Response.ok request.protocol).withBody parametersContentType
          (session.getParameter platform request.body))
  | .setParameter =>
      (session.setParameter platform (request.headers.get "Content-Type")
        request.body, Response.ok request.protocol)
  | .setRateAnchor =>
      (session.setRateAnchor platform request.body,
        Response.ok request.protocol)
  | .flush =>
      (session.flush platform request.body, Response.ok request.protocol)
  | .teardown => (session.teardown, Response.ok request.protocol)
  | .ack => (session, Response.ok request.protocol)

/-- The methods that work on the session; `none` for any other. -/
def dispatchSession (platform : Platform Db) (session : Session Db)
    (ports : Ports) (request : Request) :
    Option (Session Db × Response) :=
  (Operation.ofMethod request.method).map
    (Operation.run platform session ports request)

/-- The stateless endpoints. -/
def dispatch (infoPlist : Bytes) (request : Request) : Response :=
  match request.method, request.target with
  | "GET", "/info" =>
      (Response.ok request.protocol).withBody infoContentType infoPlist
  | "POST", "/fp-setup" =>
      match Fairplay.fpSetup request.body with
      | some reply =>
          (Response.ok request.protocol).withBody pairingContentType reply
      | none => Response.new request.protocol 400 "Bad Request"
  | "POST", "/feedback" => Response.ok request.protocol
  | "POST", "/command" => Response.ok request.protocol
  | "POST", "/audioMode" => Response.ok request.protocol
  | _, _ => Response.new request.protocol 501 "Not Implemented"

/-! ## The loop -/

/-- What a peer may do before the channel is encrypted. -/
def allowedInClear (request : Request) : Bool :=
  (request.method == "GET" && request.target == "/info") ||
    startsWith request.target "/pair-"

/-- The four ways a request can go. -/
inductive Route where
  | pairSetup
  | pairPinStart
  | forbidden
  | dispatched
deriving DecidableEq, Repr

/-- The tests of the loop, in the order they are made. -/
def route (encrypted : Bool) (request : Request) : Route :=
  if request.method = "POST" ∧ request.target = "/pair-setup" then
    .pairSetup
  else if request.method = "POST" ∧ request.target = "/pair-pin-start" then
    .pairPinStart
  else if !encrypted && !allowedInClear request then
    .forbidden
  else
    .dispatched

theorem route_cases (encrypted : Bool) (request : Request) :
    (route encrypted request = .pairSetup ∧
        request.method = "POST" ∧ request.target = "/pair-setup") ∨
      (route encrypted request = .pairPinStart ∧
        request.method = "POST" ∧ request.target = "/pair-pin-start") ∨
      (route encrypted request = .forbidden ∧
        encrypted = false ∧ allowedInClear request = false) ∨
      (route encrypted request = .dispatched ∧
        (encrypted = false → allowedInClear request = true)) := by
  by_cases setup :
      request.method = "POST" ∧ request.target = "/pair-setup"
  · exact Or.inl ⟨by rw [route, if_pos setup], setup⟩
  · by_cases pinStart :
        request.method = "POST" ∧ request.target = "/pair-pin-start"
    · exact
        Or.inr (Or.inl
          ⟨by rw [route, if_neg setup, if_pos pinStart], pinStart⟩)
    · rw [route, if_neg setup, if_neg pinStart]
      cases encrypted <;> cases allowedInClear request <;> simp

structure Connection (Db : Type) where
  pair : PairSetup
  session : Session Db
  conn : ControlConnection
  claims : Nat
  operations : List Operation
  answers : List (Request × Response)
  secrets : List Digest
deriving DecidableEq

namespace Connection

def new (context : Context Db) : Connection Db where
  pair := PairSetup.new context.password
  session :=
    Session.new context.platform context.localIp context.peerIp
  conn := ControlConnection.new
  claims := 0
  operations := []
  answers := []
  secrets := []

/-- Finalize a response and write it. -/
def respond (context : Context Db) (connection : Connection Db)
    (request : Request) (response : Response) : Connection Db :=
  let response := finalize response request
  { connection with
    conn := connection.conn.write context.crypto response.toBytes
    answers := connection.answers ++ [(request, response)] }

/-- `control_channel` and `enable_encryption`, with a session key. -/
def install (context : Context Db) (connection : Connection Db)
    (sharedSecret : Digest) : Connection Db :=
  { connection with
    conn :=
      connection.conn.enableEncryption
        (controlChannel context.crypto sharedSecret)
    secrets := connection.secrets ++ [sharedSecret] }

/-- `/pair-setup`: the cipher is installed behind the response. -/
def handlePairSetup (context : Context Db) (connection : Connection Db)
    (input : Input) : Connection Db :=
  let handled :=
    connection.pair.handle context.sha512 input.draws input.request.body
  let paired := { connection with pair := handled.1 }
  let reply := fun tlv =>
    paired.respond context input.request
      ((Response.ok input.request.protocol).withBody pairingContentType tlv)
  match handled.2 with
  | .continue tlv => reply tlv
  | .failed tlv => reply tlv
  | .done tlv sharedSecret => (reply tlv).install context sharedSecret

/-- A `SETUP` claims the active slot first. -/
def claim (connection : Connection Db) (input : Input) : Connection Db :=
  if input.request.method = "SETUP" then
    { connection with
      claims := connection.claims + 1
      session :=
        match input.guard with
        | some guard => connection.session.setActiveGuard guard
        | none => connection.session }
  else
    connection

/-- `dispatch_session`, or else `dispatch`. -/
def handleDispatched (context : Context Db) (connection : Connection Db)
    (input : Input) : Connection Db :=
  let claimed := connection.claim input
  match
    dispatchSession context.platform claimed.session input.ports
      input.request
  with
  | some (session, response) =>
      { claimed with
        session := session
        operations :=
          claimed.operations ++
            (Operation.ofMethod input.request.method).toList }.respond
        context input.request response
  | none =>
      claimed.respond context input.request
        (dispatch context.infoPlist input.request)

/-- One round of the loop, from a request to its response. -/
def handle (context : Context Db) (connection : Connection Db)
    (input : Input) : Connection Db :=
  match route connection.conn.isEncrypted input.request with
  | .pairSetup => connection.handlePairSetup context input
  | .pairPinStart =>
      connection.respond context input.request
        (Response.ok input.request.protocol)
  | .forbidden =>
      connection.respond context input.request
        (Response.new input.request.protocol 403 "Forbidden")
  | .dispatched => connection.handleDispatched context input

end Connection

/-- A connection handling one request after the other. -/
def requestLoop (context : Context Db) :
    System (Connection Db) Input where
  initial := Connection.new context
  step connection input := some (connection.handle context input)

/-! ## What a request can do to the channel -/

section Handle

variable
    (context : Context Db)
    (connection : Connection Db)

@[simp]
theorem isEncrypted_write
    (crypto : Crypto) (conn : ControlConnection) (bytes : Bytes) :
    (conn.write crypto bytes).isEncrypted = conn.isEncrypted := by
  simp only [ControlConnection.write, ControlConnection.isEncrypted]
  split <;> simp_all

theorem conn_claim (input : Input) :
    (connection.claim input).conn = connection.conn := by
  unfold Connection.claim
  split <;> rfl

theorem secrets_claim (input : Input) :
    (connection.claim input).secrets = connection.secrets := by
  unfold Connection.claim
  split <;> rfl

theorem answers_claim (input : Input) :
    (connection.claim input).answers = connection.answers := by
  unfold Connection.claim
  split <;> rfl

/--
Every request has one response written; a `pair-setup` that completes the
exchange then installs the session key.
-/
theorem handle_cases (input : Input) :
    ∃ response : Response,
      let next := connection.handle context input
      let written :=
        connection.conn.write context.crypto response.toBytes
      next.answers = connection.answers ++ [(input.request, response)] ∧
        ((next.conn = written ∧ next.secrets = connection.secrets) ∨
          ∃ key,
            route connection.conn.isEncrypted input.request =
                .pairSetup ∧
              completedKey context.sha512 connection.pair
                  input.request.body =
                some key ∧
              next.conn =
                written.enableEncryption
                  (controlChannel context.crypto key) ∧
              next.secrets = connection.secrets ++ [key]) := by
  cases routed : route connection.conn.isEncrypted input.request with
  | pairSetup =>
      simp only [Connection.handle, routed, Connection.handlePairSetup]
      split
      · exact ⟨_, rfl, Or.inl ⟨rfl, rfl⟩⟩
      · exact ⟨_, rfl, Or.inl ⟨rfl, rfl⟩⟩
      · next key done =>
          exact
            ⟨_, rfl,
              Or.inr
                ⟨key, trivial, completedKey_of_done context.sha512 done,
                  rfl, rfl⟩⟩
  | pairPinStart =>
      simp only [Connection.handle, routed]
      exact ⟨_, rfl, Or.inl ⟨rfl, rfl⟩⟩
  | forbidden =>
      simp only [Connection.handle, routed]
      exact ⟨_, rfl, Or.inl ⟨rfl, rfl⟩⟩
  | dispatched =>
      simp only [Connection.handle, routed, Connection.handleDispatched]
      rw [← conn_claim connection input, ← secrets_claim connection input,
        ← answers_claim connection input]
      split
      · exact ⟨_, rfl, Or.inl ⟨rfl, rfl⟩⟩
      · exact ⟨_, rfl, Or.inl ⟨rfl, rfl⟩⟩

end Handle

end OpenAirplay2.Control

import OpenAirplay2.Lib.Lines
import OpenAirplay2.Pairing.Srp

/-!
# Requests and responses

The control connection speaks a hybrid of HTTP and RTSP.  A response echoes
the protocol token of its request and always carries its length.
-/

namespace OpenAirplay2.Control

open OpenAirplay2.Lib.Str
open OpenAirplay2.Pairing (Bytes asBytes)

/-- Header lines in the order they arrived. -/
abbrev Headers := List (String × String)

/-- The value of the first header of that name, in any case. -/
def Headers.get (headers : Headers) (name : String) : Option String :=
  (headers.find? fun header => eqIgnoreAsciiCase header.1 name).map
    Prod.snd

structure Request where
  method : String
  target : String
  protocol : String
  headers : Headers
  body : Bytes
deriving DecidableEq, Repr

/-- Why a read fails; the kind is `InvalidData` but for the `eof` ones. -/
inductive IoError where
  /-- malformed request line: .. -/
  | malformedRequestLine (line : String)
  /-- not HTTP or RTSP: .. -/
  | notHttpOrRtsp (line : String)
  /-- malformed header line: .. -/
  | malformedHeaderLine (line : String)
  /-- bad Content-Length: .. -/
  | badContentLength (value : String)
  /-- EOF inside request head -/
  | eofInHead
  /-- request head too large -/
  | headTooLarge
  /-- non-UTF8 request head -/
  | nonUtf8Head
  /-- body too large -/
  | bodyTooLarge
  /-- EOF inside request body -/
  | eofInBody
  /-- EOF inside encrypted request body -/
  | eofInEncryptedBody
  /-- channel authentication failed -/
  | authenticationFailed
deriving DecidableEq, Repr

/-! ## Parsing -/

/-- The parts of `splitn(3, ' ')`, if there are three of them. -/
def splitn3 (line : String) : Option (String × String × String) :=
  (splitOnce line ' ').bind fun (first, rest) =>
    (splitOnce rest ' ').map fun (second, third) => (first, second, third)

/-- The header lines of a head, those that are empty left out. -/
def parseHeaders : List String → Except IoError Headers
  | [] => .ok []
  | line :: rest =>
      if line = "" then
        parseHeaders rest
      else
        match splitOnce line ':' with
        | none => .error (.malformedHeaderLine line)
        | some (name, value) =>
            (parseHeaders rest).map ((trim name, trim value) :: ·)

/-- A head without its blank line: method, target, protocol and headers. -/
def parseHead (head : String) :
    Except IoError (String × String × String × Headers) :=
  let lines := splitCrlf head
  let requestLine := lines.head?.getD ""
  match splitn3 requestLine with
  | none => .error (.malformedRequestLine requestLine)
  | some (method, target, protocol) =>
      if method = "" then
        .error (.malformedRequestLine requestLine)
      else if
          !startsWith protocol "HTTP/" && !startsWith protocol "RTSP/" then
        .error (.notHttpOrRtsp requestLine)
      else
        (parseHeaders lines.tail).map fun headers =>
          (method, target, protocol, headers)

/-- The declared length of the body, or 0. -/
def contentLength (headers : Headers) : Except IoError Nat :=
  match headers.get "Content-Length" with
  | none => .ok 0
  | some value =>
      match parseUsize value with
      | none => .error (.badContentLength value)
      | some length => .ok length

/-! ## Responses -/

structure Response where
  protocol : String
  status : Nat
  reason : String
  headers : Headers
  body : Bytes
deriving DecidableEq, Repr

namespace Response

def new (protocol : String) (status : Nat) (reason : String) :
    Response where
  protocol := protocol
  status := status
  reason := reason
  headers := []
  body := []

def ok (protocol : String) : Response :=
  new protocol 200 "OK"

def header (response : Response) (name value : String) : Response :=
  { response with headers := response.headers ++ [(name, value)] }

/-- Attach a body and its `Content-Type`. -/
def withBody (response : Response) (contentType : String)
    (body : Bytes) : Response :=
  { response.header "Content-Type" contentType with body := body }

/-- A header as it is written. -/
def headerLine (header : String × String) : Bytes :=
  asBytes header.1 ++ asBytes ": " ++ asBytes header.2 ++ asBytes "\r\n"

/-- Serialize to the wire form. -/
def toBytes (response : Response) : Bytes :=
  (asBytes response.protocol ++ asBytes " " ++
      asBytes (toString response.status) ++ asBytes " " ++
      asBytes response.reason ++ asBytes "\r\n") ++
    response.headers.flatMap headerLine ++
    headerLine ("Content-Length", toString response.body.length) ++
    asBytes "\r\n" ++ response.body

@[simp]
theorem status_new (protocol : String) (status : Nat) (reason : String) :
    (new protocol status reason).status = status :=
  rfl

end Response

def serverId : String := "AirTunes/366.0"

/-- Add the headers every response carries. -/
def finalize (response : Response) (request : Request) : Response :=
  let answered :=
    match request.headers.get "CSeq" with
    | some cseq => response.header "CSeq" cseq
    | none => response
  answered.header "Server" serverId

@[simp]
theorem status_finalize (response : Response) (request : Request) :
    (finalize response request).status = response.status := by
  unfold finalize
  split <;> rfl

end OpenAirplay2.Control

import OpenAirplay2.Control.Framing
import OpenAirplay2.Control.Gate
import OpenAirplay2.Lib.Framer

/-!
# Responses cannot be split

A response echoes two strings of its request, the protocol token and the
`CSeq`, into its head.  Both were cut out of lines when the request was
parsed, so neither holds the end of a line, and none comes about where they
are joined to the rest of the head.  The head therefore ends where it should,
and a peer that reads responses off the stream, one after the other, reads
those that were written.
-/

namespace OpenAirplay2.Control

open OpenAirplay2.Control.Incoming (blankLine)
open OpenAirplay2.Lib
open OpenAirplay2.Lib.Str
open OpenAirplay2.Lib.Transition
open OpenAirplay2.Pairing (Bytes asBytes)

variable {Db : Type}

/-! ## The head of a response -/

/-- The loop of `ByteArray.toList` goes through the bytes in order. -/
theorem toList_loop
    (bytes : ByteArray) (index : Nat) (read : List UInt8) :
    ByteArray.toList.loop bytes index read =
      read.reverse ++ bytes.data.toList.drop index := by
  fun_induction ByteArray.toList.loop bytes index read with
  | case1 index read inside induction =>
      have here : index < bytes.data.size := inside
      have byte : bytes.get! index = bytes.data.toList[index] :=
        getElem!_pos bytes.data index here
      rw [induction, List.reverse_cons, List.append_assoc, byte,
        List.singleton_append, ← List.drop_eq_getElem_cons]
  | case2 index read outside =>
      have ends : bytes.data.toList.length ≤ index :=
        Nat.not_lt.mp outside
      rw [List.drop_eq_nil_of_le ends, List.append_nil]

theorem asBytes_eq (text : String) : asBytes text = utf8 text.toList := by
  have bytes : (utf8 text.toList).toByteArray = text.toByteArray :=
    String.utf8Encode_toList
  show ByteArray.toList.loop text.toByteArray 0 [] = utf8 text.toList
  rw [toList_loop, ← bytes, List.toList_data_toByteArray]
  rfl

/-- A header as it is written, without the end of its line. -/
def headerText (header : String × String) : String :=
  header.1 ++ ": " ++ header.2

theorem toList_headerText (header : String × String) :
    (headerText header).toList = headerLine header := by
  simp [headerText, headerLine]

namespace Response

def statusLine (response : Response) : String :=
  response.protocol ++ " " ++ toString response.status ++ " " ++
    response.reason

/-- The length of the body as a header. -/
def lengthHeader (response : Response) : String × String :=
  ("Content-Length", toString response.body.length)

/-- All headers that are written. -/
def allHeaders (response : Response) : Headers :=
  response.headers ++ [response.lengthHeader]

/-- The lines of the head: the status, the headers added, and the length. -/
def lines (response : Response) : List String :=
  response.statusLine :: response.allHeaders.map headerText

/-- The head, without its blank line. -/
def head (response : Response) : List Char :=
  joinCrlf response.statusLine.toList
    (response.allHeaders.map Control.headerLine)

/-- Lines that end each are lines with an end between each two. -/
theorem flatMap_concat_crlf (lines : List (List Char)) :
    crlf ++ lines.flatMap (· ++ crlf) =
      lines.flatMap (crlf ++ ·) ++ crlf := by
  induction lines with
  | nil => rfl
  | cons line lines induction =>
      rw [List.flatMap_cons, List.flatMap_cons, List.append_assoc,
        List.append_assoc, List.append_assoc, induction]

theorem headerLine_eq (header : String × String) :
    headerLine header = utf8 (Control.headerLine header ++ crlf) := by
  rw [headerLine, asBytes_eq, asBytes_eq, asBytes_eq, asBytes_eq,
    ← utf8_append, ← utf8_append, ← utf8_append]
  congr 1
  simp [Control.headerLine, crlf]

theorem flatMap_headerLine (headers : Headers) :
    headers.flatMap headerLine =
      utf8 ((headers.map Control.headerLine).flatMap (· ++ crlf)) := by
  rw [List.flatMap_map, utf8, List.flatMap_assoc]
  apply List.flatMap_congr
  intro header member
  exact headerLine_eq header

/-- The bytes are the head, a blank line, and the body. -/
theorem toBytes_eq (response : Response) :
    response.toBytes =
      utf8 (response.head ++ (crlf ++ crlf)) ++ response.body := by
  have written :
      response.statusLine.toList ++ crlf ++
            (response.allHeaders.map Control.headerLine).flatMap
              (· ++ crlf) ++
          crlf =
        response.head ++ (crlf ++ crlf) := by
    rw [head, joinCrlf, List.append_assoc response.statusLine.toList,
      flatMap_concat_crlf]
    simp only [List.append_assoc]
  have status :
      asBytes response.protocol ++ asBytes " " ++
              asBytes (toString response.status) ++ asBytes " " ++
            asBytes response.reason ++ asBytes "\r\n" =
        utf8 (response.statusLine.toList ++ crlf) := by
    simp only [asBytes_eq, ← utf8_append]
    congr 1
    simp [statusLine, crlf]
  have blank : asBytes "\r\n" = utf8 crlf := by
    rw [asBytes_eq]
    rfl
  have headers :
      response.headers.flatMap headerLine ++
          headerLine response.lengthHeader =
        response.allHeaders.flatMap headerLine := by
    rw [allHeaders, List.flatMap_append, List.flatMap_singleton]
  rw [← written, utf8_append, utf8_append, ← flatMap_headerLine,
    ← headers, ← status, ← blank, toBytes]
  simp only [List.append_assoc]
  rfl

end Response

/-! ## Heads that end where they should -/

/-- A header that can be told from its line. -/
structure Legible (header : String × String) : Prop where
  name : trim header.1 = header.1
  outside : ':' ∉ header.1.toList
  value : trim header.2 = header.2
  isLine : IsLine (headerLine header)

/-- Nothing in the head ends a line, and the length is told once. -/
structure Response.Tidy (response : Response) : Prop where
  protocol : IsLine response.protocol.toList
  reason : '\r' ∉ response.reason.toList
  headers : ∀ header ∈ response.headers, Legible header
  noLength : response.headers.get "Content-Length" = none

/-- A header is legible if its name is plain and its value in one line. -/
theorem legible_of_value
    {name value : String}
    (plain : trim name = name ∧ ':' ∉ name.toList ∧ '\r' ∉ name.toList)
    (trimmed : trim value = value)
    (isLine : IsLine value.toList) :
    Legible (name, value) := by
  rcases plain with ⟨named, outside, noReturn⟩
  refine ⟨named, outside, trimmed, ?_⟩
  have front : '\r' ∉ name.toList ++ [':', ' '] := by
    rw [List.mem_append]
    rintro (inside | inside)
    · exact noReturn inside
    · revert inside
      decide
  have whole :
      headerLine (name, value) =
        (name.toList ++ [':', ' ']) ++ value.toList := by
    rw [headerLine, List.append_assoc]
    rfl
  rw [whole]
  exact (isLine_of_not_mem front).append isLine (Or.inl front)

/-- A number is written in digits. -/
theorem isDigit_of_mem_toString
    {number : Nat} {char : Char}
    (member : char ∈ (toString number).toList) :
    char.isDigit = true := by
  rw [Nat.toString_eq_repr, Nat.toList_repr] at member
  exact Nat.isDigit_of_mem_toDigits (by decide) (by decide) member

theorem not_mem_toString
    {char : Char} (other : char.isDigit = false) (number : Nat) :
    char ∉ (toString number).toList := by
  intro member
  rw [isDigit_of_mem_toString member] at other
  cases other

theorem not_isWhitespace_of_isDigit
    {char : Char} (digit : char.isDigit = true) :
    isWhitespace char = false := by
  have range : 48 ≤ char.toNat ∧ char.toNat ≤ 57 :=
    Char.isDigit_iff_toNat.mp digit
  simp only [isWhitespace, Bool.or_eq_false_iff, Bool.and_eq_false_iff,
    decide_eq_false_iff_not, beq_eq_false_iff_ne]
  omega

/-- The length of a body is told legibly. -/
theorem legible_length (length : Nat) :
    Legible ("Content-Length", toString length) := by
  apply legible_of_value (by decide)
  · apply trim_of_solid
    intro char member
    exact not_isWhitespace_of_isDigit (isDigit_of_mem_toString member)
  · exact isLine_of_not_mem (not_mem_toString (by decide) length)

section Tidy

variable
    {response : Response}

/-- What is behind the protocol in a status line starts with a space. -/
theorem Response.Tidy.isLine_statusLine (tidy : response.Tidy) :
    IsLine response.statusLine.toList := by
  have plain :
      '\r' ∉
        ' ' :: ((toString response.status).toList ++
          ' ' :: response.reason.toList) := by
    simp only [List.mem_cons, List.mem_append, not_or]
    exact
      ⟨by decide, not_mem_toString (by decide) _, by decide,
        tidy.reason⟩
  have whole :
      response.statusLine.toList =
        response.protocol.toList ++
          ' ' :: ((toString response.status).toList ++
            ' ' :: response.reason.toList) := by
    simp [statusLine]
  rw [whole]
  apply tidy.protocol.append (isLine_of_not_mem plain)
  right
  rw [List.head?_cons]
  decide

theorem Response.Tidy.allHeaders (tidy : response.Tidy) :
    ∀ header ∈ response.allHeaders, Legible header := by
  intro header member
  rcases List.mem_append.mp member with added | length
  · exact tidy.headers header added
  · rw [List.mem_singleton.mp length]
    exact legible_length response.body.length

/-- None of the lines of a head is blank. -/
theorem Response.Tidy.lines (tidy : response.Tidy) :
    ∀ line ∈
        response.statusLine.toList ::
          response.allHeaders.map Control.headerLine,
      IsLine line ∧ line ≠ [] := by
  rw [List.forall_mem_cons]
  constructor
  · refine ⟨tidy.isLine_statusLine, ?_⟩
    simp [statusLine]
  · intro line member
    rcases List.mem_map.mp member with ⟨header, isHeader, rfl⟩
    refine ⟨(tidy.allHeaders header isHeader).isLine, ?_⟩
    simp [Control.headerLine]

/-- The first blank line is behind the head. -/
theorem Response.Tidy.cut (tidy : response.Tidy) (rest : Bytes) :
    (response.toBytes ++ rest).dropInfix? blankLine =
      some (utf8 response.head, response.body ++ rest) := by
  rw [dropInfix?_iff, toBytes_eq, utf8_append, List.append_assoc,
    List.append_assoc]
  refine ⟨rfl, ?_⟩
  intro shorter starts
  by_contra below
  have within :
      shorter ++ blankLine <+:
        utf8 (response.head ++ (crlf ++ crlf)) := by
    rw [utf8_append]
    apply List.prefix_of_prefix_length_le starts
    · rw [← List.append_assoc]
      exact List.prefix_append _ _
    · have same : blankLine.length = (utf8 (crlf ++ crlf)).length := rfl
      rw [List.length_append, List.length_append]
      omega
  have isHead : shorter = utf8 response.head :=
    blank_bytes_end tidy.lines within
  rw [isHead] at below
  exact below le_rfl

/-- Its lines are the lines that were written. -/
theorem Response.Tidy.splitCrlf_head (tidy : response.Tidy) :
    splitCrlf (String.ofList response.head) = response.lines := by
  rw [splitCrlf, String.toList_ofList, head, crlfParts_joinCrlf]
  · simp [Response.lines, List.map_map, ← toList_headerText]
  · exact tidy.isLine_statusLine
  · intro line member
    exact (tidy.lines line (List.mem_cons_of_mem _ member)).1

end Tidy

/-! ## What a request brings in -/

/-- The head of the request was accepted. -/
def Parsed (request : Request) : Prop :=
  ∃ head,
    parseHead head =
      .ok
        (request.method, request.target, request.protocol,
          request.headers)

theorem isLine_of_mem_splitCrlf
    {text line : String} (member : line ∈ splitCrlf text) :
    IsLine line.toList := by
  rcases List.mem_map.mp member with ⟨part, isPart, rfl⟩
  rw [String.toList_ofList]
  exact isLine_of_mem_crlfParts isPart

/-- The protocol is the end of the request line. -/
theorem splitn3_suffix
    {line first second third : String}
    (split : splitn3 line = some (first, second, third)) :
    third.toList <:+ line.toList := by
  rw [splitn3, Option.bind_eq_some_iff] at split
  rcases split with ⟨⟨before, rest⟩, outer, inner⟩
  rw [Option.map_eq_some_iff] at inner
  rcases inner with ⟨⟨middle, last⟩, found, same⟩
  cases same
  exact (suffix_of_splitOnce found).trans (suffix_of_splitOnce outer)

/-- The value of a header is trimmed, and was cut out of a line. -/
theorem parseHeaders_values
    {lines : List String} {headers : Headers}
    (parsed : parseHeaders lines = .ok headers) :
    ∀ header ∈ headers,
      trim header.2 = header.2 ∧
        ∃ line ∈ lines, header.2.toList <:+: line.toList := by
  induction lines generalizing headers with
  | nil =>
      cases parsed
      intro header member
      cases member
  | cons line rest induction =>
      rw [parseHeaders] at parsed
      have others :
          ∀ later, parseHeaders rest = .ok later →
            ∀ header ∈ later,
              trim header.2 = header.2 ∧
                ∃ other ∈ line :: rest,
                  header.2.toList <:+: other.toList := by
        intro later isLater header member
        rcases induction isLater header member with
          ⟨trimmed, other, isOther, within⟩
        exact
          ⟨trimmed, other, List.mem_cons_of_mem line isOther, within⟩
      split at parsed
      · exact others headers parsed
      · split at parsed
        · cases parsed
        · next name value isSplit =>
            cases tail : parseHeaders rest with
            | error why =>
                rw [tail] at parsed
                cases parsed
            | ok later =>
                rw [tail] at parsed
                cases parsed
                rw [List.forall_mem_cons]
                refine ⟨⟨trim_trim value, line, ?_⟩, others later tail⟩
                refine ⟨List.mem_cons_self, ?_⟩
                exact
                  (trim_within value).trans
                    (suffix_of_splitOnce isSplit).isInfix

/-- A head that is accepted gives its first line, and its others. -/
theorem parseHead_ok
    {head method target protocol : String}
    {headers : Headers}
    (parsed :
      parseHead head = .ok (method, target, protocol, headers)) :
    splitn3 ((splitCrlf head).head?.getD "") =
        some (method, target, protocol) ∧
      parseHeaders (splitCrlf head).tail = .ok headers := by
  unfold parseHead at parsed
  simp only at parsed
  split at parsed
  · cases parsed
  · next isSplit =>
      split at parsed
      · cases parsed
      · split at parsed
        · cases parsed
        · cases tail : parseHeaders (splitCrlf head).tail with
          | error why =>
              rw [tail] at parsed
              cases parsed
          | ok others =>
              rw [tail] at parsed
              cases parsed
              exact ⟨isSplit, rfl⟩

theorem isLine_requestLine (head : String) :
    IsLine ((splitCrlf head).head?.getD "").toList := by
  cases lines : splitCrlf head with
  | nil => exact isLine_of_not_mem List.not_mem_nil
  | cons line rest =>
      apply isLine_of_mem_splitCrlf
      rw [lines]
      exact List.mem_cons_self

/-- Neither the protocol nor a value ends a line. -/
theorem Parsed.isLine
    {request : Request}
    (parsed : Parsed request) :
    IsLine request.protocol.toList ∧
      ∀ header ∈ request.headers,
        trim header.2 = header.2 ∧ IsLine header.2.toList := by
  rcases parsed with ⟨head, parsed⟩
  rcases parseHead_ok parsed with ⟨first, others⟩
  constructor
  · have last := splitn3_suffix first
    exact (isLine_requestLine head).part last.isInfix
  · intro header member
    rcases parseHeaders_values others header member with
      ⟨trimmed, line, isLater, within⟩
    refine ⟨trimmed, ?_⟩
    have isLine :=
      isLine_of_mem_splitCrlf (List.mem_of_mem_tail isLater)
    exact isLine.part within

/-! ## What the server answers -/

/-- A response of the server before it is finalized. -/
structure Made (request : Request) (response : Response) : Prop where
  protocol : response.protocol = request.protocol
  reason :
    response.reason ∈
      ["OK", "Bad Request", "Forbidden", "Not Implemented"]
  headers :
    response.headers = [] ∨
      ∃ contentType ∈
          [infoContentType, pairingContentType, parametersContentType],
        response.headers = [("Content-Type", contentType)]

section Made

variable
    (request : Request)

theorem made_ok : Made request (Response.ok request.protocol) where
  protocol := rfl
  reason := List.mem_cons_self
  headers := Or.inl rfl

theorem made_withBody
    {contentType : String}
    (known :
      contentType ∈
        [infoContentType, pairingContentType, parametersContentType])
    (body : Bytes) :
    Made request
      ((Response.ok request.protocol).withBody contentType body) where
  protocol := rfl
  reason := List.mem_cons_self
  headers := Or.inr ⟨contentType, known, rfl⟩

theorem made_new
    {reason : String}
    (known :
      reason ∈ ["OK", "Bad Request", "Forbidden", "Not Implemented"])
    (status : Nat) :
    Made request (Response.new request.protocol status reason) where
  protocol := rfl
  reason := known
  headers := Or.inl rfl

/-- The session operations. -/
theorem made_run
    (platform : Platform Db)
    (session : Session Db)
    (ports : Ports)
    (operation : Operation) :
    Made request
      (operation.run platform session ports request).2 := by
  cases operation with
  | handleSetup =>
      rw [Operation.run]
      split
      · exact made_withBody request (by simp) _
      · exact made_new request (by simp) 400
  | getParameter => exact made_withBody request (by simp) _
  | setParameter => exact made_ok request
  | setRateAnchor => exact made_ok request
  | flush => exact made_ok request
  | teardown => exact made_ok request
  | ack => exact made_ok request

/-- The stateless endpoints. -/
theorem made_dispatch (infoPlist : Bytes) :
    Made request (dispatch infoPlist request) := by
  unfold dispatch
  split
  · exact made_withBody request (by simp) _
  · split
    · exact made_withBody request (by simp) _
    · exact made_new request (by simp) 400
  · exact made_ok request
  · exact made_ok request
  · exact made_ok request
  · exact made_new request (by simp) 501

end Made

/-- Every request is answered by a response the server made for it. -/
theorem handle_made
    (context : Context Db)
    (connection : Connection Db)
    (input : Input) :
    ∃ response,
      Made input.request response ∧
        (connection.handle context input).answers =
          connection.answers ++
            [(input.request, finalize response input.request)] := by
  cases routed : route connection.conn.isEncrypted input.request with
  | pairSetup =>
      simp only [Connection.handle, routed, Connection.handlePairSetup]
      split
      all_goals
        exact ⟨_, made_withBody input.request (by simp) _, rfl⟩
  | pairPinStart =>
      simp only [Connection.handle, routed]
      exact ⟨_, made_ok input.request, rfl⟩
  | forbidden =>
      simp only [Connection.handle, routed]
      exact ⟨_, made_new input.request (by simp) 403, rfl⟩
  | dispatched =>
      simp only [Connection.handle, routed, Connection.handleDispatched]
      rw [← answers_claim connection input]
      split
      · next session response done =>
          rw [dispatchSession, Option.map_eq_some_iff] at done
          rcases done with ⟨operation, -, same⟩
          have made :=
            made_run input.request context.platform
              (connection.claim input).session input.ports operation
          rw [same] at made
          exact ⟨response, made, rfl⟩
      · exact ⟨_, made_dispatch input.request context.infoPlist, rfl⟩

/-- What is not the length in any case of letters. -/
theorem get_length_none
    {headers : Headers}
    (others :
      ∀ header ∈ headers,
        eqIgnoreAsciiCase header.1 "Content-Length" = false) :
    headers.get "Content-Length" = none := by
  rw [Headers.get, Option.map_eq_none_iff, List.find?_eq_none]
  intro header member
  rw [others header member]
  exact Bool.false_ne_true

/-- The headers that are added, with the name each has. -/
theorem mem_headers_finalize
    {request : Request}
    {response : Response}
    (made : Made request response) :
    ∀ header ∈ (finalize response request).headers,
      (header.1 = "Content-Type" ∧
          header.2 ∈
            [infoContentType, pairingContentType,
              parametersContentType]) ∨
        (header.1 = "CSeq" ∧
          ∃ sent ∈ request.headers, header.2 = sent.2) ∨
        header = ("Server", serverId) := by
  have first :
      ∀ header ∈ response.headers,
        header.1 = "Content-Type" ∧
          header.2 ∈
            [infoContentType, pairingContentType,
              parametersContentType] := by
    intro header member
    rcases made.headers with none | ⟨contentType, known, one⟩
    · rw [none] at member
      cases member
    · rw [one, List.mem_singleton] at member
      rw [member]
      exact ⟨rfl, known⟩
  intro header member
  unfold finalize at member
  split at member
  · next cseq found =>
      rw [Headers.get, Option.map_eq_some_iff] at found
      rcases found with ⟨sent, isSent, rfl⟩
      simp only [Response.header, List.mem_append,
        List.mem_singleton] at member
      rcases member with (added | rfl) | rfl
      · exact Or.inl (first header added)
      · refine Or.inr (Or.inl ⟨rfl, sent, ?_, rfl⟩)
        exact List.mem_of_find?_eq_some isSent
      · exact Or.inr (Or.inr rfl)
  · simp only [Response.header, List.mem_append,
      List.mem_singleton] at member
    rcases member with added | rfl
    · exact Or.inl (first header added)
    · exact Or.inr (Or.inr rfl)

theorem legible_contentType
    {contentType : String}
    (known :
      contentType ∈
        [infoContentType, pairingContentType, parametersContentType]) :
    Legible ("Content-Type", contentType) := by
  simp only [List.mem_cons, List.not_mem_nil, or_false] at known
  rcases known with rfl | rfl | rfl <;>
    exact
      legible_of_value (by decide) (by decide)
        (isLine_of_not_mem (by decide))

/-- A response to a request that was parsed is tidy. -/
theorem tidy_finalize
    {request : Request}
    {response : Response}
    (parsed : Parsed request)
    (made : Made request response) :
    (finalize response request).Tidy := by
  have protocol :
      (finalize response request).protocol = request.protocol := by
    rw [← made.protocol]
    unfold finalize
    split <;> rfl
  have reason :
      (finalize response request).reason = response.reason := by
    unfold finalize
    split <;> rfl
  refine
    { protocol := ?_
      reason := ?_
      headers := ?_
      noLength := ?_ }
  · rw [protocol]
    exact parsed.isLine.1
  · rw [reason]
    have known := made.reason
    revert known
    generalize response.reason = text
    simp only [List.mem_cons, List.not_mem_nil, or_false]
    rintro (rfl | rfl | rfl | rfl) <;> decide
  · rintro ⟨name, value⟩ member
    rcases mem_headers_finalize made _ member with
      ⟨named, known⟩ | ⟨named, sent, isSent, same⟩ | server
    · rw [show name = _ from named]
      exact legible_contentType known
    · rw [show name = _ from named, show value = _ from same]
      rcases parsed.isLine.2 sent isSent with ⟨trimmed, isLine⟩
      exact legible_of_value (by decide) trimmed isLine
    · rw [server]
      apply legible_of_value (by decide) (by decide)
      exact isLine_of_not_mem (by decide)
  · apply get_length_none
    intro header member
    rcases mem_headers_finalize made header member with
      ⟨named, -⟩ | ⟨named, -⟩ | server
    · rw [named]
      decide
    · rw [named]
      decide
    · rw [server]
      decide

/-! ## A peer that reads responses -/

/-- What a peer reads of a response. -/
structure Answer where
  lines : List String
  body : Bytes
deriving DecidableEq, Repr

def Response.answer (response : Response) : Answer where
  lines := response.lines
  body := response.body

/-- The length that the lines of a head declare. -/
def declaredLength (lines : List String) : Option Nat :=
  match parseHeaders lines.tail with
  | .ok headers => (headers.get "Content-Length").bind String.toNat?
  | .error _ => none

/-- The head is read up to the first blank line, the body by its length. -/
def nextAnswer (input : Bytes) : Option (Answer × Bytes) :=
  (input.dropInfix? blankLine).bind fun found =>
    (fromUtf8 found.1).bind fun text =>
      (declaredLength (splitCrlf text)).bind fun length =>
        if length ≤ found.2.length then
          some
            (⟨splitCrlf text, found.2.take length⟩,
              found.2.drop length)
        else
          none

theorem nextAnswer_iff {input left : Bytes} {answer : Answer} :
    nextAnswer input = some (answer, left) ↔
      ∃ head rest text length,
        input.dropInfix? blankLine = some (head, rest) ∧
          fromUtf8 head = some text ∧
          declaredLength (splitCrlf text) = some length ∧
          length ≤ rest.length ∧
          answer = ⟨splitCrlf text, rest.take length⟩ ∧
          left = rest.drop length := by
  simp only [nextAnswer, Option.bind_eq_some_iff,
    Option.ite_none_right_eq_some, Option.some.injEq, Prod.mk.injEq,
    Prod.exists]
  constructor
  · rintro ⟨head, rest, found, text, decoded, length, declared, fits,
      rfl, rfl⟩
    exact
      ⟨head, rest, text, length, found, decoded, declared, fits, rfl,
        rfl⟩
  · rintro ⟨head, rest, text, length, found, decoded, declared, fits,
      rfl, rfl⟩
    exact
      ⟨head, rest, found, text, decoded, length, declared, fits, rfl,
        rfl⟩

/-- A peer reads one answer after the other off its channel. -/
def peer : Framer UInt8 Answer where
  next := nextAnswer
  shorter := by
    intro input answer left read
    rcases nextAnswer_iff.mp read with
      ⟨head, rest, text, length, found, -, -, -, -, rfl⟩
    rw [(dropInfix?_iff.mp found).1, List.length_append,
      List.length_append, List.length_drop]
    have mark : blankLine.length = 4 := rfl
    omega
  stable := by
    intro input answer left read more
    rcases nextAnswer_iff.mp read with
      ⟨head, rest, text, length, found, decoded, declared, fits, rfl,
        rfl⟩
    rw [nextAnswer_iff]
    refine
      ⟨head, rest ++ more, text, length, dropInfix?_append found more,
        decoded, declared, ?_, ?_, ?_⟩
    · rw [List.length_append]
      omega
    · rw [List.take_append_of_le_length fits]
    · rw [List.drop_append_of_le_length fits]

section Reader

variable
    {response : Response}

/-- The length that is found is the one that was written. -/
theorem Response.Tidy.declaredLength (tidy : response.Tidy) :
    declaredLength response.lines = some response.body.length := by
  have texts :
      response.lines.tail =
        (response.allHeaders.map Control.headerLine).map
          String.ofList := by
    simp [Response.lines, List.map_map, ← toList_headerText]
  have headers :
      parseHeaders response.lines.tail = .ok response.allHeaders := by
    rw [texts]
    apply parseHeaders_map
    intro header member
    have legible := tidy.allHeaders header member
    exact ⟨legible.name, legible.outside, legible.value⟩
  have length :
      response.allHeaders.get "Content-Length" =
        some (toString response.body.length) := by
    have none := tidy.noLength
    rw [Headers.get, Option.map_eq_none_iff] at none
    have named :
        eqIgnoreAsciiCase "Content-Length" "Content-Length" = true := by
      decide
    rw [Headers.get, Response.allHeaders, List.find?_append, none,
      Option.none_or, List.find?_cons_of_pos (by exact named)]
    rfl
  rw [Control.declaredLength, headers]
  simp only [length, Option.bind_some]
  exact Nat.toNat?_repr response.body.length

/-- A response is read back, and nothing behind it. -/
theorem Response.Tidy.next (tidy : response.Tidy) (rest : Bytes) :
    peer.next (response.toBytes ++ rest) =
      some (response.answer, rest) := by
  show nextAnswer _ = _
  rw [nextAnswer_iff]
  have decoded := fromUtf8_utf8_ofList response.head
  refine
    ⟨_, _, _, response.body.length, tidy.cut rest, decoded, ?_, ?_, ?_,
      ?_⟩
  · rw [tidy.splitCrlf_head]
    exact tidy.declaredLength
  · rw [List.length_append]
    omega
  · rw [tidy.splitCrlf_head, List.take_left]
    rfl
  · rw [List.drop_left]

end Reader

/-! ## All responses of a connection -/

/--
Cut at the first blank line, the bytes are a head and the body; the lines of
the head are the status, the headers added, and one length.
-/
def Unsplit (response : Response) : Prop :=
  ∃ head text,
    response.toBytes.dropInfix? blankLine = some (head, response.body) ∧
      fromUtf8 head = some text ∧
      splitCrlf text =
        response.statusLine ::
          response.headers.map headerText ++
            ["Content-Length: " ++ toString response.body.length] ∧
      response.headers.get "Content-Length" = none

theorem Response.Tidy.unsplit
    {response : Response} (tidy : response.Tidy) :
    Unsplit response := by
  have cut := tidy.cut []
  rw [List.append_nil, List.append_nil] at cut
  have decoded := fromUtf8_utf8_ofList response.head
  refine ⟨_, _, cut, decoded, ?_, tidy.noLength⟩
  rw [tidy.splitCrlf_head, Response.lines, Response.allHeaders,
    List.map_append, List.cons_append]
  rfl

/-- One response to each request, none of which can be split. -/
theorem handled_responses
    (context : Context Db)
    {connection final : Connection Db}
    {inputs : List Input}
    (parsed : ∀ input ∈ inputs, Parsed input.request)
    (reached :
      (requestLoop context).exec connection inputs = some final) :
    ∃ responses : List Response,
      responses.length = inputs.length ∧
        final.answers =
          connection.answers ++
            (inputs.map Input.request).zip responses ∧
        ∀ response ∈ responses, response.Tidy := by
  induction inputs generalizing connection with
  | nil =>
      rw [System.exec_nil, Option.some.injEq] at reached
      refine ⟨[], rfl, ?_, fun _ member => by cases member⟩
      rw [← reached]
      exact (List.append_nil _).symm
  | cons input rest induction =>
      rw [List.forall_mem_cons] at parsed
      rw [System.exec_cons_iff] at reached
      rcases reached with ⟨next, stepped, reachedRest⟩
      cases stepped
      rcases handle_made context connection input with
        ⟨response, made, answered⟩
      rcases induction parsed.2 reachedRest with
        ⟨responses, length, later, tidy⟩
      refine
        ⟨finalize response input.request :: responses, ?_, ?_, ?_⟩
      · rw [List.length_cons, length, List.length_cons]
      · rw [later, answered, List.append_assoc]
        rfl
      · rw [List.forall_mem_cons]
        exact ⟨tidy_finalize parsed.1 made, tidy⟩

/--
In every run, each request that was parsed is answered by a response that
cannot be split, and whoever reads the stream of the responses, in whatever
pieces it arrives, finds them.
-/
theorem responses_reframed
    (context : Context Db)
    {connection final : Connection Db}
    {inputs : List Input}
    (parsed : ∀ input ∈ inputs, Parsed input.request)
    (reached :
      (requestLoop context).exec connection inputs = some final) :
    ∃ responses : List Response,
      responses.length = inputs.length ∧
        final.answers =
          connection.answers ++
            (inputs.map Input.request).zip responses ∧
        (∀ response ∈ responses, Unsplit response) ∧
        ∀ pieces : List Bytes,
          pieces.flatten = responses.flatMap Response.toBytes →
            pieces.foldl peer.feed ([], []) =
              (responses.map Response.answer, []) := by
  rcases handled_responses context parsed reached with
    ⟨responses, length, answered, tidy⟩
  refine ⟨responses, length, answered, ?_, ?_⟩
  · intro response member
    exact (tidy response member).unsplit
  · intro pieces stream
    have nothing : peer.split [] = ([], []) :=
      peer.split_none rfl
    have read :=
      peer.split_written Response.toBytes Response.answer responses []
        fun response member => (tidy response member).next
    rw [← nothing, peer.foldl_feed, List.nil_append, stream,
      ← List.append_nil (responses.flatMap Response.toBytes), read,
      nothing, List.append_nil]

/-- A request whose protocol and `CSeq` come as near as a head lets them. -/
def nearInput : Input where
  request :=
    { method := "GET"
      target := "/info"
      protocol := "RTSP/1.0\r"
      headers := [("CSeq", "7\n\rServer: x")]
      body := [] }
  draws := Pairing.zeroDraws
  ports := ⟨none, none⟩
  guard := none

/-- Two of them in a row. -/
theorem responses_reframed_near :
    ∃ responses : List Response,
      responses.length = 2 ∧
        (((Connection.new bareContext).handle bareContext
              nearInput).handle bareContext nearInput).answers =
          (Connection.new bareContext).answers ++
            ([nearInput, nearInput].map Input.request).zip responses ∧
        (∀ response ∈ responses, Unsplit response) ∧
        ∀ pieces : List Bytes,
          pieces.flatten = responses.flatMap Response.toBytes →
            pieces.foldl peer.feed ([], []) =
              (responses.map Response.answer, []) := by
  have isParsed : Parsed nearInput.request := by
    refine ⟨"GET /info RTSP/1.0\r\r\nCSeq: 7\n\rServer: x\r", ?_⟩
    decide +kernel
  have parsed :
      ∀ input ∈ [nearInput, nearInput], Parsed input.request := by
    intro input member
    simp only [List.mem_cons, List.not_mem_nil, or_false,
      or_self] at member
    rw [member]
    exact isParsed
  have reached :
      (requestLoop bareContext).exec (Connection.new bareContext)
          [nearInput, nearInput] =
        some
          (((Connection.new bareContext).handle bareContext
            nearInput).handle bareContext nearInput) :=
    rfl
  exact responses_reframed bareContext parsed reached

end OpenAirplay2.Control

import OpenAirplay2.Control.Serving

/-!
# Requests are framed exactly

A request is written as its head, a blank line and its body.  Read back from
a connection that serves these bytes, the head ends at the first blank line,
which is its own, and the body at its length; so the request is found again
and what follows it has not been touched.  That holds in the clear as well as
on an encrypted channel, and from one to the other.
-/

namespace OpenAirplay2.Control

open OpenAirplay2.Control.Incoming (blankLine maxBody maxHead)
open OpenAirplay2.Lib.Str
open OpenAirplay2.Pairing (Bytes)

/-! ## Requests on the wire -/

namespace Request

def requestLine (request : Request) : List Char :=
  request.method.toList ++ ' ' ::
    (request.target.toList ++ ' ' :: request.protocol.toList)

end Request

def headerLine (header : String × String) : List Char :=
  header.1.toList ++ ':' :: ' ' :: header.2.toList

namespace Request

/-- The head, without its blank line. -/
def head (request : Request) : List Char :=
  joinCrlf request.requestLine (request.headers.map headerLine)

def toBytes (request : Request) : Bytes :=
  utf8 (request.head ++ (crlf ++ crlf)) ++ request.body

/-- A request that can be told from its bytes, with a bound on its head. -/
structure WellFormed (headLimit : Nat) (request : Request) : Prop where
  method : request.method ≠ "" ∧ ' ' ∉ request.method.toList
  target : request.target ≠ "" ∧ ' ' ∉ request.target.toList
  protocol :
    startsWith request.protocol "HTTP/" = true ∨
      startsWith request.protocol "RTSP/" = true
  isLine : IsLine request.requestLine
  headers :
    ∀ header ∈ request.headers,
      trim header.1 = header.1 ∧ ':' ∉ header.1.toList ∧
        trim header.2 = header.2 ∧ IsLine (Control.headerLine header)
  headLength : (utf8 request.head).length ≤ headLimit
  bodyLength : request.body.length ≤ maxBody
  contentLength :
    match request.headers.get "Content-Length" with
    | some value => parseUsize value = some request.body.length
    | none => request.body = []

end Request

/-! ## The head -/

theorem parseHeaders_map
    {headers : Headers}
    (wellFormed :
      ∀ header ∈ headers,
        trim header.1 = header.1 ∧ ':' ∉ header.1.toList ∧
          trim header.2 = header.2) :
    parseHeaders
        ((headers.map headerLine).map String.ofList) =
      .ok headers := by
  induction headers with
  | nil => rfl
  | cons header rest induction =>
      rw [List.forall_mem_cons] at wellFormed
      rcases wellFormed with ⟨⟨name, outside, value⟩, others⟩
      have some : String.ofList (headerLine header) ≠ "" := by
        intro none
        have chars := congrArg String.toList none
        rw [String.toList_ofList] at chars
        exact
          absurd (List.append_eq_nil_iff.mp chars).2
            (List.cons_ne_nil _ _)
      have split :
          splitOnce (String.ofList (headerLine header)) ':' =
            Option.some
              (String.ofList header.1.toList,
                String.ofList (' ' :: header.2.toList)) := by
        apply splitOnce_of_toList _ outside
        rw [String.toList_ofList]
        rfl
      rw [List.map_cons, List.map_cons, parseHeaders, if_neg some, split]
      simp only [induction others, Except.map, String.ofList_toList, name,
        trim_space value]

theorem splitn3_requestLine
    {request : Request}
    (method : ' ' ∉ request.method.toList)
    (target : ' ' ∉ request.target.toList) :
    splitn3 (String.ofList request.requestLine) =
      some (request.method, request.target, request.protocol) := by
  have first :
      splitOnce (String.ofList request.requestLine) ' ' =
        some
          (String.ofList request.method.toList,
            String.ofList
              (request.target.toList ++ ' ' ::
                request.protocol.toList)) :=
    splitOnce_of_toList String.toList_ofList method
  have second :
      splitOnce
          (String.ofList
            (request.target.toList ++ ' ' :: request.protocol.toList))
          ' ' =
        some
          (String.ofList request.target.toList,
            String.ofList request.protocol.toList) :=
    splitOnce_of_toList String.toList_ofList target
  rw [splitn3, first, Option.bind_some]
  simp only [second, Option.map_some, String.ofList_toList]

section WellFormed

variable
    {headLimit : Nat}
    {request : Request}

/-- None of the lines of a head is blank. -/
theorem Request.WellFormed.lines
    (wellFormed : request.WellFormed headLimit) :
    ∀ line ∈ request.requestLine :: request.headers.map headerLine,
      IsLine line ∧ line ≠ [] := by
  rw [List.forall_mem_cons]
  constructor
  · refine ⟨wellFormed.isLine, ?_⟩
    intro none
    exact
      absurd (List.append_eq_nil_iff.mp none).2 (List.cons_ne_nil _ _)
  · intro line member
    rcases List.mem_map.mp member with ⟨header, isHeader, rfl⟩
    refine ⟨(wellFormed.headers header isHeader).2.2.2, ?_⟩
    intro none
    exact
      absurd (List.append_eq_nil_iff.mp none).2 (List.cons_ne_nil _ _)

/-- A head is parsed back. -/
theorem parseHead_head (wellFormed : request.WellFormed headLimit) :
    parseHead (String.ofList request.head) =
      .ok
        (request.method, request.target, request.protocol,
          request.headers) := by
  have lines :
      splitCrlf (String.ofList request.head) =
        String.ofList request.requestLine ::
          (request.headers.map headerLine).map String.ofList := by
    rw [splitCrlf, String.toList_ofList, Request.head,
      crlfParts_joinCrlf wellFormed.isLine, List.map_cons]
    intro line member
    exact
      (wellFormed.lines line (List.mem_cons_of_mem _ member)).1
  have headers :
      parseHeaders
          ((request.headers.map headerLine).map String.ofList) =
        .ok request.headers := by
    apply parseHeaders_map
    intro header member
    rcases wellFormed.headers header member with
      ⟨name, outside, value, -⟩
    exact ⟨name, outside, value⟩
  have isProtocol :
      (!startsWith request.protocol "HTTP/" &&
        !startsWith request.protocol "RTSP/") = false := by
    rcases wellFormed.protocol with isHttp | isRtsp
    · rw [isHttp]
      rfl
    · rw [isRtsp, Bool.not_true, Bool.and_false]
  rw [parseHead, lines, List.head?_cons, Option.getD_some,
    splitn3_requestLine wellFormed.method.2 wellFormed.target.2]
  simp only [wellFormed.method.1, isProtocol, if_false, List.tail_cons,
    headers, Except.map, Bool.false_eq_true]

theorem contentLength_headers
    (wellFormed : request.WellFormed headLimit) :
    contentLength request.headers = .ok request.body.length := by
  have length := wellFormed.contentLength
  unfold contentLength
  split
  · next none =>
      rw [none] at length
      rw [show request.body = [] from length]
      rfl
  · next value some =>
      rw [some] at length
      rw [show parseUsize value = _ from length]

end WellFormed

/-! ## Reading a head -/

section Reading

variable
    {crypto : Crypto}
    {carries : Bytes → Incoming → Prop}

/--
The head ends where a blank line ends for the first time, if that is not too
late.
-/
theorem readHead_carried
    (serves : Serves crypto carries)
    {rounds : Nat} {read front rest : Bytes} {incoming : Incoming}
    (enough : front.length ≤ rounds)
    (blank : blankLine <:+ read ++ front)
    (some : front ≠ [])
    (first :
      ∀ before, before <+: front → before ≠ [] → before ≠ front →
        ¬ blankLine <:+ read ++ before ∧
          (read ++ before).length ≤ maxHead)
    (carried : carries (front ++ rest) incoming) :
    ∃ next,
      incoming.readHead crypto rounds read =
          .ok (Option.some (read ++ front), next) ∧
        carries rest next := by
  induction front generalizing rounds read incoming with
  | nil => exact absurd rfl some
  | cons byte front induction =>
      cases rounds with
      | zero => cases enough
      | succ rounds =>
          rcases serves.byte carried with ⟨next, isByte, isCarried⟩
          rw [Incoming.readHead, isByte]
          simp only [List.isSuffixOf_iff_suffix]
          by_cases last : front = []
          · rw [last] at blank isCarried ⊢
            rw [if_pos blank]
            exact ⟨next, rfl, isCarried⟩
          · rcases first [byte] (List.prefix_append [byte] front)
                (List.cons_ne_nil _ _)
                (fun same => last (List.cons.inj same).2.symm) with
              ⟨notBlank, short⟩
            rw [if_neg notBlank, if_neg (Nat.not_lt.mpr short)]
            have appended :
                ∀ later : Bytes,
                  read ++ [byte] ++ later = read ++ byte :: later :=
              fun later => List.append_assoc read [byte] later
            rw [← appended front] at blank ⊢
            apply induction (Nat.le_of_succ_le_succ enough) blank last _
              isCarried
            intro before isPrefix notNil notFront
            rw [appended]
            apply first (byte :: before)
            · exact List.cons_prefix_cons.mpr ⟨rfl, isPrefix⟩
            · exact List.cons_ne_nil _ _
            · exact fun same => notFront (List.cons.inj same).2

/-- A head that does not end in time is refused. -/
theorem readHead_tooLarge
    (serves : Serves crypto carries)
    {rounds : Nat} {read front rest : Bytes} {incoming : Incoming}
    (enough : read.length + rounds = maxHead + 1)
    (long : rounds ≤ front.length)
    (first :
      ∀ before, before <+: front → before.length ≤ rounds →
        ¬ blankLine <:+ read ++ before)
    (carried : carries (front ++ rest) incoming) :
    incoming.readHead crypto rounds read = .error .headTooLarge := by
  induction rounds generalizing read front incoming with
  | zero => rfl
  | succ rounds induction =>
      cases front with
      | nil => cases long
      | cons byte front =>
          rcases serves.byte carried with ⟨next, isByte, isCarried⟩
          have notBlank :=
            first [byte] (List.prefix_append [byte] front)
              (Nat.succ_le_succ (Nat.zero_le _))
          rw [Incoming.readHead, isByte]
          simp only [List.isSuffixOf_iff_suffix]
          rw [if_neg notBlank]
          split
          · rfl
          · refine
              induction ?_ (Nat.le_of_succ_le_succ long) ?_ isCarried
            · rw [List.length_append, List.length_singleton]
              omega
            · intro before isPrefix short
              rw [List.append_assoc]
              apply first (byte :: before)
              · exact List.cons_prefix_cons.mpr ⟨rfl, isPrefix⟩
              · exact Nat.succ_le_succ short

variable
    {headLimit : Nat}
    {request : Request}

/-- A blank line is not found before the end of a head. -/
theorem blankLine_head
    (wellFormed : request.WellFormed headLimit)
    {before : Bytes}
    (isPrefix : before <+: utf8 (request.head ++ (crlf ++ crlf)))
    (blank : blankLine <:+ before) :
    before = utf8 (request.head ++ (crlf ++ crlf)) := by
  rcases blank with ⟨start, rfl⟩
  have isHead : start = utf8 request.head :=
    blank_bytes_end wellFormed.lines isPrefix
  rw [isHead, utf8_append]
  rfl

/-- A request is read back, and nothing after it. -/
theorem readRequest_carried
    (serves : Serves crypto carries)
    (wellFormed : request.WellFormed (maxHead - 3))
    {rest : Bytes} {incoming : Incoming}
    (carried : carries (request.toBytes ++ rest) incoming) :
    ∃ next,
      incoming.readRequest crypto = .ok (some request, next) ∧
        carries rest next := by
  have bytes :
      request.toBytes ++ rest =
        utf8 (request.head ++ (crlf ++ crlf)) ++
          (request.body ++ rest) :=
    List.append_assoc _ _ _
  have length :
      (utf8 (request.head ++ (crlf ++ crlf))).length =
        (utf8 request.head).length + 4 := by
    rw [utf8_append, List.length_append]
    rfl
  have short := wellFormed.headLength
  have limit : maxHead = 16384 := rfl
  rw [bytes] at carried
  have head :
      ∃ next,
        incoming.readHead crypto (maxHead + 1) [] =
            .ok
              (some ([] ++ utf8 (request.head ++ (crlf ++ crlf))),
                next) ∧
          carries (request.body ++ rest) next := by
    apply readHead_carried serves _ _ _ _ carried
    · omega
    · rw [List.nil_append, utf8_append]
      exact List.suffix_append _ _
    · intro none
      rw [none, List.length_nil] at length
      omega
    · intro before isPrefix _ notAll
      constructor
      · exact fun blank => notAll (blankLine_head wellFormed isPrefix blank)
      · have shorter : before.length ≠ _ :=
          fun same => notAll (isPrefix.eq_of_length same)
        have most := isPrefix.length_le
        rw [List.nil_append]
        omega
  rcases head with ⟨next, isHead, isCarried⟩
  rw [List.nil_append] at isHead
  have text :
      fromUtf8
          ((utf8 (request.head ++ (crlf ++ crlf))).take
            ((utf8 (request.head ++ (crlf ++ crlf))).length - 4)) =
        some (String.ofList request.head) := by
    rw [length, Nat.add_sub_cancel, utf8_append, List.take_left]
    exact fromUtf8_utf8_ofList request.head
  rcases serves.exact isCarried with ⟨final, isBody, finalCarried⟩
  refine ⟨final, ?_, finalCarried⟩
  rw [Incoming.readRequest, isHead]
  simp only [text, parseHead_head wellFormed,
    contentLength_headers wellFormed]
  rw [if_neg (Nat.not_lt.mpr wellFormed.bodyLength), isBody]
  rfl

/-- At the end of the stream there is no request. -/
theorem readRequest_ended
    (serves : Serves crypto carries)
    {incoming : Incoming} (carried : carries [] incoming) :
    ∃ next,
      incoming.readRequest crypto = .ok (none, next) ∧
        carries [] next := by
  rcases serves.ended carried with ⟨next, isEnd, isCarried⟩
  refine ⟨next, ?_, isCarried⟩
  rw [Incoming.readRequest, Incoming.readHead, isEnd]
  rfl

end Reading

/-! ## Runs -/

/-- So many calls of `read_request`, one after the other. -/
def readRequests (crypto : Crypto) :
    Nat → Incoming → Except IoError (List (Option Request) × Incoming)
  | 0, incoming => .ok ([], incoming)
  | calls + 1, incoming =>
      match incoming.readRequest crypto with
      | .error error => .error error
      | .ok (result, next) =>
          (readRequests crypto calls next).map fun (later, final) =>
            (result :: later, final)

section Runs

variable
    {crypto : Crypto}
    {carries : Bytes → Incoming → Prop}
    {requests : List Request}

/-- Each call returns the next request, and the calls after go on from there. -/
theorem readRequests_carried
    (serves : Serves crypto carries)
    (wellFormed :
      ∀ request ∈ requests, request.WellFormed (maxHead - 3))
    {rest : Bytes} {incoming : Incoming}
    (carried : carries (requests.flatMap Request.toBytes ++ rest) incoming) :
    ∃ next,
      carries rest next ∧
        ∀ calls,
          readRequests crypto (requests.length + calls) incoming =
            (readRequests crypto calls next).map fun (later, final) =>
              (requests.map some ++ later, final) := by
  induction requests generalizing incoming with
  | nil =>
      refine ⟨incoming, carried, ?_⟩
      intro calls
      rw [List.length_nil, Nat.zero_add]
      cases readRequests crypto calls incoming <;> rfl
  | cons request others induction =>
      rw [List.forall_mem_cons] at wellFormed
      rw [List.flatMap_cons, List.append_assoc] at carried
      rcases readRequest_carried serves wellFormed.1 carried with
        ⟨middle, isRequest, isCarried⟩
      rcases induction wellFormed.2 isCarried with ⟨next, isNext, run⟩
      refine ⟨next, isNext, ?_⟩
      intro calls
      rw [List.length_cons, Nat.add_right_comm, readRequests, isRequest]
      simp only [run]
      cases readRequests crypto calls next <;> rfl

/-- The requests are returned, and the bytes after them are ahead. -/
theorem readRequests_some
    (serves : Serves crypto carries)
    (wellFormed :
      ∀ request ∈ requests, request.WellFormed (maxHead - 3))
    {rest : Bytes} {incoming : Incoming}
    (carried : carries (requests.flatMap Request.toBytes ++ rest) incoming) :
    ∃ next,
      readRequests crypto requests.length incoming =
          .ok (requests.map some, next) ∧
        carries rest next := by
  rcases readRequests_carried serves wellFormed carried with
    ⟨next, isCarried, run⟩
  have all := run 0
  rw [Nat.add_zero] at all
  refine ⟨next, ?_, isCarried⟩
  simp only [all, readRequests, Except.map, List.append_nil]

/-- The requests are returned, and then the end of the stream. -/
theorem readRequests_none
    (serves : Serves crypto carries)
    (wellFormed :
      ∀ request ∈ requests, request.WellFormed (maxHead - 3))
    {incoming : Incoming}
    (carried : carries (requests.flatMap Request.toBytes) incoming) :
    ∃ final,
      readRequests crypto (requests.length + 1) incoming =
        .ok (requests.map some ++ [none], final) := by
  rw [← List.append_nil (requests.flatMap Request.toBytes)] at carried
  rcases readRequests_carried serves wellFormed carried with
    ⟨next, isCarried, run⟩
  rcases readRequest_ended serves isCarried with ⟨final, isEnd, -⟩
  refine ⟨final, ?_⟩
  rw [run 1, readRequests, isEnd]
  rfl

end Runs

/--
Requests written one after the other are read back in order, and then the end
of the stream is found, however the transport cuts them up; in the clear
nothing after them is read; and on an encrypted channel the same requests are
read from any blocks of their bytes.
-/
theorem requests_framed
    (crypto : Crypto) (faithful : Faithful crypto)
    (requests : List Request)
    (wellFormed :
      ∀ request ∈ requests, request.WellFormed (maxHead - 3)) :
    (∀ reader : Reader,
      reader.bytes = requests.flatMap Request.toBytes →
        ∃ final,
          readRequests crypto (requests.length + 1)
              ⟨ControlConnection.new, reader⟩ =
            .ok (requests.map some ++ [none], final)) ∧
      (∀ (reader : Reader) (following : Bytes),
        reader.bytes = requests.flatMap Request.toBytes ++ following →
          ∃ rest : Reader,
            rest.bytes = following ∧
              readRequests crypto requests.length
                  ⟨ControlConnection.new, reader⟩ =
                .ok (requests.map some, ⟨ControlConnection.new, rest⟩)) ∧
        ∀ (key : Key) (enc : Encryptor) (blocks : List Bytes)
          (reader : Reader),
          (∀ block ∈ blocks, block.length ≤ 65535) →
            blocks.flatten = requests.flatMap Request.toBytes →
              reader.bytes = sealBlocks crypto key 0 blocks →
                ∃ final,
                  readRequests crypto (requests.length + 1)
                      ⟨ControlConnection.new.enableEncryption
                          (enc, ⟨key, 0⟩), reader⟩ =
                    .ok (requests.map some ++ [none], final) := by
  have clear : Serves crypto (Clear ControlConnection.new) :=
    serves_clear rfl rfl
  refine ⟨?_, ?_, ?_⟩
  · intro reader isBytes
    exact readRequests_none clear wellFormed ⟨rfl, isBytes⟩
  · intro reader following isBytes
    have start :
        Clear ControlConnection.new
          (requests.flatMap Request.toBytes ++ following)
          ⟨ControlConnection.new, reader⟩ :=
      ⟨rfl, isBytes⟩
    rcases readRequests_some clear wellFormed start with
      ⟨⟨conn, rest⟩, run, rfl, isRest⟩
    exact ⟨rest, isRest, run⟩
  · intro key enc blocks reader fits isPlain isBytes
    have hidden : Serves crypto (Hidden crypto key blocks) :=
      serves_hidden
        (faithful.allOpenable key 0 fun block member =>
          Nat.lt_succ_of_le (fits block member))
    apply readRequests_none hidden wellFormed
    exact
      ⟨[], 0, (receiving_start crypto key enc blocks _ isBytes).1,
        isPlain.symm⟩

/-! ## Two requests in blocks, and one that is too long -/

def infoRequest : Request where
  method := "GET"
  target := "/info"
  protocol := "HTTP/1.1"
  headers := [("CSeq", "0")]
  body := []

theorem wellFormed_infoRequest :
    infoRequest.WellFormed (maxHead - 3) where
  method := by decide
  target := by decide
  protocol := Or.inl (by decide)
  isLine := isLine_of_not_mem (by decide)
  headers := by
    intro header isHeader
    rw [List.mem_singleton.mp isHeader]
    refine ⟨by decide, by decide, by decide, ?_⟩
    exact isLine_of_not_mem (by decide)
  headLength := by decide +kernel
  bodyLength := Nat.zero_le _
  contentLength := rfl

/-- A request with a body, in which there is an end of line. -/
def commandRequest : Request where
  method := "POST"
  target := "/command"
  protocol := "RTSP/1.0"
  headers := [("CSeq", "1"), ("Content-Length", "5")]
  body := [0, 1, 13, 10, 255]

theorem wellFormed_commandRequest :
    commandRequest.WellFormed (maxHead - 3) where
  method := by decide
  target := by decide
  protocol := Or.inr (by decide)
  isLine := isLine_of_not_mem (by decide)
  headers := by
    intro header isHeader
    have either :
        header = ("CSeq", "1") ∨ header = ("Content-Length", "5") := by
      simpa [commandRequest] using isHeader
    rcases either with rfl | rfl <;>
      exact
        ⟨by decide, by decide, by decide, isLine_of_not_mem (by decide)⟩
  headLength := by decide +kernel
  bodyLength := by decide
  contentLength := by
    show parseUsize "5" = some 5
    decide

/-- What the AEAD makes of the second request. -/
def commandSealed : Bytes :=
  [200, 143, 196, 189, 220, 191, 239, 125, 56, 127, 178, 246, 74, 98, 35,
   171, 110, 195, 206, 73, 141, 240, 245, 82, 53, 232, 196, 249, 198, 247,
   250, 20, 11, 208, 156, 195, 240, 118, 176, 223, 25, 182, 194, 80, 213,
   20, 129, 57, 228, 42, 142, 54, 168, 225, 201, 237, 109, 235, 37, 44, 129,
   78, 178, 43, 142, 43, 57, 87, 51, 247, 240, 250, 47, 239, 187]

/-- The AEAD is told what to do with the second request as well. -/
def pairCrypto : Crypto where
  encrypt key nonce aad plaintext :=
    if
        key = sampleWriteKey ∧ nonce = nonceFor 1 ∧ aad = [59, 0] ∧
          plaintext = commandRequest.toBytes then
      commandSealed
    else
      sampleCrypto.encrypt key nonce aad plaintext
  decrypt key nonce aad ciphertext :=
    if
        key = sampleWriteKey ∧ nonce = nonceFor 1 ∧ aad = [59, 0] ∧
          ciphertext = commandSealed then
      some commandRequest.toBytes
    else
      sampleCrypto.decrypt key nonce aad ciphertext
  hkdf := sampleCrypto.hkdf

theorem faithful_pairCrypto : Faithful pairCrypto where
  decrypt := by
    intro key nonce aad plaintext
    simp only [pairCrypto]
    split
    · next known =>
        rw [if_pos ⟨known.1, known.2.1, known.2.2.1, rfl⟩, known.2.2.2]
    · rw [if_neg, faithful_sampleCrypto.decrypt]
      rintro ⟨-, rfl, -, same⟩
      have other : nonceFor 1 ≠ nonceFor 0 := by decide
      have zero :
          (List.replicate tagLen (0 : UInt8)).getLast? = some 0 := rfl
      simp only [sampleCrypto, other, false_and, and_false, if_false]
        at same
      have last := congrArg List.getLast? same
      rw [List.getLast?_append, zero, Option.some_or] at last
      exact absurd last (by decide)
  length := by
    intro key nonce aad plaintext
    simp only [pairCrypto]
    split
    · next known =>
        rw [known.2.2.2]
        decide +kernel
    · exact faithful_sampleCrypto.length key nonce aad plaintext

/-- Both requests in the clear and the start of a block, in two pieces. -/
def clearReader : Reader where
  pieces :=
    [samplePlain ++ commandRequest.toBytes.take 20,
      commandRequest.toBytes.drop 20 ++ sampleStream.take 7]
  nonempty := by decide +kernel

/-- A block for each request, in pieces that end inside the blocks. -/
def blockReader : Reader where
  pieces :=
    [sampleStream.take 20,
      sampleStream.drop 20 ++ [59, 0] ++ commandSealed.take 10,
      commandSealed.drop 10]
  nonempty := by decide +kernel

theorem requests_framed_sample :
    (∃ rest : Reader,
      rest.bytes = sampleStream.take 7 ∧
        readRequests pairCrypto 2 ⟨ControlConnection.new, clearReader⟩ =
          .ok
            ([some infoRequest, some commandRequest],
              ⟨ControlConnection.new, rest⟩)) ∧
      ∃ final,
        readRequests pairCrypto 3
            ⟨ControlConnection.new.enableEncryption
                (controlChannel pairCrypto zeroSecret),
              blockReader⟩ =
          .ok ([some infoRequest, some commandRequest, none], final) := by
  have all :=
    requests_framed pairCrypto faithful_pairCrypto
      [infoRequest, commandRequest]
      (by
        simpa using
          And.intro wellFormed_infoRequest wellFormed_commandRequest)
  constructor
  · exact all.2.1 clearReader (sampleStream.take 7) (by decide +kernel)
  · exact
      all.2.2 sampleWriteKey _ [samplePlain, commandRequest.toBytes]
        blockReader (by decide +kernel) (by decide +kernel)
        (by decide +kernel)

/-- A request whose head has 16 KiB before its blank line. -/
def longRequest : Request where
  method := "GET"
  target := String.ofList (List.replicate 16371 'a')
  protocol := "HTTP/1.1"
  headers := []
  body := []

theorem requestLine_longRequest :
    longRequest.requestLine =
      "GET ".toList ++
        (List.replicate 16371 'a' ++ " HTTP/1.1".toList) := by
  have target : longRequest.target.toList = List.replicate 16371 'a' :=
    String.toList_ofList
  rw [Request.requestLine, target]
  rfl

theorem mem_longRequest
    {char : Char} (member : char ∈ longRequest.requestLine) :
    char ∈ "GET a HTTP/1.1".toList := by
  rw [requestLine_longRequest, List.mem_append, List.mem_append]
    at member
  show char ∈ "GET ".toList ++ (['a'] ++ " HTTP/1.1".toList)
  rw [List.mem_append, List.mem_append]
  exact
    member.imp_right fun rest =>
      rest.imp_left fun isTarget =>
        List.mem_singleton.mpr (List.mem_replicate.mp isTarget).2

theorem head_longRequest :
    longRequest.head = longRequest.requestLine :=
  List.append_nil _

theorem length_head_longRequest :
    (utf8 longRequest.head).length = maxHead := by
  rw [head_longRequest, length_utf8_ascii]
  · rw [requestLine_longRequest, List.length_append, List.length_append,
      List.length_replicate]
    rfl
  · intro char member
    have ascii :
        ∀ char ∈ "GET a HTTP/1.1".toList, isAscii char = true := by
      simp [isAscii]
    exact ascii char (mem_longRequest member)

theorem wellFormed_longRequest : longRequest.WellFormed maxHead where
  method := by decide
  target := by
    rw [longRequest, String.toList_ofList, List.mem_replicate]
    constructor
    · intro none
      have lengths := congrArg (List.length ∘ String.toList) none
      rw [Function.comp_apply, String.toList_ofList,
        List.length_replicate] at lengths
      cases lengths
    · exact fun member => absurd member.2 (by decide)
  protocol := Or.inl (by decide)
  isLine := by
    apply isLine_of_not_mem
    intro member
    exact absurd (mem_longRequest member) (by decide)
  headers := fun _ member => nomatch member
  headLength := length_head_longRequest.le
  bodyLength := Nat.zero_le _
  contentLength := rfl

/-- The blank line is counted with the head, so the request is refused. -/
theorem request_refused :
    ¬ ∀ (crypto : Crypto) (requests : List Request),
      (∀ request ∈ requests, request.WellFormed maxHead) →
        ∀ reader : Reader,
          reader.bytes = requests.flatMap Request.toBytes →
            ∃ final,
              readRequests crypto (requests.length + 1)
                  ⟨ControlConnection.new, reader⟩ =
                .ok (requests.map some ++ [none], final) := by
  intro claim
  have length :
      (utf8 (longRequest.head ++ (crlf ++ crlf))).length =
        maxHead + 4 := by
    rw [utf8_append, List.length_append, length_head_longRequest]
    rfl
  have isBytes :
      longRequest.toBytes =
        utf8 (longRequest.head ++ (crlf ++ crlf)) :=
    List.append_nil _
  let reader : Reader :=
    { pieces := [longRequest.toBytes]
      nonempty := by
        intro piece member none
        rw [List.mem_singleton.mp member, isBytes] at none
        rw [none] at length
        cases length }
  rcases claim sampleCrypto [longRequest]
      (fun _ member =>
        List.mem_singleton.mp member ▸ wellFormed_longRequest)
      reader rfl with
    ⟨final, run⟩
  have carried :
      Clear ControlConnection.new
        (utf8 (longRequest.head ++ (crlf ++ crlf)) ++ [])
        ⟨ControlConnection.new, reader⟩ := by
    refine ⟨rfl, ?_⟩
    rw [← isBytes]
    rfl
  have refused :
      Incoming.readHead sampleCrypto (maxHead + 1) []
          ⟨ControlConnection.new, reader⟩ =
        .error .headTooLarge := by
    apply readHead_tooLarge (serves_clear rfl rfl) _ _ _ carried
    · exact Nat.zero_add _
    · rw [length]
      exact Nat.add_le_add_left (by decide) maxHead
    · intro before isPrefix short blank
      have whole :=
        blankLine_head wellFormed_longRequest isPrefix blank
      rw [whole, length] at short
      omega
  rw [List.length_singleton, readRequests, Incoming.readRequest, refused]
    at run
  cases run

end OpenAirplay2.Control

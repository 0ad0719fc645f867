import OpenAirplay2.Control.Serving
import OpenAirplay2.Lib.Transition

/-!
# An attacker can only truncate the control channel

Whatever bytes arrive, a block is opened only if it is the next one that the
peer sealed: its nonce is that of its place in the stream, its length is
authenticated, and nothing but what the peer sealed is accepted.  So what was
opened is always a beginning of the peer's blocks, the ones the stream begins
with; the first complete block that is not the peer's ends the connection.
-/

namespace OpenAirplay2.Control

open OpenAirplay2.Lib.Transition (System)
open OpenAirplay2.Pairing (Bytes Digest)

/-- What was sealed is opened again, and nothing else is accepted. -/
structure Unforgeable (crypto : Crypto) (key : Key)
    (blocks : List Bytes) : Prop where
  openable : AllOpenable crypto key 0 blocks
  accepted :
    ∀ nonce aad ciphertext plaintext,
      crypto.decrypt key nonce aad ciphertext = some plaintext →
        ∃ index block,
          blocks[index]? = some block ∧ nonce = nonceFor index ∧
            aad = toLeBytes 2 block.length ∧
              ciphertext = crypto.encrypt key nonce aad block

/-! ## The blocks a stream begins with -/

/-- How many of the peer's blocks the stream begins with. -/
def genuineCount (crypto : Crypto) (key : Key) :
    Nat → List Bytes → Bytes → Nat
  | _, [], _ => 0
  | counter, block :: rest, stream =>
      let onWire := sealBlock crypto key counter block
      if onWire.isPrefixOf stream then
        genuineCount crypto key (counter + 1) rest
            (stream.drop onWire.length) + 1
      else
        0

/-- What comes after the peer's blocks that the stream begins with. -/
def beyond (crypto : Crypto) (key : Key) (blocks : List Bytes)
    (stream : Bytes) : Bytes :=
  let intact := genuineCount crypto key 0 blocks stream
  stream.drop (sealBlocks crypto key 0 (blocks.take intact)).length

/-- A block is there as long as its first two bytes say. -/
def hasBlock : Bytes → Bool
  | low :: high :: body =>
      low.toNat + 256 * high.toNat + tagLen ≤ body.length
  | _ => false

section Stream

variable
    {crypto : Crypto}
    {key : Key}

theorem genuineCount_spec
    (counter : Nat) (blocks : List Bytes) (stream : Bytes) :
    let intact := genuineCount crypto key counter blocks stream
    intact ≤ blocks.length ∧
      ∃ tail,
        stream =
          sealBlocks crypto key counter (blocks.take intact) ++ tail := by
  induction blocks generalizing counter stream with
  | nil => exact ⟨Nat.le_refl 0, stream, rfl⟩
  | cons block rest induction =>
      rw [genuineCount]
      simp only
      split
      · next starts =>
          rcases List.isPrefixOf_iff_prefix.mp starts with ⟨later, rfl⟩
          rw [List.drop_left]
          rcases induction (counter + 1) later with ⟨bound, tail, isTail⟩
          refine ⟨Nat.succ_le_succ bound, tail, ?_⟩
          rw [List.take_succ_cons, sealBlocks, List.append_assoc,
            ← isTail]
      · exact ⟨Nat.zero_le _, stream, rfl⟩

/-- No more of the peer's blocks are at the front of the stream. -/
theorem le_genuineCount
    {counter count : Nat} {blocks : List Bytes} {stream tail : Bytes}
    (bound : count ≤ blocks.length)
    (starts :
      stream =
        sealBlocks crypto key counter (blocks.take count) ++ tail) :
    count ≤ genuineCount crypto key counter blocks stream := by
  induction blocks generalizing counter count stream with
  | nil => exact bound
  | cons block rest induction =>
      cases count with
      | zero => exact Nat.zero_le _
      | succ count =>
          rw [List.take_succ_cons, sealBlocks, List.append_assoc]
            at starts
          have isPrefix :
              (sealBlock crypto key counter block).isPrefixOf stream =
                true := by
            rw [starts]
            exact
              List.isPrefixOf_iff_prefix.mpr (List.prefix_append _ _)
          rw [genuineCount]
          simp only [isPrefix, if_true]
          apply Nat.succ_le_succ
          apply induction (Nat.le_of_succ_le_succ bound)
          rw [starts, List.drop_left]

theorem hasBlock_sealBlock
    {counter : Nat} {block : Bytes}
    (openable : Openable crypto key counter block) (later : Bytes) :
    hasBlock (sealBlock crypto key counter block ++ later) = true := by
  rcases sealBlock_length crypto key counter openable.fits with
    ⟨low, high, aad, isBlock, isLength⟩
  have length := openable.length
  rw [aad] at length
  rw [isBlock, List.cons_append, List.cons_append, hasBlock, isLength,
    List.length_append, length]
  exact decide_eq_true (Nat.le_add_right _ _)

/--
When the peer's blocks were opened and no block is left, there is none after
all of the peer's blocks that the stream begins with.
-/
theorem hasBlock_beyond
    {blocks : List Bytes} {stream pending : Bytes} {count : Nat}
    (openable : AllOpenable crypto key 0 blocks)
    (bound : count ≤ blocks.length)
    (starts :
      sealBlocks crypto key 0 (blocks.take count) ++ pending = stream)
    (none : hasBlock pending = false) :
    hasBlock (beyond crypto key blocks stream) = false := by
  have most := le_genuineCount bound starts.symm
  rcases @genuineCount_spec crypto key 0 blocks stream with
    ⟨few, tail, isTail⟩
  rw [beyond]
  generalize genuineCount crypto key 0 blocks stream = intact at *
  rw [isTail, List.drop_left]
  rcases Nat.eq_or_lt_of_le most with rfl | fewer
  · rw [← starts] at isTail
    rw [← List.append_cancel_left isTail]
    exact none
  · have next : count < blocks.length := Nat.lt_of_lt_of_le fewer few
    have split :
        blocks.take intact =
          blocks.take count ++
            (blocks.drop count).take (intact - count) := by
      rw [← List.take_add, Nat.add_sub_cancel' most]
    have first :
        (blocks.drop count).take (intact - count) =
          blocks[count] ::
            (blocks.drop (count + 1)).take (intact - count - 1) := by
      rw [List.drop_eq_getElem_cons next, List.take_cons (by omega)]
    have isPending :
        pending =
          sealBlock crypto key count blocks[count] ++
            (sealBlocks crypto key (count + 1)
                ((blocks.drop (count + 1)).take (intact - count - 1)) ++
              tail) := by
      rw [← starts, split, sealBlocks_append,
        List.length_take_of_le bound, Nat.zero_add, first, sealBlocks,
        List.append_assoc, List.append_assoc] at isTail
      exact List.append_cancel_left isTail
    have ahead := (openable.split bound).2
    rw [List.drop_eq_getElem_cons next] at ahead
    rw [isPending, hasBlock_sealBlock ahead.1] at none
    cases none

end Stream

/-! ## Opening -/

/-- A round that opened a block found it accepted. -/
theorem block_accepted
    {crypto : Crypto} {opening next : Opening}
    (processed : opening.block crypto = some next)
    (alive : next.failed = false) :
    ∃ low high ciphertext plaintext,
      opening.rest = low :: high :: (ciphertext ++ next.rest) ∧
        crypto.decrypt opening.decryptor.key
              (nonceFor opening.decryptor.counter) [low, high]
              ciphertext =
            some plaintext ∧
          next.plaintext = opening.plaintext ++ plaintext ∧
            next.decryptor =
              ⟨opening.decryptor.key,
                (opening.decryptor.counter + 1) % 2 ^ 64⟩ := by
  rcases of_block_eq_some processed with
    ⟨_, low, high, body, rest, rfl | ⟨plaintext, decrypted, rfl⟩⟩
  · cases alive
  · refine ⟨low, high, _, plaintext, ?_, decrypted, rfl, rfl⟩
    rw [rest]
    simp only [List.take_append_drop]

/-- The loop ends when no block is there. -/
theorem hasBlock_of_block
    {crypto : Crypto} {opening : Opening}
    (processed : opening.block crypto = none)
    (alive : opening.failed = false) :
    hasBlock opening.rest = false := by
  unfold Opening.block at processed
  split at processed
  · next low high body rest =>
      simp only [alive, Bool.false_or, decide_eq_true_eq] at processed
      split at processed
      · next short =>
          rw [rest, hasBlock]
          exact decide_eq_false (Nat.not_le_of_gt short)
      · split at processed <;> cases processed
  · next short =>
      rw [hasBlock]
      · exact short

/--
The blocks opened are the first of the peer's, and the stream began with
them.
-/
structure Intact
    (crypto : Crypto) (key : Key) (blocks : List Bytes)
    (stream served future : Bytes) (count : Nat) (opening : Opening) :
    Prop where
  bound : count ≤ blocks.length
  alive : opening.failed = false
  decryptor : opening.decryptor = ⟨key, count⟩
  stream :
    sealBlocks crypto key 0 (blocks.take count) ++
        (opening.rest ++ future) =
      stream
  plain : served ++ opening.plaintext = (blocks.take count).flatten

section Opening

variable
    {crypto : Crypto}
    {key : Key}
    {blocks : List Bytes}
    {stream served future : Bytes}
    {count : Nat}
    {opening next : Opening}

/-- A block that is accepted is the next one that the peer sealed. -/
theorem intact_block
    (unforgeable : Unforgeable crypto key blocks)
    (few : blocks.length < 2 ^ 64)
    (intact :
      Intact crypto key blocks stream served future count opening)
    (processed : opening.block crypto = some next)
    (alive : next.failed = false) :
    Intact crypto key blocks stream served future (count + 1) next := by
  rcases block_accepted processed alive with
    ⟨low, high, ciphertext, plaintext, rest, decrypted, isPlain, dec⟩
  rw [intact.decryptor] at decrypted dec
  rcases unforgeable.accepted _ _ _ _ decrypted with
    ⟨index, block, isBlock, nonce, aad, isSealed⟩
  have below : index < blocks.length :=
    (List.getElem?_eq_some_iff.mp isBlock).1
  -- No two of the peer's blocks have one nonce.
  have same : count = index :=
    nonceFor_injective (Nat.lt_of_le_of_lt intact.bound few)
      (Nat.lt_trans below few) nonce
  rw [← same] at isBlock below
  have isNext : blocks[count] = block :=
    (List.getElem?_eq_some_iff.mp isBlock).2
  have ahead := (unforgeable.openable.split intact.bound).2
  rw [List.drop_eq_getElem_cons below, isNext] at ahead
  have opened : plaintext = block := by
    have decrypt := ahead.1.decrypt
    rw [← aad, ← isSealed, decrypted] at decrypt
    exact Option.some.inj decrypt
  have isTake : blocks.take (count + 1) = blocks.take count ++ [block] := by
    rw [List.take_succ_eq_append_getElem below, isNext]
  have onWire :
      opening.rest = sealBlock crypto key count block ++ next.rest := by
    rw [rest, sealBlock, ← aad, isSealed]
    rfl
  refine ⟨below, alive, ?_, ?_, ?_⟩
  · rw [dec, Nat.mod_eq_of_lt]
    exact Nat.lt_of_le_of_lt below few
  · rw [← intact.stream, isTake, sealBlocks_append,
      List.length_take_of_le intact.bound, Nat.zero_add, onWire]
    simp only [sealBlocks, List.append_nil, List.append_assoc]
  · rw [isPlain, ← List.append_assoc, intact.plain, isTake, opened,
      List.flatten_append, List.flatten_singleton]

/-- The loop fails, or goes on until no block is there. -/
theorem intact_blocks
    (unforgeable : Unforgeable crypto key blocks)
    (few : blocks.length < 2 ^ 64)
    {fuel : Nat}
    (enough : opening.rest.length < fuel)
    (intact :
      Intact crypto key blocks stream served future count opening) :
    (opening.blocks crypto fuel).failed = true ∨
      ∃ later,
        Intact crypto key blocks stream served future later
            (opening.blocks crypto fuel) ∧
          hasBlock (opening.blocks crypto fuel).rest = false := by
  induction fuel generalizing opening count with
  | zero => omega
  | succ fuel induction =>
      rw [Opening.blocks]
      split
      · next stops =>
          exact
            Or.inr ⟨count, intact, hasBlock_of_block stops intact.alive⟩
      · next following processed =>
          cases alive : following.failed with
          | true =>
              left
              rw [blocks_failed crypto fuel alive]
              exact alive
          | false =>
              have shorter :
                  following.rest.length < opening.rest.length := by
                rcases (block_rest processed).2 with failed | shorter
                · rw [alive] at failed
                  cases failed
                · exact shorter
              exact
                induction (by omega)
                  (intact_block unforgeable few intact processed alive)

end Opening

/-! ## Reading -/

/--
What was opened are the first of the peer's blocks, of which a part was
served; behind them the stream is as it came.
-/
structure Genuine
    (crypto : Crypto) (key : Key) (blocks : List Bytes)
    (stream served : Bytes) (count : Nat) (incoming : Incoming) :
    Prop where
  bound : count ≤ blocks.length
  dec : incoming.conn.dec = some ⟨key, count⟩
  stream :
    sealBlocks crypto key 0 (blocks.take count) ++
        (incoming.conn.cipherPending ++ incoming.reader.bytes) =
      stream
  plain : served ++ incoming.conn.plain = (blocks.take count).flatten

/-- The stream is at its end, and what is left of it is no block. -/
def Starved (incoming : Incoming) : Prop :=
  incoming.reader.bytes = [] ∧
    hasBlock incoming.conn.cipherPending = false

section Reading

variable
    {crypto : Crypto}
    {key : Key}
    {blocks : List Bytes}
    {stream served : Bytes}
    {count : Nat}
    {incoming : Incoming}

/-- What is available is the peer's. -/
theorem Genuine.available
    (genuine : Genuine crypto key blocks stream served count incoming) :
    served ++ incoming.conn.plain <+:
      (blocks.take (genuineCount crypto key 0 blocks stream)).flatten := by
  have most := le_genuineCount genuine.bound genuine.stream.symm
  rw [genuine.plain, ← Nat.add_sub_cancel' most, List.take_add,
    List.flatten_append]
  exact List.prefix_append _ _

/-- Plaintext is served. -/
theorem Genuine.setPlain
    {front plain : Bytes}
    (genuine : Genuine crypto key blocks stream served count incoming)
    (isPlain : incoming.conn.plain = front ++ plain) :
    Genuine crypto key blocks stream (served ++ front) count
      (incoming.setPlain plain) where
  bound := genuine.bound
  dec := genuine.dec
  stream := genuine.stream
  plain := by
    rw [← genuine.plain, isPlain, List.append_assoc]
    rfl

/-- More of the stream is pending. -/
theorem Genuine.arrive
    {conn : ControlConnection} {reader next : Reader} {bytes : Bytes}
    (genuine :
      Genuine crypto key blocks stream served count ⟨conn, reader⟩)
    (isRead : bytes ++ next.bytes = reader.bytes) :
    Genuine crypto key blocks stream served count
      ⟨conn.arrive bytes, next⟩ where
  bound := genuine.bound
  dec := genuine.dec
  stream := by
    rw [← genuine.stream, ← isRead]
    simp only [ControlConnection.arrive, List.append_assoc]
  plain := genuine.plain

/-- A round of decryption fails, or opens the peer's next blocks. -/
theorem genuine_fill
    (unforgeable : Unforgeable crypto key blocks)
    (few : blocks.length < 2 ^ 64)
    (genuine : Genuine crypto key blocks stream served count incoming) :
    let opening :=
      Decryptor.decryptAvailable crypto ⟨key, count⟩
        incoming.conn.cipherPending
    (∃ conn, incoming.conn.fill crypto ⟨key, count⟩ = (conn, false)) ∨
      ∃ conn later,
        incoming.conn.fill crypto ⟨key, count⟩ = (conn, true) ∧
          Genuine crypto key blocks stream served later
              ⟨conn, incoming.reader⟩ ∧
            hasBlock conn.cipherPending = false ∧
              opening.decryptor = ⟨key, later⟩ := by
  intro opening
  have start :
      Intact crypto key blocks stream (served ++ incoming.conn.plain)
        incoming.reader.bytes count
        { decryptor := ⟨key, count⟩
          plaintext := []
          rest := incoming.conn.cipherPending
          positions := []
          failed := false } :=
    ⟨genuine.bound, rfl, rfl, genuine.stream,
      (List.append_nil _).trans genuine.plain⟩
  have run :
      opening.failed = true ∨
        ∃ later,
          Intact crypto key blocks stream
              (served ++ incoming.conn.plain) incoming.reader.bytes later
              opening ∧
            hasBlock opening.rest = false :=
    intact_blocks unforgeable few
      (Nat.lt_succ_self incoming.conn.cipherPending.length) start
  rw [ControlConnection.fill]
  rcases run with failed | ⟨later, intact, none⟩
  · left
    simp only [opening] at failed
    simp only [failed, if_true]
    exact ⟨_, rfl⟩
  · right
    have alive := intact.alive
    simp only [opening] at alive
    simp only [alive, Bool.false_eq_true, if_false]
    refine
      ⟨_, later, rfl,
        ⟨intact.bound, congrArg some intact.decryptor, intact.stream, ?_⟩,
        none, intact.decryptor⟩
    rw [← intact.plain, List.append_assoc]

/--
`fill_encrypted` fails, or yields plaintext of the peer's, or comes to the end
of the stream.
-/
theorem genuine_fillRounds
    (unforgeable : Unforgeable crypto key blocks)
    (few : blocks.length < 2 ^ 64)
    {rounds : Nat}
    (enough : incoming.reader.bytes.length < rounds)
    (genuine : Genuine crypto key blocks stream served count incoming) :
    incoming.fillRounds crypto rounds ⟨key, count⟩ =
        .error .authenticationFailed ∨
      ∃ filled next later,
        incoming.fillRounds crypto rounds ⟨key, count⟩ =
            .ok (filled, next) ∧
          Genuine crypto key blocks stream served later next ∧
            (filled = false → Starved next) := by
  induction rounds generalizing incoming count with
  | zero => omega
  | succ rounds induction =>
      rw [Incoming.fillRounds]
      rcases genuine_fill unforgeable few genuine with
        ⟨conn, failed⟩ | ⟨conn, later, opened, isGenuine, none, dec⟩
      · left
        simp only [failed]
      · simp only [opened]
        split
        · next empty =>
            rcases incoming.reader.read_spec (by decide :
                0 < Incoming.readChunk) with
              ⟨isRead, -, atEnd⟩
            split
            · next reader read =>
                rw [read] at isRead atEnd
                have ended : reader.bytes = [] := isRead.trans (atEnd rfl)
                have isStream := isGenuine.stream
                rw [← isRead] at isStream
                right
                exact
                  ⟨false, ⟨conn, reader⟩, later, rfl,
                    ⟨isGenuine.bound, isGenuine.dec, isStream,
                      isGenuine.plain⟩, fun _ => ⟨ended, none⟩⟩
            · next bytes reader some read =>
                rw [read] at isRead
                rw [dec]
                apply induction
                · rw [← isRead, List.length_append] at enough
                  have pos := List.length_pos_iff.mpr some
                  simp only at enough pos ⊢
                  omega
                · exact isGenuine.arrive isRead
        · right
          refine ⟨true, ⟨conn, incoming.reader⟩, later, rfl, isGenuine, ?_⟩
          intro isFalse
          cases isFalse

/-- A byte that is read is the peer's. -/
theorem genuine_readByte
    (unforgeable : Unforgeable crypto key blocks)
    (few : blocks.length < 2 ^ 64)
    (genuine : Genuine crypto key blocks stream served count incoming) :
    incoming.readByte crypto = .error .authenticationFailed ∨
      ∃ byte next later,
        incoming.readByte crypto = .ok (byte, next) ∧
          Genuine crypto key blocks stream (served ++ byte.toList) later
              next ∧
            (byte = none → Starved next) := by
  cases isPlain : incoming.conn.plain with
  | cons byte plain =>
      right
      refine
        ⟨some byte, incoming.setPlain plain, count, ?_,
          genuine.setPlain isPlain, ?_⟩
      · rw [Incoming.readByte, isPlain]
      · intro isNone
        cases isNone
  | nil =>
      rw [Incoming.readByte, isPlain, genuine.dec]
      simp only [Incoming.fillEncrypted]
      rcases genuine_fillRounds unforgeable few
          (Nat.lt_succ_self incoming.reader.bytes.length) genuine with
        failed | ⟨filled, next, later, run, isGenuine, none⟩
      · left
        rw [failed]
        rfl
      · right
        rw [run]
        cases filled with
        | false =>
            refine ⟨Option.none, next, later, rfl, ?_, fun _ => none rfl⟩
            rw [Option.toList, List.append_nil]
            exact isGenuine
        | true =>
            cases nextPlain : next.conn.plain with
            | nil => exact absurd nextPlain (Incoming.plain_of_fillRounds run)
            | cons byte plain =>
                refine
                  ⟨Option.some byte, next.setPlain plain, later, ?_,
                    isGenuine.setPlain nextPlain, ?_⟩
                · simp only [Except.map, nextPlain, if_true,
                    List.head?_cons, List.tail_cons]
                · intro isNone
                  cases isNone

/-- Bytes that are read are the peer's, and as many as were asked for. -/
theorem genuine_readExactRounds
    (unforgeable : Unforgeable crypto key blocks)
    (few : blocks.length < 2 ^ 64)
    {size rounds : Nat} {out : Bytes}
    (short : out.length ≤ size)
    (enough :
      2 * (size - out.length) ≤
        rounds + if incoming.conn.plain = [] then 0 else 1)
    (genuine :
      Genuine crypto key blocks stream (served ++ out) count incoming) :
    incoming.readExactRounds crypto size rounds out =
        .error .authenticationFailed ∨
      (incoming.readExactRounds crypto size rounds out =
          .error .eofInEncryptedBody ∧
        ∃ bytes next later,
          Genuine crypto key blocks stream (served ++ bytes) later next ∧
            Starved next) ∨
        ∃ bytes next later,
          incoming.readExactRounds crypto size rounds out =
              .ok (bytes, next) ∧
            bytes.length = size ∧
              Genuine crypto key blocks stream (served ++ bytes) later
                next := by
  induction rounds generalizing out incoming count with
  | zero =>
      right
      right
      refine ⟨out, incoming, count, rfl, ?_, genuine⟩
      split at enough <;> omega
  | succ rounds induction =>
      rw [Incoming.readExactRounds]
      split
      · next more =>
          cases isPlain : incoming.conn.plain with
          | cons byte plain =>
              apply induction
              · rw [List.length_append, List.length_singleton]
                exact more
              · rw [isPlain, if_neg (List.cons_ne_nil byte plain)] at enough
                rw [List.length_append, List.length_singleton]
                omega
              · rw [← List.append_assoc]
                exact genuine.setPlain isPlain
          | nil =>
              rw [genuine.dec]
              simp only [Incoming.fillEncrypted]
              rcases genuine_fillRounds unforgeable few
                  (Nat.lt_succ_self incoming.reader.bytes.length)
                  genuine with
                failed | ⟨filled, next, later, run, isGenuine, none⟩
              · left
                rw [failed]
              · rw [run]
                cases filled with
                | false =>
                    right
                    left
                    exact ⟨rfl, out, next, later, isGenuine, none rfl⟩
                | true =>
                    apply induction short _ isGenuine
                    rw [isPlain, if_pos rfl] at enough
                    rw [if_neg (Incoming.plain_of_fillRounds run)]
                    omega
      · next whole =>
          right
          right
          exact ⟨out, incoming, count, rfl, by omega, genuine⟩

theorem genuine_readExact
    (unforgeable : Unforgeable crypto key blocks)
    (few : blocks.length < 2 ^ 64)
    (size : Nat)
    (genuine : Genuine crypto key blocks stream served count incoming) :
    incoming.readExact crypto size = .error .authenticationFailed ∨
      (incoming.readExact crypto size = .error .eofInEncryptedBody ∧
        ∃ bytes next later,
          Genuine crypto key blocks stream (served ++ bytes) later next ∧
            Starved next) ∨
        ∃ bytes next later,
          incoming.readExact crypto size = .ok (bytes, next) ∧
            bytes.length = size ∧
              Genuine crypto key blocks stream (served ++ bytes) later
                next := by
  apply genuine_readExactRounds unforgeable few (Nat.zero_le size)
  · rw [List.length_nil, Nat.sub_zero]
    omega
  · rw [List.append_nil]
    exact genuine

/-- A stream is not at its end before a block that it has is processed. -/
theorem Genuine.not_starved
    (unforgeable : Unforgeable crypto key blocks)
    (genuine : Genuine crypto key blocks stream served count incoming)
    (foreign : hasBlock (beyond crypto key blocks stream) = true) :
    ¬ Starved incoming := by
  rintro ⟨ended, none⟩
  have starts := genuine.stream
  rw [ended, List.append_nil] at starts
  have without :=
    hasBlock_beyond unforgeable.openable genuine.bound starts none
  rw [foreign] at without
  cases without

end Reading

/-! ## Runs -/

/-- What `read_request` asks for: a byte of the head, or the body. -/
inductive ReadAct where
  | byte
  | exact (size : Nat)
deriving DecidableEq, Repr

/-- A connection, and the bytes that were read from it. -/
structure Reading where
  incoming : Incoming
  served : Bytes

namespace Reading

/-- The plaintext that was made available. -/
def available (reading : Reading) : Bytes :=
  reading.served ++ reading.incoming.conn.plain

/-- Nothing is read after an error. -/
def step (crypto : Crypto) (reading : Reading) :
    ReadAct → Option Reading
  | .byte =>
      match reading.incoming.readByte crypto with
      | .error _ => none
      | .ok (byte, next) => some ⟨next, reading.served ++ byte.toList⟩
  | .exact size =>
      match reading.incoming.readExact crypto size with
      | .error _ => none
      | .ok (bytes, next) => some ⟨next, reading.served ++ bytes⟩

end Reading

/-- Reading from a connection that was just encrypted. -/
def reading (crypto : Crypto) (receiver : Encryptor × Decryptor)
    (reader : Reader) : System Reading ReadAct where
  initial :=
    ⟨⟨ControlConnection.new.enableEncryption receiver, reader⟩, []⟩
  step := Reading.step crypto

section Runs

variable
    {crypto : Crypto}
    {key : Key}
    {blocks : List Bytes}
    {stream : Bytes}

theorem genuine_step
    (unforgeable : Unforgeable crypto key blocks)
    (few : blocks.length < 2 ^ 64)
    {state next : Reading} {act : ReadAct}
    (genuine :
      ∃ count,
        Genuine crypto key blocks stream state.served count state.incoming)
    (stepped : state.step crypto act = some next) :
    ∃ count,
      Genuine crypto key blocks stream next.served count next.incoming := by
  rcases genuine with ⟨count, genuine⟩
  cases act with
  | byte =>
      rw [Reading.step] at stepped
      rcases genuine_readByte unforgeable few genuine with
        failed | ⟨byte, incoming, later, run, isGenuine, -⟩
      · rw [failed] at stepped
        cases stepped
      · rw [run] at stepped
        cases stepped
        exact ⟨later, isGenuine⟩
  | exact size =>
      rw [Reading.step] at stepped
      rcases genuine_readExact unforgeable few size genuine with
        failed | ⟨ended, -⟩ | ⟨bytes, incoming, later, run, -, isGenuine⟩
      · rw [failed] at stepped
        cases stepped
      · rw [ended] at stepped
        cases stepped
      · rw [run] at stepped
        cases stepped
        exact ⟨later, isGenuine⟩

theorem genuine_exec
    {receiver : Encryptor × Decryptor} {reader : Reader}
    {schedule : List ReadAct} {state : Reading}
    (unforgeable : Unforgeable crypto key blocks)
    (few : blocks.length < 2 ^ 64)
    (dec : receiver.2 = ⟨key, 0⟩)
    (reached :
      (reading crypto receiver reader).exec
          (reading crypto receiver reader).initial schedule =
        some state) :
    ∃ count,
      Genuine crypto key blocks reader.bytes state.served count
        state.incoming := by
  apply
    System.invariant_of_reached
      (fun state : Reading =>
        ∃ count,
          Genuine crypto key blocks reader.bytes state.served count
            state.incoming)
      _ _ reached
  · intro state act next genuine stepped
    exact genuine_step unforgeable few genuine stepped
  · exact ⟨0, Nat.zero_le _, congrArg some dec, rfl, rfl⟩

/-- More than the peer's blocks cannot be read past a block of another's. -/
theorem genuine_refused
    (unforgeable : Unforgeable crypto key blocks)
    (few : blocks.length < 2 ^ 64)
    {state : Reading} {count : Nat}
    (genuine :
      Genuine crypto key blocks stream state.served count state.incoming)
    (foreign : hasBlock (beyond crypto key blocks stream) = true) :
    let intact := blocks.take (genuineCount crypto key 0 blocks stream)
    (∀ size, intact.flatten.length < state.served.length + size →
        state.incoming.readExact crypto size =
          .error .authenticationFailed) ∧
      (state.served.length = intact.flatten.length →
        state.incoming.readByte crypto =
          .error .authenticationFailed) := by
  intro intact
  constructor
  · intro size beyond
    rcases genuine_readExact unforgeable few size genuine with
      failed |
        ⟨-, bytes, next, later, isGenuine, starved⟩ |
          ⟨bytes, next, later, -, isSize, isGenuine⟩
    · exact failed
    · exact absurd starved (isGenuine.not_starved unforgeable foreign)
    · have most :
          (state.served ++ bytes ++ next.conn.plain).length ≤
            intact.flatten.length :=
        isGenuine.available.length_le
      rw [List.length_append, List.length_append, isSize] at most
      omega
  · intro all
    rcases genuine_readByte unforgeable few genuine with
      failed | ⟨byte, next, later, -, isGenuine, ended⟩
    · exact failed
    · cases byte with
      | none =>
          exact
            absurd (ended rfl)
              (isGenuine.not_starved unforgeable foreign)
      | some byte =>
          have most :
              (state.served ++ [byte] ++ next.conn.plain).length ≤
                intact.flatten.length :=
            isGenuine.available.length_le
          rw [List.length_append, List.length_append,
            List.length_singleton] at most
          omega

end Runs

/--
Whatever bytes arrive, and however they are cut, the plaintext made available
is at any time a beginning of what the peer's blocks at the front of the
stream hold, and so of its messages; and when a complete block follows that is
not the peer's next one, whoever reads on finds that authentication failed.
-/
theorem only_truncated
    (crypto : Crypto) (secret : Digest)
    (sender receiver : Encryptor × Decryptor)
    (peers : Peers crypto secret sender receiver)
    (messages : List Bytes)
    (few : (messages.flatMap blocksOf).length < 2 ^ 64)
    (unforgeable :
      Unforgeable crypto sender.1.key (messages.flatMap blocksOf))
    (reader : Reader) (schedule : List ReadAct) (state : Reading)
    (reached :
      (reading crypto receiver reader).exec
          (reading crypto receiver reader).initial schedule =
        some state) :
    let key := sender.1.key
    let blocks := messages.flatMap blocksOf
    let intact := blocks.take (genuineCount crypto key 0 blocks reader.bytes)
    state.available <+: intact.flatten ∧
      state.available <+: messages.flatten ∧
        (hasBlock (beyond crypto key blocks reader.bytes) = true →
          (∀ size,
            intact.flatten.length < state.served.length + size →
              state.incoming.readExact crypto size =
                .error .authenticationFailed) ∧
            (state.served.length = intact.flatten.length →
              state.incoming.readByte crypto =
                .error .authenticationFailed)) := by
  intro key blocks intact
  have dec : receiver.2 = ⟨sender.1.key, 0⟩ := by
    rcases peers.key with ⟨key, enc, isSender, rfl⟩
    rw [isSender]
  rcases genuine_exec unforgeable few dec reached with ⟨count, isGenuine⟩
  have available : state.available <+: intact.flatten :=
    isGenuine.available
  have all : intact.flatten <+: messages.flatten := by
    rw [← flatten_flatMap_blocksOf messages]
    conv_rhs =>
      rw [← List.take_append_drop
        (genuineCount crypto key 0 blocks reader.bytes)
        (messages.flatMap blocksOf)]
    rw [List.flatten_append]
    exact List.prefix_append _ _
  exact
    ⟨available, available.trans all,
      genuine_refused unforgeable few isGenuine⟩

/-! ## A replayed block -/

/-- An AEAD that accepts the one block it was told of. -/
def strictCrypto : Crypto where
  encrypt := sampleCrypto.encrypt
  decrypt key nonce aad ciphertext :=
    if
        key = sampleWriteKey ∧ nonce = nonceFor 0 ∧ aad = [31, 0] ∧
          ciphertext = sampleSealed then
      some samplePlain
    else
      none
  hkdf := sampleCrypto.hkdf

theorem unforgeable_strictCrypto :
    Unforgeable strictCrypto sampleWriteKey [samplePlain] where
  openable := by
    refine ⟨⟨by decide, ?_, ?_⟩, trivial⟩
    · decide +kernel
    · decide +kernel
  accepted := by
    intro nonce aad ciphertext plaintext decrypted
    simp only [strictCrypto] at decrypted
    split at decrypted
    · next known =>
        rcases known with ⟨-, rfl, rfl, rfl⟩
        refine ⟨0, samplePlain, rfl, rfl, by decide +kernel, ?_⟩
        decide +kernel
    · cases decrypted

/-- The block, and the block once more. -/
def replayReader : Reader where
  pieces := [sampleStream, sampleStream]
  nonempty := by decide

theorem blocksOf_samplePlain :
    [samplePlain].flatMap blocksOf = [samplePlain] := by
  decide +kernel

theorem only_truncated_replayed :
    ∃ state,
      (reading strictCrypto (controlChannel strictCrypto zeroSecret)
              replayReader).exec
            (reading strictCrypto
              (controlChannel strictCrypto zeroSecret)
              replayReader).initial
            [.exact 31] =
          some state ∧
        state.available = samplePlain ∧
          state.incoming.readByte strictCrypto =
            .error .authenticationFailed := by
  have served :
      ((reading strictCrypto (controlChannel strictCrypto zeroSecret)
              replayReader).exec
            (reading strictCrypto
              (controlChannel strictCrypto zeroSecret)
              replayReader).initial
            [.exact 31]).map Reading.served =
        some samplePlain := by
    decide +kernel
  rcases Option.map_eq_some_iff.mp served with ⟨state, reached, isServed⟩
  rcases
      only_truncated strictCrypto zeroSecret
        (senderControlChannel strictCrypto zeroSecret) _
        (Or.inl ⟨rfl, rfl⟩) [samplePlain]
        (by rw [blocksOf_samplePlain]; decide)
        (by
          rw [blocksOf_samplePlain]
          exact unforgeable_strictCrypto)
        replayReader [.exact 31] state reached with
    ⟨-, available, refused⟩
  refine ⟨state, reached, ?_, ?_⟩
  · apply available.eq_of_length_le
    rw [Reading.available, isServed, List.length_append]
    exact Nat.le_add_right _ _
  · apply (refused (by decide +kernel)).2
    rw [isServed]
    decide +kernel

/-! ## A block that is announced too long -/

/-- The block, with a length that the stream does not have. -/
def resizedReader : Reader where
  pieces := [[255, 255] ++ sampleSealed]
  nonempty := by decide

/-- A body that does not come is the end of the stream. -/
theorem readExact_ended
    {crypto : Crypto} {incoming next : Incoming} {dec : Decryptor}
    (plain : incoming.conn.plain = [])
    (isDec : incoming.conn.dec = some dec)
    (ended : incoming.fillEncrypted crypto dec = .ok (false, next))
    (size : Nat) :
    incoming.readExact crypto (size + 1) = .error .eofInEncryptedBody := by
  have more : ([] : Bytes).length < size + 1 := Nat.succ_pos size
  rw [Incoming.readExact, Incoming.readExactRounds, if_pos more, plain,
    isDec]
  simp only [ended]

/-- There is no such block, so nothing fails. -/
theorem resized_readExact (size : Nat) :
    Incoming.readExact strictCrypto size
        ⟨ControlConnection.new.enableEncryption
            (controlChannel strictCrypto zeroSecret), resizedReader⟩ ≠
      .error .authenticationFailed := by
  cases size with
  | zero =>
      intro failed
      cases failed
  | succ size =>
      have ended :
          (Incoming.fillEncrypted strictCrypto ⟨sampleWriteKey, 0⟩
              ⟨ControlConnection.new.enableEncryption
                  (controlChannel strictCrypto zeroSecret),
                resizedReader⟩).map Prod.fst =
            .ok false := by
        decide +kernel
      cases run :
          Incoming.fillEncrypted strictCrypto ⟨sampleWriteKey, 0⟩
            ⟨ControlConnection.new.enableEncryption
                (controlChannel strictCrypto zeroSecret),
              resizedReader⟩ with
      | error error =>
          rw [run] at ended
          cases ended
      | ok result =>
          rcases result with ⟨filled, next⟩
          rw [run] at ended
          cases ended
          rw [readExact_ended rfl rfl run size]
          intro failed
          cases failed

/-! ## A block after the last nonce -/

/-- Every list of bytes are those of a number. -/
theorem exists_toLeBytes (bytes : Bytes) :
    ∃ value,
      value < 256 ^ bytes.length ∧
        toLeBytes bytes.length value = bytes := by
  induction bytes with
  | nil => exact ⟨0, Nat.one_pos, rfl⟩
  | cons byte rest induction =>
      rcases induction with ⟨value, bound, isRest⟩
      have low := byte.toNat_lt
      refine ⟨byte.toNat + 256 * value, ?_, ?_⟩
      · rw [List.length_cons, Nat.pow_succ']
        omega
      · have shifted : (byte.toNat + 256 * value) / 256 = value := by
          omega
        rw [List.length_cons, toLeBytes, shifted, isRest]
        congr 1
        apply UInt8.toNat_inj.mp
        rw [UInt8.toNat_ofNat']
        omega

/-- An AEAD that accepts one byte at every nonce of the channel. -/
def wrappingCrypto : Crypto where
  encrypt _ _ _ plaintext := plaintext ++ List.replicate tagLen 0
  decrypt _ nonce aad ciphertext :=
    if
        nonce.1.take 4 = List.replicate 4 0 ∧ aad = [1, 0] ∧
          ciphertext = 0 :: List.replicate tagLen 0 then
      some [0]
    else
      none
  hkdf := sampleCrypto.hkdf

theorem allOpenable_wrappingCrypto (key : Key) (counter count : Nat) :
    AllOpenable wrappingCrypto key counter (List.replicate count [0]) := by
  induction count generalizing counter with
  | zero => trivial
  | succ count induction =>
      have opened :
          wrappingCrypto.decrypt key (nonceFor counter) [1, 0]
              (0 :: List.replicate tagLen 0) =
            some [0] := by
        simp only [wrappingCrypto]
        exact if_pos ⟨rfl, trivial, trivial⟩
      exact ⟨⟨by decide, opened, rfl⟩, induction (counter + 1)⟩

/-- The peer sealed such a byte at each of the nonces. -/
theorem unforgeable_wrappingCrypto
    (key : Key) {count : Nat} (all : 2 ^ 64 ≤ count) :
    Unforgeable wrappingCrypto key (List.replicate count [0]) where
  openable := allOpenable_wrappingCrypto key 0 count
  accepted := by
    intro nonce aad ciphertext plaintext decrypted
    simp only [wrappingCrypto] at decrypted
    split at decrypted
    · next known =>
        rcases known with ⟨zeros, rfl, rfl⟩
        have size : (nonce.1.drop 4).length = 8 := by
          rw [List.length_drop, nonce.2]
        rcases exists_toLeBytes (nonce.1.drop 4) with
          ⟨index, bound, isIndex⟩
        rw [size] at bound isIndex
        have below : index < count :=
          Nat.lt_of_lt_of_le bound (Nat.le_trans (by decide) all)
        refine ⟨index, [0], ?_, ?_, rfl, rfl⟩
        · rw [List.getElem?_replicate, if_pos below]
        · apply Subtype.ext
          show nonce.1 = List.replicate 4 0 ++ toLeBytes 8 index
          rw [isIndex, ← zeros, List.take_append_drop]
    · cases decrypted

theorem length_flatten_replicate (count : Nat) :
    (List.replicate count ([0] : Bytes)).flatten.length = count := by
  rw [List.length_flatten, List.map_replicate, List.sum_replicate]
  exact Nat.mul_one count

/-- A body that is read first. -/
theorem reading_exact
    {crypto : Crypto} {receiver : Encryptor × Decryptor}
    {reader : Reader} {size : Nat} {bytes : Bytes} {next : Incoming}
    (run :
      Incoming.readExact crypto size
          (reading crypto receiver reader).initial.incoming =
        .ok (bytes, next)) :
    (reading crypto receiver reader).exec
        (reading crypto receiver reader).initial [.exact size] =
      some ⟨next, bytes⟩ := by
  have stepped :
      Reading.step crypto (reading crypto receiver reader).initial
          (.exact size) =
        some ⟨next, bytes⟩ := by
    rw [Reading.step, run]
    rfl
  exact (System.exec_cons_iff _ _ _ _ _).mpr ⟨_, stepped, rfl⟩

/-- Of one block more than the peer sealed, every byte is read. -/
theorem wrapped_available (count : Nat) :
    ∃ reader state,
      (reading wrappingCrypto (controlChannel wrappingCrypto zeroSecret)
              reader).exec
            (reading wrappingCrypto
              (controlChannel wrappingCrypto zeroSecret) reader).initial
            [.exact (count + 1)] =
          some state ∧
        count + 1 ≤ state.available.length := by
  let blocks : List Bytes := List.replicate (count + 1) [0]
  have openable : AllOpenable wrappingCrypto sampleWriteKey 0 blocks :=
    allOpenable_wrappingCrypto sampleWriteKey 0 (count + 1)
  let reader : Reader :=
    { pieces := [sealBlocks wrappingCrypto sampleWriteKey 0 blocks]
      nonempty := by
        intro piece member none
        rw [List.mem_singleton.mp member] at none
        cases none }
  have start :
      Hidden wrappingCrypto sampleWriteKey blocks (blocks.flatten ++ [])
        (reading wrappingCrypto
          (controlChannel wrappingCrypto zeroSecret)
          reader).initial.incoming :=
    ⟨[], 0,
      (receiving_start wrappingCrypto sampleWriteKey _ blocks _
        (List.append_nil _)).1,
      List.append_nil _⟩
  have length : blocks.flatten.length = count + 1 :=
    length_flatten_replicate (count + 1)
  rcases (serves_hidden openable).exact start with ⟨next, run, -⟩
  rw [length] at run
  refine ⟨reader, ⟨next, blocks.flatten⟩, reading_exact run, ?_⟩
  rw [Reading.available, List.length_append, length]
  exact Nat.le_add_right _ _

theorem flatMap_blocksOf_replicate (count : Nat) :
    (List.replicate count ([0] : Bytes)).flatMap blocksOf =
      List.replicate count [0] := by
  induction count with
  | zero => rfl
  | succ count induction =>
      rw [List.replicate_succ, List.flatMap_cons, induction]
      rfl

/--
A block behind the last nonce is accepted again, and a block whose length the
stream does not have is no error.
-/
theorem truncation_overstated :
    (¬ ∀ (crypto : Crypto) (secret : Digest)
        (sender receiver : Encryptor × Decryptor),
        Peers crypto secret sender receiver →
          ∀ messages : List Bytes,
            Unforgeable crypto sender.1.key
                (messages.flatMap blocksOf) →
              ∀ (reader : Reader) (schedule : List ReadAct)
                (state : Reading),
                (reading crypto receiver reader).exec
                      (reading crypto receiver reader).initial
                      schedule =
                    some state →
                  state.available <+: messages.flatten) ∧
      ¬ ∀ (crypto : Crypto) (secret : Digest)
        (sender receiver : Encryptor × Decryptor),
        Peers crypto secret sender receiver →
          ∀ messages : List Bytes,
            Unforgeable crypto sender.1.key
                (messages.flatMap blocksOf) →
              ∀ reader : Reader,
                ¬ reader.bytes <+: encryptAll crypto sender.1 messages →
                  ∃ size,
                    Incoming.readExact crypto size
                        (reading crypto receiver reader).initial.incoming =
                      .error .authenticationFailed := by
  constructor
  · intro claim
    rcases wrapped_available (2 ^ 64) with ⟨reader, state, reached, more⟩
    have unforgeable :
        Unforgeable wrappingCrypto
          (senderControlChannel wrappingCrypto zeroSecret).1.key
          ((List.replicate (2 ^ 64) ([0] : Bytes)).flatMap blocksOf) := by
      rw [flatMap_blocksOf_replicate]
      exact unforgeable_wrappingCrypto _ (Nat.le_refl _)
    have most :=
      (claim wrappingCrypto zeroSecret _ _ (Or.inl ⟨rfl, rfl⟩)
        (List.replicate (2 ^ 64) [0]) unforgeable reader _ state
        reached).length_le
    rw [length_flatten_replicate] at most
    omega
  · intro claim
    have unforgeable :
        Unforgeable strictCrypto
          (senderControlChannel strictCrypto zeroSecret).1.key
          ([samplePlain].flatMap blocksOf) := by
      rw [blocksOf_samplePlain]
      exact unforgeable_strictCrypto
    rcases
        claim strictCrypto zeroSecret _ _ (Or.inl ⟨rfl, rfl⟩)
          [samplePlain] unforgeable resizedReader (by decide +kernel) with
      ⟨size, failed⟩
    exact resized_readExact size failed

end OpenAirplay2.Control

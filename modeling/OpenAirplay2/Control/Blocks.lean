import OpenAirplay2.Control.Reading

/-!
# The control channel is a faithful byte stream

A sender seals a list of blocks, one after the other.  A receiver that is in
step has opened the first of them and holds the beginning of what the others
are on the wire.  Whatever arrives next, it opens the blocks that are complete
and is in step again; so the cuts between the reads do not matter.

That decryption inverts encryption, and that a tag adds its length, is what
is assumed of the AEAD.
-/

namespace OpenAirplay2.Control

open OpenAirplay2.Pairing (Bytes Digest)

/-- What the AEAD does with what it sealed itself. -/
structure Faithful (crypto : Crypto) : Prop where
  decrypt :
    ∀ key nonce aad plaintext,
      crypto.decrypt key nonce aad
          (crypto.encrypt key nonce aad plaintext) =
        some plaintext
  length :
    ∀ key nonce aad plaintext,
      (crypto.encrypt key nonce aad plaintext).length =
        plaintext.length + tagLen

/-! ## Blocks on the wire -/

/-- A block on the wire. -/
def sealBlock (crypto : Crypto) (key : Key) (counter : Nat)
    (block : Bytes) : Bytes :=
  toLeBytes 2 block.length ++
    crypto.encrypt key (nonceFor counter) (toLeBytes 2 block.length) block

/-- Blocks on the wire, the first of them with that counter. -/
def sealBlocks (crypto : Crypto) (key : Key) :
    Nat → List Bytes → Bytes
  | _, [] => []
  | counter, block :: rest =>
      sealBlock crypto key counter block ++
        sealBlocks crypto key (counter + 1) rest

/-- The bytes that a block takes on the wire. -/
def wireLength (block : Bytes) : Nat :=
  2 + block.length + tagLen

/-- How many of the blocks are complete in that many bytes. -/
def complete : List Bytes → Nat → Nat
  | [], _ => 0
  | block :: rest, received =>
      if wireLength block ≤ received then
        complete rest (received - wireLength block) + 1
      else
        0

theorem toLeBytes_mod (count value : Nat) :
    toLeBytes count (value % 256 ^ count) = toLeBytes count value := by
  induction count generalizing value with
  | zero => rfl
  | succ count induction =>
      rw [toLeBytes, toLeBytes, Nat.pow_succ', Nat.mod_mul_right_div_self,
        induction]
      congr 1
      apply UInt8.toNat_inj.mp
      rw [UInt8.toNat_ofNat', UInt8.toNat_ofNat']
      exact Nat.mod_mod_of_dvd value (Nat.dvd_mul_right 256 _)

theorem nonceFor_mod (counter : Nat) :
    nonceFor (counter % 2 ^ 64) = nonceFor counter := by
  have bytes : toLeBytes 8 (counter % 2 ^ 64) = toLeBytes 8 counter :=
    toLeBytes_mod 8 counter
  rw [nonceFor, nonceFor, Subtype.mk.injEq, bytes]

/-- A block is opened again, and its length is that of its plaintext. -/
structure Openable (crypto : Crypto) (key : Key) (counter : Nat)
    (block : Bytes) : Prop where
  fits : block.length < 2 ^ 16
  decrypt :
    crypto.decrypt key (nonceFor counter) (toLeBytes 2 block.length)
        (crypto.encrypt key (nonceFor counter)
          (toLeBytes 2 block.length) block) =
      some block
  length :
    (crypto.encrypt key (nonceFor counter) (toLeBytes 2 block.length)
        block).length =
      block.length + tagLen

/-- Every block is opened again, the first of them with that counter. -/
def AllOpenable (crypto : Crypto) (key : Key) : Nat → List Bytes → Prop
  | _, [] => True
  | counter, block :: rest =>
      Openable crypto key counter block ∧
        AllOpenable crypto key (counter + 1) rest

theorem Faithful.allOpenable
    {crypto : Crypto} (faithful : Faithful crypto)
    (key : Key) (counter : Nat) {blocks : List Bytes}
    (fits : ∀ block ∈ blocks, block.length < 2 ^ 16) :
    AllOpenable crypto key counter blocks := by
  induction blocks generalizing counter with
  | nil => trivial
  | cons block rest induction =>
      rw [List.forall_mem_cons] at fits
      exact
        ⟨⟨fits.1, faithful.decrypt _ _ _ _, faithful.length _ _ _ _⟩,
          induction (counter + 1) fits.2⟩

theorem allOpenable_append_iff
    {crypto : Crypto} {key : Key} {counter : Nat}
    {first second : List Bytes} :
    AllOpenable crypto key counter (first ++ second) ↔
      AllOpenable crypto key counter first ∧
        AllOpenable crypto key (counter + first.length) second := by
  induction first generalizing counter with
  | nil => exact (and_iff_right trivial).symm
  | cons block rest induction =>
      rw [List.cons_append, AllOpenable, AllOpenable, induction,
        List.length_cons, Nat.add_assoc, Nat.add_comm 1, and_assoc]

/-- The first of the blocks, and the others with the counters they have. -/
theorem AllOpenable.split
    {crypto : Crypto} {key : Key} {blocks : List Bytes} {count : Nat}
    (openable : AllOpenable crypto key 0 blocks)
    (bound : count ≤ blocks.length) :
    AllOpenable crypto key 0 (blocks.take count) ∧
      AllOpenable crypto key count (blocks.drop count) := by
  rw [← List.take_append_drop count blocks, allOpenable_append_iff,
    List.length_take_of_le bound, Nat.zero_add] at openable
  exact openable

theorem length_sealBlock
    {crypto : Crypto} {key : Key} {counter : Nat} {block : Bytes}
    (openable : Openable crypto key counter block) :
    (sealBlock crypto key counter block).length = wireLength block := by
  rw [sealBlock, List.length_append, length_toLeBytes, openable.length,
    wireLength, Nat.add_assoc]

theorem sealBlocks_append
    (crypto : Crypto) (key : Key) (counter : Nat)
    (first second : List Bytes) :
    sealBlocks crypto key counter (first ++ second) =
      sealBlocks crypto key counter first ++
        sealBlocks crypto key (counter + first.length) second := by
  induction first generalizing counter with
  | nil => rfl
  | cons block rest induction =>
      rw [List.cons_append, sealBlocks, sealBlocks, induction,
        List.append_assoc, List.length_cons, Nat.add_assoc,
        Nat.add_comm 1]

theorem complete_le (blocks : List Bytes) (received : Nat) :
    complete blocks received ≤ blocks.length := by
  induction blocks generalizing received with
  | nil => exact Nat.le_refl 0
  | cons block rest induction =>
      rw [complete]
      split
      · exact Nat.succ_le_succ (induction _)
      · exact Nat.zero_le _

/-- Blocks that were received whole are complete. -/
theorem complete_append
    {crypto : Crypto} {key : Key} {counter : Nat} {first : List Bytes}
    (openable : AllOpenable crypto key counter first)
    (second : List Bytes) (received : Nat) :
    complete (first ++ second)
        ((sealBlocks crypto key counter first).length + received) =
      first.length + complete second received := by
  induction first generalizing counter with
  | nil =>
      rw [sealBlocks, List.length_nil, List.length_nil, Nat.zero_add,
        Nat.zero_add, List.nil_append]
  | cons block rest induction =>
      rw [List.cons_append, complete, sealBlocks, List.length_append,
        length_sealBlock openable.1, Nat.add_assoc,
        if_pos (Nat.le_add_right _ _), Nat.add_sub_cancel_left,
        induction openable.2, List.length_cons]
      omega

/-! ## Sealing -/

/-- The blocks a message is cut into. -/
def blocksOf (message : Bytes) : List Bytes :=
  chunks blockMax message.length message

theorem chunks_cons (size fuel : Nat) (byte : UInt8) (rest : Bytes) :
    chunks size (fuel + 1) (byte :: rest) =
      (byte :: rest).take size ::
        chunks size fuel ((byte :: rest).drop size) :=
  rfl

theorem flatten_chunks
    {size : Nat} (pos : 0 < size) (fuel : Nat) (bytes : Bytes)
    (enough : bytes.length ≤ fuel) :
    (chunks size fuel bytes).flatten = bytes := by
  induction fuel generalizing bytes with
  | zero =>
      rw [List.length_eq_zero_iff.mp (Nat.le_zero.mp enough)]
      rfl
  | succ fuel induction =>
      cases bytes with
      | nil => rfl
      | cons byte rest =>
          rw [chunks_cons, List.flatten_cons, induction,
            List.take_append_drop]
          rw [List.length_drop]
          rw [List.length_cons] at enough ⊢
          omega

theorem flatten_blocksOf (message : Bytes) :
    (blocksOf message).flatten = message :=
  flatten_chunks (by decide) _ _ (Nat.le_refl _)

theorem length_le_of_mem_chunks
    {size fuel : Nat} {bytes block : Bytes}
    (member : block ∈ chunks size fuel bytes) :
    block.length ≤ size := by
  induction fuel generalizing bytes with
  | zero => cases bytes <;> cases member
  | succ fuel induction =>
      cases bytes with
      | nil => cases member
      | cons byte rest =>
          rw [chunks_cons] at member
          rcases List.mem_cons.mp member with rfl | later
          · exact List.length_take_le _ _
          · exact induction later

theorem out_foldl
    (crypto : Crypto) (key : Key) (counter : Nat)
    (blocks : List Bytes) (sealing : Sealing)
    (enc : sealing.encryptor = ⟨key, counter % 2 ^ 64⟩) :
    (blocks.foldl (Sealing.block crypto) sealing).out =
        sealing.out ++ sealBlocks crypto key counter blocks ∧
      (blocks.foldl (Sealing.block crypto) sealing).encryptor =
        ⟨key, (counter + blocks.length) % 2 ^ 64⟩ := by
  induction blocks generalizing counter sealing with
  | nil => exact ⟨(List.append_nil _).symm, enc⟩
  | cons block rest induction =>
      have next :
          (sealing.block crypto block).encryptor =
            ⟨key, (counter + 1) % 2 ^ 64⟩ := by
        rw [Sealing.block, enc, Nat.mod_add_mod]
      have out :
          (sealing.block crypto block).out =
            sealing.out ++ sealBlock crypto key counter block := by
        rw [Sealing.block, enc, nonceFor_mod, List.append_assoc]
        rfl
      rcases induction (counter + 1) _ next with ⟨isOut, isEnc⟩
      rw [List.foldl_cons, isOut, isEnc, out]
      constructor
      · rw [sealBlocks, List.append_assoc]
      · rw [List.length_cons, Nat.add_assoc, Nat.add_comm 1]

/-- A message is sealed block by block. -/
theorem encrypt_eq
    (crypto : Crypto) (key : Key) (counter : Nat) (message : Bytes) :
    (Encryptor.encrypt crypto ⟨key, counter % 2 ^ 64⟩ message).out =
        sealBlocks crypto key counter (blocksOf message) ∧
      (Encryptor.encrypt crypto ⟨key, counter % 2 ^ 64⟩
          message).encryptor =
        ⟨key, (counter + (blocksOf message).length) % 2 ^ 64⟩ :=
  out_foldl crypto key counter (blocksOf message) _ rfl

/-- Encrypt one message after the other. -/
def encryptAll (crypto : Crypto) :
    Encryptor → List Bytes → Bytes
  | _, [] => []
  | enc, message :: rest =>
      (enc.encrypt crypto message).out ++
        encryptAll crypto (enc.encrypt crypto message).encryptor rest

/-- What an encryptor writes are the blocks of its messages. -/
theorem encryptAll_eq
    (crypto : Crypto) (key : Key) (counter : Nat)
    (messages : List Bytes) :
    encryptAll crypto ⟨key, counter % 2 ^ 64⟩ messages =
      sealBlocks crypto key counter (messages.flatMap blocksOf) := by
  induction messages generalizing counter with
  | nil => rfl
  | cons message rest induction =>
      rcases encrypt_eq crypto key counter message with ⟨out, enc⟩
      rw [encryptAll, out, enc, induction, List.flatMap_cons,
        sealBlocks_append]

/-! ## Opening -/

/--
A decryption is in step with the sender: what it has left, with what is yet to
be received, are the blocks ahead.
-/
structure InStep
    (crypto : Crypto) (key : Key) (future : Bytes) (count : Nat)
    (ahead : List Bytes) (opening : Opening) : Prop where
  alive : opening.failed = false
  decryptor : opening.decryptor = ⟨key, count % 2 ^ 64⟩
  bytes : opening.rest ++ future = sealBlocks crypto key count ahead

section Opening

variable
    {crypto : Crypto}
    {key : Key}
    {future : Bytes}
    {count : Nat}
    {opening : Opening}

/-- A block tells its length first. -/
theorem sealBlock_length
    (crypto : Crypto) (key : Key) (count : Nat)
    {block : Bytes} (fits : block.length < 2 ^ 16) :
    ∃ low high,
      toLeBytes 2 block.length = [low, high] ∧
        sealBlock crypto key count block =
            low :: high ::
              crypto.encrypt key (nonceFor count) [low, high] block ∧
          low.toNat + 256 * high.toNat = block.length := by
  refine
    ⟨UInt8.ofNat block.length, UInt8.ofNat (block.length / 256), rfl, rfl,
      ?_⟩
  rw [UInt8.toNat_ofNat', UInt8.toNat_ofNat']
  omega

/-- The next block is complete. -/
theorem block_complete
    {block : Bytes} {rest : List Bytes}
    (openable : Openable crypto key count block)
    (inStep : InStep crypto key future count (block :: rest) opening)
    (whole : wireLength block ≤ opening.rest.length) :
    ∃ next,
      opening.block crypto = some next ∧
        InStep crypto key future (count + 1) rest next ∧
          next.plaintext = opening.plaintext ++ block ∧
            next.rest.length = opening.rest.length - wireLength block := by
  have starts : sealBlock crypto key count block <+: opening.rest := by
    apply List.prefix_of_prefix_length_le _ (List.prefix_append _ future)
    · rw [length_sealBlock openable]
      exact whole
    · rw [inStep.bytes]
      exact List.prefix_append _ _
  rcases starts with ⟨later, isRest⟩
  have laterBytes :
      later ++ future = sealBlocks crypto key (count + 1) rest := by
    have bytes := inStep.bytes
    rw [← isRest, List.append_assoc] at bytes
    exact List.append_cancel_left bytes
  rcases sealBlock_length crypto key count openable.fits with
    ⟨low, high, aad, isBlock, isLength⟩
  let sealedBlock := crypto.encrypt key (nonceFor count) [low, high] block
  have rest_eq : opening.rest = low :: high :: (sealedBlock ++ later) := by
    rw [← isRest, isBlock]
    rfl
  have long : sealedBlock.length = block.length + tagLen := by
    have length := openable.length
    rw [aad] at length
    exact length
  have isPlain :
      crypto.decrypt key (nonceFor count) [low, high] sealedBlock =
        some block := by
    have decrypt := openable.decrypt
    rw [aad] at decrypt
    exact decrypt
  have enough :
      ¬ (sealedBlock ++ later).length < block.length + tagLen := by
    rw [List.length_append, long]
    omega
  have processed :
      opening.block crypto =
        some
          { decryptor := ⟨key, (count + 1) % 2 ^ 64⟩
            plaintext := opening.plaintext ++ block
            rest := later
            positions := opening.positions ++ [(key, nonceFor count)]
            failed := false } := by
    rw [Opening.block, rest_eq]
    simp only [isLength, inStep.alive, inStep.decryptor, enough,
      nonceFor_mod, Bool.false_or, decide_false, Bool.false_eq_true,
      if_false, Nat.mod_add_mod]
    rw [← long, List.take_left', List.drop_left']
    · rw [isPlain]
    · rfl
    · rfl
  refine ⟨_, processed, ⟨rfl, rfl, laterBytes⟩, rfl, ?_⟩
  rw [← isRest, List.length_append, length_sealBlock openable,
    Nat.add_sub_cancel_left]

/-- No block is complete. -/
theorem block_incomplete
    {ahead : List Bytes}
    (openable : AllOpenable crypto key count ahead)
    (inStep : InStep crypto key future count ahead opening)
    (partly : complete ahead opening.rest.length = 0) :
    opening.block crypto = none := by
  have bytes := inStep.bytes
  unfold Opening.block
  split
  · next first second body rest_eq =>
      cases ahead with
      | nil =>
          rw [rest_eq, sealBlocks] at bytes
          cases bytes
      | cons block rest =>
          rcases sealBlock_length crypto key count openable.1.fits with
            ⟨low, high, -, isBlock, isLength⟩
          rw [rest_eq, sealBlocks, isBlock, List.cons_append,
            List.cons_append, List.cons_append, List.cons_append,
            List.cons.injEq, List.cons.injEq] at bytes
          rcases bytes with ⟨rfl, rfl, -⟩
          have short : body.length < block.length + tagLen := by
            rw [complete, rest_eq, List.length_cons, List.length_cons]
              at partly
            split at partly
            · cases partly
            · next long =>
                rw [wireLength] at long
                omega
          simp only [isLength, short, decide_true, Bool.or_true, if_true]
  · rfl

/-- The blocks that are complete are opened, and no others. -/
theorem blocks_inStep
    {fuel : Nat} {ahead : List Bytes}
    (openable : AllOpenable crypto key count ahead)
    (enough : opening.rest.length < fuel)
    (inStep : InStep crypto key future count ahead opening) :
    let opened := complete ahead opening.rest.length
    let final := opening.blocks crypto fuel
    InStep crypto key future (count + opened) (ahead.drop opened) final ∧
      final.plaintext =
          opening.plaintext ++ (ahead.take opened).flatten ∧
        complete (ahead.drop opened) final.rest.length = 0 := by
  induction ahead generalizing count opening fuel with
  | nil =>
      have stops := block_incomplete openable inStep rfl
      cases fuel with
      | zero => omega
      | succ fuel =>
          simp only [Opening.blocks, stops]
          exact ⟨inStep, (List.append_nil _).symm, rfl⟩
  | cons block rest induction =>
      cases fuel with
      | zero => omega
      | succ fuel =>
          by_cases whole : wireLength block ≤ opening.rest.length
          · rcases block_complete openable.1 inStep whole with
              ⟨next, processed, nextInStep, plaintext, length⟩
            have fewer : next.rest.length < fuel := by
              have pos : 0 < wireLength block := by
                rw [wireLength]
                omega
              omega
            rcases induction openable.2 fewer nextInStep with
              ⟨finalInStep, isPlaintext, nothing⟩
            simp only [Opening.blocks, processed, complete, whole, if_true,
              ← length]
            refine ⟨?_, ?_, nothing⟩
            · rw [Nat.add_assoc, Nat.add_comm 1] at finalInStep
              exact finalInStep
            · rw [isPlaintext, plaintext, List.append_assoc]
              rfl
          · have partly :
                complete (block :: rest) opening.rest.length = 0 := by
              rw [complete, if_neg whole]
            have stops := block_incomplete openable inStep partly
            simp only [Opening.blocks, stops, partly]
            exact ⟨inStep, (List.append_nil _).symm, partly⟩

end Opening

/-! ## Receiving -/

/--
The receiver opened the first of the blocks, of which it served a part, and
holds the beginning of the others, as they are on the wire.
-/
structure Receiving
    (crypto : Crypto) (key : Key) (blocks : List Bytes)
    (served future : Bytes) (opened : Nat) (conn : ControlConnection) :
    Prop where
  bound : opened ≤ blocks.length
  dec : conn.dec = some ⟨key, opened % 2 ^ 64⟩
  bytes :
    conn.cipherPending ++ future =
      sealBlocks crypto key opened (blocks.drop opened)
  plain : served ++ conn.plain = (blocks.take opened).flatten

section Receiving

variable
    {crypto : Crypto}
    {key : Key}
    {blocks : List Bytes}
    {served future : Bytes}
    {opened : Nat}
    {conn : ControlConnection}

/-- What was to be received arrives. -/
theorem Receiving.arrive
    {bytes : Bytes}
    (receiving :
      Receiving crypto key blocks served (bytes ++ future) opened conn) :
    Receiving crypto key blocks served future opened
      (conn.arrive bytes) where
  bound := receiving.bound
  dec := receiving.dec
  bytes := by
    rw [ControlConnection.arrive, List.append_assoc]
    exact receiving.bytes
  plain := receiving.plain

/-- The blocks the pending bytes complete. -/
def opens (blocks : List Bytes) (opened : Nat)
    (conn : ControlConnection) : Nat :=
  complete (blocks.drop opened) conn.cipherPending.length

/-- The decryption of what is pending. -/
def pendingOpening (crypto : Crypto) (key : Key) (opened : Nat)
    (conn : ControlConnection) : Opening :=
  Decryptor.decryptAvailable crypto ⟨key, opened % 2 ^ 64⟩
    conn.cipherPending

theorem pendingOpening_spec
    (openable : AllOpenable crypto key 0 blocks)
    (receiving : Receiving crypto key blocks served future opened conn) :
    let next := opened + opens blocks opened conn
    let opening := pendingOpening crypto key opened conn
    InStep crypto key future next (blocks.drop next) opening ∧
      opening.plaintext =
          ((blocks.drop opened).take (opens blocks opened conn)).flatten ∧
        complete (blocks.drop next) opening.rest.length = 0 := by
  have inStep :
      InStep crypto key future opened (blocks.drop opened)
        { decryptor := ⟨key, opened % 2 ^ 64⟩
          plaintext := []
          rest := conn.cipherPending
          positions := []
          failed := false } :=
    ⟨rfl, rfl, receiving.bytes⟩
  have run :=
    blocks_inStep (openable.split receiving.bound).2
      (Nat.lt_succ_self conn.cipherPending.length) inStep
  simp only [List.drop_drop, List.nil_append] at run
  exact run

/-- A round of decryption opens them and leaves the receiver in step. -/
theorem receiving_fill
    (openable : AllOpenable crypto key 0 blocks)
    (receiving : Receiving crypto key blocks served future opened conn) :
    let next := opened + opens blocks opened conn
    let opening := pendingOpening crypto key opened conn
    ∃ filled,
      conn.fill crypto ⟨key, opened % 2 ^ 64⟩ = (filled, true) ∧
        Receiving crypto key blocks served future next filled ∧
          filled.plain = conn.plain ++ opening.plaintext ∧
            opens blocks next filled = 0 := by
  rcases pendingOpening_spec openable receiving with
    ⟨inStep, plaintext, nothing⟩
  let opening := pendingOpening crypto key opened conn
  let filled : ControlConnection :=
    { conn with
      dec := some opening.decryptor
      accepted := conn.accepted ++ opening.positions
      plain := conn.plain ++ opening.plaintext
      cipherPending := opening.rest }
  refine ⟨filled, ?_, ⟨?_, ?_, inStep.bytes, ?_⟩, rfl, nothing⟩
  · have alive := inStep.alive
    rw [pendingOpening] at alive
    rw [ControlConnection.fill, alive]
    rfl
  · have most :=
      complete_le (blocks.drop opened) conn.cipherPending.length
    rw [List.length_drop] at most
    have bound := receiving.bound
    rw [opens]
    omega
  · exact congrArg some inStep.decryptor
  · show served ++ (conn.plain ++ opening.plaintext) = _
    rw [← List.append_assoc, receiving.plain,
      show opening.plaintext = _ from plaintext, ← List.flatten_append,
      ← List.take_add]

/-- When everything was received, the blocks are opened. -/
theorem Receiving.finished
    (openable : AllOpenable crypto key 0 blocks)
    (receiving : Receiving crypto key blocks served [] opened conn)
    (nothing : opens blocks opened conn = 0) :
    conn.cipherPending = [] ∧ served ++ conn.plain = blocks.flatten := by
  have bytes := receiving.bytes
  rw [List.append_nil] at bytes
  have all :=
    complete_append (openable.split receiving.bound).2 [] 0
  rw [List.append_nil, Nat.add_zero, ← bytes] at all
  have none : blocks.drop opened = [] := by
    apply List.length_eq_zero_iff.mp
    rw [opens, all] at nothing
    exact Nat.eq_zero_of_add_eq_zero_right nothing
  constructor
  · rw [bytes, none]
    rfl
  · rw [receiving.plain,
      List.take_of_length_le (List.drop_eq_nil_iff.mp none)]

/-- `fill_encrypted` reads until blocks with plaintext are complete. -/
theorem receiving_fillRounds
    (openable : AllOpenable crypto key 0 blocks)
    {rounds : Nat} {incoming : Incoming}
    (enough : incoming.reader.bytes.length < rounds)
    (receiving :
      Receiving crypto key blocks served
        (incoming.reader.bytes ++ future) opened incoming.conn) :
    ∃ filled next later,
      incoming.fillRounds crypto rounds ⟨key, opened % 2 ^ 64⟩ =
          .ok (filled, next) ∧
        Receiving crypto key blocks served (next.reader.bytes ++ future)
            later next.conn ∧
          opens blocks later next.conn = 0 ∧
            (filled = false →
              next.conn.plain = incoming.conn.plain ∧
                next.reader.bytes = []) := by
  induction rounds generalizing incoming opened with
  | zero => omega
  | succ rounds induction =>
      rcases receiving_fill openable receiving with
        ⟨filled, isFilled, receivingFilled, plain, nothing⟩
      rcases pendingOpening_spec openable receiving with
        ⟨inStep, -, -⟩
      have decryptor := inStep.decryptor
      rw [pendingOpening] at plain decryptor
      rw [Incoming.fillRounds, isFilled]
      simp only
      split
      · next none =>
          rw [none, List.append_nil] at plain
          rcases incoming.reader.read_spec (by decide :
              0 < Incoming.readChunk) with
            ⟨isRead, -, atEnd⟩
          split
          · next reader read =>
              rw [read] at isRead atEnd
              have ended := atEnd rfl
              refine
                ⟨false, ⟨filled, reader⟩, _, rfl, ?_, nothing,
                  fun _ => ⟨plain, isRead.trans ended⟩⟩
              rw [← isRead] at receivingFilled
              exact receivingFilled
          · next bytes reader some read =>
              rw [read] at isRead
              have fewer : reader.bytes.length < rounds := by
                rw [← isRead, List.length_append] at enough
                have pos := List.length_pos_iff.mpr some
                simp only at enough pos
                omega
              rw [← isRead, List.append_assoc] at receivingFilled
              rcases @induction _ ⟨filled.arrive bytes, reader⟩ fewer
                  receivingFilled.arrive with
                ⟨isFilled, next, later, run, isReceiving, isNothing,
                  isNone⟩
              rw [decryptor]
              refine
                ⟨isFilled, next, later, run, isReceiving, isNothing, ?_⟩
              intro isFalse
              exact
                ⟨(isNone isFalse).1.trans plain, (isNone isFalse).2⟩
      · refine
          ⟨true, ⟨filled, incoming.reader⟩, _, rfl, receivingFilled,
            nothing, ?_⟩
        intro isFalse
        cases isFalse

/-- The blocks opened are those that are complete in what was received. -/
theorem Receiving.opened_eq
    (openable : AllOpenable crypto key 0 blocks)
    (receiving :
      Receiving crypto key blocks served future opened conn)
    (nothing : opens blocks opened conn = 0) :
    complete blocks
        ((sealBlocks crypto key 0 blocks).length - future.length) =
      opened := by
  have first : (blocks.take opened).length = opened :=
    List.length_take_of_le receiving.bound
  have stream :=
    sealBlocks_append crypto key 0 (blocks.take opened)
      (blocks.drop opened)
  rw [List.take_append_drop, first, Nat.zero_add, ← receiving.bytes]
    at stream
  have received :
      (sealBlocks crypto key 0 blocks).length - future.length =
        (sealBlocks crypto key 0 (blocks.take opened)).length +
          conn.cipherPending.length := by
    rw [stream, List.length_append, List.length_append]
    omega
  have opening :=
    complete_append (openable.split receiving.bound).1
      (blocks.drop opened) conn.cipherPending.length
  rw [List.take_append_drop, first, ← received] at opening
  rw [opening, show complete _ _ = 0 from nothing, Nat.add_zero]

end Receiving

/-! ## Runs -/

/-- A read of `fill_encrypted` and the round after it. -/
def receive (crypto : Crypto) (conn : ControlConnection)
    (bytes : Bytes) : Option ControlConnection :=
  match conn.dec with
  | none => none
  | some dec =>
      match (conn.arrive bytes).fill crypto dec with
      | (filled, true) => some filled
      | (_, false) => none

/-- One read after the other. -/
def feed (crypto : Crypto) :
    ControlConnection → List Bytes → Option ControlConnection
  | conn, [] => some conn
  | conn, bytes :: rest =>
      (receive crypto conn bytes).bind fun next => feed crypto next rest

/-- One call of `fill_encrypted` after the other. -/
def fills (crypto : Crypto) :
    Nat → Incoming → Except IoError Incoming
  | 0, incoming => .ok incoming
  | calls + 1, incoming =>
      match incoming.conn.dec with
      | none => .ok incoming
      | some dec =>
          (incoming.fillEncrypted crypto dec).bind fun result =>
            fills crypto calls result.2

section Runs

variable
    {crypto : Crypto}
    {key : Key}
    {blocks : List Bytes}
    {served : Bytes}
    {opened : Nat}

theorem receiving_feed
    (openable : AllOpenable crypto key 0 blocks)
    {conn : ControlConnection} {reads : List Bytes} {future : Bytes}
    (receiving :
      Receiving crypto key blocks served (reads.flatten ++ future) opened
        conn)
    (nothing : opens blocks opened conn = 0) :
    ∃ final later,
      feed crypto conn reads = some final ∧
        Receiving crypto key blocks served future later final ∧
          opens blocks later final = 0 := by
  induction reads generalizing conn opened with
  | nil => exact ⟨conn, opened, rfl, receiving, nothing⟩
  | cons bytes rest induction =>
      rw [List.flatten_cons, List.append_assoc] at receiving
      rcases receiving_fill openable receiving.arrive with
        ⟨filled, isFilled, receivingFilled, -, nothingFilled⟩
      rcases induction receivingFilled nothingFilled with
        ⟨final, later, fed, isReceiving, isNothing⟩
      refine ⟨final, later, ?_, isReceiving, isNothing⟩
      rw [feed, receive, receiving.dec]
      simp only [isFilled, Option.bind_some]
      exact fed

theorem receiving_fills
    (openable : AllOpenable crypto key 0 blocks)
    {incoming : Incoming} {future : Bytes} (calls : Nat)
    (receiving :
      Receiving crypto key blocks served
        (incoming.reader.bytes ++ future) opened incoming.conn)
    (nothing : opens blocks opened incoming.conn = 0) :
    ∃ final later,
      fills crypto calls incoming = .ok final ∧
        Receiving crypto key blocks served
            (final.reader.bytes ++ future) later final.conn ∧
          opens blocks later final.conn = 0 := by
  induction calls generalizing incoming opened with
  | zero => exact ⟨incoming, opened, rfl, receiving, nothing⟩
  | succ calls induction =>
      rcases receiving_fillRounds openable
          (Nat.lt_succ_self incoming.reader.bytes.length) receiving with
        ⟨filled, next, middle, isFilled, receivingNext, nothingNext, -⟩
      rcases induction receivingNext nothingNext with
        ⟨final, later, run, isReceiving, isNothing⟩
      refine ⟨final, later, ?_, isReceiving, isNothing⟩
      rw [fills, receiving.dec]
      simp only [Incoming.fillEncrypted, isFilled]
      exact run

/-- An encrypted connection before its first read. -/
theorem receiving_start
    (crypto : Crypto) (key : Key) (enc : Encryptor)
    (blocks : List Bytes) (future : Bytes)
    (stream : future = sealBlocks crypto key 0 blocks) :
    let start := ControlConnection.new.enableEncryption (enc, ⟨key, 0⟩)
    Receiving crypto key blocks [] future 0 start ∧
      opens blocks 0 start = 0 := by
  refine ⟨⟨Nat.zero_le _, rfl, stream, rfl⟩, ?_⟩
  rw [opens]
  cases blocks with
  | nil => rfl
  | cons block rest =>
      apply if_neg
      rw [wireLength]
      exact Nat.not_le_of_gt (by simp [ControlConnection.new,
        ControlConnection.enableEncryption, tagLen])

end Runs

theorem flatten_flatMap_blocksOf (messages : List Bytes) :
    (messages.flatMap blocksOf).flatten = messages.flatten := by
  induction messages with
  | nil => rfl
  | cons message rest induction =>
      rw [List.flatMap_cons, List.flatten_append, induction,
        flatten_blocksOf, List.flatten_cons]

theorem fits_blocksOf
    {messages : List Bytes} {block : Bytes}
    (member : block ∈ messages.flatMap blocksOf) :
    block.length < 2 ^ 16 := by
  rcases List.mem_flatMap.mp member with ⟨message, -, isBlock⟩
  exact
    Nat.lt_of_le_of_lt (length_le_of_mem_chunks isBlock) (by decide)

/-- The two ends of a channel, the sender first. -/
def Peers (crypto : Crypto) (secret : Digest)
    (sender receiver : Encryptor × Decryptor) : Prop :=
  (sender = senderControlChannel crypto secret ∧
      receiver = controlChannel crypto secret) ∨
    (sender = controlChannel crypto secret ∧
      receiver = senderControlChannel crypto secret)

theorem Peers.key
    {crypto : Crypto} {secret : Digest}
    {sender receiver : Encryptor × Decryptor}
    (peers : Peers crypto secret sender receiver) :
    ∃ key enc, sender.1 = ⟨key, 0⟩ ∧ receiver = (enc, ⟨key, 0⟩) := by
  rcases peers with ⟨rfl, rfl⟩ | ⟨rfl, rfl⟩
  · exact ⟨_, _, rfl, rfl⟩
  · exact ⟨_, _, rfl, rfl⟩

/--
Whatever one end encrypts, and however its bytes are cut into reads, no
decryption at the other end fails; after every read, and after every call of
`fill_encrypted`, the plaintext is that of the blocks complete by then, and
after the last byte it is all of the messages.
-/
theorem control_channel_faithful
    (crypto : Crypto) (faithful : Faithful crypto) (secret : Digest)
    (sender receiver : Encryptor × Decryptor)
    (peers : Peers crypto secret sender receiver)
    (messages : List Bytes) :
    let stream := encryptAll crypto sender.1 messages
    let blocks := messages.flatMap blocksOf
    let start := ControlConnection.new.enableEncryption receiver
    (∀ reads : List Bytes, reads.flatten <+: stream →
      ∃ conn,
        feed crypto start reads = some conn ∧
          conn.plain =
              (blocks.take
                (complete blocks reads.flatten.length)).flatten ∧
            (reads.flatten = stream →
              conn.plain = messages.flatten ∧ conn.cipherPending = [])) ∧
      ∀ (reader : Reader) (calls : Nat), reader.bytes <+: stream →
        ∃ incoming,
          fills crypto calls ⟨start, reader⟩ = .ok incoming ∧
            incoming.conn.plain =
                (blocks.take
                  (complete blocks
                    (reader.bytes.length -
                      incoming.reader.bytes.length))).flatten ∧
              (reader.bytes = stream → incoming.reader.bytes = [] →
                incoming.conn.plain = messages.flatten ∧
                  incoming.conn.cipherPending = []) := by
  rcases peers.key with ⟨key, enc, isSender, rfl⟩
  rw [isSender]
  have stream := encryptAll_eq crypto key 0 messages
  rw [Nat.zero_mod] at stream
  have openable :
      AllOpenable crypto key 0 (messages.flatMap blocksOf) :=
    faithful.allOpenable key 0 fun _ member => fits_blocksOf member
  rcases receiving_start crypto key enc _ _ stream with
    ⟨receiving, nothing⟩
  have all := flatten_flatMap_blocksOf messages
  constructor
  · rintro reads ⟨future, split⟩
    rw [← split] at receiving
    rcases receiving_feed openable receiving nothing with
      ⟨final, later, fed, isReceiving, isNothing⟩
    have opened := isReceiving.opened_eq openable isNothing
    rw [← stream, ← split, List.length_append, Nat.add_sub_cancel]
      at opened
    refine ⟨final, fed, ?_, ?_⟩
    · rw [opened]
      exact isReceiving.plain
    · intro whole
      rw [whole] at split
      rw [List.append_right_eq_self.mp split] at isReceiving
      rcases isReceiving.finished openable isNothing with
        ⟨pending, plain⟩
      exact ⟨plain.trans all, pending⟩
  · rintro reader calls ⟨future, split⟩
    rw [← split] at receiving
    rcases @receiving_fills crypto key _ [] 0 openable
        ⟨_, reader⟩ future calls receiving nothing with
      ⟨final, later, run, isReceiving, isNothing⟩
    have opened := isReceiving.opened_eq openable isNothing
    rw [← stream, ← split, List.length_append, List.length_append,
      Nat.add_sub_add_right] at opened
    refine ⟨final, run, ?_, ?_⟩
    · rw [opened]
      exact isReceiving.plain
    · intro whole atEnd
      rw [whole] at split
      rw [List.append_right_eq_self.mp split, atEnd] at isReceiving
      rcases isReceiving.finished openable isNothing with
        ⟨pending, plain⟩
      exact ⟨plain.trans all, pending⟩

/-! ## A request in three reads -/

/-- A session key of zeros. -/
def zeroSecret : Digest :=
  ⟨List.replicate 64 0, List.length_replicate⟩

/-- The key the peer writes with. -/
def sampleWriteKey : Key :=
  ⟨[47, 109, 140, 19, 120, 84, 185, 60, 147, 145, 184, 49, 135, 69, 181,
    154, 144, 184, 185, 17, 76, 84, 83, 45, 86, 20, 119, 133, 155, 112, 99,
    250],
    rfl⟩

/-- The key the peer reads with. -/
def sampleReadKey : Key :=
  ⟨[193, 1, 65, 154, 41, 16, 37, 61, 188, 251, 146, 76, 226, 33, 209, 113,
    202, 48, 238, 67, 3, 1, 51, 146, 21, 62, 121, 210, 78, 25, 239, 161],
    rfl⟩

/-- A request without a body. -/
def samplePlain : Bytes :=
  Lib.Str.asciiBytes "GET /info HTTP/1.1\r\nCSeq: 0\r\n\r\n"

/-- What the AEAD makes of it. -/
def sampleSealed : Bytes :=
  [241, 195, 153, 179, 173, 100, 49, 202, 49, 245, 190, 118, 142, 206, 41,
   208, 40, 54, 250, 41, 91, 168, 171, 208, 0, 9, 106, 25, 139, 57, 132,
   190, 183, 130, 38, 65, 119, 90, 80, 116, 108, 224, 86, 19, 11, 200, 63]

/-- An AEAD that is told what to do with one message. -/
def sampleCrypto : Crypto where
  encrypt key nonce aad plaintext :=
    if
        key = sampleWriteKey ∧ nonce = nonceFor 0 ∧ aad = [31, 0] ∧
          plaintext = samplePlain then
      sampleSealed
    else
      plaintext ++ List.replicate tagLen 0
  decrypt key nonce aad ciphertext :=
    if
        key = sampleWriteKey ∧ nonce = nonceFor 0 ∧ aad = [31, 0] ∧
          ciphertext = sampleSealed then
      some samplePlain
    else if tagLen ≤ ciphertext.length then
      some (ciphertext.take (ciphertext.length - tagLen))
    else
      none
  hkdf _ _ info :=
    if info = controlWriteInfo then sampleWriteKey else sampleReadKey

theorem faithful_sampleCrypto : Faithful sampleCrypto where
  decrypt := by
    intro key nonce aad plaintext
    simp only [sampleCrypto]
    split
    · next known =>
        rw [if_pos ⟨known.1, known.2.1, known.2.2.1, rfl⟩, known.2.2.2]
    · rw [if_neg, if_pos]
      · simp
      · simp
      · rintro ⟨-, -, -, same⟩
        have zero :
            (List.replicate tagLen (0 : UInt8)).getLast? = some 0 := rfl
        have last := congrArg List.getLast? same
        rw [List.getLast?_append, zero, Option.some_or] at last
        exact absurd last (by decide)
  length := by
    intro key nonce aad plaintext
    simp only [sampleCrypto]
    split
    · next known =>
        rw [known.2.2.2]
        rfl
    · simp

/-- The block, with its length. -/
def sampleStream : Bytes :=
  [31, 0] ++ sampleSealed

theorem control_channel_faithful_cut :
    ∃ conn,
      feed sampleCrypto
            (ControlConnection.new.enableEncryption
              (controlChannel sampleCrypto zeroSecret))
            [sampleStream.take 1, (sampleStream.drop 1).take 20,
              sampleStream.drop 21] =
          some conn ∧
        conn.plain = samplePlain ∧ conn.cipherPending = [] := by
  have stream :
      encryptAll sampleCrypto
          (senderControlChannel sampleCrypto zeroSecret).1
          [samplePlain] = sampleStream := by
    decide +kernel
  have cut :
      [sampleStream.take 1, (sampleStream.drop 1).take 20,
        sampleStream.drop 21].flatten = sampleStream := by
    decide
  rcases
      (control_channel_faithful sampleCrypto faithful_sampleCrypto
          zeroSecret _ _ (Or.inl ⟨rfl, rfl⟩) [samplePlain]).1
        [sampleStream.take 1, (sampleStream.drop 1).take 20,
          sampleStream.drop 21]
        (by rw [stream, cut]) with
    ⟨conn, fed, -, whole⟩
  rw [stream] at whole
  exact ⟨conn, fed, whole cut⟩

end OpenAirplay2.Control

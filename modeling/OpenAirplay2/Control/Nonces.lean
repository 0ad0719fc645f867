import OpenAirplay2.Control.Gate
import OpenAirplay2.Lib.Ledger

/-!
# The nonces of the control channel

A cipher half counts its blocks from zero, so its nonces are distinct.  The
halves are replaced whenever `pair-setup` completes, also on a channel that
is encrypted already.  As long as no session key is installed a second time,
every pair of key and nonce is used once in either direction.

Requests and reads are scheduled freely: what `read_request` would make of
the plaintext does not matter here.
-/

namespace OpenAirplay2.Control

open OpenAirplay2.Lib
open OpenAirplay2.Lib.Transition
open OpenAirplay2.Pairing (Bytes Digest completedKey)

variable {Db : Type}

/-- The key the receiver encrypts with. -/
def encryptKey (crypto : Crypto) (sharedSecret : Digest) : Key :=
  deriveKey crypto sharedSecret.1 controlSalt controlReadInfo

/-- The key the receiver decrypts with. -/
def decryptKey (crypto : Crypto) (sharedSecret : Digest) : Key :=
  deriveKey crypto sharedSecret.1 controlSalt controlWriteInfo

/-- A connection, until authentication fails on it. -/
structure Channel (Db : Type) where
  connection : Connection Db
  failed : Bool
deriving DecidableEq

/-- What happens on a channel. -/
inductive ChannelAct where
  /-- The loop handles a request. -/
  | request (input : Input)
  /-- Ciphertext is read from the socket. -/
  | read (bytes : Bytes)
  /-- The pending ciphertext is decrypted. -/
  | decrypt
deriving DecidableEq, Repr

/-- The channel after its pending ciphertext was decrypted. -/
def Channel.decrypt (context : Context Db) (channel : Channel Db) :
    Option (Channel Db) :=
  channel.connection.conn.dec.map fun dec =>
    let filled := channel.connection.conn.fill context.crypto dec
    { connection := { channel.connection with conn := filled.1 }
      failed := !filled.2 }

/-- One connection, its requests and the reads of its socket. -/
def channel (context : Context Db) :
    System (Channel Db) ChannelAct where
  initial := { connection := Connection.new context, failed := false }
  step state act :=
    if state.failed then
      none
    else
      match act with
      | .request input =>
          some
            { state with
              connection := state.connection.handle context input }
      | .read bytes =>
          some
            { state with
              connection :=
                { state.connection with
                  conn := state.connection.conn.arrive bytes } }
      | .decrypt => state.decrypt context

/--
The request does not complete a pairing, or completes it with a session key
that was not installed before.
-/
def Fresh (context : Context Db) (state : Channel Db) :
    ChannelAct → Prop
  | .request input =>
      route state.connection.conn.isEncrypted input.request = .pairSetup →
        ∀ key ∈
            completedKey context.sha512 state.connection.pair
              input.request.body,
          key ∉ state.connection.secrets
  | .read _ => True
  | .decrypt => True

instance (context : Context Db) (state : Channel Db) (act : ChannelAct) :
    Decidable (Fresh context state act) := by
  unfold Fresh
  split <;> infer_instance

/-! ## One direction -/

/--
A cipher half by its key and count.  Every session key installed so far had
a half of its own; the ledger holds what they used, the present one last.
-/
def HalfKept (derive : Digest → Key) (secrets : List Digest)
    (half : Option (Key × Nat)) (ledger : List (Key × Nonce)) : Prop :=
  (secrets = [] ∧ half = none ∧ ledger = []) ∨
    ∃ before secret count,
      secrets = before ++ [secret] ∧
        half = some (derive secret, count) ∧
          Ledger.Kept nonceFor (before.map derive) (derive secret) count
            ledger

section Half

variable
    {derive : Digest → Key}
    {secrets : List Digest}
    {half : Option (Key × Nat)}
    {ledger : List (Key × Nonce)}

/-- Different session keys have different keys. -/
theorem key_fresh
    {before : List Digest} {secret : Digest}
    (injective : Set.InjOn derive { key | key ∈ before ++ [secret] })
    (distinct : (before ++ [secret]).Nodup) :
    derive secret ∉ before.map derive := by
  intro member
  rw [List.mem_map] at member
  rcases member with ⟨other, isBefore, same⟩
  have equal : other = secret := by
    apply injective _ _ same
    · exact List.mem_append_left _ isBefore
    · exact List.mem_append_right _ (List.mem_singleton.mpr rfl)
  rw [List.nodup_append] at distinct
  exact
    distinct.2.2 other isBefore secret (List.mem_singleton.mpr rfl) equal

theorem ledger_nodup
    (kept : HalfKept derive secrets half ledger)
    (injective : Set.InjOn derive { key | key ∈ secrets })
    (distinct : secrets.Nodup)
    (few : ledger.length < 2 ^ 64) :
    ledger.Nodup := by
  rcases kept with ⟨-, -, rfl⟩ | ⟨before, secret, count, rfl, -, kept⟩
  · exact List.nodup_nil
  · apply kept.nodup (key_fresh injective distinct)
    intro left right leftBound rightBound same
    have bound := kept.count_le
    exact
      nonceFor_injective (by omega) (by omega) same

/-- A new session key brings a half that counts from zero. -/
theorem halfKept_install
    (kept : HalfKept derive secrets half ledger)
    (injective : Set.InjOn derive { key | key ∈ secrets })
    (distinct : secrets.Nodup)
    (few : ledger.length < 2 ^ 64)
    (secret : Digest) :
    HalfKept derive (secrets ++ [secret]) (some (derive secret, 0))
      ledger := by
  right
  refine ⟨secrets, secret, 0, rfl, rfl, ?_⟩
  have nodup := ledger_nodup kept injective distinct few
  rcases kept with ⟨rfl, -, rfl⟩ | ⟨before, last, count, rfl, -, kept⟩
  · exact Ledger.Kept.start (derive secret)
  · rw [List.map_append]
    exact kept.install nodup (derive secret)

end Half

/-! ## Blocks -/

section Blocks

variable
    (crypto : Crypto)
    {earlier : List Key}
    {ledger : List (Key × Nonce)}

theorem length_positions_foldl
    (blocks : List Bytes) (sealing : Sealing) :
    (blocks.foldl (Sealing.block crypto) sealing).positions.length =
      sealing.positions.length + blocks.length := by
  induction blocks generalizing sealing with
  | nil => rfl
  | cons block rest induction =>
      rw [List.foldl_cons, induction]
      simp only [Sealing.block, List.length_append, List.length_cons,
        List.length_nil]
      omega

/-- One block more is sealed. -/
theorem kept_block
    {sealing : Sealing}
    (kept :
      Ledger.Kept nonceFor earlier sealing.encryptor.key
        sealing.encryptor.counter (ledger ++ sealing.positions))
    (few : (ledger ++ sealing.positions).length + 1 < 2 ^ 64)
    (block : Bytes) :
    Ledger.Kept nonceFor earlier sealing.encryptor.key
      (sealing.block crypto block).encryptor.counter
      (ledger ++ (sealing.block crypto block).positions) := by
  have bound := kept.count_le
  have noWrap :
      (sealing.encryptor.counter + 1) % 2 ^ 64 =
        sealing.encryptor.counter + 1 :=
    Nat.mod_eq_of_lt (by omega)
  simp only [Sealing.block, noWrap, ← List.append_assoc]
  exact kept.record

theorem kept_foldl
    (blocks : List Bytes) {sealing : Sealing}
    (kept :
      Ledger.Kept nonceFor earlier sealing.encryptor.key
        sealing.encryptor.counter (ledger ++ sealing.positions))
    (few :
      (ledger ++ sealing.positions).length + blocks.length < 2 ^ 64) :
    let final := blocks.foldl (Sealing.block crypto) sealing
    final.encryptor.key = sealing.encryptor.key ∧
      Ledger.Kept nonceFor earlier sealing.encryptor.key
        final.encryptor.counter (ledger ++ final.positions) := by
  induction blocks generalizing sealing with
  | nil => exact ⟨rfl, kept⟩
  | cons block rest induction =>
      rw [List.length_cons] at few
      have sealedOne := kept_block crypto kept (by omega) block
      refine @induction (sealing.block crypto block) sealedOne ?_
      simp only [Sealing.block, List.length_append, List.length_singleton]
        at few ⊢
      omega

/-- An encryption leaves the key alone and its blocks in the ledger. -/
theorem kept_encrypt
    {encryptor : Encryptor} {plaintext : Bytes}
    (kept :
      Ledger.Kept nonceFor earlier encryptor.key encryptor.counter ledger)
    (few :
      (ledger ++ (encryptor.encrypt crypto plaintext).positions).length <
        2 ^ 64) :
    let sealing := encryptor.encrypt crypto plaintext
    sealing.encryptor.key = encryptor.key ∧
      Ledger.Kept nonceFor earlier encryptor.key
        sealing.encryptor.counter (ledger ++ sealing.positions) := by
  apply kept_foldl crypto
  · simpa using kept
  · simpa [Encryptor.encrypt, length_positions_foldl] using few

/-- A round opens a block at the present count, or opens nothing. -/
theorem block_cases
    {opening next : Opening}
    (processed : opening.block crypto = some next) :
    (next.decryptor = opening.decryptor ∧
        next.positions = opening.positions) ∨
      (next.decryptor =
          { opening.decryptor with
            counter := (opening.decryptor.counter + 1) % 2 ^ 64 } ∧
        next.positions =
          opening.positions ++
            [(opening.decryptor.key,
              nonceFor opening.decryptor.counter)]) := by
  rcases of_block_eq_some processed with
    ⟨_, low, high, body, _, rfl | ⟨plaintext, _, rfl⟩⟩
  · exact Or.inl ⟨rfl, rfl⟩
  · exact Or.inr ⟨rfl, rfl⟩

theorem positions_blocks (fuel : Nat) (opening : Opening) :
    opening.positions <+: (opening.blocks crypto fuel).positions := by
  induction fuel generalizing opening with
  | zero => exact List.prefix_refl _
  | succ fuel induction =>
      rw [Opening.blocks]
      split
      · exact List.prefix_refl _
      · next following processed =>
          have later := induction following
          rcases block_cases crypto processed with
            ⟨-, same⟩ | ⟨-, grown⟩
          · rwa [same] at later
          · rw [grown] at later
            exact (List.prefix_append _ _).trans later

theorem kept_blocks
    (fuel : Nat) {opening : Opening}
    (kept :
      Ledger.Kept nonceFor earlier opening.decryptor.key
        opening.decryptor.counter (ledger ++ opening.positions))
    (few :
      (ledger ++ (opening.blocks crypto fuel).positions).length <
        2 ^ 64) :
    let final := opening.blocks crypto fuel
    final.decryptor.key = opening.decryptor.key ∧
      Ledger.Kept nonceFor earlier opening.decryptor.key
        final.decryptor.counter (ledger ++ final.positions) := by
  induction fuel generalizing opening with
  | zero => exact ⟨rfl, kept⟩
  | succ fuel induction =>
      simp only [Opening.blocks] at few ⊢
      split at few
      · exact ⟨rfl, kept⟩
      · next following processed =>
          rcases block_cases crypto processed with
            ⟨sameHalf, same⟩ | ⟨counted, grown⟩
          · rw [← sameHalf, ← same] at kept
            rw [← sameHalf]
            exact induction kept few
          · have bound := kept.count_le
            have later :=
              (positions_blocks crypto fuel following).length_le
            have opened : following.positions.length =
                opening.positions.length + 1 := by
              rw [grown, List.length_append, List.length_singleton]
            rw [List.length_append] at few bound
            have noWrap :
                (opening.decryptor.counter + 1) % 2 ^ 64 =
                  opening.decryptor.counter + 1 :=
              Nat.mod_eq_of_lt (by omega)
            have recorded := kept.record
            rw [List.append_assoc, ← grown, ← noWrap] at recorded
            have sameKey :
                following.decryptor.key = opening.decryptor.key := by
              rw [counted]
            rw [← sameKey]
            apply induction
            · rw [counted]
              exact recorded
            · rw [List.length_append]
              exact few

/-- So does a decryption. -/
theorem kept_decryptAvailable
    {decryptor : Decryptor} {input : Bytes}
    (kept :
      Ledger.Kept nonceFor earlier decryptor.key decryptor.counter ledger)
    (few :
      (ledger ++
          (decryptor.decryptAvailable crypto input).positions).length <
        2 ^ 64) :
    let opening := decryptor.decryptAvailable crypto input
    opening.decryptor.key = decryptor.key ∧
      Ledger.Kept nonceFor earlier decryptor.key
        opening.decryptor.counter (ledger ++ opening.positions) := by
  apply kept_blocks crypto _ _ few
  simpa using kept

end Blocks

/-! ## Both directions -/

/-- The session keys differ and both ledgers are kept. -/
structure Accounted
    (crypto : Crypto) (conn : ControlConnection)
    (secrets : List Digest) : Prop where
  distinct : secrets.Nodup
  outbound :
    HalfKept (encryptKey crypto) secrets
      (conn.enc.map fun enc => (enc.key, enc.counter)) conn.sealed
  inbound :
    HalfKept (decryptKey crypto) secrets
      (conn.dec.map fun dec => (dec.key, dec.counter)) conn.accepted

/--
Fewer than `2 ^ 64` blocks in either direction, and different channel keys
for the session keys that were installed.
-/
structure Bounded
    (crypto : Crypto) (conn : ControlConnection)
    (secrets : List Digest) : Prop where
  fewSealed : conn.sealed.length < 2 ^ 64
  fewAccepted : conn.accepted.length < 2 ^ 64
  encryptKeys : Set.InjOn (encryptKey crypto) { key | key ∈ secrets }
  decryptKeys : Set.InjOn (decryptKey crypto) { key | key ∈ secrets }

/-- The ledgers and the session keys are only added to. -/
structure Grows (earlier later : Connection Db) : Prop where
  sealed : earlier.conn.sealed <+: later.conn.sealed
  accepted : earlier.conn.accepted <+: later.conn.accepted
  secrets : earlier.secrets <+: later.secrets

namespace Grows

/-- Nothing is added where the channel and the keys stay the same. -/
theorem of_eq
    {earlier later : Connection Db}
    (sameConn : later.conn = earlier.conn)
    (sameSecrets : later.secrets = earlier.secrets) :
    Grows earlier later where
  sealed := by rw [sameConn]
  accepted := by rw [sameConn]
  secrets := by rw [sameSecrets]

theorem trans
    {first second third : Connection Db}
    (before : Grows first second) (after : Grows second third) :
    Grows first third where
  sealed := before.sealed.trans after.sealed
  accepted := before.accepted.trans after.accepted
  secrets := before.secrets.trans after.secrets

/-- What bounds the later connection bounds the earlier one. -/
theorem bounded
    {crypto : Crypto} {earlier later : Connection Db}
    (grows : Grows earlier later)
    (bounded : Bounded crypto later.conn later.secrets) :
    Bounded crypto earlier.conn earlier.secrets where
  fewSealed :=
    Nat.lt_of_le_of_lt grows.sealed.length_le bounded.fewSealed
  fewAccepted :=
    Nat.lt_of_le_of_lt grows.accepted.length_le bounded.fewAccepted
  encryptKeys :=
    bounded.encryptKeys.mono fun _ member => grows.secrets.subset member
  decryptKeys :=
    bounded.decryptKeys.mono fun _ member => grows.secrets.subset member

end Grows

section Steps

variable
    (context : Context Db)
    (connection : Connection Db)

theorem sealed_write (conn : ControlConnection) (bytes : Bytes) :
    conn.sealed <+: (conn.write context.crypto bytes).sealed := by
  unfold ControlConnection.write
  split
  · exact List.prefix_refl _
  · exact List.prefix_append _ _

@[simp]
theorem accepted_write (conn : ControlConnection) (bytes : Bytes) :
    (conn.write context.crypto bytes).accepted = conn.accepted := by
  unfold ControlConnection.write
  split <;> rfl

@[simp]
theorem dec_write (conn : ControlConnection) (bytes : Bytes) :
    (conn.write context.crypto bytes).dec = conn.dec := by
  unfold ControlConnection.write
  split <;> rfl

theorem grows_handle (input : Input) :
    Grows connection (connection.handle context input) := by
  rcases handle_cases context connection input with
    ⟨response, -, ⟨conn, secrets⟩ | ⟨key, -, -, conn, secrets⟩⟩
  · constructor
    · rw [conn]
      exact sealed_write context _ _
    · rw [conn, accepted_write]
    · rw [secrets]
  · constructor
    · rw [conn]
      exact sealed_write context _ _
    · rw [conn]
      show _ <+: (connection.conn.write _ _).accepted
      rw [accepted_write]
    · rw [secrets]
      exact List.prefix_append _ _

/-- What a decryption leaves alone, and what it adds. -/
theorem fill_spec (conn : ControlConnection) (dec : Decryptor) :
    let filled := (conn.fill context.crypto dec).1
    let opening := dec.decryptAvailable context.crypto conn.cipherPending
    filled.enc = conn.enc ∧ filled.sealed = conn.sealed ∧
      filled.dec = some opening.decryptor ∧
        filled.accepted = conn.accepted ++ opening.positions := by
  simp only [ControlConnection.fill]
  split
  · exact ⟨rfl, rfl, rfl, rfl⟩
  · exact ⟨rfl, rfl, rfl, rfl⟩

/-- Every act only adds to the ledgers and the keys. -/
theorem grows_step
    {state next : Channel Db} {act : ChannelAct}
    (stepped : (channel context).step state act = some next) :
    Grows state.connection next.connection := by
  simp only [channel] at stepped
  split at stepped
  · cases stepped
  · cases act with
    | request input =>
        cases stepped
        exact grows_handle context state.connection input
    | read bytes =>
        cases stepped
        exact ⟨List.prefix_refl _, List.prefix_refl _, List.prefix_refl _⟩
    | decrypt =>
        simp only [Channel.decrypt, Option.map_eq_some_iff] at stepped
        rcases stepped with ⟨dec, -, rfl⟩
        rcases fill_spec context state.connection.conn dec with
          ⟨-, sealed, -, accepted⟩
        constructor
        · show _ <+: (state.connection.conn.fill _ dec).1.sealed
          rw [sealed]
        · show _ <+: (state.connection.conn.fill _ dec).1.accepted
          rw [accepted]
          exact List.prefix_append _ _
        · exact List.prefix_refl _

theorem grows_exec
    {state final : Channel Db} {schedule : List ChannelAct}
    (reached : (channel context).exec state schedule = some final) :
    Grows state.connection final.connection := by
  induction schedule generalizing state with
  | nil =>
      rw [System.exec_nil, Option.some.injEq] at reached
      rw [reached]
      exact ⟨List.prefix_refl _, List.prefix_refl _, List.prefix_refl _⟩
  | cons act rest induction =>
      rw [System.exec_cons_iff] at reached
      rcases reached with ⟨next, stepped, reachedRest⟩
      exact (grows_step context stepped).trans (induction reachedRest)

/-- A half in use is the one of the last session key, and goes on as such. -/
theorem halfKept_use
    {derive : Digest → Key} {secrets : List Digest}
    {key laterKey : Key} {count later : Nat}
    {ledger extended : List (Key × Nonce)}
    (kept : HalfKept derive secrets (some (key, count)) ledger)
    (goesOn :
      ∀ earlier,
        Ledger.Kept nonceFor earlier key count ledger →
          laterKey = key ∧
            Ledger.Kept nonceFor earlier key later extended) :
    HalfKept derive secrets (some (laterKey, later)) extended := by
  rcases kept with
    ⟨-, impossible, -⟩ | ⟨before, secret, present, isLast, isHalf, kept⟩
  · cases impossible
  · rw [Option.some.injEq, Prod.mk.injEq] at isHalf
    rcases isHalf with ⟨rfl, rfl⟩
    rcases goesOn _ kept with ⟨rfl, keptOn⟩
    exact Or.inr ⟨before, secret, later, isLast, rfl, keptOn⟩

theorem accounted_write
    {conn : ControlConnection} {secrets : List Digest} {bytes : Bytes}
    (accounted : Accounted context.crypto conn secrets)
    (bounded :
      Bounded context.crypto (conn.write context.crypto bytes) secrets) :
    Accounted context.crypto (conn.write context.crypto bytes)
      secrets where
  distinct := accounted.distinct
  outbound := by
    have outbound := accounted.outbound
    have few := bounded.fewSealed
    cases enc : conn.enc with
    | none =>
        simpa only [ControlConnection.write, enc] using outbound
    | some sealer =>
        simp only [ControlConnection.write, enc, Option.map_some]
          at outbound few ⊢
        exact
          halfKept_use outbound fun _ kept =>
            kept_encrypt context.crypto kept few
  inbound := by
    rw [dec_write, accepted_write]
    exact accounted.inbound

theorem accounted_install
    {conn : ControlConnection} {secrets : List Digest} {secret : Digest}
    (accounted : Accounted context.crypto conn secrets)
    (bounded : Bounded context.crypto conn secrets)
    (fresh : secret ∉ secrets) :
    Accounted context.crypto
      (conn.enableEncryption (controlChannel context.crypto secret))
      (secrets ++ [secret]) where
  distinct := by
    rw [List.nodup_append]
    refine ⟨accounted.distinct, List.nodup_singleton _, ?_⟩
    intro other isEarlier last isLast same
    rw [List.mem_singleton] at isLast
    exact fresh (isLast ▸ same ▸ isEarlier)
  outbound :=
    halfKept_install accounted.outbound bounded.encryptKeys
      accounted.distinct bounded.fewSealed secret
  inbound :=
    halfKept_install accounted.inbound bounded.decryptKeys
      accounted.distinct bounded.fewAccepted secret

theorem accounted_fill
    {conn : ControlConnection} {secrets : List Digest} {dec : Decryptor}
    (isDec : conn.dec = some dec)
    (accounted : Accounted context.crypto conn secrets)
    (bounded :
      Bounded context.crypto (conn.fill context.crypto dec).1 secrets) :
    Accounted context.crypto (conn.fill context.crypto dec).1
      secrets where
  distinct := accounted.distinct
  outbound := by
    rcases fill_spec context conn dec with ⟨enc, sealed, -, -⟩
    rw [enc, sealed]
    exact accounted.outbound
  inbound := by
    have inbound := accounted.inbound
    have few := bounded.fewAccepted
    rcases fill_spec context conn dec with ⟨-, -, opened, accepted⟩
    rw [accepted] at few
    rw [accepted, opened, Option.map_some]
    rw [isDec, Option.map_some] at inbound
    exact
      halfKept_use inbound fun _ kept =>
        kept_decryptAvailable context.crypto kept few

/-- A request that is fresh keeps the accounts. -/
theorem accounted_handle
    {input : Input}
    (accounted :
      Accounted context.crypto connection.conn connection.secrets)
    (bounded :
      Bounded context.crypto (connection.handle context input).conn
        (connection.handle context input).secrets)
    (fresh :
      route connection.conn.isEncrypted input.request = .pairSetup →
        ∀ key ∈
            completedKey context.sha512 connection.pair
              input.request.body,
          key ∉ connection.secrets) :
    Accounted context.crypto (connection.handle context input).conn
      (connection.handle context input).secrets := by
  rcases handle_cases context connection input with
    ⟨response, -, ⟨conn, secrets⟩ | ⟨key, routed, completed, conn, secrets⟩⟩
  · rw [conn, secrets] at bounded ⊢
    exact accounted_write context accounted bounded
  · rw [conn, secrets] at bounded ⊢
    have isFresh : key ∉ connection.secrets := fresh routed key completed
    have boundedBefore :
        Bounded context.crypto
          (connection.conn.write context.crypto response.toBytes)
          connection.secrets :=
      { fewSealed := bounded.fewSealed
        fewAccepted := bounded.fewAccepted
        encryptKeys :=
          bounded.encryptKeys.mono fun _ member =>
            List.mem_append_left _ member
        decryptKeys :=
          bounded.decryptKeys.mono fun _ member =>
            List.mem_append_left _ member }
    exact
      accounted_install context
        (accounted_write context accounted boundedBefore)
        boundedBefore isFresh

theorem accounted_step
    {state next : Channel Db} {act : ChannelAct}
    (accounted :
      Accounted context.crypto state.connection.conn
        state.connection.secrets)
    (bounded :
      Bounded context.crypto next.connection.conn
        next.connection.secrets)
    (fresh : Fresh context state act)
    (stepped : (channel context).step state act = some next) :
    Accounted context.crypto next.connection.conn
      next.connection.secrets := by
  simp only [channel] at stepped
  split at stepped
  · cases stepped
  · cases act with
    | request input =>
        cases stepped
        exact
          accounted_handle context state.connection accounted bounded fresh
    | read bytes =>
        cases stepped
        exact
          { distinct := accounted.distinct
            outbound := accounted.outbound
            inbound := accounted.inbound }
    | decrypt =>
        simp only [Channel.decrypt, Option.map_eq_some_iff] at stepped
        rcases stepped with ⟨dec, isDec, rfl⟩
        exact accounted_fill context isDec accounted bounded

theorem accounted_new :
    Accounted context.crypto (Connection.new context).conn
      (Connection.new context).secrets where
  distinct := List.nodup_nil
  outbound := Or.inl ⟨rfl, rfl, rfl⟩
  inbound := Or.inl ⟨rfl, rfl, rfl⟩

/--
No pair of key and nonce is used twice in either direction, in any run that
installs no session key a second time.
-/
theorem nonces_unrepeated
    (schedule : List ChannelAct) (final : Channel Db)
    (fresh :
      (channel context).Meets (Fresh context) (channel context).initial
        schedule)
    (reached :
      (channel context).exec (channel context).initial schedule =
        some final)
    (bounded :
      Bounded context.crypto final.connection.conn
        final.connection.secrets) :
    final.connection.conn.sealed.Nodup ∧
      final.connection.conn.accepted.Nodup := by
  have accounted :
      Accounted context.crypto final.connection.conn
        final.connection.secrets := by
    apply
      System.invariant_of_meets
        (fun state =>
          Accounted context.crypto state.connection.conn
            state.connection.secrets)
        ?_ (accounted_new context)
        (fresh.and (System.meets_toward reached)) reached
    rintro state act next accounted ⟨isFresh, toward⟩ stepped
    rcases toward next stepped with ⟨rest, reachedRest⟩
    exact
      accounted_step context accounted
        ((grows_exec context reachedRest).bounded bounded) isFresh stepped
  constructor
  · exact
      ledger_nodup accounted.outbound bounded.encryptKeys
        accounted.distinct bounded.fewSealed
  · exact
      ledger_nodup accounted.inbound bounded.decryptKeys
        accounted.distinct bounded.fewAccepted

end Steps

/-! ## A session key installed again -/

/-- A `pair-setup` request with the body. -/
def pairingInput (body : Bytes) : Input :=
  { plainInput "POST" "/pair-setup" with
    request :=
      { (plainInput "POST" "/pair-setup").request with body := body } }

/-- An M3 with the public key 5 and a proof of 64 zero bytes. -/
def provingBody : Bytes :=
  [6, 1, 3, 3, 1, 5, 4, 64] ++ List.replicate 64 0

/-- The exchange with the zero hash, and a request on the new channel. -/
def pairedSchedule : List ChannelAct :=
  [.request (pairingInput Pairing.openingBody),
    .request (pairingInput provingBody),
    .request (plainInput "GET" "/info")]

/-- The M3 is sent once more before the request. -/
def replaySchedule : List ChannelAct :=
  [.request (pairingInput Pairing.openingBody),
    .request (pairingInput provingBody),
    .request (pairingInput provingBody),
    .request (plainInput "GET" "/info")]

/-- A connection whose only session key is 64 zero bytes. -/
theorem bounded_of_zeroKey
    {conn : ControlConnection} {secrets : List Digest}
    (fewSealed : conn.sealed.length < 2 ^ 64)
    (fewAccepted : conn.accepted.length < 2 ^ 64)
    (zero : ∀ key ∈ secrets, key = Pairing.zeros 64) :
    Bounded bareContext.crypto conn secrets where
  fewSealed := fewSealed
  fewAccepted := fewAccepted
  encryptKeys := fun left isLeft right isRight _ =>
    (zero left isLeft).trans (zero right isRight).symm
  decryptKeys := fun left isLeft right isRight _ =>
    (zero left isLeft).trans (zero right isRight).symm

theorem nonces_unrepeated_paired :
    ∃ final,
      (channel bareContext).exec (channel bareContext).initial
          pairedSchedule =
        some final ∧
      final.connection.conn.sealed.Nodup ∧
        final.connection.conn.accepted.Nodup :=
  ⟨_, rfl,
    nonces_unrepeated bareContext pairedSchedule _ (by decide +kernel) rfl
      (bounded_of_zeroKey (by decide +kernel) (by decide +kernel)
        (by decide +kernel))⟩

/-- The replayed M3 puts the cipher back to its first nonce. -/
theorem nonce_repeated :
    ¬ ∀ (context : Context Unit) (schedule : List ChannelAct)
        (final : Channel Unit),
      (channel context).exec (channel context).initial schedule =
          some final →
        Bounded context.crypto final.connection.conn
            final.connection.secrets →
          final.connection.conn.sealed.Nodup ∧
            final.connection.conn.accepted.Nodup := by
  intro claim
  have unrepeated :=
    claim bareContext replaySchedule _ rfl
      (bounded_of_zeroKey (by decide +kernel) (by decide +kernel)
        (by decide +kernel))
  exact absurd unrepeated.1 (by decide +kernel)

end OpenAirplay2.Control

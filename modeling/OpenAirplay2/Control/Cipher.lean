import OpenAirplay2.Lib.Str
import OpenAirplay2.Pairing.Srp

/-!
# The encrypted control channel

The stream is a sequence of blocks, each the little-endian length of the
plaintext followed by the ciphertext with its tag.  The length is the
associated data; the nonce is four zero bytes and the block counter.  The
directions have a key and a counter each.

The AEAD and the key derivation are parameters.  `positions` lists the keys
and nonces of the blocks that were processed and only serves the statements.
-/

namespace OpenAirplay2.Control

open OpenAirplay2.Lib.Str
open OpenAirplay2.Pairing (Bytes Digest)

abbrev Key := { bytes : Bytes // bytes.length = 32 }

abbrev Nonce := { bytes : Bytes // bytes.length = 12 }

/-- `ChaCha20Poly1305` and the HKDF over SHA-512. -/
structure Crypto where
  /-- Key, nonce, associated data and plaintext. -/
  encrypt : Key → Nonce → Bytes → Bytes → Bytes
  /-- Key, nonce, associated data and ciphertext. -/
  decrypt : Key → Nonce → Bytes → Bytes → Option Bytes
  /-- Salt, input key and info. -/
  hkdf : Bytes → Bytes → Bytes → Key

def blockMax : Nat := 1024

def tagLen : Nat := 16

def controlSalt : Bytes := asciiBytes "Control-Salt"

def controlWriteInfo : Bytes := asciiBytes "Control-Write-Encryption-Key"

def controlReadInfo : Bytes := asciiBytes "Control-Read-Encryption-Key"

/-- `derive_key`. -/
def deriveKey (crypto : Crypto) (sharedSecret salt info : Bytes) : Key :=
  crypto.hkdf salt sharedSecret info

/-- The little-endian bytes of a number, `count` of them. -/
def toLeBytes : Nat → Nat → Bytes
  | 0, _ => []
  | count + 1, value =>
      UInt8.ofNat value :: toLeBytes count (value / 256)

@[simp]
theorem length_toLeBytes (count value : Nat) :
    (toLeBytes count value).length = count := by
  induction count generalizing value with
  | zero => rfl
  | succ count induction => simp [toLeBytes, induction]

/-- Numbers that fit into the bytes are told apart by them. -/
theorem toLeBytes_injective
    {count left right : Nat}
    (leftBound : left < 256 ^ count)
    (rightBound : right < 256 ^ count)
    (same : toLeBytes count left = toLeBytes count right) :
    left = right := by
  induction count generalizing left right with
  | zero => omega
  | succ count induction =>
      rw [toLeBytes, toLeBytes, List.cons.injEq] at same
      rcases same with ⟨sameByte, sameRest⟩
      have lowByte : left % 256 = right % 256 := by
        simpa using congrArg UInt8.toNat sameByte
      have rest : left / 256 = right / 256 := by
        apply induction _ _ sameRest
        · exact Nat.div_lt_of_lt_mul (by rwa [Nat.pow_succ'] at leftBound)
        · exact
            Nat.div_lt_of_lt_mul (by rwa [Nat.pow_succ'] at rightBound)
      omega

/-- `nonce_for`. -/
def nonceFor (counter : Nat) : Nonce :=
  ⟨List.replicate 4 0 ++ toLeBytes 8 counter, by simp⟩

theorem nonceFor_injective
    {left right : Nat}
    (leftBound : left < 2 ^ 64)
    (rightBound : right < 2 ^ 64)
    (same : nonceFor left = nonceFor right) :
    left = right := by
  rw [nonceFor, nonceFor, Subtype.mk.injEq] at same
  exact
    toLeBytes_injective leftBound rightBound
      (List.append_cancel_left same)

/-! ## Outbound -/

structure Encryptor where
  key : Key
  counter : Nat
deriving DecidableEq, Repr

/-- `slice::chunks`, at most as many as the slice is long. -/
def chunks (size : Nat) : Nat → Bytes → List Bytes
  | _, [] => []
  | 0, _ :: _ => []
  | fuel + 1, bytes =>
      bytes.take size :: chunks size fuel (bytes.drop size)

/-- Where an encryption stands: the cipher, the output and its positions. -/
structure Sealing where
  encryptor : Encryptor
  out : Bytes
  positions : List (Key × Nonce)
deriving DecidableEq, Repr

/-- One round of the loop of `encrypt`. -/
def Sealing.block (crypto : Crypto) (sealing : Sealing) (block : Bytes) :
    Sealing :=
  let enc := sealing.encryptor
  let aad := toLeBytes 2 block.length
  let nonce := nonceFor enc.counter
  { encryptor := { enc with counter := (enc.counter + 1) % 2 ^ 64 }
    out := sealing.out ++ aad ++ crypto.encrypt enc.key nonce aad block
    positions := sealing.positions ++ [(enc.key, nonce)] }

/-- Encrypt a plaintext into one or more blocks. -/
def Encryptor.encrypt (crypto : Crypto) (encryptor : Encryptor)
    (plaintext : Bytes) : Sealing :=
  (chunks blockMax plaintext.length plaintext).foldl
    (Sealing.block crypto)
    { encryptor := encryptor, out := [], positions := [] }

/-! ## Inbound -/

structure Decryptor where
  key : Key
  counter : Nat
deriving DecidableEq, Repr

/-- Where a decryption stands: the cipher, the plaintext, the input left. -/
structure Opening where
  decryptor : Decryptor
  plaintext : Bytes
  rest : Bytes
  positions : List (Key × Nonce)
  failed : Bool
deriving DecidableEq, Repr

/-- One round of the loop of `decrypt_available`; `none` ends the loop. -/
def Opening.block (crypto : Crypto) (opening : Opening) :
    Option Opening :=
  match opening.rest with
  | low :: high :: body =>
      let len := low.toNat + 256 * high.toNat
      if opening.failed || body.length < len + tagLen then
        none
      else
        let dec := opening.decryptor
        let nonce := nonceFor dec.counter
        match
          crypto.decrypt dec.key nonce [low, high]
            (body.take (len + tagLen))
        with
        | none => some { opening with failed := true }
        | some plaintext =>
            some
              { decryptor :=
                  { dec with counter := (dec.counter + 1) % 2 ^ 64 }
                plaintext := opening.plaintext ++ plaintext
                rest := body.drop (len + tagLen)
                positions := opening.positions ++ [(dec.key, nonce)]
                failed := false }
  | _ => none

/-- The loop; every round but a failing one takes two bytes or more. -/
def Opening.blocks (crypto : Crypto) : Nat → Opening → Opening
  | 0, opening => opening
  | fuel + 1, opening =>
      match opening.block crypto with
      | none => opening
      | some next => next.blocks crypto fuel

/-- A round that is made fails at a block, or opens it. -/
theorem of_block_eq_some
    {crypto : Crypto} {opening next : Opening}
    (processed : opening.block crypto = some next) :
    opening.failed = false ∧
      ∃ low high body,
        opening.rest = low :: high :: body ∧
          (next = { opening with failed := true } ∨
            ∃ plaintext,
              crypto.decrypt opening.decryptor.key
                    (nonceFor opening.decryptor.counter) [low, high]
                    (body.take
                      (low.toNat + 256 * high.toNat + tagLen)) =
                  some plaintext ∧
                next =
                  { decryptor :=
                      { opening.decryptor with
                        counter :=
                          (opening.decryptor.counter + 1) % 2 ^ 64 }
                    plaintext := opening.plaintext ++ plaintext
                    rest :=
                      body.drop
                        (low.toNat + 256 * high.toNat + tagLen)
                    positions :=
                      opening.positions ++
                        [(opening.decryptor.key,
                          nonceFor opening.decryptor.counter)]
                    failed := false }) := by
  unfold Opening.block at processed
  split at processed
  · next low high body rest =>
      simp only at processed
      split at processed
      · cases processed
      · next complete =>
          simp only [Bool.or_eq_true, not_or, Bool.not_eq_true]
            at complete
          refine ⟨complete.1, low, high, body, rest, ?_⟩
          split at processed
          · cases processed
            exact Or.inl rfl
          · next plaintext decrypted =>
              cases processed
              exact Or.inr ⟨plaintext, decrypted, rfl⟩
  · cases processed

/-- What a round costs: a byte of the input, or the failure. -/
theorem block_rest
    {crypto : Crypto} {opening next : Opening}
    (processed : opening.block crypto = some next) :
    opening.failed = false ∧
      (next.failed = true ∨ next.rest.length < opening.rest.length) := by
  rcases of_block_eq_some processed with
    ⟨alive, low, high, body, rest, rfl | ⟨plaintext, _, rfl⟩⟩
  · exact ⟨alive, Or.inl rfl⟩
  · refine ⟨alive, Or.inr ?_⟩
    simp only [rest, List.length_cons, List.length_drop]
    omega

theorem block_failed
    (crypto : Crypto) {opening : Opening}
    (failed : opening.failed = true) :
    opening.block crypto = none := by
  cases processed : opening.block crypto with
  | none => rfl
  | some next =>
      have alive := (block_rest processed).1
      rw [failed] at alive
      cases alive

/-- After a failure the loop does nothing. -/
theorem blocks_failed
    (crypto : Crypto) (fuel : Nat) {opening : Opening}
    (failed : opening.failed = true) :
    opening.blocks crypto fuel = opening := by
  cases fuel with
  | zero => rfl
  | succ fuel => rw [Opening.blocks, block_failed crypto failed]

/-- The loop ends before the rounds it is granted do. -/
theorem blocks_fuel
    (crypto : Crypto) (fuel extra : Nat) (opening : Opening)
    (enough : opening.rest.length < fuel) :
    opening.blocks crypto (fuel + extra) =
      opening.blocks crypto fuel := by
  induction fuel generalizing opening with
  | zero => omega
  | succ fuel induction =>
      rw [Nat.succ_add]
      simp only [Opening.blocks]
      split
      · rfl
      · next following processed =>
          rcases (block_rest processed).2 with failed | shorter
          · rw [blocks_failed crypto _ failed,
              blocks_failed crypto _ failed]
          · exact induction following (by omega)

/-- Decrypt the complete blocks at the front of the input. -/
def Decryptor.decryptAvailable (crypto : Crypto) (decryptor : Decryptor)
    (input : Bytes) : Opening :=
  Opening.blocks crypto (input.length + 1)
    { decryptor := decryptor
      plaintext := []
      rest := input
      positions := []
      failed := false }

/-- `control_channel`: the cipher halves of the receiver. -/
def controlChannel (crypto : Crypto) (sharedSecret : Digest) :
    Encryptor × Decryptor :=
  ({ key := deriveKey crypto sharedSecret.1 controlSalt controlReadInfo
     counter := 0 },
    { key := deriveKey crypto sharedSecret.1 controlSalt controlWriteInfo
      counter := 0 })

/-- `sender_control_channel`: the cipher halves of the peer. -/
def senderControlChannel (crypto : Crypto) (sharedSecret : Digest) :
    Encryptor × Decryptor :=
  ({ key := deriveKey crypto sharedSecret.1 controlSalt controlWriteInfo
     counter := 0 },
    { key := deriveKey crypto sharedSecret.1 controlSalt controlReadInfo
      counter := 0 })

/-! ## The connection -/

/-- `ControlConnection`, with all that was written and all positions used. -/
structure ControlConnection where
  enc : Option Encryptor
  dec : Option Decryptor
  plain : Bytes
  cipherPending : Bytes
  written : Bytes
  sealed : List (Key × Nonce)
  accepted : List (Key × Nonce)
deriving DecidableEq, Repr

namespace ControlConnection

def new : ControlConnection where
  enc := none
  dec := none
  plain := []
  cipherPending := []
  written := []
  sealed := []
  accepted := []

def enableEncryption (conn : ControlConnection)
    (halves : Encryptor × Decryptor) : ControlConnection :=
  { conn with enc := some halves.1, dec := some halves.2 }

def isEncrypted (conn : ControlConnection) : Bool :=
  conn.enc.isSome

/-- `write_response`, of the serialized response. -/
def write (crypto : Crypto) (conn : ControlConnection) (bytes : Bytes) :
    ControlConnection :=
  match conn.enc with
  | none => { conn with written := conn.written ++ bytes }
  | some enc =>
      let sealing := enc.encrypt crypto bytes
      { conn with
        enc := some sealing.encryptor
        written := conn.written ++ sealing.out
        sealed := conn.sealed ++ sealing.positions }

/-- Ciphertext arrives from the reader. -/
def arrive (conn : ControlConnection) (bytes : Bytes) :
    ControlConnection :=
  { conn with cipherPending := conn.cipherPending ++ bytes }

/--
The decryption in a round of `fill_encrypted`; `none` if authentication fails,
with the positions that were accepted before.
-/
def fill (crypto : Crypto) (conn : ControlConnection)
    (dec : Decryptor) : ControlConnection × Bool :=
  let opening := dec.decryptAvailable crypto conn.cipherPending
  let opened :=
    { conn with
      dec := some opening.decryptor
      accepted := conn.accepted ++ opening.positions }
  if opening.failed then
    (opened, false)
  else
    ({ opened with
      plain := conn.plain ++ opening.plaintext
      cipherPending := opening.rest }, true)

end ControlConnection

end OpenAirplay2.Control

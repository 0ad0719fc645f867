import OpenAirplay2.Pairing.Tlv
import Mathlib.Data.Nat.Digits.Defs

/-!
# SRP-6a, server side

The HomeKit variant used by `pair-setup`: the RFC 5054 3072-bit group, `g = 5`
and SHA-512.  The hash is a parameter.  The random draws of a server, its salt
and its secret exponent, are arguments of `new`.

`checked` counts the client proofs compared with the expected one.  It only
serves the statements.
-/

namespace OpenAirplay2.Pairing

/-- 64 bytes: a SHA-512 digest, a proof or a session key. -/
abbrev Digest := { bytes : Bytes // bytes.length = 64 }

/-- `str::as_bytes`. -/
def asBytes (text : String) : Bytes :=
  text.toUTF8.toList

/-- `BigUint::from_bytes_be`. -/
def fromBytesBe (bytes : Bytes) : Nat :=
  bytes.foldl (fun value byte => value * 256 + byte.toNat) 0

/-- `BigUint::to_bytes_be`: minimal, and a single zero byte for zero. -/
def toBytesBe (value : Nat) : Bytes :=
  if value = 0 then [0]
  else ((Nat.digits 256 value).map UInt8.ofNat).reverse

/-- `BigUint::modpow`. -/
def modpow (base exponent modulus : Nat) : Nat :=
  base ^ exponent % modulus

def username : String := "Pair-Setup"

def nLen : Nat := 384

/-- The hexadecimal lines of the RFC 5054 3072-bit group prime, but the last. -/
def groupLines : List Nat :=
  [ 0xFFFFFFFFFFFFFFFFC90FDAA22168C234C4C6628B80DC1CD129024E088A67CC74020BBEA63B,
    0x139B22514A08798E3404DDEF9519B3CD3A431B302B0A6DF25F14374FE1356D6D51C245E485,
    0xB576625E7EC6F44C42E9A637ED6B0BFF5CB6F406B7EDEE386BFB5A899FA5AE9F24117C4B1F,
    0xE649286651ECE45B3DC2007CB8A163BF0598DA48361C55D39A69163FA8FD24CF5F83655D23,
    0xDCA3AD961C62F356208552BB9ED529077096966D670C354E4ABC9804F1746C08CA18217C32,
    0x905E462E36CE3BE39E772C180E86039B2783A2EC07A28FB5C55DF06F4C52C9DE2BCBF69558,
    0x17183995497CEA956AE515D2261898FA051015728E5A8AAAC42DAD33170D04507A33A85521,
    0xABDF1CBA64ECFB850458DBEF0A8AEA71575D060C7DB3970F85A6E1E4C7ABF5AE8CDB0933D7,
    0x1E8C94E04A25619DCEE3D2261AD2EE6BF12FFA06D98A0864D87602733EC86A64521F2B1817,
    0x7B200CBBE117577A615D6C770988C0BAD946E208E24FA074E5AB3143DB5BFCE0FD108E4B82]

/-- The RFC 5054 3072-bit group prime. -/
def groupN : Nat :=
  groupLines.foldl (fun value line => value * 16 ^ 74 + line) 0 * 16 ^ 28 +
    0xD120A93AD2CAFFFFFFFFFFFFFFFF

def groupG : Nat := 5

/-- Left-pad a number's big-endian bytes to `nLen`. -/
def pad (value : Nat) : Bytes :=
  let bytes := toBytesBe value
  List.replicate (nLen - bytes.length) 0 ++ bytes

section Server

variable (sha512 : Bytes → Digest)

/-- `h`: the digest of the parts in a row. -/
def h (parts : List Bytes) : Digest :=
  sha512 parts.flatten

def computeK : Nat :=
  fromBytesBe (h sha512 [pad groupN, pad groupG]).1

def computeU (a b : Nat) : Nat :=
  fromBytesBe (h sha512 [pad a, pad b]).1

/-- The private key derived from salt and password. -/
def computeX (salt : Bytes) (password : String) : Nat :=
  let inner := h sha512 [asBytes username, asBytes ":", asBytes password]
  fromBytesBe (h sha512 [salt, inner.1]).1

/-- The client proof. -/
def computeM1 (salt : Bytes) (a b : Nat) (kSession : Digest) : Digest :=
  let hN := h sha512 [toBytesBe groupN]
  let hG := h sha512 [toBytesBe groupG]
  let hXor := List.zipWith (· ^^^ ·) hN.1 hG.1
  let hI := h sha512 [asBytes username]
  h sha512 [hXor, hI.1, salt, toBytesBe a, toBytesBe b, kSession.1]

/-- The server proof. -/
def computeHamk (a : Nat) (m1 : Bytes) (kSession : Digest) : Digest :=
  h sha512 [toBytesBe a, m1, kSession.1]

/-- The comparison folds over every byte, whatever the first ones say. -/
def constantTimeEq (left right : Bytes) : Bool :=
  left.length == right.length &&
    (left.zip right).foldl
        (fun acc pair => acc ||| (pair.1 ^^^ pair.2)) (0 : UInt8) == 0

/-- What a server draws: its salt and its secret exponent. -/
structure Draws where
  salt : { bytes : Bytes // bytes.length = 16 }
  exponent : { bytes : Bytes // bytes.length = 32 }
deriving DecidableEq, Repr

/-- The verifier side of one exchange. -/
structure SrpServer where
  salt : Bytes
  v : Nat
  b : Nat
  bigB : Nat
  sessionKey : Option Digest
  checked : Nat
deriving DecidableEq, Repr

namespace SrpServer

def new (password : String) (draws : Draws) : SrpServer :=
  let x := computeX sha512 draws.salt.1 password
  let v := modpow groupG x groupN
  let k := computeK sha512
  let b := fromBytesBe draws.exponent.1
  { salt := draws.salt.1
    v := v
    b := b
    bigB := (k * v + modpow groupG b groupN) % groupN
    sessionKey := none
    checked := 0 }

/-- The server public key. -/
def publicB (server : SrpServer) : Bytes :=
  toBytesBe server.bigB

/-- The session key the server derives for the client public key `a`. -/
def sessionKeyFor (server : SrpServer) (a : Nat) : Digest :=
  let u := computeU sha512 a server.bigB
  let s := modpow (a * modpow server.v u groupN) server.b groupN
  h sha512 [toBytesBe s]

/-- The proof the server expects from a client with the public key `a`. -/
def expectedM1 (server : SrpServer) (a : Nat) : Digest :=
  computeM1 sha512 server.salt a server.bigB
    (server.sessionKeyFor sha512 a)

/-- Verify the client's proof over its public key. -/
def verify (server : SrpServer) (aBytes m1 : Bytes) :
    SrpServer × Option Digest :=
  let a := fromBytesBe aBytes
  if a % groupN = 0 then
    (server, none)
  else
    let checked := { server with checked := server.checked + 1 }
    let kSession := server.sessionKeyFor sha512 a
    if constantTimeEq (server.expectedM1 sha512 a).1 m1 then
      ({ checked with sessionKey := some kSession },
        some (computeHamk sha512 a m1 kSession))
    else
      (checked, none)

end SrpServer

end Server

/-! ## The comparison -/

theorem or_eq_zero_iff (left right : UInt8) :
    left ||| right = 0 ↔ left = 0 ∧ right = 0 := by
  simp only [← UInt8.toBitVec_inj, UInt8.toBitVec_or, UInt8.toBitVec_ofNat]
  exact BitVec.or_eq_zero_iff

theorem foldl_differences_eq_zero_iff
    (pairs : List (UInt8 × UInt8)) (acc : UInt8) :
    pairs.foldl (fun acc pair => acc ||| (pair.1 ^^^ pair.2)) acc = 0 ↔
      acc = 0 ∧ ∀ pair ∈ pairs, pair.1 = pair.2 := by
  induction pairs generalizing acc with
  | nil => simp
  | cons pair rest induction =>
      simp only [List.foldl_cons, induction, or_eq_zero_iff,
        UInt8.xor_eq_zero_iff, List.mem_cons, forall_eq_or_imp, and_assoc]

/-- The constant-time comparison is equality. -/
theorem constantTimeEq_iff (left right : Bytes) :
    constantTimeEq left right = true ↔ left = right := by
  simp only [constantTimeEq, Bool.and_eq_true, beq_iff_eq,
    foldl_differences_eq_zero_iff, true_and]
  constructor
  · rintro ⟨sameLength, samePairs⟩
    apply List.ext_getElem sameLength
    intro index leftBound rightBound
    apply samePairs (left[index], right[index])
    exact
      List.mem_iff_getElem.mpr
        ⟨index, by simp only [List.length_zip]; omega, by simp⟩
  · rintro rfl
    refine ⟨rfl, ?_⟩
    intro pair member
    rcases List.mem_iff_getElem.mp member with ⟨index, bound, rfl⟩
    simp

/-- The expected proof is accepted. -/
theorem verify_expectedM1
    (sha512 : Bytes → Digest)
    (server : SrpServer) {aBytes : Bytes}
    (unit : fromBytesBe aBytes % groupN ≠ 0) :
    let a := fromBytesBe aBytes
    let m1 := (server.expectedM1 sha512 a).1
    server.verify sha512 aBytes m1 =
      ({ server with
          sessionKey := some (server.sessionKeyFor sha512 a)
          checked := server.checked + 1 },
        some
          (computeHamk sha512 a m1 (server.sessionKeyFor sha512 a))) := by
  simp [SrpServer.verify, unit, constantTimeEq_iff]

end OpenAirplay2.Pairing

import OpenAirplay2.Lib.SharedSecret
import OpenAirplay2.Pairing.Srp

/-!
# SRP-6a, client side

The client that the tests and the synthetic sender drive the server with.
Built with the server's password, it derives the server's session key: its
proof is accepted, and it accepts the proof returned.
-/

namespace OpenAirplay2.Pairing

open OpenAirplay2.Lib

/-! ## Numbers as bytes -/

theorem fromBytesBe_append_singleton (bytes : Bytes) (byte : UInt8) :
    fromBytesBe (bytes ++ [byte]) =
      fromBytesBe bytes * 256 + byte.toNat := by
  simp [fromBytesBe]

theorem fromBytesBe_reverse_map
    {digits : List Nat}
    (small : ∀ digit ∈ digits, digit < 256) :
    fromBytesBe (digits.map UInt8.ofNat).reverse =
      Nat.ofDigits 256 digits := by
  induction digits with
  | nil => rfl
  | cons digit rest induction =>
      have below : digit < 256 := small digit List.mem_cons_self
      have others : ∀ other ∈ rest, other < 256 := fun other member =>
        small other (List.mem_cons_of_mem _ member)
      rw [List.map_cons, List.reverse_cons, fromBytesBe_append_singleton,
        induction others, Nat.ofDigits_cons]
      have byte : (UInt8.ofNat digit).toNat = digit := by
        simpa using Nat.mod_eq_of_lt below
      rw [byte]
      omega

/-- The minimal big-endian bytes of a number stand for it. -/
theorem fromBytesBe_toBytesBe (value : Nat) :
    fromBytesBe (toBytesBe value) = value := by
  rw [toBytesBe]
  split
  · next zero =>
      rw [zero]
      rfl
  · rw [fromBytesBe_reverse_map
        (fun digit member => Nat.digits_lt_base (by decide) member),
      Nat.ofDigits_digits]

/-! ## The client -/

structure SrpClient where
  a : Nat
  bigA : Nat
  password : String
  sessionKey : Option Digest
deriving DecidableEq, Repr

namespace SrpClient

/-- A client, with the exponent it draws. -/
def new (password : String)
    (exponent : { bytes : Bytes // bytes.length = 32 }) : SrpClient :=
  let a := fromBytesBe exponent.1
  { a := a
    bigA := modpow groupG a groupN
    password := password
    sessionKey := none }

/-- The client public key. -/
def publicA (client : SrpClient) : Bytes :=
  toBytesBe client.bigA

section Process

variable (sha512 : Bytes → Digest)

/-- Compute the client proof and the session key. -/
def process (client : SrpClient) (salt bBytes : Bytes) :
    SrpClient × Digest :=
  let bigB := fromBytesBe bBytes
  let x := computeX sha512 salt client.password
  let u := computeU sha512 client.bigA bigB
  let k := computeK sha512
  let kgx := k * modpow groupG x groupN % groupN
  let base := (bigB + groupN - kgx) % groupN
  let exp := client.a + u * x
  let s := modpow base exp groupN
  let kSession := h sha512 [toBytesBe s]
  ({ client with sessionKey := some kSession },
    computeM1 sha512 salt client.bigA bigB kSession)

/-- Check the server proof; `process` must have run first. -/
def verifyHamk (client : SrpClient) (hamk m1 : Bytes) : Option Bool :=
  client.sessionKey.map fun k =>
    constantTimeEq (computeHamk sha512 client.bigA m1 k).1 hamk

end Process

end SrpClient

/-! ## The two ends -/

theorem groupN_pos : 0 < groupN := by
  decide +kernel

theorem one_lt_groupN : 1 < groupN := by
  decide +kernel

/-- The generator is a unit modulo the group prime. -/
theorem groupG_coprime : Nat.Coprime groupG groupN := by
  rw [groupG, Nat.Prime.coprime_iff_not_dvd Nat.prime_five]
  decide +kernel

section Agreement

variable (sha512 : Bytes → Digest)

/-- The server computes its secret as in `Lib.SharedSecret`. -/
theorem sessionKeyFor_new
    (password : String) (draws : Draws) (a : Nat) :
    (SrpServer.new sha512 password draws).sessionKeyFor sha512
        (SharedSecret.clientKey groupN groupG a) =
      h sha512
        [toBytesBe
          (SharedSecret.serverSecret groupN groupG a
            (fromBytesBe draws.exponent.1)
            (computeU sha512 (SharedSecret.clientKey groupN groupG a)
              (SrpServer.new sha512 password draws).bigB)
            (computeX sha512 draws.salt.1 password))] :=
  rfl

/-- And the client computes its own. -/
theorem process_new
    (password : String) (draws : Draws)
    (exponent : { bytes : Bytes // bytes.length = 32 }) :
    ((SrpClient.new password exponent).process sha512
        (SrpServer.new sha512 password draws).salt
        (SrpServer.new sha512 password draws).publicB).1.sessionKey =
      some
        (h sha512
          [toBytesBe
            (SharedSecret.clientSecret groupN groupG (computeK sha512)
              (fromBytesBe exponent.1) (fromBytesBe draws.exponent.1)
              (computeU sha512
                (SharedSecret.clientKey groupN groupG
                  (fromBytesBe exponent.1))
                (SrpServer.new sha512 password draws).bigB)
              (computeX sha512 draws.salt.1 password))]) := by
  simp only [SrpClient.process, SrpServer.publicB, fromBytesBe_toBytesBe]
  rfl

/-- The client proves the session key that the server derives. -/
theorem process_expected
    (password : String) (draws : Draws)
    (exponent : { bytes : Bytes // bytes.length = 32 })
    {key : Digest}
    (derived :
      ((SrpClient.new password exponent).process sha512
          (SrpServer.new sha512 password draws).salt
          (SrpServer.new sha512 password draws).publicB).1.sessionKey =
        some key)
    (same :
      (SrpServer.new sha512 password draws).sessionKeyFor sha512
          (SrpClient.new password exponent).bigA =
        key) :
    ((SrpClient.new password exponent).process sha512
        (SrpServer.new sha512 password draws).salt
        (SrpServer.new sha512 password draws).publicB).2 =
      (SrpServer.new sha512 password draws).expectedM1 sha512
        (SrpClient.new password exponent).bigA := by
  simp only [SrpClient.process, Option.some.injEq] at derived
  simp only [SrpServer.expectedM1, same, SrpClient.process, derived]
  rw [SrpServer.publicB, fromBytesBe_toBytesBe]

/--
The two ends agree, whatever is drawn: the server accepts the client's proof,
both hold one session key, and the client accepts the proof returned.
-/
theorem srp_ends_agree
    (password : String) (draws : Draws)
    (exponent : { bytes : Bytes // bytes.length = 32 }) :
    ∃ (checked : SrpServer) (answered : SrpClient) (m1 hamk key : Digest),
      (SrpClient.new password exponent).process sha512
          (SrpServer.new sha512 password draws).salt
          (SrpServer.new sha512 password draws).publicB =
        (answered, m1) ∧
      (SrpServer.new sha512 password draws).verify sha512
          (SrpClient.new password exponent).publicA m1.1 =
        (checked, some hamk) ∧
      checked.sessionKey = some key ∧
      answered.sessionKey = some key ∧
      answered.verifyHamk sha512 hamk.1 m1.1 = some true := by
  have publicA :
      fromBytesBe (SrpClient.new password exponent).publicA =
        (SrpClient.new password exponent).bigA :=
    fromBytesBe_toBytesBe _
  have unit :
      fromBytesBe (SrpClient.new password exponent).publicA % groupN ≠ 0 := by
    rw [publicA]
    exact
      SharedSecret.clientKey_ne_zero groupG (fromBytesBe exponent.1)
        one_lt_groupN groupG_coprime
  -- The session keys are digests of one secret.
  have derived := process_new sha512 password draws exponent
  rw [SharedSecret.clientSecret_eq_serverSecret _ _ _ _ _ _ groupN_pos,
    ← sessionKeyFor_new] at derived
  have proven :=
    process_expected sha512 password draws exponent derived rfl
  have accepted :=
    verify_expectedM1 sha512 (SrpServer.new sha512 password draws) unit
  simp only [publicA, ← proven] at accepted
  have kept :
      ((SrpClient.new password exponent).process sha512
          (SrpServer.new sha512 password draws).salt
          (SrpServer.new sha512 password draws).publicB).1.bigA =
        (SrpClient.new password exponent).bigA :=
    rfl
  rcases answer :
      (SrpClient.new password exponent).process sha512
        (SrpServer.new sha512 password draws).salt
        (SrpServer.new sha512 password draws).publicB with
    ⟨answered, m1⟩
  rw [answer] at derived accepted kept
  refine ⟨_, answered, m1, _, _, rfl, accepted, rfl, derived, ?_⟩
  rw [SrpClient.verifyHamk, derived, Option.map_some, kept]
  exact congrArg some ((constantTimeEq_iff _ _).mpr rfl)

end Agreement

end OpenAirplay2.Pairing

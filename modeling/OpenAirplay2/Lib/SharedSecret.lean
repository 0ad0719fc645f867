import Mathlib

/-!
# The shared secret of SRP-6a

Both ends of SRP-6a raise to powers modulo `n` and arrive at the same number:
the server from the client's public key and its own secret exponent `b`, the
client from the server's public key, out of which it subtracts the verifier,
and its own secret exponent `a`.  The subtraction is done on residues, with
`n` added first.

Nothing is asked of `n` but that it is positive, and nothing of `g`.
-/

namespace OpenAirplay2.Lib.SharedSecret

variable
    (n g k : Nat)
    (a b u x : Nat)

/-- The verifier, `g ^ x`. -/
def verifier : Nat :=
  g ^ x % n

/-- The client's public key, `g ^ a`. -/
def clientKey : Nat :=
  g ^ a % n

/-- The server's public key, `k v + g ^ b`. -/
def serverKey : Nat :=
  (k * verifier n g x + g ^ b % n) % n

/-- What the server computes: `(A v ^ u) ^ b`. -/
def serverSecret : Nat :=
  (clientKey n g a * (verifier n g x ^ u % n)) ^ b % n

/-- The server's public key without the verifier, by way of residues. -/
def clientBase : Nat :=
  (serverKey n g k b x + n - k * verifier n g x % n) % n

/-- What the client computes: `(B - k g ^ x) ^ (a + u x)`. -/
def clientSecret : Nat :=
  clientBase n g k b x ^ (a + u * x) % n

variable {n}

/-- Taking the verifier out of the server's public key leaves `g ^ b`. -/
theorem clientBase_modEq
    (positive : 0 < n) :
    clientBase n g k b x ≡ g ^ b [MOD n] := by
  have below : k * verifier n g x % n < n := Nat.mod_lt _ positive
  have restored :
      clientBase n g k b x + k * verifier n g x ≡
        g ^ b + k * verifier n g x [MOD n] := by
    calc
      clientBase n g k b x + k * verifier n g x
          ≡ (serverKey n g k b x + n - k * verifier n g x % n) +
              k * verifier n g x % n [MOD n] :=
        (Nat.mod_modEq _ _).add (Nat.mod_modEq _ _).symm
      _ = serverKey n g k b x + n := Nat.sub_add_cancel (by omega)
      _ ≡ serverKey n g k b x [MOD n] := by
        simp [Nat.ModEq]
      _ ≡ k * verifier n g x + g ^ b % n [MOD n] := Nat.mod_modEq _ _
      _ ≡ k * verifier n g x + g ^ b [MOD n] :=
        Nat.ModEq.add_left _ (Nat.mod_modEq _ _)
      _ = g ^ b + k * verifier n g x := Nat.add_comm _ _
  exact Nat.ModEq.add_right_cancel' _ restored

/-- The two ends compute the same secret. -/
theorem clientSecret_eq_serverSecret
    (positive : 0 < n) :
    clientSecret n g k a b u x = serverSecret n g a b u x := by
  show clientBase n g k b x ^ (a + u * x) ≡
    (clientKey n g a * (verifier n g x ^ u % n)) ^ b [MOD n]
  calc
    clientBase n g k b x ^ (a + u * x)
        ≡ (g ^ b) ^ (a + u * x) [MOD n] :=
      (clientBase_modEq g k b x positive).pow _
    _ = (g ^ a * (g ^ x) ^ u) ^ b := by ring
    _ ≡ (clientKey n g a * (verifier n g x ^ u % n)) ^ b [MOD n] := by
      apply Nat.ModEq.pow
      apply Nat.ModEq.mul
      · exact (Nat.mod_modEq _ _).symm
      · exact
          ((Nat.mod_modEq _ _).trans ((Nat.mod_modEq _ _).pow u)).symm

/-- A public key is a unit where the generator is. -/
theorem clientKey_ne_zero
    (nontrivial : 1 < n)
    (coprime : Nat.Coprime g n) :
    clientKey n g a % n ≠ 0 := by
  intro multiple
  rw [clientKey, Nat.mod_mod] at multiple
  have divides : n ∣ g ^ a := Nat.dvd_of_mod_eq_zero multiple
  have unit : n = 1 :=
    Nat.Coprime.eq_one_of_dvd (coprime.pow_left a).symm divides
  omega

end OpenAirplay2.Lib.SharedSecret

import Mathlib
import OpenAirplay2.Control.Dmap

/-!
# Big-endian numbers

Length fields and header fields are fixed-width numbers, high byte first.
-/

namespace OpenAirplay2.Control

open OpenAirplay2.Control.Dmap (fromBeBytes)
open OpenAirplay2.Pairing (Bytes)

/-- `to_be_bytes` of a number of that many bytes. -/
def toBeBytes : Nat → Nat → Bytes
  | 0, _ => []
  | count + 1, value =>
      UInt8.ofNat (value / 256 ^ count) :: toBeBytes count value

@[simp]
theorem length_toBeBytes (count value : Nat) :
    (toBeBytes count value).length = count := by
  induction count with
  | zero => rfl
  | succ count induction => rw [toBeBytes, List.length_cons, induction]

theorem fromBeBytes_cons (byte : UInt8) (bytes : Bytes) :
    fromBeBytes (byte :: bytes) =
      byte.toNat * 256 ^ bytes.length + fromBeBytes bytes := by
  have carried (value : Nat) (rest : Bytes) :
      rest.foldl (fun value byte => value * 256 + byte.toNat) value =
        value * 256 ^ rest.length + fromBeBytes rest := by
    induction rest generalizing value with
    | nil => simp [fromBeBytes]
    | cons byte rest induction =>
        rw [fromBeBytes, List.foldl_cons, List.foldl_cons, induction,
          induction (0 * 256 + byte.toNat), List.length_cons, pow_succ]
        ring
  rw [fromBeBytes, List.foldl_cons, carried, Nat.zero_mul, Nat.zero_add]

theorem fromBeBytes_lt (bytes : Bytes) :
    fromBeBytes bytes < 256 ^ bytes.length := by
  induction bytes with
  | nil => decide
  | cons byte bytes induction =>
      rw [fromBeBytes_cons, List.length_cons, pow_succ]
      have high :
          byte.toNat * 256 ^ bytes.length ≤ 255 * 256 ^ bytes.length :=
        Nat.mul_le_mul_right _ (Nat.le_of_lt_succ byte.toNat_lt)
      omega

theorem fromBeBytes_toBeBytes (count value : Nat) :
    fromBeBytes (toBeBytes count value) = value % 256 ^ count := by
  induction count with
  | zero => rw [pow_zero, Nat.mod_one]; rfl
  | succ count induction =>
      have digits :
          value % 256 ^ (count + 1) =
            value % 256 ^ count +
              256 ^ count * (value / 256 ^ count % 256) := by
        rw [pow_succ, Nat.mod_mul]
      have byte :
          (UInt8.ofNat (value / 256 ^ count)).toNat =
            value / 256 ^ count % 256 :=
        UInt8.toNat_ofNat'
      rw [toBeBytes, fromBeBytes_cons, length_toBeBytes, induction, byte,
        digits, Nat.mul_comm, Nat.add_comm]

/-- Higher digits than are written do not matter. -/
theorem toBeBytes_add (count high low : Nat) :
    toBeBytes count (high * 256 ^ count + low) = toBeBytes count low := by
  induction count generalizing high with
  | zero => rfl
  | succ count induction =>
      have carried :
          high * 256 ^ (count + 1) + low =
            high * 256 * 256 ^ count + low := by
        rw [pow_succ]
        ring
      have digit :
          (high * 256 * 256 ^ count + low) / 256 ^ count =
            high * 256 + low / 256 ^ count := by
        rw [Nat.add_comm, Nat.add_mul_div_right _ _ (by positivity),
          Nat.add_comm]
      rw [carried, toBeBytes, toBeBytes, induction, digit,
        UInt8.ofNat_add, UInt8.ofNat_mul]
      simp

/-- Bytes are those of the number they hold. -/
theorem toBeBytes_fromBeBytes (bytes : Bytes) :
    toBeBytes bytes.length (fromBeBytes bytes) = bytes := by
  induction bytes with
  | nil => rfl
  | cons byte bytes induction =>
      have low := fromBeBytes_lt bytes
      have digit :
          (byte.toNat * 256 ^ bytes.length + fromBeBytes bytes) /
              256 ^ bytes.length =
            byte.toNat := by
        rw [Nat.add_comm, Nat.add_mul_div_right _ _ (by positivity),
          Nat.div_eq_of_lt low, Nat.zero_add]
      rw [fromBeBytes_cons, List.length_cons, toBeBytes, digit,
        UInt8.ofNat_toNat, toBeBytes_add, induction]

end OpenAirplay2.Control

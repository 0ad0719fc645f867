import Mathlib

/-!
# Counted strings

Strings one after another, each behind a byte with its length.  What is
longer than a byte can count is cut; what fits is read back.
-/

namespace OpenAirplay2.Lib.Counted

/-- The most one byte can count. -/
def limit : Nat := 255

/-- The strings, each behind its length. -/
def pack (items : List (List UInt8)) : List UInt8 :=
  items.flatMap fun item =>
    UInt8.ofNat (min item.length limit) :: item.take limit

/-- The strings that some bytes consist of. -/
def unpack : List UInt8 → Option (List (List UInt8))
  | [] => some []
  | count :: rest =>
      if count.toNat ≤ rest.length then
        (unpack (rest.drop count.toNat)).map (rest.take count.toNat :: ·)
      else none
termination_by bytes => bytes.length

/-- One string is read, and then the others. -/
theorem unpack_cons
    (count : UInt8) {item : List UInt8} (others : List UInt8)
    (isLength : item.length = count.toNat) :
    unpack (count :: (item ++ others)) =
      (unpack others).map (item :: ·) := by
  rw [unpack, if_pos, ← isLength, List.drop_left, List.take_left]
  rw [List.length_append, isLength]
  exact Nat.le_add_right _ _

/-- Each string is read back, but for what was cut. -/
theorem unpack_pack (items : List (List UInt8)) :
    unpack (pack items) = some (items.map (·.take limit)) := by
  induction items with
  | nil =>
      rw [pack, List.flatMap_nil, unpack]
      rfl
  | cons item rest induction =>
      have isLength :
          (item.take limit).length =
            (UInt8.ofNat (min item.length limit)).toNat := by
        have small : min item.length limit < 2 ^ 8 :=
          Nat.lt_of_le_of_lt (min_le_right _ _) (by decide)
        rw [List.length_take, UInt8.toNat_ofNat_of_lt' small, min_comm]
      rw [pack, List.flatMap_cons]
      show unpack (_ :: (item.take limit ++ pack rest)) = _
      rw [unpack_cons _ _ isLength, induction]
      rfl

end OpenAirplay2.Lib.Counted

import Mathlib.Data.List.Basic
import Mathlib.Tactic.Common

/-!
# HomeKit TLV8

A sequence of `[type][length][value]` items.  Values longer than 255 bytes
are split into consecutive items of the same type and joined again on decode.
-/

namespace OpenAirplay2.Pairing

/-- A byte string. -/
abbrev Bytes := List UInt8

/-! ## Item types -/

namespace Ty

def method : UInt8 := 0x00
def salt : UInt8 := 0x02
def publicKey : UInt8 := 0x03
def proof : UInt8 := 0x04
def state : UInt8 := 0x06
def error : UInt8 := 0x07
def flags : UInt8 := 0x13

end Ty

/-- A decoded TLV map: type and concatenated value bytes. -/
structure Tlv where
  items : List (UInt8 × Bytes)
deriving DecidableEq, Repr

namespace Tlv

def new : Tlv :=
  ⟨[]⟩

/-- Append an item. -/
def put (tlv : Tlv) (ty : UInt8) (value : Bytes) : Tlv :=
  ⟨tlv.items ++ [(ty, value)]⟩

/-- Append a single-byte item. -/
def putU8 (tlv : Tlv) (ty value : UInt8) : Tlv :=
  tlv.put ty [value]

/-- The value of the first item of the type. -/
def get (tlv : Tlv) (ty : UInt8) : Option Bytes :=
  (tlv.items.find? fun item => item.1 == ty).map Prod.snd

/-- The first byte of the first item of the type. -/
def getU8 (tlv : Tlv) (ty : UInt8) : Option UInt8 :=
  (tlv.get ty).bind List.head?

/-- `slice::chunks(255)`, each chunk under its own header. -/
def encodeChunks (ty : UInt8) : Nat → Bytes → Bytes
  | _, [] => []
  | 0, _ :: _ => []
  | fuel + 1, value =>
      let chunk := value.take 255
      ty :: UInt8.ofNat chunk.length :: chunk ++
        encodeChunks ty fuel (value.drop 255)

/-- Serialize to the wire format, fragmenting long values. -/
def encode (tlv : Tlv) : Bytes :=
  tlv.items.flatMap fun item =>
    if item.2.isEmpty then [item.1, 0]
    else encodeChunks item.1 item.2.length item.2

/-- Append an item, or join it to the one before if it continues that one. -/
def merge (items : List (UInt8 × Bytes)) (ty : UInt8) (value : Bytes) :
    List (UInt8 × Bytes) :=
  match items.getLast? with
  | some (lastTy, lastVal) =>
      if lastTy = ty ∧ lastVal.length % 255 = 0 ∧ lastVal ≠ [] then
        items.dropLast ++ [(lastTy, lastVal ++ value)]
      else
        items ++ [(ty, value)]
  | none => items ++ [(ty, value)]

/-- The loop of `decode` after `items`; every round reads two bytes or more. -/
def decodeFrom (items : List (UInt8 × Bytes)) :
    Nat → Bytes → Option (List (UInt8 × Bytes))
  | _, [] => some items
  | 0, _ :: _ => none
  | _ + 1, [_] => none
  | fuel + 1, ty :: len :: rest =>
      if len.toNat ≤ rest.length then
        decodeFrom (merge items ty (rest.take len.toNat)) fuel
          (rest.drop len.toNat)
      else
        none

/-- Parse the wire format, merging consecutive fragments of one type. -/
def decode (bytes : Bytes) : Option Tlv :=
  (decodeFrom [] bytes.length bytes).map Tlv.mk

/-- The loop never runs out of the rounds `decode` grants it. -/
theorem decodeFrom_fuel
    (items : List (UInt8 × Bytes)) (fuel extra : Nat) (bytes : Bytes)
    (enough : bytes.length ≤ fuel) :
    decodeFrom items (fuel + extra) bytes =
      decodeFrom items fuel bytes := by
  induction fuel generalizing items bytes with
  | zero =>
      have empty : bytes = [] := List.length_eq_zero_iff.mp (by omega)
      simp [empty, decodeFrom]
  | succ fuel induction =>
      rw [Nat.succ_add]
      match bytes with
      | [] => rfl
      | [_] => rfl
      | ty :: len :: rest =>
          simp only [decodeFrom]
          split
          · apply induction
            simp only [List.length_cons, List.length_drop] at enough ⊢
            omega
          · rfl

end Tlv

end OpenAirplay2.Pairing

import Mathlib
import OpenAirplay2.Lib.Fragments
import OpenAirplay2.Pairing.Tlv

/-!
# TLV8 there and back

Decoding reads off the items on the wire and joins them.  So it inverts
encoding wherever the format itself can tell two items apart, and what it
returns can always be told apart.  The joining looks at the value built so
far where the format looks at the item before, and an empty item in between
is what separates the two.
-/

namespace OpenAirplay2.Pairing.Tlv

open OpenAirplay2.Lib
open OpenAirplay2.Lib.Fragments

/-! ## Items on the wire -/

/-- One `[type][length][value]` item. -/
structure Fragment where
  ty : UInt8
  value : Bytes
  fits : value.length ≤ 255

namespace Fragment

def pair (fragment : Fragment) : UInt8 × Bytes :=
  (fragment.ty, fragment.value)

def wire (fragment : Fragment) : Bytes :=
  fragment.ty :: UInt8.ofNat fragment.value.length :: fragment.value

end Fragment

/-- A well-formed sequence of items. -/
def wire (fragments : List Fragment) : Bytes :=
  fragments.flatMap Fragment.wire

/-- The loop joins as the library does. -/
theorem merge_eq_join
    (items : List (UInt8 × Bytes)) (ty : UInt8) (value : Bytes) :
    merge items ty value = join 255 items (ty, value) := by
  rw [merge, join]
  rcases items.getLast? with _ | last
  · rfl
  · rfl

theorem toNat_length (fragment : Fragment) :
    (UInt8.ofNat fragment.value.length).toNat = fragment.value.length := by
  have fits := fragment.fits
  rw [UInt8.toNat_ofNat']
  exact Nat.mod_eq_of_lt (by omega)

/-- One round of the loop reads one item. -/
theorem decodeFrom_item
    (items : List (UInt8 × Bytes))
    (fuel : Nat)
    (fragment : Fragment)
    (rest : Bytes) :
    decodeFrom items (fuel + 1) (fragment.wire ++ rest) =
      decodeFrom (join 255 items fragment.pair) fuel rest := by
  rw [Fragment.wire, List.cons_append, List.cons_append, decodeFrom,
    toNat_length, if_pos (by rw [List.length_append]; omega),
    List.take_left', List.drop_left', merge_eq_join]
  · rfl
  · rfl
  · rfl

/-- The loop reads a well-formed sequence to its end. -/
theorem decodeFrom_wire
    (items : List (UInt8 × Bytes))
    (fuel : Nat)
    (fragments : List Fragment)
    (enough : (wire fragments).length ≤ fuel) :
    decodeFrom items fuel (wire fragments) =
      some ((fragments.map Fragment.pair).foldl (join 255) items) := by
  induction fragments generalizing items fuel with
  | nil => cases fuel <;> rfl
  | cons fragment rest induction =>
      rw [wire, List.flatMap_cons] at enough ⊢
      cases fuel with
      | zero =>
          simp [Fragment.wire] at enough
      | succ fuel =>
          rw [decodeFrom_item]
          apply induction
          simp only [Fragment.wire, List.cons_append, List.length_cons,
            List.length_append] at enough
          rw [wire]
          omega

theorem decode_wire (fragments : List Fragment) :
    decode (wire fragments) =
      some ⟨joined 255 (fragments.map Fragment.pair)⟩ := by
  rw [decode, decodeFrom_wire [] _ fragments le_rfl]
  rfl

/-- Whatever the loop accepts is a well-formed sequence of items. -/
theorem decodeFrom_some
    (items result : List (UInt8 × Bytes))
    (fuel : Nat)
    (bytes : Bytes)
    (accepted : decodeFrom items fuel bytes = some result) :
    ∃ fragments, bytes = wire fragments := by
  induction fuel generalizing items bytes with
  | zero =>
      cases bytes with
      | nil => exact ⟨[], rfl⟩
      | cons => cases accepted
  | succ fuel induction =>
      match bytes with
      | [] => exact ⟨[], rfl⟩
      | [_] => cases accepted
      | ty :: len :: rest =>
          rw [decodeFrom] at accepted
          split at accepted
          · rename_i complete
            rcases induction _ _ accepted with ⟨fragments, remaining⟩
            have exact_length : (rest.take len.toNat).length = len.toNat :=
              List.length_take_of_le complete
            have fits : (rest.take len.toNat).length ≤ 255 := by
              rw [exact_length]
              exact Nat.le_of_lt_succ len.toNat_lt
            refine ⟨⟨ty, rest.take len.toNat, fits⟩ :: fragments, ?_⟩
            rw [wire, List.flatMap_cons, ← wire, ← remaining,
              Fragment.wire, exact_length, UInt8.ofNat_toNat]
            simp only [List.cons_append, List.take_append_drop]
          · cases accepted

theorem decode_some
    (bytes : Bytes)
    (tlv : Tlv)
    (accepted : decode bytes = some tlv) :
    ∃ fragments,
      bytes = wire fragments ∧
        tlv.items = joined 255 (fragments.map Fragment.pair) := by
  rw [decode, Option.map_eq_some_iff] at accepted
  rcases accepted with ⟨items, accepted, rfl⟩
  rcases decodeFrom_some [] items _ bytes accepted with ⟨fragments, rfl⟩
  refine ⟨fragments, rfl, ?_⟩
  have read := decodeFrom_wire [] _ fragments le_rfl
  rw [accepted] at read
  exact Option.some.inj read

/-! ## Encoding -/

/-- The fragments of one value. -/
def fragmentsOf (ty : UInt8) : Nat → Bytes → List Fragment
  | _, [] => []
  | 0, _ :: _ => []
  | fuel + 1, value =>
      ⟨ty, value.take 255, List.length_take_le ..⟩ ::
        fragmentsOf ty fuel (value.drop 255)

theorem fragmentsOf_pairs (ty : UInt8) (fuel : Nat) (value : Bytes) :
    (fragmentsOf ty fuel value).map Fragment.pair =
      (pieces 255 fuel value).map fun piece => (ty, piece) := by
  induction fuel generalizing value with
  | zero => cases value <;> rfl
  | succ fuel induction =>
      cases value with
      | nil => rfl
      | cons head tail =>
          rw [pieces_cons, List.map_cons, ← induction]
          rfl

theorem encodeChunks_eq_wire (ty : UInt8) (fuel : Nat) (value : Bytes) :
    encodeChunks ty fuel value = wire (fragmentsOf ty fuel value) := by
  induction fuel generalizing value with
  | zero => cases value <;> rfl
  | succ fuel induction =>
      cases value with
      | nil => rfl
      | cons head tail =>
          show ty :: _ :: _ ++ encodeChunks ty fuel _ = _
          rw [induction]
          rfl

/-- The items of a value on the wire, an empty value included. -/
def itemFragments (item : UInt8 × Bytes) : List Fragment :=
  if item.2 = [] then [⟨item.1, [], by decide⟩]
  else fragmentsOf item.1 item.2.length item.2

theorem itemFragments_pairs (item : UInt8 × Bytes) :
    (itemFragments item).map Fragment.pair = split 255 item := by
  rcases item with ⟨ty, value⟩
  cases value with
  | nil => rfl
  | cons head tail => exact fragmentsOf_pairs ty _ (head :: tail)

theorem encode_eq_wire (tlv : Tlv) :
    encode tlv = wire (tlv.items.flatMap itemFragments) := by
  rw [encode, wire, List.flatMap_assoc]
  apply List.flatMap_congr
  rintro ⟨ty, value⟩ -
  cases value with
  | nil => rfl
  | cons head tail => exact encodeChunks_eq_wire ty _ (head :: tail)

/-- Encoding and decoding joins the fragments of the items. -/
theorem decode_encode_eq (tlv : Tlv) :
    decode (encode tlv) =
      some ⟨joined 255 (tlv.items.flatMap (split 255))⟩ := by
  rw [encode_eq_wire, decode_wire, List.map_flatMap]
  congr 3
  exact List.flatMap_congr fun item _ => itemFragments_pairs item

/-! ## The round trip -/

/--
No item whose value has a length that is a multiple of 255 other than zero
is directly followed by an item of its type.
-/
def Unambiguous (tlv : Tlv) : Prop :=
  ∀ before item next after,
    tlv.items = before ++ item :: next :: after →
      item.2.length ≠ 0 →
        item.2.length % 255 = 0 →
          next.1 ≠ item.1

theorem unambiguous_iff (tlv : Tlv) :
    Unambiguous tlv ↔ Separated 255 tlv.items := by
  rw [Separated, List.isChain_iff_forall_rel_of_append_cons_cons]
  constructor
  · rintro clear item next before after splits ⟨same, whole, nonempty⟩
    exact clear before item next after splits
      (fun empty => nonempty (List.length_eq_zero_iff.mp empty)) whole
      same.symm
  · rintro apart before item next after splits nonzero whole same
    refine apart splits ⟨same.symm, whole, ?_⟩
    intro empty
    exact nonzero (List.length_eq_zero_iff.mpr empty)

theorem decode_encode_unambiguous
    (tlv : Tlv)
    (clear : Unambiguous tlv) :
    decode (encode tlv) = some tlv := by
  rw [decode_encode_eq,
    joined_split (by decide) tlv.items ((unambiguous_iff tlv).mp clear)]

/-- Decoding never returns two items that the format cannot tell apart. -/
theorem decode_unambiguous
    (bytes : Bytes)
    (tlv : Tlv)
    (accepted : decode bytes = some tlv) :
    Unambiguous tlv := by
  rcases decode_some bytes tlv accepted with ⟨fragments, -, read⟩
  rw [unambiguous_iff, read]
  exact joined_separated 255 _

/--
Decoding inverts encoding, and what was decoded from any bytes encodes to
bytes that decode to the same.
-/
theorem decode_encode_canonical :
    (∀ tlv : Tlv, Unambiguous tlv → decode (encode tlv) = some tlv) ∧
      ∀ (bytes : Bytes) (tlv : Tlv),
        decode bytes = some tlv → decode (encode tlv) = some tlv := by
  constructor
  · exact decode_encode_unambiguous
  · intro bytes tlv accepted
    exact decode_encode_unambiguous tlv
      (decode_unambiguous bytes tlv accepted)

/-- A long value next to an empty one of its type, there and back. -/
theorem decode_encode_salt :
    decode (encode ⟨[(Ty.salt, []), (Ty.salt, List.replicate 256 7)]⟩) =
        some ⟨[(Ty.salt, []), (Ty.salt, List.replicate 256 7)]⟩ ∧
      (decode [Ty.salt, 1, 7]).bind (fun tlv => decode (encode tlv)) =
        some ⟨[(Ty.salt, [7])]⟩ := by
  constructor
  · apply decode_encode_canonical.1
    rw [unambiguous_iff]
    refine List.isChain_pair.mpr ?_
    rintro ⟨-, -, nonempty⟩
    exact nonempty rfl
  · exact decode_encode_canonical.2 [Ty.salt, 1, 7] ⟨[(Ty.salt, [7])]⟩ rfl

/-! ## The rule of the format -/

/-- The bytes of the fragment go to the value that was being built. -/
def Appends (read grown : Tlv) (fragment : Fragment) : Prop :=
  ∃ earlier ty value,
    read.items = earlier ++ [(ty, value)] ∧
      grown.items = earlier ++ [(ty, value ++ fragment.value)]

/-- The fragment starts a value of its own. -/
def StartsValue (read grown : Tlv) (fragment : Fragment) : Prop :=
  grown.items = read.items ++ [(fragment.ty, fragment.value)]

/-- The same type, after an item that carried exactly 255 bytes. -/
def ContinuesWhole (fragment next : Fragment) : Prop :=
  next.ty = fragment.ty ∧ fragment.value.length = 255

/--
Decoding appends an item exactly when it continues a whole one, and starts a
new value otherwise.
-/
def MergedByRule (fragments : List Fragment) : Prop :=
  ∀ before fragment next after,
    fragments = before ++ fragment :: next :: after →
      ∃ read grown,
        decode (wire (before ++ [fragment])) = some read ∧
          decode (wire (before ++ [fragment, next])) = some grown ∧
            (Appends read grown next ↔ ContinuesWhole fragment next) ∧
              (¬ ContinuesWhole fragment next →
                StartsValue read grown next)

/--
An item of 255 bytes, an empty one and a third one, all of one type and one
directly after the other.
-/
def EmptyContinuation (fragments : List Fragment) : Prop :=
  ∃ before whole empty next after,
    fragments = before ++ whole :: empty :: next :: after ∧
      empty.ty = whole.ty ∧
      next.ty = empty.ty ∧
      whole.value.length = 255 ∧
      empty.value = []

theorem emptyContinuation_iff (fragments : List Fragment) :
    EmptyContinuation fragments ↔
      EmptyBetween 255 (fragments.map Fragment.pair) := by
  constructor
  · rintro ⟨before, whole, empty, next, after, rfl, same, alike, full,
      nothing⟩
    exact ⟨before.map Fragment.pair, whole.pair, empty.pair, next.pair,
      after.map Fragment.pair, by simp, ⟨same.symm, full⟩, alike.symm,
      nothing⟩
  · rintro ⟨before, whole, empty, next, after, splits, ⟨same, full⟩, alike,
      nothing⟩
    rcases List.map_eq_append_iff.mp splits with ⟨_, _, rfl, rfl, third⟩
    rcases List.map_eq_cons_iff.mp third with ⟨_, _, rfl, rfl, second⟩
    rcases List.map_eq_cons_iff.mp second with ⟨_, _, rfl, rfl, first⟩
    rcases List.map_eq_cons_iff.mp first with ⟨_, _, rfl, rfl, -⟩
    exact ⟨_, _, _, _, _, rfl, same.symm, alike.symm, full, nothing⟩

/-- What decoding does with an item depends on the value built last. -/
theorem decode_next
    (before : List Fragment) (fragment next : Fragment) :
    ∃ earlier value read grown,
      joined 255 ((before ++ [fragment]).map Fragment.pair) =
          earlier ++ [(fragment.ty, value)] ∧
        decode (wire (before ++ [fragment])) = some read ∧
        decode (wire (before ++ [fragment, next])) = some grown ∧
        (Appends read grown next ↔
          Continues 255 (fragment.ty, value) next.ty) ∧
        (¬ Continues 255 (fragment.ty, value) next.ty →
          StartsValue read grown next) := by
  rcases joined_last 255 (before.map Fragment.pair) fragment.pair with
    ⟨earlier, value, built⟩
  have items :
      joined 255 ((before ++ [fragment]).map Fragment.pair) =
        earlier ++ [(fragment.ty, value)] := by
    rw [List.map_append]
    exact built
  have further :
      joined 255 ((before ++ [fragment, next]).map Fragment.pair) =
        join 255 (earlier ++ [(fragment.ty, value)]) next.pair := by
    rw [← items, ← joined_concat]
    simp only [List.map_append, List.map_cons, List.map_nil,
      List.append_assoc, List.cons_append, List.nil_append]
  refine ⟨earlier, value, _, _, items, decode_wire _, decode_wire _, ?_, ?_⟩
  · rw [Appends, items, further]
    constructor
    · rintro ⟨_, _, _, was, grown⟩
      by_contra starts
      rw [join_starts 255 earlier _ next.pair starts] at grown
      have longer := congrArg List.length grown
      have shorter := congrArg List.length was
      simp only [List.length_append, List.length_singleton] at longer shorter
      omega
    · intro continues
      exact ⟨earlier, fragment.ty, value, rfl,
        join_continues 255 earlier _ next.pair continues⟩
  · intro starts
    rw [StartsValue, further, items]
    exact join_starts 255 earlier _ next.pair starts

theorem mergedByRule_iff_obeys (fragments : List Fragment) :
    MergedByRule fragments ↔
      Obeys 255 (fragments.map Fragment.pair) := by
  constructor
  · intro rule before fragment next after splits earlier last built
    rcases List.map_eq_append_iff.mp splits with
      ⟨front, _, rfl, rfl, second⟩
    rcases List.map_eq_cons_iff.mp second with ⟨item, _, rfl, rfl, first⟩
    rcases List.map_eq_cons_iff.mp first with ⟨more, back, rfl, rfl, -⟩
    rcases decode_next front item more with
      ⟨_, value, read, grown, items, decoded, further, appends, -⟩
    rcases rule front item more back rfl with
      ⟨_, _, decoded_too, further_too, by_rule, -⟩
    rw [decoded] at decoded_too
    rw [further] at further_too
    cases decoded_too
    cases further_too
    rw [List.map_append] at items
    cases (List.append_inj' (items.symm.trans built) rfl).2
    rw [appends] at by_rule
    rw [show more.pair.1 = more.ty from rfl, by_rule]
    exact and_congr_left fun _ => eq_comm
  · rintro obeys before fragment next after rfl
    rcases decode_next before fragment next with
      ⟨earlier, value, read, grown, items, decoded, further, appends,
        starts⟩
    have by_rule :
        Continues 255 (fragment.ty, value) next.ty ↔
          ContinuesWhole fragment next := by
      rw [List.map_append] at items
      have extended :=
        obeys (before.map Fragment.pair) fragment.pair next.pair
          (after.map Fragment.pair) (by simp) earlier _ items
      exact extended.trans (and_congr_left fun _ => eq_comm)
    refine ⟨read, grown, decoded, further, appends.trans by_rule, ?_⟩
    intro alone
    exact starts fun continues => alone (by_rule.mp continues)

/--
Items are merged by the rule of the format exactly when no empty item stands
between a whole one and another one of its type.
-/
theorem mergedByRule_iff (fragments : List Fragment) :
    MergedByRule fragments ↔ ¬ EmptyContinuation fragments := by
  rw [mergedByRule_iff_obeys, emptyContinuation_iff]
  apply obeys_iff (by decide)
  intro fragment member
  rcases List.mem_map.mp member with ⟨source, -, rfl⟩
  exact source.fits

/-- A whole item, an empty one and a byte, all of one type. -/
def interrupted : List Fragment :=
  [⟨Ty.publicKey, List.replicate 255 7, by rw [List.length_replicate]⟩,
    ⟨Ty.publicKey, [], by decide⟩, ⟨Ty.publicKey, [1], by decide⟩]

/-- The byte goes to the value before, although it continues nothing. -/
theorem interrupted_not_mergedByRule :
    ¬ ∀ fragments : List Fragment, MergedByRule fragments := by
  intro always
  rcases always interrupted _ _ _ [] (List.append_cons [_] _ _).symm with
    ⟨read, grown, decoded, further, -, starts⟩
  have apart := starts (by rintro ⟨-, impossible⟩; cases impossible)
  have one :
      (decode (wire (interrupted.take 2))).map (fun t => t.items.length) =
        some 1 := by
    decide +kernel
  have still_one :
      (decode (wire interrupted)).map (fun t => t.items.length) =
        some 1 := by
    decide +kernel
  replace decoded : decode (wire (interrupted.take 2)) = some read := decoded
  replace further : decode (wire interrupted) = some grown := further
  rw [decoded] at one
  rw [further] at still_one
  have read_one : read.items.length = 1 := Option.some.inj one
  have grown_one : grown.items.length = 1 := Option.some.inj still_one
  have longer := congrArg List.length apart
  rw [List.length_append, read_one, grown_one] at longer
  cases longer

end OpenAirplay2.Pairing.Tlv

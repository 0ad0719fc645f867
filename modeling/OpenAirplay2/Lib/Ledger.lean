import Mathlib.Data.List.Basic
import Mathlib.Data.List.Nodup
import Mathlib.Data.List.Range
import Mathlib.Tactic.Common

/-!
# Ledgers of key and nonce pairs

A cipher counts the blocks it processes and takes the nonce of a block from
its count.  When ciphers follow one another, each starting at zero, the pairs
they use are written into one ledger: first those of the ciphers before, then
the first so many of the present one.

No pair is in the ledger twice as long as the present key is not among the
earlier ones and the nonces below its count are distinct.
-/

namespace OpenAirplay2.Lib.Ledger

universe u v

variable
    {Key : Type u}
    {Nonce : Type v}
    (nonce : Nat → Nonce)

/-- The pairs of the first `count` blocks of a cipher. -/
def pairs (key : Key) (count : Nat) : List (Key × Nonce) :=
  (List.range count).map fun index => (key, nonce index)

@[simp]
theorem pairs_zero (key : Key) :
    pairs nonce key 0 = [] :=
  rfl

theorem pairs_succ (key : Key) (count : Nat) :
    pairs nonce key (count + 1) =
      pairs nonce key count ++ [(key, nonce count)] := by
  simp [pairs, List.range_succ]

@[simp]
theorem length_pairs (key : Key) (count : Nat) :
    (pairs nonce key count).length = count := by
  simp [pairs]

theorem key_of_mem_pairs
    {key : Key} {count : Nat} {pair : Key × Nonce}
    (member : pair ∈ pairs nonce key count) :
    pair.1 = key := by
  rw [pairs, List.mem_map] at member
  rcases member with ⟨index, -, rfl⟩
  rfl

theorem nodup_pairs
    {key : Key} {count : Nat}
    (distinct :
      ∀ left right, left < count → right < count →
        nonce left = nonce right → left = right) :
    (pairs nonce key count).Nodup := by
  rw [pairs, List.nodup_map_iff_inj_on List.nodup_range]
  intro left leftBound right rightBound same
  exact
    distinct left right (List.mem_range.mp leftBound)
      (List.mem_range.mp rightBound) (Prod.mk.inj same).2

/-- The ledger without repetitions, and what the earlier part rests on. -/
structure Kept
    (earlier : List Key) (key : Key) (count : Nat)
    (ledger : List (Key × Nonce)) : Prop where
  split :
    ∃ before,
      ledger = before ++ pairs nonce key count ∧ before.Nodup ∧
        ∀ pair ∈ before, pair.1 ∈ earlier

variable {nonce}

namespace Kept

/-- An empty ledger, before any cipher. -/
theorem start (key : Key) :
    Kept nonce [] key 0 [] where
  split := ⟨[], rfl, List.nodup_nil, fun _ member => nomatch member⟩

/-- The present cipher processes one more block. -/
theorem record
    {earlier : List Key} {key : Key} {count : Nat}
    {ledger : List (Key × Nonce)}
    (kept : Kept nonce earlier key count ledger) :
    Kept nonce earlier key (count + 1)
      (ledger ++ [(key, nonce count)]) where
  split := by
    rcases kept.split with ⟨before, rfl, distinct, keys⟩
    refine ⟨before, ?_, distinct, keys⟩
    rw [pairs_succ, List.append_assoc]

theorem count_le
    {earlier : List Key} {key : Key} {count : Nat}
    {ledger : List (Key × Nonce)}
    (kept : Kept nonce earlier key count ledger) :
    count ≤ ledger.length := by
  rcases kept.split with ⟨before, rfl, -, -⟩
  simp

/-- No pair is in the ledger twice. -/
theorem nodup
    {earlier : List Key} {key : Key} {count : Nat}
    {ledger : List (Key × Nonce)}
    (kept : Kept nonce earlier key count ledger)
    (fresh : key ∉ earlier)
    (distinct :
      ∀ left right, left < count → right < count →
        nonce left = nonce right → left = right) :
    ledger.Nodup := by
  rcases kept.split with ⟨before, rfl, beforeDistinct, keys⟩
  apply beforeDistinct.append (nodup_pairs nonce distinct)
  intro pair isBefore isPresent
  have present := key_of_mem_pairs nonce isPresent
  exact fresh (present ▸ keys pair isBefore)

/-- Another cipher takes over. -/
theorem install
    {earlier : List Key} {key : Key} {count : Nat}
    {ledger : List (Key × Nonce)}
    (kept : Kept nonce earlier key count ledger)
    (distinct : ledger.Nodup) (newKey : Key) :
    Kept nonce (earlier ++ [key]) newKey 0 ledger where
  split := by
    refine ⟨ledger, by simp, distinct, ?_⟩
    rcases kept.split with ⟨before, rfl, -, keys⟩
    intro pair member
    rw [List.mem_append] at member ⊢
    rcases member with isBefore | isPresent
    · exact Or.inl (keys pair isBefore)
    · right
      exact
        List.mem_singleton.mpr (key_of_mem_pairs nonce isPresent)

end Kept

end OpenAirplay2.Lib.Ledger

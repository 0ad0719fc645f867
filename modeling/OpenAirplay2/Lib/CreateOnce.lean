import Mathlib

/-!
# Values kept in one file

A value is made up when it is first wanted, written to a file, and read back
from then on.  The file is only written while it is missing, so an
interrupted write leaves a beginning of an encoding that nobody repairs.
Whoever reads it gets the same value or none, provided that no beginning of
an encoding reads as another value.
-/

namespace OpenAirplay2.Lib.CreateOnce

universe u v

variable
    {Value : Type u}
    {Byte : Type v}

/-- How a value is written down and read back. -/
structure Codec (Value : Type u) (Byte : Type v) where
  encode : Value → List Byte
  decode : List Byte → Option Value

/-- A beginning of an encoding reads as no other value. -/
def Codec.Torn (codec : Codec Value Byte) : Prop :=
  ∀ value length other,
    codec.decode ((codec.encode value).take length) = some other →
      other = value

/-- What the outside does to one start. -/
structure Start (Value : Type u) where
  /-- The value that would be made up. -/
  fresh : Value
  /-- The file can be read, or seen to be missing. -/
  looks : Bool
  /-- How much is written before an error or a crash; `none` when the file
  is not even created. -/
  writes : Option Nat
deriving DecidableEq, Repr

variable (codec : Codec Value Byte)

/-- Read the value, or make one up and write it down. -/
def loadOrCreate (start : Start Value) :
    Option (List Byte) → Option (List Byte) × Option Value
  | some contents =>
      (some contents,
        if start.looks then codec.decode contents else none)
  | none =>
      if start.looks then
        match start.writes with
        | none => (none, none)
        | some length =>
            (some ((codec.encode start.fresh).take length),
              if (codec.encode start.fresh).length ≤ length then
                some start.fresh
              else
                none)
      else (none, none)

/-- What one start after another gets. -/
def loads (file : Option (List Byte)) :
    List (Start Value) → List (Option Value)
  | [] => []
  | start :: rest =>
      (loadOrCreate codec start file).2 ::
        loads (loadOrCreate codec start file).1 rest

variable {codec}

/-! ## A file that is there -/

/-- Every start reads the file that is there, or cannot. -/
theorem mem_loads_some
    {contents : List Byte} {starts : List (Start Value)}
    {value : Option Value}
    (loaded : value ∈ loads codec (some contents) starts) :
    value = none ∨ value = codec.decode contents := by
  induction starts with
  | nil => cases loaded
  | cons start rest induction =>
      rcases List.mem_cons.mp loaded with first | later
      · rw [first, loadOrCreate]
        cases start.looks with
        | false => exact Or.inl rfl
        | true => exact Or.inr rfl
      · exact induction later

/-! ## A file that is missing -/

/-- What a start does while the file is missing. -/
theorem loadOrCreate_missing (start : Start Value) :
    loadOrCreate codec start none = (none, none) ∨
      ∃ length,
        (loadOrCreate codec start none).1 =
            some ((codec.encode start.fresh).take length) ∧
          ∀ value, (loadOrCreate codec start none).2 = some value →
            value = start.fresh := by
  rw [loadOrCreate]
  cases start.looks with
  | false => exact Or.inl rfl
  | true =>
      cases start.writes with
      | none => exact Or.inl rfl
      | some length =>
          refine Or.inr ⟨length, rfl, ?_⟩
          intro value isFresh
          simp only [if_true] at isFresh
          split_ifs at isFresh
          exact (Option.some.inj isFresh).symm

/-- All the starts get one value, or none. -/
theorem loads_one_value
    (torn : codec.Torn)
    (file : Option (List Byte)) (starts : List (Start Value)) :
    ∃ kept : Option Value,
      ∀ value, some value ∈ loads codec file starts →
        kept = some value := by
  induction starts generalizing file with
  | nil => exact ⟨none, fun _ loaded => nomatch loaded⟩
  | cons start rest induction =>
      cases file with
      | some contents =>
          refine ⟨codec.decode contents, fun value loaded => ?_⟩
          rcases mem_loads_some loaded with isNone | isDecoded
          · cases isNone
          · exact isDecoded.symm
      | none =>
          rcases @loadOrCreate_missing _ _ codec start with
            nothing | ⟨length, created, isFresh⟩
          · rcases induction none with ⟨kept, isKept⟩
            refine ⟨kept, fun value loaded => ?_⟩
            rw [loads, nothing] at loaded
            rcases List.mem_cons.mp loaded with first | later
            · cases first
            · exact isKept value later
          · refine ⟨some start.fresh, fun value loaded => ?_⟩
            rcases List.mem_cons.mp loaded with first | later
            · rw [isFresh value first.symm]
            · rw [created] at later
              rcases mem_loads_some later with isNone | isDecoded
              · cases isNone
              · rw [torn start.fresh length value isDecoded.symm]

end OpenAirplay2.Lib.CreateOnce

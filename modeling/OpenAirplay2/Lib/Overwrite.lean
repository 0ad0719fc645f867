import Mathlib

/-!
# Operations that overwrite

Suppose that every operation, field by field, either keeps the field or sets
it to a value of its own.  Then so does every sequence of operations, and
performing a sequence again on the state it led to changes nothing.
-/

namespace OpenAirplay2.Lib.Overwrite

variable
    {State : Type*}
    {Op : Type*}
    {Field : Type*}

/-- The function returns its argument's field, or the same value always. -/
def Overwrites (field : State → Field) (step : State → State) : Prop :=
  (∀ state, field (step state) = field state) ∨
    ∃ value, ∀ state, field (step state) = value

namespace Overwrites

variable
    {field : State → Field}
    {first second : State → State}

theorem comp
    (before : Overwrites field first) (after : Overwrites field second) :
    Overwrites field fun state => second (first state) := by
  rcases after with keeps | ⟨value, sets⟩
  · rcases before with kept | ⟨value, set⟩
    · exact Or.inl fun state => (keeps _).trans (kept state)
    · exact Or.inr ⟨value, fun state => (keeps _).trans (set state)⟩
  · exact Or.inr ⟨value, fun state => sets (first state)⟩

theorem foldl
    {apply : State → Op → State}
    (each : ∀ op, Overwrites field fun state => apply state op)
    (ops : List Op) :
    Overwrites field fun state => ops.foldl apply state := by
  induction ops with
  | nil => exact Or.inl fun _ => rfl
  | cons op rest induction => exact (each op).comp induction

/-- Overwriting a second time changes nothing. -/
theorem again
    (overwrites : Overwrites field first) (state : State) :
    field (first (first state)) = field (first state) := by
  rcases overwrites with keeps | ⟨value, sets⟩
  · exact keeps (first state)
  · rw [sets, sets]

end Overwrites

/--
Replaying the end of a history on the state that the history led to leaves
every field as it is.
-/
theorem replay
    {field : State → Field} {apply : State → Op → State}
    (each : ∀ op, Overwrites field fun state => apply state op)
    (before after : List Op) (state : State) :
    field (after.foldl apply ((before ++ after).foldl apply state)) =
      field ((before ++ after).foldl apply state) := by
  rw [List.foldl_append]
  exact (Overwrites.foldl each after).again (before.foldl apply state)

end OpenAirplay2.Lib.Overwrite

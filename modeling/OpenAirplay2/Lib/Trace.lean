import Mathlib

/-!
# Lawful traces

A trace is lawful when every event obeys a rule in the state that the events
before it lead to.  Traces are checked event by event; what that says about
the whole trace is read off its splits.
-/

namespace OpenAirplay2.Lib.Trace

variable
    {State : Type*}
    {Event : Type*}
    (next : State → Event → State)
    (rule : State → Event → Prop)

/-- Every event obeys the rule in the state before it. -/
def Lawful (state : State) : List Event → Prop
  | [] => True
  | event :: rest => rule state event ∧ Lawful (next state event) rest

variable {next rule}

theorem lawful_append_iff
    {state : State} {first second : List Event} :
    Lawful next rule state (first ++ second) ↔
      Lawful next rule state first ∧
        Lawful next rule (first.foldl next state) second := by
  induction first generalizing state with
  | nil =>
      show Lawful next rule state second ↔ True ∧ _
      rw [true_and]
      exact Iff.rfl
  | cons event rest induction =>
      show rule state event ∧ Lawful next rule _ (rest ++ second) ↔
        (rule state event ∧ Lawful next rule _ rest) ∧ _
      rw [induction, and_assoc]
      exact Iff.rfl

/-- The rule, event by event, at every split of the trace. -/
theorem lawful_iff_forall_split
    {state : State} {trace : List Event} :
    Lawful next rule state trace ↔
      ∀ before event after, trace = before ++ event :: after →
        rule (before.foldl next state) event := by
  constructor
  · rintro lawful before event after rfl
    exact (lawful_append_iff.mp lawful).2.1
  · intro everywhere
    induction trace generalizing state with
    | nil => trivial
    | cons event rest induction =>
        constructor
        · exact everywhere [] event rest rfl
        · apply induction
          rintro before other after rfl
          exact everywhere (event :: before) other after rfl

end OpenAirplay2.Lib.Trace

import Mathlib

/-!
# Waiting in turns

Every node that waits has a turn.  Suppose that whoever is waited for and
waits itself has either the turn just before, or a later turn with a settled
one in between, and that no node waits at a settled turn.  Then the waits
form no cycle: along them the number of settled turns passed never falls,
and while it stays the same the turns go down.
-/

namespace OpenAirplay2.Lib.WaitGraph

open Relation (TransGen)

variable
    {Node : Type*}
    {waits : Node → Node → Prop}
    (turn : Node → Nat)
    (settled : Nat → Prop) [DecidablePred settled]

/-- More turns were settled before the second turn, or it comes earlier. -/
def Before (first second : Nat) : Prop :=
  Nat.count settled first < Nat.count settled second ∨
    Nat.count settled first = Nat.count settled second ∧ second < first

theorem Before.irrefl (first : Nat) : ¬ Before settled first first := by
  rintro (less | ⟨-, less⟩)
  · exact Nat.lt_irrefl _ less
  · exact Nat.lt_irrefl _ less

variable {settled}

theorem Before.trans
    {first second third : Nat}
    (left : Before settled first second)
    (right : Before settled second third) :
    Before settled first third := by
  unfold Before at *
  omega

/-- The turn just before is waited for, and it is not settled. -/
theorem Before.of_succ
    {first second : Nat}
    (follows : second + 1 = first) (unsettled : ¬ settled second) :
    Before settled first second := by
  right
  rw [← follows, Nat.count_succ, if_neg unsettled]
  exact ⟨rfl, Nat.lt_succ_self second⟩

/-- A settled turn lies between. -/
theorem Before.of_settled
    {first between second : Nat}
    (above : first < between) (below : between < second)
    (isSettled : settled between) :
    Before settled first second := by
  left
  calc
    Nat.count settled first ≤ Nat.count settled between :=
      Nat.count_monotone settled above.le
    _ < Nat.count settled second :=
      Nat.count_strict_mono isSettled below

variable (settled)

/-- Waiting in turns forms no cycle. -/
theorem no_cycle
    (ordered :
      ∀ first second third, waits first second → waits second third →
        turn second + 1 = turn first ∨
          ∃ between, turn first < between ∧ between < turn second ∧
            settled between)
    (unsettled :
      ∀ first second, waits first second → ¬ settled (turn first))
    (node : Node) : ¬ TransGen waits node node := by
  have step :
      ∀ first second third, waits first second → waits second third →
        Before settled (turn first) (turn second) := by
    intro first second third before after
    rcases ordered first second third before after with
      follows | ⟨between, above, below, isSettled⟩
    · exact Before.of_succ follows (unsettled second third after)
    · exact Before.of_settled above below isSettled
  have path :
      ∀ first second, TransGen waits first second →
        ∀ third, waits second third →
          Before settled (turn first) (turn second) := by
    intro first second waiting
    induction waiting with
    | single before =>
        exact fun third after => step _ _ third before after
    | tail earlier before induction =>
        exact fun third after =>
          (induction _ before).trans (step _ _ third before after)
  intro cycle
  obtain ⟨next, waitsNext⟩ : ∃ next, waits node next := by
    rcases TransGen.head'_iff.mp cycle with ⟨next, waitsNext, -⟩
    exact ⟨next, waitsNext⟩
  exact Before.irrefl settled _ (path node node cycle next waitsNext)

end OpenAirplay2.Lib.WaitGraph

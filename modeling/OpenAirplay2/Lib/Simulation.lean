import OpenAirplay2.Lib.History

/-!
# Simulations

A system simulates another when a relation between their states holds at the
start and every step of the one is matched by some steps of the other.  Then
a run is matched by a run, and what holds wherever the simulating system can
go holds, through the relation, wherever the simulated one can.
-/

namespace OpenAirplay2.Lib.Transition

universe u v w x

variable
    {State : Type u}
    {Act : Type v}
    {Image : Type w}
    {ImageAct : Type x}

/-- Steps of one system are matched by runs of another. -/
structure Simulation
    (system : System State Act) (image : System Image ImageAct) where
  related : State → Image → Prop
  /-- The acts that match a step. -/
  acts : State → Act → List ImageAct
  start : related system.initial image.initial
  step :
    ∀ state next act seen, related state seen →
      system.step state act = some next →
        ∃ seenNext,
          image.exec seen (acts state act) = some seenNext ∧
            related next seenNext

namespace Simulation

variable
    {system : System State Act}
    {image : System Image ImageAct}
    (simulation : Simulation system image)

/-- A run is matched by the run of what matches its steps. -/
theorem exec
    {state final : State} {seen : Image} {schedule : List Act}
    (related : simulation.related state seen)
    (reached : system.exec state schedule = some final) :
    ∃ seenFinal,
      image.exec seen (system.collect simulation.acts state schedule) =
          some seenFinal ∧
        simulation.related final seenFinal := by
  induction schedule generalizing state seen with
  | nil =>
      rw [System.exec_nil, Option.some.injEq] at reached
      rw [← reached]
      exact ⟨seen, rfl, related⟩
  | cons act rest induction =>
      rw [System.exec_cons_iff] at reached
      rcases reached with ⟨next, stepped, reachedRest⟩
      rcases simulation.step state next act seen related stepped with
        ⟨middle, matched, relatedNext⟩
      rcases induction relatedNext reachedRest with
        ⟨seenFinal, matchedRest, relatedFinal⟩
      refine ⟨seenFinal, ?_, relatedFinal⟩
      rw [System.collect_cons stepped, System.exec_append_iff]
      exact ⟨middle, matched, matchedRest⟩

/-- An invariant of the simulating system holds of what is simulated. -/
theorem invariant
    (holds : Image → Prop)
    (preserved :
      ∀ seen act next, holds seen →
        image.step seen act = some next → holds next)
    (start : holds image.initial)
    {final : State} {schedule : List Act}
    (reached : system.exec system.initial schedule = some final) :
    ∃ seen, simulation.related final seen ∧ holds seen := by
  rcases simulation.exec simulation.start reached with
    ⟨seen, matched, related⟩
  exact
    ⟨seen, related,
      System.invariant_of_reached holds preserved start matched⟩

end Simulation

end OpenAirplay2.Lib.Transition

import OpenAirplay2.Lib.Transition

/-!
# The history of a run

What the steps of a run put out is collected in order.  A relation between
the state and the log of outputs that every step keeps holds after every run,
and an output is in the log exactly when a step of the run made it.  A
condition on the steps of a run may look back at the log.

A run that starts in a state with a property has a last such state: it splits
there, and no later state has the property.
-/

namespace OpenAirplay2.Lib.Transition.System

universe u v w

variable
    {State : Type u}
    {Act : Type v}
    {Output : Type w}
    (system : System State Act)

/-- What the enabled steps of a run put out, in order. -/
def collect
    (emit : State → Act → List Output) (state : State) :
    List Act → List Output
  | [] => []
  | act :: rest =>
      match system.step state act with
      | some next => emit state act ++ collect emit next rest
      | none => []

variable {system}

theorem collect_cons
    {emit : State → Act → List Output}
    {state next : State} {act : Act}
    (stepped : system.step state act = some next)
    (rest : List Act) :
    system.collect emit state (act :: rest) =
      emit state act ++ system.collect emit next rest := by
  rw [collect, stepped]

/-- A relation between state and log that every step keeps. -/
theorem invariant_of_collect
    {emit : State → Act → List Output}
    (invariant : State → List Output → Prop)
    (preserved :
      ∀ state log act next, invariant state log →
        system.step state act = some next →
          invariant next (log ++ emit state act))
    {state final : State} {log : List Output} {schedule : List Act}
    (start : invariant state log)
    (reached : system.exec state schedule = some final) :
    invariant final (log ++ system.collect emit state schedule) := by
  induction schedule generalizing state log with
  | nil =>
      rw [exec_nil, Option.some.injEq] at reached
      rw [← reached, collect, List.append_nil]
      exact start
  | cons act rest induction =>
      rw [exec_cons_iff] at reached
      rcases reached with ⟨next, stepped, reachedRest⟩
      rw [collect_cons stepped, ← List.append_assoc]
      exact
        induction (preserved state log act next start stepped) reachedRest

/-- The same where only the steps that meet a condition keep the relation. -/
theorem invariant_of_collect_of_meets
    {emit : State → Act → List Output}
    {condition : State → Act → Prop}
    (invariant : State → List Output → Prop)
    (preserved :
      ∀ state log act next, invariant state log → condition state act →
        system.step state act = some next →
          invariant next (log ++ emit state act))
    {state final : State} {log : List Output} {schedule : List Act}
    (start : invariant state log)
    (meets : system.Meets condition state schedule)
    (reached : system.exec state schedule = some final) :
    invariant final (log ++ system.collect emit state schedule) := by
  induction schedule generalizing state log with
  | nil =>
      rw [exec_nil, Option.some.injEq] at reached
      rw [← reached, collect, List.append_nil]
      exact start
  | cons act rest induction =>
      rw [exec_cons_iff] at reached
      rcases reached with ⟨next, stepped, reachedRest⟩
      rw [collect_cons stepped, ← List.append_assoc]
      exact
        induction (preserved state log act next start meets.1 stepped)
          (meets.2 next stepped) reachedRest

/-- Every step of the run meets a condition on what was put out before it. -/
def MeetsAfter
    (system : System State Act) (emit : State → Act → List Output)
    (condition : List Output → State → Act → Prop)
    (log : List Output) (state : State) : List Act → Prop
  | [] => True
  | act :: rest =>
      condition log state act ∧
        ∀ next, system.step state act = some next →
          MeetsAfter system emit condition (log ++ emit state act) next rest

/--
A condition on the log is one on the state where a relation between the two,
which the condition keeps, makes them agree.
-/
theorem meetsAfter_iff
    {emit : State → Act → List Output}
    {condition : List Output → State → Act → Prop}
    {decided : State → Act → Prop}
    (invariant : State → List Output → Prop)
    (agrees :
      ∀ state log act, invariant state log →
        (condition log state act ↔ decided state act))
    (preserved :
      ∀ state log act next, invariant state log →
        condition log state act → system.step state act = some next →
          invariant next (log ++ emit state act))
    {state : State} {log : List Output} {schedule : List Act}
    (start : invariant state log) :
    system.MeetsAfter emit condition log state schedule ↔
      system.Meets decided state schedule := by
  induction schedule generalizing state log with
  | nil => exact Iff.rfl
  | cons act rest induction =>
      have now := agrees state log act start
      constructor
      · rintro ⟨meets, later⟩
        refine ⟨now.mp meets, fun next stepped => ?_⟩
        have kept := preserved state log act next start meets stepped
        exact (induction kept).mp (later next stepped)
      · rintro ⟨decides, later⟩
        have meets := now.mpr decides
        refine ⟨meets, fun next stepped => ?_⟩
        have kept := preserved state log act next start meets stepped
        exact (induction kept).mpr (later next stepped)

/-- Every output was made by a step of the run. -/
theorem exists_step_of_mem_collect
    {emit : State → Act → List Output}
    {state : State} {schedule : List Act} {output : Output}
    (member : output ∈ system.collect emit state schedule) :
    ∃ before act after middle,
      schedule = before ++ act :: after ∧
        system.exec state before = some middle ∧
          output ∈ emit middle act := by
  induction schedule generalizing state with
  | nil => simp [collect] at member
  | cons head rest induction =>
      cases stepped : system.step state head with
      | none => simp [collect, stepped] at member
      | some next =>
          rw [collect_cons stepped, List.mem_append] at member
          rcases member with now | later
          · exact ⟨[], head, rest, state, rfl, rfl, now⟩
          · rcases induction later with
              ⟨before, act, after, middle, split, reached, emitted⟩
            refine
              ⟨head :: before, act, after, middle, ?_, ?_, emitted⟩
            · rw [split, List.cons_append]
            · rw [exec_cons_iff]
              exact ⟨next, stepped, reached⟩

/-- A property that holds only after it held before. -/
theorem holds_of_reached
    {property : State → Prop}
    (earlier :
      ∀ state act next, system.step state act = some next →
        property next → property state)
    {state final : State} {schedule : List Act}
    (reached : system.exec state schedule = some final)
    (holds : property final) :
    property state := by
  induction schedule generalizing state with
  | nil =>
      rw [exec_nil, Option.some.injEq] at reached
      exact reached ▸ holds
  | cons act rest induction =>
      rw [exec_cons_iff] at reached
      rcases reached with ⟨next, stepped, reachedRest⟩
      exact earlier state act next stepped (induction reachedRest)

/--
Where every step exchanges what it gains for what it loses, a run exchanges
all its gains for all its losses.
-/
theorem collect_balance
    {gains losses : State → Act → List Output}
    {stock : State → List Output} {running : State → Prop}
    {state final : State} {schedule : List Act}
    (earlier :
      ∀ state act next, system.step state act = some next →
        running next → running state)
    (balanced :
      ∀ state act next, system.step state act = some next →
        running next →
          List.Perm (gains state act ++ stock state)
            (losses state act ++ stock next))
    (reached : system.exec state schedule = some final)
    (runs : running final) :
    List.Perm
      (system.collect gains state schedule ++ stock state)
      (system.collect losses state schedule ++ stock final) := by
  induction schedule generalizing state with
  | nil =>
      rw [exec_nil, Option.some.injEq] at reached
      rw [reached]
      exact List.Perm.refl _
  | cons act rest induction =>
      rw [exec_cons_iff] at reached
      rcases reached with ⟨next, stepped, reachedRest⟩
      have now :=
        balanced state act next stepped
          (holds_of_reached earlier reachedRest runs)
      rw [collect_cons stepped, collect_cons stepped]
      calc
        List.Perm
            (gains state act ++ system.collect gains next rest ++
              stock state)
            (system.collect gains next rest ++
              (gains state act ++ stock state)) := by
          rw [List.append_assoc]
          exact List.perm_append_comm_assoc _ _ _
        List.Perm _
            (system.collect gains next rest ++
              (losses state act ++ stock next)) :=
          now.append_left _
        List.Perm _
            (losses state act ++
              (system.collect gains next rest ++ stock next)) :=
          List.perm_append_comm_assoc _ _ _
        List.Perm _
            (losses state act ++
              (system.collect losses next rest ++ stock final)) :=
          (induction reachedRest).append_left _
        List.Perm _
            (losses state act ++ system.collect losses next rest ++
              stock final) := by
          rw [List.append_assoc]

/-- Where the run had the property last. -/
theorem exists_last_visit
    (property : State → Prop)
    {state final : State} {schedule : List Act}
    (start : property state)
    (reached : system.exec state schedule = some final) :
    ∃ before during visited,
      schedule = before ++ during ∧
        system.exec state before = some visited ∧
          property visited ∧
            ∀ earlier middle, earlier <+: during → earlier ≠ [] →
              system.exec visited earlier = some middle →
                ¬ property middle := by
  induction schedule using List.reverseRecOn generalizing final with
  | nil =>
      refine ⟨[], [], state, rfl, rfl, start, ?_⟩
      intro earlier middle isPrefix nonempty
      exact (nonempty (List.prefix_nil.mp isPrefix)).elim
  | append_singleton schedule act induction =>
      rw [exec_append_iff] at reached
      rcases reached with ⟨last, reachedLast, stepped⟩
      by_cases again : property final
      · refine
          ⟨schedule ++ [act], [], final, (List.append_nil _).symm, ?_,
            again, ?_⟩
        · rw [exec_append_iff]
          exact ⟨last, reachedLast, stepped⟩
        · intro earlier middle isPrefix nonempty
          exact (nonempty (List.prefix_nil.mp isPrefix)).elim
      · rcases induction reachedLast with
          ⟨before, during, visited, split, visits, holds, never⟩
        refine
          ⟨before, during ++ [act], visited, ?_, visits, holds, ?_⟩
        · rw [split, List.append_assoc]
        · intro earlier middle isPrefix nonempty middleReached
          rcases List.prefix_concat_iff.mp isPrefix with whole | inside
          · have rejoined :
                system.exec state (before ++ earlier) = some middle := by
              rw [exec_append_iff]
              exact ⟨visited, visits, middleReached⟩
            rw [whole, ← List.append_assoc, ← split,
              exec_append_iff] at rejoined
            rcases rejoined with ⟨other, reachedOther, steppedOther⟩
            rw [reachedLast, Option.some.injEq] at reachedOther
            rw [← reachedOther, stepped, Option.some.injEq] at steppedOther
            rw [← steppedOther]
            exact again
          · exact never earlier middle inside nonempty middleReached

end OpenAirplay2.Lib.Transition.System

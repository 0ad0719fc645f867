import Mathlib

/-!
# Executable transition systems

A transition system is an initial state together with a partial step
function.  The scheduler is the list of acts handed to `exec`: a statement
about every interleaving is a statement about every schedule.

Three rules carry all later run arguments.  An invariant that every step
keeps holds after every run; an invariant that only the steps meeting a
condition keep holds after every run whose steps all meet it; and a property
whose survival is decided by the condition, step by step, holds along a run
exactly when every step meets the condition.
-/

namespace OpenAirplay2.Lib.Transition

universe u v

/-- A transition system with a deterministic, partial, labelled step. -/
structure System (State : Type u) (Act : Type v) where
  initial : State
  step : State → Act → Option State

variable
    {State : Type u}
    {Act : Type v}
    (system : System State Act)

namespace System

/-- Perform a schedule; `none` when one of its acts is not enabled. -/
def exec (state : State) : List Act → Option State
  | [] => some state
  | act :: rest => (system.step state act).bind fun next => exec next rest

@[simp]
theorem exec_nil (state : State) :
    system.exec state [] = some state :=
  rfl

theorem exec_cons_iff
    (state final : State) (act : Act) (rest : List Act) :
    system.exec state (act :: rest) = some final ↔
      ∃ next,
        system.step state act = some next ∧
          system.exec next rest = some final := by
  simp [exec, Option.bind_eq_some_iff]

theorem exec_append_iff
    (state final : State) (first second : List Act) :
    system.exec state (first ++ second) = some final ↔
      ∃ middle,
        system.exec state first = some middle ∧
          system.exec middle second = some final := by
  induction first generalizing state with
  | nil => simp
  | cons act rest induction =>
      simp only [List.cons_append, exec_cons_iff, induction]
      constructor
      · rintro ⟨next, stepped, middle, reached, finished⟩
        exact ⟨middle, ⟨next, stepped, reached⟩, finished⟩
      · rintro ⟨middle, ⟨next, stepped, reached⟩, finished⟩
        exact ⟨next, stepped, middle, reached, finished⟩

/-- Every step of the run starts in a state that meets the condition. -/
def Meets
    (condition : State → Act → Prop) (state : State) :
    List Act → Prop
  | [] => True
  | act :: rest =>
      condition state act ∧
        ∀ next, system.step state act = some next →
          Meets condition next rest

/-- Every state the run passes through has the property. -/
def Always
    (property : State → Prop) (state : State) :
    List Act → Prop
  | [] => property state
  | act :: rest =>
      property state ∧
        ∀ next, system.step state act = some next →
          Always property next rest

/-- Whether a run meets a decidable condition can be computed. -/
instance decidableMeets
    (condition : State → Act → Prop)
    [∀ state act, Decidable (condition state act)] :
    (state : State) → (schedule : List Act) →
      Decidable (system.Meets condition state schedule)
  | _, [] => isTrue trivial
  | state, act :: rest =>
      have := fun next => decidableMeets condition next rest
      inferInstanceAs
        (Decidable
          (condition state act ∧
            ∀ next ∈ system.step state act,
              system.Meets condition next rest))

variable {system}

theorem Meets.append_left
    {condition : State → Act → Prop} {state : State}
    {first second : List Act}
    (meets : system.Meets condition state (first ++ second)) :
    system.Meets condition state first := by
  induction first generalizing state with
  | nil => trivial
  | cons act rest induction =>
      exact
        ⟨meets.1, fun next stepped =>
          induction (meets.2 next stepped)⟩

theorem Meets.append_right
    {condition : State → Act → Prop} {state middle : State}
    {first second : List Act}
    (meets : system.Meets condition state (first ++ second))
    (reached : system.exec state first = some middle) :
    system.Meets condition middle second := by
  induction first generalizing state with
  | nil =>
      rw [exec_nil, Option.some.injEq] at reached
      subst reached
      exact meets
  | cons act rest induction =>
      rw [exec_cons_iff] at reached
      rcases reached with ⟨next, stepped, reachedRest⟩
      exact induction (meets.2 next stepped) reachedRest

theorem Meets.append
    {condition : State → Act → Prop} {state : State}
    {first second : List Act}
    (meetsFirst : system.Meets condition state first)
    (meetsSecond :
      ∀ middle, system.exec state first = some middle →
        system.Meets condition middle second) :
    system.Meets condition state (first ++ second) := by
  induction first generalizing state with
  | nil => exact meetsSecond state rfl
  | cons act rest induction =>
      refine ⟨meetsFirst.1, ?_⟩
      intro next stepped
      refine induction (meetsFirst.2 next stepped) ?_
      intro middle reached
      apply meetsSecond middle
      rw [exec_cons_iff]
      exact ⟨next, stepped, reached⟩

/-- A condition on the acts alone is met when every act satisfies it. -/
theorem meets_of_forall_mem
    {condition : Act → Prop} {schedule : List Act}
    (allowed : ∀ act ∈ schedule, condition act)
    (state : State) :
    system.Meets (fun _ act => condition act) state schedule := by
  induction schedule generalizing state with
  | nil => trivial
  | cons act rest induction =>
      exact
        ⟨allowed act List.mem_cons_self, fun next _ =>
          induction
            (fun other member =>
              allowed other (List.mem_cons_of_mem _ member))
            next⟩

theorem Meets.and
    {left right : State → Act → Prop} {state : State}
    {schedule : List Act}
    (meetsLeft : system.Meets left state schedule)
    (meetsRight : system.Meets right state schedule) :
    system.Meets
      (fun state act => left state act ∧ right state act)
      state schedule := by
  induction schedule generalizing state with
  | nil => trivial
  | cons act rest induction =>
      exact
        ⟨⟨meetsLeft.1, meetsRight.1⟩, fun next stepped =>
          induction
            (meetsLeft.2 next stepped)
            (meetsRight.2 next stepped)⟩

theorem Meets.mono
    {condition weaker : State → Act → Prop} {state : State}
    {schedule : List Act}
    (weaken : ∀ state act, condition state act → weaker state act)
    (meets : system.Meets condition state schedule) :
    system.Meets weaker state schedule := by
  induction schedule generalizing state with
  | nil => trivial
  | cons act rest induction =>
      exact
        ⟨weaken state act meets.1, fun next stepped =>
          induction (meets.2 next stepped)⟩

/--
The step condition, read off the run: it holds wherever a prefix of the
schedule leads to a state in which the next act of the schedule is taken.
-/
theorem meets_iff_forall_prefix
    {condition : State → Act → Prop} {state : State}
    {schedule : List Act} :
    system.Meets condition state schedule ↔
      ∀ before act after middle,
        schedule = before ++ act :: after →
          system.exec state before = some middle →
            condition middle act := by
  induction schedule generalizing state with
  | nil => simp [Meets]
  | cons head rest induction =>
      constructor
      · rintro meets before act after middle split reached
        cases before with
        | nil =>
            simp only [exec_nil, Option.some.injEq] at reached
            simp only [List.nil_append, List.cons.injEq] at split
            rw [← reached, ← split.1]
            exact meets.1
        | cons first before =>
            simp only [List.cons_append, List.cons.injEq] at split
            rw [exec_cons_iff] at reached
            rcases reached with ⟨next, stepped, reachedRest⟩
            rw [← split.1] at stepped
            exact
              induction.mp (meets.2 next stepped)
                before act after middle split.2 reachedRest
      · intro everywhere
        refine ⟨everywhere [] head rest state rfl rfl, ?_⟩
        intro next stepped
        apply induction.mpr
        intro before act after middle split reached
        apply everywhere (head :: before) act after middle
        · rw [split, List.cons_append]
        · rw [exec_cons_iff]
          exact ⟨next, stepped, reached⟩

/-- Every step of a run leads on to where the run ends. -/
theorem meets_toward
    {state final : State} {schedule : List Act}
    (reached : system.exec state schedule = some final) :
    system.Meets
      (fun state act =>
        ∀ next, system.step state act = some next →
          ∃ rest, system.exec next rest = some final)
      state schedule := by
  induction schedule generalizing state with
  | nil => trivial
  | cons act rest induction =>
      rw [exec_cons_iff] at reached
      rcases reached with ⟨next, stepped, reachedRest⟩
      constructor
      · intro other otherStepped
        rw [stepped, Option.some.injEq] at otherStepped
        subst otherStepped
        exact ⟨rest, reachedRest⟩
      · intro other otherStepped
        rw [stepped, Option.some.injEq] at otherStepped
        subst otherStepped
        exact induction reachedRest

/-- The states a run passes through are those its prefixes reach. -/
theorem always_iff_forall_prefix
    {property : State → Prop} {state : State}
    {schedule : List Act} :
    system.Always property state schedule ↔
      ∀ before middle, before <+: schedule →
        system.exec state before = some middle →
          property middle := by
  induction schedule generalizing state with
  | nil =>
      simp only [Always, List.prefix_nil]
      constructor
      · rintro holds before middle rfl reached
        rw [exec_nil, Option.some.injEq] at reached
        exact reached ▸ holds
      · intro everywhere
        exact everywhere [] state rfl rfl
  | cons head rest induction =>
      constructor
      · rintro always before middle isPrefix reached
        cases before with
        | nil =>
            rw [exec_nil, Option.some.injEq] at reached
            exact reached ▸ always.1
        | cons first before =>
            rw [List.cons_prefix_cons] at isPrefix
            rw [exec_cons_iff] at reached
            rcases reached with ⟨next, stepped, reachedRest⟩
            rw [isPrefix.1] at stepped
            exact
              induction.mp (always.2 next stepped)
                before middle isPrefix.2 reachedRest
      · intro everywhere
        refine ⟨everywhere [] state List.nil_prefix rfl, ?_⟩
        intro next stepped
        apply induction.mpr
        intro before middle isPrefix reached
        apply everywhere (head :: before) middle
        · exact List.cons_prefix_cons.mpr ⟨rfl, isPrefix⟩
        · rw [exec_cons_iff]
          exact ⟨next, stepped, reached⟩

/-! ## Run rules -/

/-- An invariant kept by the steps that meet a condition holds after the run. -/
theorem invariant_of_meets
    {condition : State → Act → Prop} (invariant : State → Prop)
    (preserved :
      ∀ state act next, invariant state → condition state act →
        system.step state act = some next → invariant next)
    {state final : State} {schedule : List Act}
    (start : invariant state)
    (meets : system.Meets condition state schedule)
    (reached : system.exec state schedule = some final) :
    invariant final := by
  induction schedule generalizing state with
  | nil =>
      rw [exec_nil, Option.some.injEq] at reached
      exact reached ▸ start
  | cons act rest induction =>
      rw [exec_cons_iff] at reached
      rcases reached with ⟨next, stepped, reachedRest⟩
      exact
        induction (preserved state act next start meets.1 stepped)
          (meets.2 next stepped) reachedRest

/-- An invariant kept by every step holds after every run. -/
theorem invariant_of_reached
    (invariant : State → Prop)
    (preserved :
      ∀ state act next, invariant state →
        system.step state act = some next → invariant next)
    {state final : State} {schedule : List Act}
    (start : invariant state)
    (reached : system.exec state schedule = some final) :
    invariant final := by
  induction schedule generalizing state with
  | nil =>
      rw [exec_nil, Option.some.injEq] at reached
      exact reached ▸ start
  | cons act rest induction =>
      rw [exec_cons_iff] at reached
      rcases reached with ⟨next, stepped, reachedRest⟩
      exact
        induction (preserved state act next start stepped) reachedRest

/-- An invariant that entails the condition makes every run meet it. -/
theorem meets_of_invariant
    {condition allowed : State → Act → Prop}
    (invariant : State → Prop)
    (preserved :
      ∀ state act next, invariant state → allowed state act →
        system.step state act = some next → invariant next)
    (entails :
      ∀ state act, invariant state → allowed state act →
        condition state act)
    {state : State} {schedule : List Act}
    (start : invariant state)
    (meets : system.Meets allowed state schedule) :
    system.Meets condition state schedule := by
  induction schedule generalizing state with
  | nil => trivial
  | cons act rest induction =>
      refine ⟨entails state act start meets.1, ?_⟩
      intro next stepped
      exact
        induction (preserved state act next start meets.1 stepped)
          (meets.2 next stepped)

/--
If, under an invariant, a step keeps the property exactly when it meets the
condition, then a run has the property throughout exactly when all of its
steps meet the condition.
-/
theorem always_iff_meets
    {condition allowed : State → Act → Prop}
    {property : State → Prop} (invariant : State → Prop)
    (preserved :
      ∀ state act next, invariant state → property state →
        allowed state act →
          system.step state act = some next →
            condition state act → invariant next)
    (decided :
      ∀ state act next, invariant state → property state →
        allowed state act →
          system.step state act = some next →
            (property next ↔ condition state act))
    {state : State} {schedule : List Act}
    (enabled : ∃ final, system.exec state schedule = some final)
    (start : invariant state) (holds : property state)
    (meets : system.Meets allowed state schedule) :
    system.Always property state schedule ↔
      system.Meets condition state schedule := by
  induction schedule generalizing state with
  | nil => simp [Always, Meets, holds]
  | cons act rest induction =>
      rcases enabled with ⟨final, reached⟩
      rw [exec_cons_iff] at reached
      rcases reached with ⟨next, stepped, reachedRest⟩
      have decision :=
        decided state act next start holds meets.1 stepped
      have unique :
          ∀ other, system.step state act = some other →
            other = next := by
        intro other otherStepped
        exact Option.some.inj (otherStepped.symm.trans stepped)
      constructor
      · intro always
        have nextHolds : property next := by
          cases rest with
          | nil => exact always.2 next stepped
          | cons _ _ => exact (always.2 next stepped).1
        have condNow := decision.mp nextHolds
        refine ⟨condNow, ?_⟩
        intro other otherStepped
        rw [unique other otherStepped]
        exact
          (induction ⟨final, reachedRest⟩
            (preserved state act next start holds meets.1 stepped
              condNow)
            nextHolds (meets.2 next stepped)).mp
            (always.2 next stepped)
      · intro condition
        refine ⟨holds, ?_⟩
        intro other otherStepped
        rw [unique other otherStepped]
        exact
          (induction ⟨final, reachedRest⟩
            (preserved state act next start holds meets.1 stepped
              condition.1)
            (decision.mpr condition.1)
            (meets.2 next stepped)).mpr
            (condition.2 next stepped)

variable (system)

/--
An act whose every step decreases a well-founded measure comes to rest:
repeating it reaches a state in which it is not enabled.
-/
theorem repeat_comes_to_rest
    {Rank : Type*} {lower : Rank → Rank → Prop}
    (wellFounded : WellFounded lower)
    (rank : State → Rank) (act : Act)
    (invariant : State → Prop)
    (preserved :
      ∀ state next, invariant state →
        system.step state act = some next → invariant next)
    (decreases :
      ∀ state next, invariant state →
        system.step state act = some next →
          lower (rank next) (rank state))
    {state : State} (start : invariant state) :
    ∃ count final,
      system.exec state (List.replicate count act) = some final ∧
        system.step final act = none ∧ invariant final := by
  induction generalized : rank state
    using wellFounded.induction generalizing state with
  | _ current induction =>
      subst generalized
      cases stepped : system.step state act with
      | none => exact ⟨0, state, rfl, stepped, start⟩
      | some next =>
          obtain ⟨count, final, reached, rest, holds⟩ :=
            induction (rank next)
              (decreases state next start stepped)
              (preserved state next start stepped) rfl
          refine ⟨count + 1, final, ?_, rest, holds⟩
          rw [List.replicate_succ, exec_cons_iff]
          exact ⟨next, stepped, reached⟩

/--
An act that is enabled and decreases a well-founded measure until a goal is
reached does reach it.
-/
theorem repeat_reaches
    {Rank : Type*} {lower : Rank → Rank → Prop}
    (wellFounded : WellFounded lower)
    (rank : State → Rank) (act : Act)
    (invariant goal : State → Prop)
    (advances :
      ∀ state, invariant state →
        ∃ next, system.step state act = some next ∧
          lower (rank next) (rank state) ∧ (invariant next ∨ goal next))
    {state : State} (start : invariant state) :
    ∃ count final,
      system.exec state (List.replicate count act) = some final ∧
        goal final := by
  induction generalized : rank state
    using wellFounded.induction generalizing state with
  | _ current induction =>
      subst generalized
      obtain ⟨next, stepped, decreases, onward | done⟩ :=
        advances state start
      · obtain ⟨count, final, reached, holds⟩ :=
          induction (rank next) decreases onward rfl
        refine ⟨count + 1, final, ?_, holds⟩
        rw [List.replicate_succ, exec_cons_iff]
        exact ⟨next, stepped, reached⟩
      · refine ⟨1, next, ?_, done⟩
        rw [List.replicate_one, exec_cons_iff]
        exact ⟨next, stepped, rfl⟩

end System

end OpenAirplay2.Lib.Transition

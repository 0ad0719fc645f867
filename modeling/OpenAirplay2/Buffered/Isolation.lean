import OpenAirplay2.Buffered.Boundary

/-!
# Streams that share the boundary cell

Each buffered stream of a session has a reader of its own, and the readers of
earlier streams go on as long as their connections do.  All of them check
against one cell, so a packet of an earlier stream can clear the boundary
that was stored for the present one.

What the present stream delivers is compared with what it delivers alone:
the run without the acts of the other readers.  Each connection is split into
packets on its own, and all that decryption, decoding and the player see of a
stream are the packets its reader lets through.
-/

namespace OpenAirplay2.Buffered.Boundary

open OpenAirplay2.Lib.Transition
open OpenAirplay2.Pairing (Bytes)

/-- The act is one of the RTSP task or of the given reader. -/
def Act.own (reader : Nat) : Act → Bool
  | .store _ => true
  | .load other _ => other == reader
  | .finish other => other == reader

/-- The packets an act lets through to the decoder of the reader's stream. -/
def State.passed (reader : Nat) (state : State) : Act → List Bytes
  | .load other packet =>
      if other = reader then
        match packetSeq packet with
        | some seq =>
            if skips state.flushUntilSeq seq then [] else [packet]
        | none => [packet]
      else
        []
  | _ => []

/-- A decrypted packet. -/
structure AudioPacket where
  seq : Nat
  timestamp : Nat
  payload : Bytes
deriving DecidableEq, Repr

/-- What comes after the filter; the decoder keeps a state of its own. -/
structure Pipeline (Decoder : Type) where
  decrypt : Bytes → Option AudioPacket
  decode : Decoder → Bytes → Decoder × Option (List Player.Sample)

/-- The calls of `play` that `buffered_audio` makes for the packets. -/
def Pipeline.played {Decoder : Type} (pipeline : Pipeline Decoder) :
    Decoder → List Bytes → List (Nat × Nat × List Player.Sample)
  | _, [] => []
  | decoder, packet :: rest =>
      match pipeline.decrypt packet with
      | none => pipeline.played decoder rest
      | some audio =>
          match pipeline.decode decoder audio.payload with
          | (next, some (sample :: pcm)) =>
              (audio.seq, audio.timestamp, sample :: pcm) ::
                pipeline.played next rest
          | (next, _) => pipeline.played next rest

/-- The reader's player gets what it gets without the other readers. -/
def Isolated
    (reader : Nat) (state : State) (schedule : List Act) : Prop :=
  ∀ (Decoder : Type) (pipeline : Pipeline Decoder) (decoder : Decoder),
    pipeline.played decoder
        (cell.collect (State.passed reader) state schedule) =
      pipeline.played decoder
        (cell.collect (State.passed reader) state
          (schedule.filter (Act.own reader)))

/-- The check the reader has under way is about to clear the cell. -/
def State.clears (state : State) (reader : Nat) : Bool :=
  match state.checks reader with
  | some check =>
      reaches check.boundary check.seq &&
        state.flushUntilSeq == check.boundary
  | none => false

theorem clears_iff {state : State} {reader : Nat} :
    state.clears reader = true ↔
      ∃ check, state.checks reader = some check ∧
        reaches check.boundary check.seq = true ∧
          state.flushUntilSeq = check.boundary := by
  unfold State.clears
  split
  · next check underWay => simp [underWay]
  · next idle => simp [idle]

/-- A boundary that is cleared was not zero. -/
theorem ne_zero_of_clears
    {state : State} {reader : Nat}
    (clears : state.clears reader = true) :
    state.flushUntilSeq ≠ 0 := by
  rw [clears_iff] at clears
  rcases clears with ⟨check, -, reached, same⟩
  rw [reaches_iff] at reached
  rw [same]
  exact reached.1

/--
The check of another reader clears the boundary, and the reader itself is not
about to do the same.
-/
def Intrudes (reader : Nat) (state : State) : Act → Prop
  | .finish other =>
      other ≠ reader ∧ state.clears other = true ∧
        state.clears reader = false
  | _ => False

instance (reader : Nat) (state : State) (act : Act) :
    Decidable (Intrudes reader state act) :=
  match act with
  | .finish _ => inferInstanceAs (Decidable (_ ∧ _))
  | .store _ | .load _ _ => instDecidableFalse

/-- The two runs agree on what the reader sees, now or after its check. -/
structure Alike (reader : Nat) (state alone : State) : Prop where
  checks : state.checks reader = alone.checks reader
  cells :
    state.flushUntilSeq = alone.flushUntilSeq ∨
      (state.flushUntilSeq = 0 ∧ alone.clears reader = true)

namespace Alike

variable
    {reader : Nat}
    {state alone : State}

theorem refl (state : State) : Alike reader state state :=
  ⟨rfl, Or.inl rfl⟩

/-- An idle reader sees the same cell in both runs. -/
theorem cell_of_idle
    (alike : Alike reader state alone)
    (idle : state.checks reader = none) :
    state.flushUntilSeq = alone.flushUntilSeq := by
  rcases alike.cells with same | ⟨-, clears⟩
  · exact same
  · rw [clears_iff] at clears
    rcases clears with ⟨check, underWay, -⟩
    rw [← alike.checks, idle] at underWay
    cases underWay

/-- A boundary that a check is about to clear is in both cells. -/
theorem cell_of_clears
    {other : Nat}
    (alike : Alike reader state alone)
    (clears : state.clears other = true) :
    state.flushUntilSeq = alone.flushUntilSeq := by
  rcases alike.cells with same | ⟨zero, -⟩
  · exact same
  · exact (ne_zero_of_clears clears zero).elim

end Alike

/-- The cell after the end of a check, by whether it clears it. -/
theorem exchanged_eq
    {state : State} {reader : Nat} {check : Check}
    (underWay : state.checks reader = some check) :
    state.exchanged check =
      if state.clears reader then 0 else state.flushUntilSeq := by
  simp only [State.exchanged, State.clears, underWay, compareExchange]
  by_cases reached : reaches check.boundary check.seq = true
  · by_cases same : state.flushUntilSeq = check.boundary
    · simp [reached, same]
    · simp [reached, same]
  · simp [reached]

/-- An act of the reader or the RTSP task runs in both, with one outcome. -/
theorem alike_own
    {reader : Nat} {state alone next : State} {act : Act}
    (alike : Alike reader state alone)
    (own : act.own reader = true)
    (stepped : step state act = some next) :
    ∃ nextAlone,
      step alone act = some nextAlone ∧ Alike reader next nextAlone ∧
        state.passed reader act = alone.passed reader act := by
  cases cell_cases stepped with
  | store boundary =>
      exact ⟨_, rfl, ⟨alike.checks, Or.inl rfl⟩, rfl⟩
  | short other packet idle unnumbered =>
      have same : other = reader := beq_iff_eq.mp own
      subst same
      refine ⟨alone, ?_, alike, ?_⟩
      · simp [step, State.load, ← alike.checks, idle, unnumbered]
      · simp [State.passed, unnumbered]
  | load other packet seq idle numbered =>
      have same : other = reader := beq_iff_eq.mp own
      subst same
      have cells := alike.cell_of_idle idle
      refine
        ⟨{ alone with
            checks :=
              Function.update alone.checks other
                (some ⟨seq, alone.flushUntilSeq⟩) }, ?_, ⟨?_, ?_⟩, ?_⟩
      · simp [step, State.load, ← alike.checks, idle, numbered]
      · simp [cells]
      · exact Or.inl cells
      · simp [State.passed, numbered, cells]
  | finish other check underWay =>
      have same : other = reader := beq_iff_eq.mp own
      subst same
      have aloneUnderWay : alone.checks other = some check :=
        alike.checks ▸ underWay
      refine
        ⟨{ flushUntilSeq := alone.exchanged check
           checks := Function.update alone.checks other none }, ?_,
          ⟨?_, ?_⟩, rfl⟩
      · simp [step, State.finish, aloneUnderWay]
      · simp
      · left
        show state.exchanged check = alone.exchanged check
        rcases alike.cells with same | ⟨zero, clears⟩
        · simp only [State.exchanged, same]
        · rw [exchanged_eq aloneUnderWay, if_pos clears,
            exchanged_eq underWay, zero, ite_self]

/-- An act of another reader that does not intrude changes nothing. -/
theorem alike_other
    {reader : Nat} {state alone next : State} {act : Act}
    (alike : Alike reader state alone)
    (foreign : act.own reader = false)
    (harmless : ¬ Intrudes reader state act)
    (stepped : step state act = some next) :
    Alike reader next alone ∧ state.passed reader act = [] := by
  cases cell_cases stepped with
  | store boundary => cases foreign
  | short other packet idle unnumbered =>
      have apart : other ≠ reader := by
        simpa [Act.own] using foreign
      exact ⟨alike, by simp [State.passed, apart]⟩
  | load other packet seq idle numbered =>
      have apart : other ≠ reader := by
        simpa [Act.own] using foreign
      refine ⟨⟨?_, alike.cells⟩, by simp [State.passed, apart]⟩
      show Function.update state.checks other _ reader = _
      rw [Function.update_of_ne (Ne.symm apart)]
      exact alike.checks
  | finish other check underWay =>
      have apart : other ≠ reader := by
        simpa [Act.own] using foreign
      refine ⟨⟨?_, ?_⟩, rfl⟩
      · show Function.update state.checks other _ reader = _
        rw [Function.update_of_ne (Ne.symm apart)]
        exact alike.checks
      · show state.exchanged check = alone.flushUntilSeq ∨
          (state.exchanged check = 0 ∧ _)
        rw [exchanged_eq underWay]
        cases clears : state.clears other with
        | false =>
            simp only [Bool.false_eq_true, if_false]
            exact alike.cells
        | true =>
            -- The reader is about to clear the same boundary itself.
            right
            refine ⟨rfl, ?_⟩
            have cells := alike.cell_of_clears clears
            have ownClears : state.clears reader = true := by
              by_contra quiet
              rw [Bool.not_eq_true] at quiet
              exact harmless ⟨apart, clears, quiet⟩
            rw [clears_iff] at ownClears ⊢
            rw [← alike.checks, ← cells]
            exact ownClears

/-! ## Runs -/

section Runs

variable
    {reader : Nat}
    {state alone final : State}
    {schedule : List Act}

/-- Without intrusions the reader's own acts alone have the same outcome. -/
theorem alike_run
    (alike : Alike reader state alone)
    (harmless :
      cell.Meets (fun state act => ¬ Intrudes reader state act)
        state schedule)
    (ran : cell.exec state schedule = some final) :
    ∃ finalAlone,
      cell.exec alone (schedule.filter (Act.own reader)) =
          some finalAlone ∧
        Alike reader final finalAlone ∧
          cell.collect (State.passed reader) state schedule =
            cell.collect (State.passed reader) alone
              (schedule.filter (Act.own reader)) := by
  induction schedule generalizing state alone with
  | nil =>
      rw [System.exec_nil, Option.some.injEq] at ran
      exact ⟨alone, rfl, ran ▸ alike, rfl⟩
  | cons act rest induction =>
      rw [System.exec_cons_iff] at ran
      rcases ran with ⟨next, stepped, ran⟩
      have later := harmless.2 next stepped
      cases own : act.own reader with
      | true =>
          rcases alike_own alike own stepped with
            ⟨nextAlone, steppedAlone, nextAlike, same⟩
          rcases induction nextAlike later ran with
            ⟨finalAlone, ranAlone, finalAlike, sameLater⟩
          rw [List.filter_cons_of_pos own]
          refine ⟨finalAlone, ?_, finalAlike, ?_⟩
          · rw [System.exec_cons_iff]
            exact ⟨nextAlone, steppedAlone, ranAlone⟩
          · rw [System.collect_cons stepped,
              System.collect_cons
                (show cell.step alone act = some nextAlone from
                  steppedAlone),
              same, sameLater]
      | false =>
          rcases alike_other alike own harmless.1 stepped with
            ⟨nextAlike, nothing⟩
          rcases induction nextAlike later ran with
            ⟨finalAlone, ranAlone, finalAlike, sameLater⟩
          rw [List.filter_cons_of_neg (by simp [own])]
          refine ⟨finalAlone, ranAlone, finalAlike, ?_⟩
          rw [System.collect_cons stepped, nothing, List.nil_append]
          exact sameLater

/-- Without intrusions the stream is isolated. -/
theorem isolated_of_harmless
    (harmless :
      cell.Meets (fun state act => ¬ Intrudes reader state act)
        state schedule)
    (ran : cell.exec state schedule = some final) :
    Isolated reader state schedule := by
  intro Decoder pipeline decoder
  rcases alike_run (Alike.refl state) harmless ran with ⟨-, -, -, same⟩
  rw [same]

end Runs

/-! ## After an intrusion -/

theorem packetSeq_header_zero : packetSeq (header 0) = some 0 :=
  packetSeq_header 0

/-- The reader passes its next packet, if it has number 0. -/
theorem passed_of_cleared
    {state : State}
    (cleared : state.flushUntilSeq = 0)
    (reader : Nat) :
    state.passed reader (.load reader (header 0)) = [header 0] := by
  simp [State.passed, packetSeq_header_zero, skips, cleared]

/-- Against a boundary the same packet is skipped. -/
theorem passed_of_bounded
    {state : State}
    (bounded : state.flushUntilSeq ≠ 0)
    (reader : Nat) :
    state.passed reader (.load reader (header 0)) = [] := by
  have positive : 0 < state.flushUntilSeq := Nat.pos_of_ne_zero bounded
  simp [State.passed, packetSeq_header_zero, skips, bounded, positive]

/-- How the reader comes to its next packet. -/
def State.upNext (state : State) (reader : Nat) : List Act :=
  match state.checks reader with
  | some _ => [.finish reader, .load reader (header 0)]
  | none => [.load reader (header 0)]

theorem own_upNext
    {state : State} {reader : Nat} {act : Act}
    (member : act ∈ state.upNext reader) :
    act.own reader = true := by
  unfold State.upNext at member
  split at member
  · rcases List.mem_cons.mp member with rfl | member
    · simp [Act.own]
    · rw [List.mem_singleton] at member
      simp [member, Act.own]
  · rw [List.mem_singleton] at member
    simp [member, Act.own]

/-- An idle reader takes the packet up. -/
theorem collect_load
    {state : State} {reader : Nat}
    (idle : state.checks reader = none) :
    (∃ final,
        cell.exec state [.load reader (header 0)] = some final) ∧
      cell.collect (State.passed reader) state
          [.load reader (header 0)] =
        state.passed reader (.load reader (header 0)) := by
  have stepped :
      ∃ next,
        cell.step state (.load reader (header 0)) = some next := by
    simp [cell, step, State.load, idle, packetSeq_header_zero]
  rcases stepped with ⟨next, stepped⟩
  constructor
  · refine ⟨next, ?_⟩
    rw [System.exec_cons_iff]
    exact ⟨next, stepped, rfl⟩
  · rw [System.collect_cons stepped, System.collect, List.append_nil]

/--
Unless the check under way is about to clear the cell, whether the packet
passes is up to the cell as it is.
-/
theorem collect_upNext
    {state : State} {reader : Nat}
    (quiet : state.clears reader = false) :
    (∃ final, cell.exec state (state.upNext reader) = some final) ∧
      cell.collect (State.passed reader) state (state.upNext reader) =
        if state.flushUntilSeq = 0 then [header 0] else [] := by
  have passed (state : State) :
      state.passed reader (.load reader (header 0)) =
        if state.flushUntilSeq = 0 then [header 0] else [] := by
    split
    · next cleared => exact passed_of_cleared cleared reader
    · next bounded => exact passed_of_bounded bounded reader
  cases checks : state.checks reader with
  | none =>
      rw [State.upNext, checks, ← passed]
      exact collect_load checks
  | some check =>
      rw [State.upNext, checks]
      have stepped :
          cell.step state (.finish reader) =
            some
              { flushUntilSeq := state.exchanged check
                checks := Function.update state.checks reader none } := by
        simp [cell, step, State.finish, checks]
      have idle :
          (Function.update state.checks reader none) reader = none :=
        Function.update_self _ _ _
      rcases
        @collect_load
          { flushUntilSeq := state.exchanged check
            checks := Function.update state.checks reader none }
          reader idle with ⟨⟨final, ran⟩, collected⟩
      constructor
      · refine ⟨final, ?_⟩
        rw [System.exec_cons_iff]
        exact ⟨_, stepped, ran⟩
      · rw [System.collect_cons stepped, collected, passed,
          exchanged_eq checks, quiet]
        rfl

/-- A foreign check that clears the cell leaves the reader's own alone. -/
theorem intruded
    {state next : State} {reader other : Nat}
    (apart : other ≠ reader)
    (clears : state.clears other = true)
    (stepped : step state (.finish other) = some next) :
    next.flushUntilSeq = 0 ∧
      next.checks reader = state.checks reader := by
  cases cell_cases stepped with
  | finish _ check underWay =>
      constructor
      · show state.exchanged check = 0
        rw [exchanged_eq underWay, if_pos clears]
      · exact Function.update_of_ne (Ne.symm apart) _ _

/-- Then the reader passes a packet it would not have passed alone. -/
theorem differs_of_intrudes
    {reader other : Nat} {state alone next : State}
    (alike : Alike reader state alone)
    (intrudes : Intrudes reader state (.finish other))
    (stepped : step state (.finish other) = some next) :
    (∃ final, cell.exec next (next.upNext reader) = some final) ∧
      cell.collect (State.passed reader) next (next.upNext reader) =
        [header 0] ∧
      cell.collect (State.passed reader) alone (next.upNext reader) =
        [] := by
  rcases intrudes with ⟨apart, clears, quiet⟩
  rcases intruded apart clears stepped with ⟨cleared, checks⟩
  have nonzero := ne_zero_of_clears clears
  have cells := alike.cell_of_clears clears
  have nextQuiet : next.clears reader = false := by
    by_contra loud
    rw [Bool.not_eq_false] at loud
    exact ne_zero_of_clears loud cleared
  have aloneQuiet : alone.clears reader = false := by
    rw [← quiet]
    simp only [State.clears, ← alike.checks, ← cells]
  have sameNext : next.upNext reader = alone.upNext reader := by
    simp only [State.upNext, checks, alike.checks]
  rcases collect_upNext nextQuiet with ⟨enabled, collected⟩
  rcases collect_upNext aloneQuiet with ⟨-, collectedAlone⟩
  refine ⟨enabled, ?_, ?_⟩
  · rw [collected, if_pos cleared]
  · rw [sameNext, collectedAlone, if_neg (cells ▸ nonzero)]

/-- Where the counts of passed packets agree however the stream goes on. -/
theorem harmless_of_counts
    {reader : Nat} {state alone final : State} {schedule : List Act}
    (alike : Alike reader state alone)
    (counts :
      ∀ before more final, before <+: schedule →
        (∀ act ∈ more, act.own reader = true) →
          cell.exec state (before ++ more) = some final →
            (cell.collect (State.passed reader) state
                (before ++ more)).length =
              (cell.collect (State.passed reader) alone
                ((before ++ more).filter (Act.own reader))).length)
    (ran : cell.exec state schedule = some final) :
    cell.Meets (fun state act => ¬ Intrudes reader state act)
      state schedule := by
  induction schedule generalizing state alone with
  | nil => trivial
  | cons act rest induction =>
      rw [System.exec_cons_iff] at ran
      rcases ran with ⟨next, stepped, ran⟩
      have harmless : ¬ Intrudes reader state act := by
        intro intrudes
        cases act with
        | store boundary => exact intrudes
        | load other packet => exact intrudes
        | finish other =>
            rcases differs_of_intrudes alike intrudes stepped with
              ⟨⟨last, more⟩, passes, skipped⟩
            have own : ∀ act ∈ next.upNext reader,
                act.own reader = true :=
              fun act member => own_upNext member
            have foreign : Act.own reader (.finish other) = false := by
              simpa [Act.own] using intrudes.1
            have counted :=
              counts [.finish other] (next.upNext reader) last
                (List.cons_prefix_cons.mpr ⟨rfl, List.nil_prefix⟩) own
                (by
                  rw [List.singleton_append, System.exec_cons_iff]
                  exact ⟨next, stepped, more⟩)
            rw [List.singleton_append, System.collect_cons stepped,
              List.filter_cons_of_neg (by simp [foreign]),
              List.filter_eq_self.mpr own, passes, skipped] at counted
            cases counted
      refine ⟨harmless, ?_⟩
      intro other otherStepped
      rw [stepped, Option.some.injEq] at otherStepped
      subst otherStepped
      have extended :
          ∀ before more final, before <+: rest →
            (∀ act ∈ more, act.own reader = true) →
              cell.exec next (before ++ more) = some final →
                (cell.collect (State.passed reader) state
                    (act :: (before ++ more))).length =
                  (cell.collect (State.passed reader) alone
                    ((act :: (before ++ more)).filter
                      (Act.own reader))).length := by
        intro before more last isPrefix own ranLast
        refine
          counts (act :: before) more last
            (List.cons_prefix_cons.mpr ⟨rfl, isPrefix⟩) own ?_
        rw [List.cons_append, System.exec_cons_iff]
        exact ⟨next, stepped, ranLast⟩
      cases own : act.own reader with
      | true =>
          rcases alike_own alike own stepped with
            ⟨nextAlone, steppedAlone, nextAlike, same⟩
          refine induction nextAlike ?_ ran
          intro before more last isPrefix ownMore ranLast
          have counted :=
            extended before more last isPrefix ownMore ranLast
          rw [List.filter_cons_of_pos own, System.collect_cons stepped,
            System.collect_cons
              (show cell.step alone act = some nextAlone from
                steppedAlone),
            same, List.length_append, List.length_append] at counted
          exact Nat.add_left_cancel counted
      | false =>
          rcases alike_other alike own harmless stepped with
            ⟨nextAlike, nothing⟩
          refine induction nextAlike ?_ ran
          intro before more last isPrefix ownMore ranLast
          have counted :=
            extended before more last isPrefix ownMore ranLast
          rw [List.filter_cons_of_neg (by simp [own]),
            System.collect_cons stepped, nothing,
            List.nil_append] at counted
          exact counted

/-! ## Isolated streams -/

/-- Every packet is played as one sample. -/
def echo : Pipeline Unit where
  decrypt packet := some ⟨0, 0, packet⟩
  decode _ _ := ((), some [0])

theorem length_played_echo (packets : List Bytes) :
    (echo.played () packets).length = packets.length := by
  induction packets with
  | nil => rfl
  | cons packet rest induction =>
      show (echo.played () rest).length + 1 = rest.length + 1
      rw [induction]

theorem not_intrudes_of_own
    {reader : Nat} {act : Act}
    (own : act.own reader = true)
    (state : State) :
    ¬ Intrudes reader state act := by
  cases act with
  | store boundary => exact id
  | load other packet => exact id
  | finish other =>
      rintro ⟨apart, -⟩
      exact apart (beq_iff_eq.mp own)

/--
From any point of a run on, however the stream and its flushes go on alone,
its player gets what it gets without the other readers; this is so exactly
if in no step of the run the check of another reader clears the boundary in
the cell, unless the stream's own check is about to clear it as well.
-/
theorem isolated_iff
    (reader : Nat) (start : State) (schedule : List Act)
    (enabled : ∃ final, cell.exec start schedule = some final) :
    (∀ before more final, before <+: schedule →
      (∀ act ∈ more, act.own reader = true) →
        cell.exec start (before ++ more) = some final →
          Isolated reader start (before ++ more)) ↔
      cell.Meets (fun state act => ¬ Intrudes reader state act)
        start schedule := by
  rcases enabled with ⟨final, ran⟩
  constructor
  · intro isolated
    refine harmless_of_counts (Alike.refl start) ?_ ran
    intro before more last isPrefix own ranLast
    have same :=
      isolated before more last isPrefix own ranLast Unit echo ()
    rw [← length_played_echo, same, length_played_echo]
  · intro harmless before more last isPrefix own ranLast
    rcases isPrefix with ⟨after, rfl⟩
    refine isolated_of_harmless ?_ ranLast
    refine System.Meets.append harmless.append_left ?_
    intro middle reached
    exact
      System.Meets.mono
        (fun state _ own => not_intrudes_of_own own state)
        (System.meets_of_forall_mem own middle)

/-- The earlier reader 0 is done with an old packet; reader 1 goes on. -/
theorem isolated_iff_passed :
    Isolated 1 cell.initial
      [.load 0 (header 20), .store 10, .finish 0, .load 1 (header 3)] :=
  (isolated_iff 1 cell.initial
      [.load 0 (header 20), .store 10, .finish 0, .load 1 (header 3)]
      ⟨_, rfl⟩).mpr
    (by decide +kernel)
    [.load 0 (header 20), .store 10, .finish 0, .load 1 (header 3)] [] _
    (List.prefix_refl _) (by simp) rfl

/--
A packet of the earlier stream with a larger number clears the boundary that
was stored for the present one, and stale audio gets through.
-/
theorem earlier_stream_intrudes :
    ¬ ∀ (reader : Nat) (start : State) (schedule : List Act),
      (∃ final, cell.exec start schedule = some final) →
        Isolated reader start schedule := by
  intro claim
  have same :=
    claim 1 cell.initial
      [.store 10, .load 0 (header 20), .finish 0, .load 1 (header 3)]
      ⟨_, rfl⟩ Unit echo ()
  exact absurd same (by decide +kernel)

end OpenAirplay2.Buffered.Boundary

import OpenAirplay2.Buffered.Seek
import OpenAirplay2.Control.Dmap
import OpenAirplay2.Lib.History

/-!
# The boundary cell

The RTSP task stores flush boundaries into a cell, and reader tasks check
every packet against it.  A check is two accesses: a load, which decides
whether the packet is skipped, and a compare-exchange where the packet has
reached the boundary.  Anything may come between the two.

A session has one reader for each buffered stream that was set up on it, and
all of them check against one cell.
-/

namespace OpenAirplay2.Buffered.Boundary

open OpenAirplay2.Lib.Transition
open OpenAirplay2.Pairing (Bytes)
open OpenAirplay2.Control.Dmap (fromBeBytes)

/-- `packet_seq`: the masked sequence number, in the plaintext header. -/
def packetSeq (packet : Bytes) : Option Nat :=
  if packet.length < 4 then none
  else some (fromBeBytes (packet.take 4) &&& 0xFFFFFF)

/-- The counter has 24 bits. -/
theorem packetSeq_lt
    {packet : Bytes} {seq : Nat}
    (numbered : packetSeq packet = some seq) :
    seq < 2 ^ 24 := by
  rw [packetSeq] at numbered
  split at numbered
  · cases numbered
  · rw [Option.some.injEq] at numbered
    rw [← numbered]
    exact Nat.and_lt_two_pow _ (by decide)

/-- The first bytes of a packet with the given number. -/
def header (seq : Nat) : Bytes :=
  [0, UInt8.ofNat (seq / 65536), UInt8.ofNat (seq / 256), UInt8.ofNat seq]

theorem packetSeq_header (seq : Nat) :
    packetSeq (header seq) = some (seq % 2 ^ 24) := by
  have masked (value : Nat) : value &&& 0xFFFFFF = value % 2 ^ 24 :=
    Nat.and_two_pow_sub_one_eq_mod value 24
  simp only [packetSeq, header, masked, fromBeBytes, List.length_cons,
    List.length_nil, List.take_succ_cons, List.take_zero, List.foldl_cons,
    List.foldl_nil, UInt8.toNat_ofNat', UInt8.toNat_ofNat]
  simp
  omega

/-- What `skip_before_boundary` returns, once it has loaded the boundary. -/
def skips (boundary seq : Nat) : Bool :=
  if boundary = 0 then false else seq < boundary

/-- It goes on to exchange the boundary it has loaded. -/
def reaches (boundary seq : Nat) : Bool :=
  if boundary = 0 then false else !decide (seq < boundary)

theorem skips_iff (boundary seq : Nat) :
    skips boundary seq = true ↔ seq < boundary := by
  unfold skips
  split
  · next zero =>
      rw [zero]
      simp
  · simp

theorem reaches_iff (boundary seq : Nat) :
    reaches boundary seq = true ↔ boundary ≠ 0 ∧ boundary ≤ seq := by
  unfold reaches
  split
  · next zero => simp [zero]
  · next nonzero => simp [nonzero]

/-- A check between its load and its end. -/
structure Check where
  seq : Nat
  boundary : Nat
deriving DecidableEq, Repr

structure State where
  flushUntilSeq : Nat
  /-- The check each reader has under way. -/
  checks : Nat → Option Check

/-- What the scheduler chooses. -/
inductive Act where
  | store (boundary : Nat)
  | load (reader : Nat) (packet : Bytes)
  | finish (reader : Nat)
deriving DecidableEq, Repr

namespace State

variable (state : State)

/-- A reader sets out to check a packet; one too short has no number. -/
def load (reader : Nat) (packet : Bytes) : Option State :=
  match state.checks reader, packetSeq packet with
  | some _, _ => none
  | none, none => some state
  | none, some seq =>
      some
        { state with
          checks :=
            Function.update state.checks reader
              (some ⟨seq, state.flushUntilSeq⟩) }

/-- The cell after a check that has loaded the given boundary. -/
def exchanged (check : Check) : Nat :=
  if reaches check.boundary check.seq then
    compareExchange state.flushUntilSeq check.boundary 0
  else
    state.flushUntilSeq

/-- The end of a check. -/
def finish (reader : Nat) : Option State :=
  match state.checks reader with
  | none => none
  | some check =>
      some
        { flushUntilSeq := state.exchanged check
          checks := Function.update state.checks reader none }

/-- The packets an act skips. -/
def skipped : Act → List Bytes
  | .load _ packet =>
      match packetSeq packet with
      | some seq =>
          if skips state.flushUntilSeq seq then [packet] else []
      | none => []
  | _ => []

end State

def step (state : State) : Act → Option State
  | .store boundary => some { state with flushUntilSeq := boundary }
  | .load reader packet => state.load reader packet
  | .finish reader => state.finish reader

/-- The cell of a session, as the set-up of a stream leaves it. -/
def cell : System State Act where
  initial := ⟨0, fun _ => none⟩
  step := step

/-- What one step can do. -/
inductive CellStep (state : State) : Act → State → Prop where
  | store (boundary : Nat) :
      CellStep state (.store boundary)
        { state with flushUntilSeq := boundary }
  | short (reader : Nat) (packet : Bytes)
      (idle : state.checks reader = none)
      (unnumbered : packetSeq packet = none) :
      CellStep state (.load reader packet) state
  | load (reader : Nat) (packet : Bytes) (seq : Nat)
      (idle : state.checks reader = none)
      (numbered : packetSeq packet = some seq) :
      CellStep state (.load reader packet)
        { state with
          checks :=
            Function.update state.checks reader
              (some ⟨seq, state.flushUntilSeq⟩) }
  | finish (reader : Nat) (check : Check)
      (underWay : state.checks reader = some check) :
      CellStep state (.finish reader)
        { flushUntilSeq := state.exchanged check
          checks := Function.update state.checks reader none }

theorem cell_cases
    {state next : State} {act : Act}
    (stepped : step state act = some next) :
    CellStep state act next := by
  cases act with
  | store boundary =>
      cases stepped
      exact .store boundary
  | load reader packet =>
      simp only [step, State.load] at stepped
      split at stepped
      · cases stepped
      · next idle unnumbered =>
          cases stepped
          exact .short reader packet idle unnumbered
      · next seq idle numbered =>
          cases stepped
          exact .load reader packet seq idle numbered
  | finish reader =>
      simp only [step, State.finish] at stepped
      split at stepped
      · cases stepped
      · next check underWay =>
          cases stepped
          exact .finish reader check underWay

/-! ## One check -/

/-- The end of a check clears the boundary it loaded, or changes nothing. -/
theorem exchanged_cases (state : State) (check : Check) :
    (state.exchanged check = 0 ∧ state.flushUntilSeq = check.boundary ∧
        check.boundary ≠ 0 ∧ check.boundary ≤ check.seq) ∨
      (state.exchanged check = state.flushUntilSeq ∧
        ¬ (state.flushUntilSeq = check.boundary ∧ check.boundary ≠ 0 ∧
          check.boundary ≤ check.seq)) := by
  unfold State.exchanged
  split
  · next reached =>
      rw [reaches_iff] at reached
      by_cases same : state.flushUntilSeq = check.boundary
      · exact Or.inl ⟨by simp [compareExchange, same], same, reached⟩
      · right
        exact
          ⟨by simp [compareExchange, same], fun all => same all.1⟩
  · next short =>
      rw [reaches_iff] at short
      exact Or.inr ⟨rfl, fun all => short all.2⟩

/-- A check under way keeps what it loaded. -/
theorem underWay_step
    {state next : State} {act : Act} {reader : Nat} {check : Check}
    (underWay : state.checks reader = some check)
    (unfinished : act ≠ .finish reader)
    (stepped : step state act = some next) :
    next.checks reader = some check := by
  cases cell_cases stepped with
  | store boundary => exact underWay
  | short other packet idle unnumbered => exact underWay
  | load other packet seq idle numbered =>
      have apart : reader ≠ other := by
        rintro rfl
        rw [idle] at underWay
        cases underWay
      show Function.update state.checks other _ reader = some check
      rw [Function.update_of_ne apart]
      exact underWay
  | finish other own otherUnderWay =>
      have apart : reader ≠ other := by
        rintro rfl
        exact unfinished rfl
      show Function.update state.checks other _ reader = some check
      rw [Function.update_of_ne apart]
      exact underWay

/-- A cleared cell stays clear until a boundary is stored. -/
theorem cleared_step
    {state next : State} {act : Act}
    (cleared : state.flushUntilSeq = 0)
    (quiet : ∀ boundary, act = .store boundary → boundary = 0)
    (stepped : step state act = some next) :
    next.flushUntilSeq = 0 := by
  cases cell_cases stepped with
  | store boundary => exact quiet boundary rfl
  | short reader packet idle unnumbered => exact cleared
  | load reader packet seq idle numbered => exact cleared
  | finish reader check underWay =>
      rcases exchanged_cases state check with ⟨zero, -⟩ | ⟨same, -⟩
      · exact zero
      · exact same.trans cleared

/-- Against a cleared cell no packet is skipped. -/
theorem skipped_of_cleared
    {state : State}
    (cleared : state.flushUntilSeq = 0)
    (act : Act) :
    state.skipped act = [] := by
  unfold State.skipped
  split
  · split
    · simp [skips, cleared]
    · rfl
  · rfl

/-- What a check loads is the boundary at its load. -/
theorem loaded
    {state next : State} {reader : Nat} {packet : Bytes} {seq : Nat}
    (numbered : packetSeq packet = some seq)
    (stepped : step state (.load reader packet) = some next) :
    next.checks reader = some ⟨seq, state.flushUntilSeq⟩ := by
  cases cell_cases stepped with
  | short _ _ idle unnumbered =>
      rw [numbered] at unnumbered
      cases unnumbered
  | load _ _ own idle same =>
      rw [numbered, Option.some.injEq] at same
      rw [← same]
      exact Function.update_self _ _ _

/-- From its load to its end a check keeps what it loaded. -/
theorem loaded_during
    {state middle : State} {reader : Nat} {packet : Bytes} {seq : Nat}
    {during : List Act}
    (numbered : packetSeq packet = some seq)
    (unfinished : Act.finish reader ∉ during)
    (ran :
      cell.exec state (.load reader packet :: during) = some middle) :
    middle.checks reader = some ⟨seq, state.flushUntilSeq⟩ := by
  rw [System.exec_cons_iff] at ran
  rcases ran with ⟨next, stepped, ran⟩
  have kept : ∀ act ∈ during, act ≠ .finish reader := by
    rintro act member rfl
    exact unfinished member
  exact
    System.invariant_of_meets
      (fun state : State => state.checks reader = some ⟨seq, _⟩)
      (fun _ _ _ underWay kept stepped =>
        underWay_step underWay kept stepped)
      (loaded numbered stepped)
      (System.meets_of_forall_mem kept next) ran

theorem finished
    {state next : State} {reader : Nat} {check : Check}
    (underWay : state.checks reader = some check)
    (stepped : step state (.finish reader) = some next) :
    next.flushUntilSeq = state.exchanged check := by
  cases cell_cases stepped with
  | finish _ own same =>
      rw [underWay, Option.some.injEq] at same
      rw [same]

/-- A run from a cleared cell that stores no boundary skips nothing. -/
theorem nothing_skipped
    {state final : State} {during : List Act}
    (cleared : state.flushUntilSeq = 0)
    (quiet : ∀ boundary, .store boundary ∈ during → boundary = 0)
    (ran : cell.exec state during = some final) :
    cell.collect State.skipped state during = [] := by
  induction during generalizing state with
  | nil => rfl
  | cons act rest induction =>
      rw [System.exec_cons_iff] at ran
      rcases ran with ⟨next, stepped, ran⟩
      have still : next.flushUntilSeq = 0 := by
        refine cleared_step cleared ?_ stepped
        rintro boundary rfl
        exact quiet boundary List.mem_cons_self
      have later : ∀ boundary, .store boundary ∈ rest → boundary = 0 :=
        fun boundary member =>
          quiet boundary (List.mem_cons_of_mem _ member)
      rw [System.collect_cons stepped, skipped_of_cleared cleared act,
        List.nil_append]
      exact induction still later ran

/-! ## Neither sticky nor lost -/

/--
A packet is skipped exactly when its number is below the boundary its check
loads.  The readers only ever clear the cell, and only at the end of a check
whose packet reached the boundary in the cell, which is the one that check
loaded.  At the end of a check a boundary that differs from the loaded one
survives; one that is the same and was reached is cleared.  From a cleared
cell on no packet is skipped, until another boundary is stored.
-/
theorem boundary_not_sticky_not_lost (state : State) :
    (∀ reader packet seq next,
      packetSeq packet = some seq →
        step state (.load reader packet) = some next →
          next.checks reader = some ⟨seq, state.flushUntilSeq⟩ ∧
            (packet ∈ state.skipped (.load reader packet) ↔
              seq < state.flushUntilSeq)) ∧
      (∀ act next,
        step state act = some next →
          (∀ boundary, act ≠ .store boundary) →
            next.flushUntilSeq ≠ state.flushUntilSeq →
              ∃ reader check,
                act = .finish reader ∧
                  state.checks reader = some check ∧
                    check.boundary = state.flushUntilSeq ∧
                      state.flushUntilSeq ≤ check.seq ∧
                        next.flushUntilSeq = 0) ∧
      (∀ reader packet seq during middle next,
        packetSeq packet = some seq →
          Act.finish reader ∉ during →
            cell.exec state (.load reader packet :: during) =
                some middle →
              step middle (.finish reader) = some next →
                (middle.flushUntilSeq ≠ state.flushUntilSeq →
                  next.flushUntilSeq = middle.flushUntilSeq) ∧
                  (middle.flushUntilSeq = state.flushUntilSeq →
                    state.flushUntilSeq ≤ seq →
                      next.flushUntilSeq = 0)) ∧
      ∀ during final,
        state.flushUntilSeq = 0 →
          (∀ boundary, .store boundary ∈ during → boundary = 0) →
            cell.exec state during = some final →
              cell.collect State.skipped state during = [] := by
  refine ⟨?_, ?_, ?_, ?_⟩
  · intro reader packet seq next numbered stepped
    refine ⟨loaded numbered stepped, ?_⟩
    simp only [State.skipped, numbered]
    rw [← skips_iff]
    split
    · next skip => simp [skip]
    · next pass => simp [pass]
  · intro act next stepped noStore changed
    cases cell_cases stepped with
    | store boundary => exact (noStore boundary rfl).elim
    | short reader packet idle unnumbered => exact (changed rfl).elim
    | load reader packet seq idle numbered => exact (changed rfl).elim
    | finish reader check underWay =>
        rcases exchanged_cases state check with
          ⟨zero, same, nonzero, reached⟩ | ⟨same, -⟩
        · exact
            ⟨reader, check, rfl, underWay, same.symm, same ▸ reached, zero⟩
        · exact (changed same).elim
  · intro reader packet seq during middle next numbered unfinished ran stepped
    have underWay := loaded_during numbered unfinished ran
    rw [finished underWay stepped]
    constructor
    · intro newer
      rcases exchanged_cases middle ⟨seq, state.flushUntilSeq⟩ with
        ⟨-, same, -⟩ | ⟨same, -⟩
      · exact (newer same).elim
      · exact same
    · intro same reached
      rcases exchanged_cases middle ⟨seq, state.flushUntilSeq⟩ with
        ⟨zero, -⟩ | ⟨kept, unreached⟩
      · exact zero
      · rw [kept]
        by_contra nonzero
        exact unreached ⟨same, same ▸ nonzero, reached⟩
  · intro during final cleared quiet ran
    exact nothing_skipped cleared quiet ran

/-- A newer boundary comes while packet 9 is checked against boundary 7. -/
theorem boundary_not_sticky_not_lost_newer :
    ∃ middle next,
      cell.exec ⟨7, fun _ => none⟩ [.load 0 (header 9), .store 12] =
        some middle ∧
        step middle (.finish 0) = some next ∧
          next.flushUntilSeq = 12 := by
  refine ⟨_, _, rfl, rfl, ?_⟩
  exact
    ((boundary_not_sticky_not_lost ⟨7, fun _ => none⟩).2.2.1 0
      (header 9) 9 [.store 12] _ _ rfl (by decide) rfl rfl).1
      (by decide)

end OpenAirplay2.Buffered.Boundary

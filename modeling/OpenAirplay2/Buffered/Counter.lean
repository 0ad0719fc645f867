import OpenAirplay2.Buffered.Boundary
import OpenAirplay2.Control.Session
import OpenAirplay2.Player.Rest

/-!
# A flush and the 24-bit counter

Packets carry consecutive numbers modulo `2 ^ 24`, and both filters of a
flush compare these numbers as they are.  A boundary beyond the counter is
therefore never reached, and a wrap between the named packet and another one
turns the comparison of the two around.
-/

namespace OpenAirplay2.Buffered.Counter

open OpenAirplay2.Lib.Transition
open OpenAirplay2.Pairing (Bytes)
open OpenAirplay2.Control
  (Platform Session Value intField parseFlushUntilSeq)
open OpenAirplay2.Buffered.Boundary
  (packetSeq packetSeq_lt header packetSeq_header skips reaches
    reaches_iff)

/-! ## The reader's filter -/

/--
The whole of `skip_before_boundary`, with nothing coming in between: the cell
it leaves, and whether the packet is skipped.
-/
def skipBeforeBoundary (cell seq : Nat) : Nat × Bool :=
  if cell = 0 then (cell, false)
  else if seq < cell then (cell, true)
  else (compareExchange cell cell 0, false)

/-- A check whose two accesses follow each other is that function. -/
theorem skipBeforeBoundary_check
    {state next : Boundary.State} {reader seq : Nat} {packet : Bytes}
    (numbered : packetSeq packet = some seq)
    (ran :
      Boundary.cell.exec state [.load reader packet, .finish reader] =
        some next) :
    (next.flushUntilSeq, skips state.flushUntilSeq seq) =
      skipBeforeBoundary state.flushUntilSeq seq := by
  rw [System.exec_cons_iff] at ran
  rcases ran with ⟨middle, loads, ran⟩
  rw [System.exec_cons_iff] at ran
  rcases ran with ⟨last, finishes, same⟩
  rw [System.exec_nil, Option.some.injEq] at same
  subst same
  change Boundary.step state (.load reader packet) = some middle at loads
  have underWay := Boundary.loaded numbered loads
  have kept : middle.flushUntilSeq = state.flushUntilSeq := by
    cases Boundary.cell_cases loads with
    | short _ _ idle unnumbered => rfl
    | load _ _ own idle named => rfl
  rw [Boundary.finished underWay finishes, Boundary.State.exchanged, kept]
  unfold skipBeforeBoundary skips reaches
  by_cases zero : state.flushUntilSeq = 0
  · simp [zero]
  · by_cases below : seq < state.flushUntilSeq
    · simp [zero, below]
    · simp [zero, below]

/--
Packets checked one after the other, with no flush in between: which of them
are skipped, and the boundary left behind.
-/
def filterArrivals : Nat → List Bytes → List Bool × Nat
  | cell, [] => ([], cell)
  | cell, packet :: rest =>
      match packetSeq packet with
      | none =>
          let (skipped, left) := filterArrivals cell rest
          (false :: skipped, left)
      | some seq =>
          let (next, skip) := skipBeforeBoundary cell seq
          let (skipped, left) := filterArrivals next rest
          (skip :: skipped, left)

theorem filterArrivals_cons
    {packet : Bytes} {seq : Nat}
    (numbered : packetSeq packet = some seq)
    (cell : Nat) (rest : List Bytes) :
    filterArrivals cell (packet :: rest) =
      ((skipBeforeBoundary cell seq).2 ::
          (filterArrivals (skipBeforeBoundary cell seq).1 rest).1,
        (filterArrivals (skipBeforeBoundary cell seq).1 rest).2) := by
  rw [filterArrivals, numbered]

/-- The first packets of a stream. -/
def firsts (packets : Nat → Bytes) (count : Nat) : List Bytes :=
  (List.range count).map packets

theorem firsts_succ (packets : Nat → Bytes) (count : Nat) :
    firsts packets (count + 1) =
      packets 0 :: firsts (packets ∘ Nat.succ) count := by
  simp [firsts, List.range_succ_eq_map]

theorem flags_succ (flag : Nat → Bool) (count : Nat) :
    (List.range (count + 1)).map flag =
      flag 0 :: (List.range count).map (flag ∘ Nat.succ) := by
  simp [List.range_succ_eq_map]

section Filter

variable
    {packets : Nat → Bytes}
    {seq : Nat → Nat}
    (numbered : ∀ index, packetSeq (packets index) = some (seq index))

include numbered

/-- What comes after the first packet is numbered the same. -/
theorem numbered_succ (index : Nat) :
    packetSeq ((packets ∘ Nat.succ) index) =
      some ((seq ∘ Nat.succ) index) :=
  numbered (index + 1)

/-- Without a boundary nothing is skipped. -/
theorem filterArrivals_zero (count : Nat) :
    filterArrivals 0 (firsts packets count) =
      ((List.range count).map fun _ => false, 0) := by
  induction count generalizing packets seq with
  | zero => rfl
  | succ count induction =>
      have shifted := numbered_succ numbered
      rw [firsts_succ, filterArrivals_cons (numbered 0)]
      show
        (false :: (filterArrivals 0 (firsts _ count)).1,
            (filterArrivals 0 (firsts _ count)).2) = _
      rw [induction shifted, flags_succ]
      rfl

/-- Packets below the boundary are skipped, and it stays. -/
theorem filterArrivals_below
    {boundary : Nat}
    (below : ∀ index, seq index < boundary)
    (count : Nat) :
    (filterArrivals boundary (firsts packets count)).1 =
      (List.range count).map fun _ => true := by
  induction count generalizing packets seq with
  | zero => rfl
  | succ count induction =>
      have shifted := numbered_succ numbered
      have skip :
          skipBeforeBoundary boundary (seq 0) = (boundary, true) := by
        have nonzero : boundary ≠ 0 := by
          have := below 0
          omega
        rw [skipBeforeBoundary, if_neg nonzero, if_pos (below 0)]
      rw [firsts_succ, filterArrivals_cons (numbered 0), skip, flags_succ]
      exact
        congrArg (true :: ·)
          (induction shifted fun index => below (index + 1))

/-- The first packet at or above the boundary clears it. -/
theorem filterArrivals_reached
    {boundary first : Nat}
    (nonzero : boundary ≠ 0)
    (below : ∀ index, index < first → seq index < boundary)
    (reached : boundary ≤ seq first)
    (count : Nat) :
    filterArrivals boundary (firsts packets count) =
      ((List.range count).map fun index => decide (index < first),
        if first < count then 0 else boundary) := by
  induction count generalizing packets seq first with
  | zero => simp [firsts, filterArrivals]
  | succ count induction =>
      have shifted := numbered_succ numbered
      rw [firsts_succ, filterArrivals_cons (numbered 0), flags_succ]
      cases first with
      | zero =>
          have pass :
              skipBeforeBoundary boundary (seq 0) = (0, false) := by
            rw [skipBeforeBoundary, if_neg nonzero,
              if_neg (Nat.not_lt.mpr reached)]
            simp [compareExchange]
          rw [pass, filterArrivals_zero shifted]
          simp
      | succ first =>
          have skip :
              skipBeforeBoundary boundary (seq 0) = (boundary, true) := by
            rw [skipBeforeBoundary, if_neg nonzero,
              if_pos (below 0 (Nat.succ_pos first))]
          have later :
              ∀ index, index < first →
                (seq ∘ Nat.succ) index < boundary :=
            fun index bound => below (index + 1) (Nat.succ_lt_succ bound)
          rw [skip, induction shifted later reached]
          simp

end Filter

/-! ## Numbered streams -/

/-- The number of a packet of a stream that starts at the given one. -/
def stamp (start index : Nat) : Nat :=
  (start + index) % 2 ^ 24

/-- The packets carry consecutive numbers. -/
def Numbered (start : Nat) (packets : Nat → Bytes) : Prop :=
  ∀ index, packetSeq (packets index) = some (stamp start index)

/-- There is such a stream for every start. -/
theorem numbered_header (start : Nat) :
    Numbered start fun index => header (start + index) :=
  fun index => packetSeq_header (start + index)

/-- The stream from one of its packets on. -/
def following (packets : Nat → Bytes) (first : Nat) : Nat → Bytes :=
  fun index => packets (first + index)

theorem numbered_following
    {start : Nat} {packets : Nat → Bytes}
    (numbered : Numbered start packets)
    (first : Nat) :
    Numbered (start + first) (following packets first) := by
  intro index
  rw [stamp, Nat.add_assoc]
  exact numbered (first + index)

theorem stamp_lt (start index : Nat) : stamp start index < 2 ^ 24 :=
  Nat.mod_lt _ (by decide)

/-! ## Silenced for good -/

/--
The filter skips at most `2 ^ 24` packets of the stream, and none after it
has let one through.
-/
def Recovers (cell : Nat) (packets : Nat → Bytes) : Prop :=
  ∃ first, first ≤ 2 ^ 24 ∧
    ∀ count,
      (filterArrivals cell (firsts packets count)).1 =
        (List.range count).map fun index => decide (index < first)

/-- Every boundary of 24 bits is reached within one turn of the counter. -/
theorem reached_within_turn
    {boundary : Nat}
    (small : boundary < 2 ^ 24)
    (start : Nat) :
    ∃ first, first < 2 ^ 24 ∧ boundary ≤ stamp start first ∧
      ∀ index, index < first → stamp start index < boundary := by
  have last : ∃ index, boundary ≤ stamp start index := by
    refine ⟨2 ^ 24 - 1 - start % 2 ^ 24, ?_⟩
    simp only [stamp]
    omega
  refine ⟨Nat.find last, ?_, Nat.find_spec last, ?_⟩
  · apply Nat.lt_of_le_of_lt (Nat.find_min' last _)
      (Nat.lt_of_le_of_lt (Nat.sub_le _ (start % 2 ^ 24))
        (Nat.sub_lt (Nat.two_pow_pos 24) Nat.one_pos))
    simp only [stamp]
    omega
  · intro index early
    exact Nat.lt_of_not_le (Nat.find_min last early)

/-- A stream recovers exactly from the boundaries of 24 bits. -/
theorem recovers_iff
    {start : Nat} {packets : Nat → Bytes}
    (numbered : Numbered start packets)
    (cell : Nat) :
    Recovers cell packets ↔ cell < 2 ^ 24 := by
  constructor
  · rintro ⟨first, -, flags⟩
    by_contra large
    rw [Nat.not_lt] at large
    have below : ∀ index, stamp start index < cell :=
      fun index => Nat.lt_of_lt_of_le (stamp_lt start index) large
    have silent :=
      (flags (first + 1)).symm.trans
        (filterArrivals_below numbered below (first + 1))
    have here := congrArg (fun list => list[first]?) silent
    simp at here
  · intro small
    by_cases zero : cell = 0
    · refine ⟨0, Nat.zero_le _, ?_⟩
      intro count
      rw [zero, filterArrivals_zero numbered]
      simp
    · rcases reached_within_turn small start with
        ⟨first, soon, reached, below⟩
      refine ⟨first, soon.le, ?_⟩
      intro count
      rw [filterArrivals_reached numbered zero below reached]

variable {Db : Type}

/-- The integer a body names as its boundary, as far as a plist holds it. -/
def namedInteger (platform : Platform Db) (body : Bytes) : Option Int :=
  match (platform.readPlist body).bind Value.asDictionary with
  | none => none
  | some dict =>
      match dict.get "flushUntilSeq" with
      | some (.integer value) =>
          if -2 ^ 63 ≤ value ∧ value < 2 ^ 64 then some value else none
      | _ => none

/-- The body names a number of 24 bits or, naming none, finds one stored. -/
def NamesCounter
    (platform : Platform Db) (session : Session Db) (body : Bytes) :
    Prop :=
  match namedInteger platform body with
  | some value => 0 ≤ value ∧ value < 2 ^ 24
  | none => session.flushUntilSeq < 2 ^ 24

/-- What `int_field` makes of an integer. -/
theorem intField_integer (value : Int) :
    intField (.integer value) =
      if -2 ^ 63 ≤ value ∧ value < 2 ^ 64 then
        some (value % 2 ^ 64).toNat
      else
        none := by
  unfold intField
  by_cases unsigned : 0 ≤ value ∧ value < 2 ^ 64
  · have held : -2 ^ 63 ≤ value ∧ value < 2 ^ 64 := by omega
    rw [Value.asUnsignedInteger, if_pos unsigned, if_pos held,
      Int.emod_eq_of_lt unsigned.1 unsigned.2]
  · rw [Value.asUnsignedInteger, if_neg unsigned, Value.asSignedInteger]
    by_cases signed : -2 ^ 63 ≤ value ∧ value < 2 ^ 63
    · have held : -2 ^ 63 ≤ value ∧ value < 2 ^ 64 := by omega
      rw [if_pos signed, if_pos held]
      rfl
    · have beyond : ¬ (-2 ^ 63 ≤ value ∧ value < 2 ^ 64) := by omega
      rw [if_neg signed, if_neg beyond]
      rfl

/-- The boundary is the integer named, cast to 64 bits. -/
theorem parseFlushUntilSeq_eq
    (platform : Platform Db) (body : Bytes) :
    parseFlushUntilSeq platform body =
      (namedInteger platform body).map
        fun value => (value % 2 ^ 64).toNat := by
  unfold parseFlushUntilSeq namedInteger
  cases (platform.readPlist body).bind Value.asDictionary with
  | none => rfl
  | some dict =>
      dsimp only
      cases dict.get "flushUntilSeq" with
      | none => rfl
      | some field =>
          cases field with
          | integer value =>
              rw [Option.bind_some, intField_integer]
              by_cases held : -2 ^ 63 ≤ value ∧ value < 2 ^ 64
              · simp only [if_pos held, Option.map_some]
              · simp only [if_neg held, Option.map_none]
          | _ => rfl

theorem namedInteger_bounds
    {platform : Platform Db} {body : Bytes} {value : Int}
    (named : namedInteger platform body = some value) :
    -2 ^ 63 ≤ value ∧ value < 2 ^ 64 := by
  unfold namedInteger at named
  split at named
  · cases named
  · split at named
    · split at named
      · next held =>
          cases named
          exact held
      · cases named
    · cases named

/-- The boundary in the cell after a flush has 24 bits. -/
theorem boundary_small_iff
    (platform : Platform Db) (session : Session Db) (body : Bytes) :
    (session.flush platform body).flushUntilSeq < 2 ^ 24 ↔
      NamesCounter platform session body := by
  show (parseFlushUntilSeq platform body).getD session.flushUntilSeq <
    2 ^ 24 ↔ _
  rw [parseFlushUntilSeq_eq, NamesCounter]
  cases named : namedInteger platform body with
  | none => exact Iff.rfl
  | some value =>
      -- A negative integer is cast to one of the largest.
      have held := namedInteger_bounds named
      show (value % 2 ^ 64).toNat < 2 ^ 24 ↔ 0 ≤ value ∧ value < 2 ^ 24
      omega

/--
After a flush every stream recovers exactly if the body names a number of 24
bits or, naming none, finds such a boundary stored.
-/
theorem flush_recovers_iff
    (platform : Platform Db) (session : Session Db) (body : Bytes)
    (start : Nat) (packets : Nat → Bytes)
    (numbered : Numbered start packets) :
    Recovers (session.flush platform body).flushUntilSeq packets ↔
      NamesCounter platform session body := by
  rw [recovers_iff numbered, boundary_small_iff]

/-- A binary property list: the boundary is seven. -/
def sevenBody : Bytes :=
  [98, 112, 108, 105, 115, 116, 48, 48, 209, 1, 2, 93, 102, 108, 117, 115,
    104, 85, 110, 116, 105, 108, 83, 101, 113, 16, 7, 8, 11, 25, 0, 0, 0, 0,
    0, 0, 1, 1, 0, 0, 0, 0, 0, 0, 0, 3, 0, 0, 0, 0, 0, 0, 0, 0, 0, 0, 0, 0,
    0, 0, 0, 27]

/-- A binary property list: the boundary is minus one. -/
def minusOneBody : Bytes :=
  [98, 112, 108, 105, 115, 116, 48, 48, 209, 1, 2, 93, 102, 108, 117, 115,
    104, 85, 110, 116, 105, 108, 83, 101, 113, 19, 255, 255, 255, 255, 255,
    255, 255, 255, 8, 11, 25, 0, 0, 0, 0, 0, 0, 1, 1, 0, 0, 0, 0, 0, 0, 0,
    3, 0, 0, 0, 0, 0, 0, 0, 0, 0, 0, 0, 0, 0, 0, 0, 34]

/-- Crates that read these two bodies. -/
def seqPlatform : Platform Unit where
  readPlist body :=
    if body = sevenBody then
      some (.dictionary [("flushUntilSeq", .integer 7)])
    else if body = minusOneBody then
      some (.dictionary [("flushUntilSeq", .integer (-1))])
    else
      none
  writePlist _ := none
  makesDecoder _ _ := false
  ofInt _ := ()
  parseDb _ := none
  isFinite _ := true
  clamp _ _ _ := ()
  display _ := ""

/-- A session that has not been set up. -/
def seqSession : Session Unit :=
  Session.new seqPlatform ⟨""⟩ ⟨""⟩

theorem flush_recovers_iff_seven :
    Recovers (seqSession.flush seqPlatform sevenBody).flushUntilSeq
      fun index => header (5 + index) := by
  have names : NamesCounter seqPlatform seqSession sevenBody := by
    show (0 : Int) ≤ 7 ∧ (7 : Int) < 2 ^ 24
    decide
  exact
    (flush_recovers_iff seqPlatform seqSession sevenBody 5 _
      (numbered_header 5)).mpr names

/-- The boundary `-1` is the largest of 64 bits; no packet reaches it. -/
theorem flush_silences :
    ¬ ∀ (platform : Platform Unit) (session : Session Unit) (body : Bytes)
        (start : Nat) (packets : Nat → Bytes),
      Numbered start packets →
        Recovers (session.flush platform body).flushUntilSeq packets := by
  intro claim
  have recovers :=
    claim seqPlatform seqSession minusOneBody 0 _ (numbered_header 0)
  rw [recovers_iff (numbered_header 0)] at recovers
  exact absurd recovers (by decide)

/-! ## The stream order -/

/--
The counter wraps on the way from the one packet to the other, whole turns
left out.
-/
def Wraps (start first last : Nat) : Prop :=
  2 ^ 24 ≤ stamp start first + (last - first) % 2 ^ 24

instance (start first last : Nat) : Decidable (Wraps start first last) :=
  inferInstanceAs (Decidable (_ ≤ _))

/-- No wrap comes between the two packets, whichever is first. -/
def Unwrapped (start left right : Nat) : Prop :=
  ¬ Wraps start (min left right) (max left right)

instance (start left right : Nat) :
    Decidable (Unwrapped start left right) :=
  inferInstanceAs (Decidable (¬ _))

/-- Up to a wrap the numbers are in stream order. -/
theorem stamp_le_iff
    {start first last : Nat}
    (order : first ≤ last) :
    stamp start first ≤ stamp start last ↔ ¬ Wraps start first last := by
  simp only [Wraps, stamp]
  omega

theorem stamp_lt_iff
    {start first last : Nat}
    (order : first < last)
    (near : last < first + 2 ^ 24) :
    stamp start first < stamp start last ↔ ¬ Wraps start first last := by
  simp only [Wraps, stamp]
  omega

/-- The comparison of two numbers is the stream order, up to a wrap. -/
theorem compares_iff
    {start named index : Nat}
    (near : named < index + 2 ^ 23) :
    (stamp start named ≤ stamp start index ↔ named ≤ index) ↔
      Unwrapped start named index := by
  rw [Unwrapped]
  by_cases order : named ≤ index
  · rw [Nat.min_eq_left order, Nat.max_eq_right order,
      ← stamp_le_iff order]
    simp [order]
  · have before : index < named := Nat.lt_of_not_le order
    rw [Nat.min_eq_right before.le, Nat.max_eq_left before.le,
      ← stamp_lt_iff before (by omega)]
    simp [order]

/-! ## Exact flushes -/

/--
A flush that names a packet of the stream drops exactly what comes before it.
Of the packets that arrive from `arrived` on, the reader skips those, and its
boundary is cleared as soon as the named one has arrived; of the packets in
the queue, each with its place in the stream, the retain filter discards
those.  The list of the queued ones is arbitrary: a packet in flight is one
of them if it is sent before the drain ends, and one that arrives if the
reader is yet to test it.  A packet that is neither meets no filter at all,
which is what `SlipsThrough` is about.
-/
structure FlushesExactly
    (packets : Nat → Bytes) (queued : List (Nat × Player.Packet))
    (arrived named boundary : Nat) : Prop where
  skips :
    ∀ count,
      (filterArrivals boundary
          (firsts (following packets arrived) count)).1 =
        (List.range count).map fun index =>
          decide (arrived + index < named)
  clears :
    ∀ count, 0 < count →
      ((filterArrivals boundary
            (firsts (following packets arrived) count)).2 = 0 ↔
        named < arrived + count)
  discards :
    ∀ entry ∈ queued,
      Player.keeps (Player.encodeFlush (some boundary)) entry.2 = true ↔
        named ≤ entry.1

/--
The drain and the filter of an exact flush leave the thread with the packets
from the named one on, and discard the others.
-/
theorem held_after_flush
    {packets : Nat → Bytes} {queued : List (Nat × Player.Packet)}
    {arrived named boundary : Nat} {state : Player.State} {paused : Bool}
    (flushes : FlushesExactly packets queued arrived named boundary)
    (position :
      state.pc =
        .drain paused (Player.encodeFlush (some boundary)))
    (running : .stop ∉ state.channel)
    (whole :
      state.held ++ state.channel.flatMap Player.Command.packets =
        queued.map Prod.snd) :
    ∃ count final,
      Player.queue.exec state (List.replicate count .thread) =
          some final ∧
        final.channel = [] ∧
          final.held =
            (queued.filter fun entry => named ≤ entry.1).map Prod.snd ∧
            final.discarded =
              state.discarded ++
                (queued.filter fun entry => entry.1 < named).map
                  fun entry => (state.consumed - 1, entry.2) := by
  rcases Player.flush_pass position running with
    ⟨count, final, ran, -, empty, held, discarded⟩
  rw [whole] at held discarded
  refine ⟨count, final, ran, empty, held.trans ?_, discarded.trans ?_⟩
  · rw [List.filter_map]
    congr 1
    apply List.filter_congr
    intro entry member
    simp [← flushes.discards entry member]
  · rw [List.filter_map, List.map_map]
    congr 2
    apply List.filter_congr
    intro entry member
    simp [← Nat.not_le, ← flushes.discards entry member]

/-- The numbers go up by one until a wrap. -/
theorem stamp_add
    {start first distance : Nat}
    (flat : stamp start first + distance < 2 ^ 24) :
    stamp start (first + distance) = stamp start first + distance := by
  simp only [stamp] at flat ⊢
  omega

/-- What is seen of the filter when the first packet arrives. -/
theorem filterArrivals_one
    {start arrived : Nat} {packets : Nat → Bytes}
    (numbered : Numbered start packets)
    (boundary : Nat) :
    filterArrivals boundary (firsts (following packets arrived) 1) =
      ([(skipBeforeBoundary boundary (stamp start arrived)).2],
        (skipBeforeBoundary boundary (stamp start arrived)).1) :=
  filterArrivals_cons (numbered arrived) boundary []

/-- The reader's part of an exact flush. -/
theorem reader_exact_iff
    {start arrived named : Nat} {packets : Nat → Bytes}
    (numbered : Numbered start packets)
    (near : named < arrived + 2 ^ 23) :
    ((∀ count,
        (filterArrivals (stamp start named)
            (firsts (following packets arrived) count)).1 =
          (List.range count).map fun index =>
            decide (arrived + index < named)) ∧
      ∀ count, 0 < count →
        ((filterArrivals (stamp start named)
              (firsts (following packets arrived) count)).2 = 0 ↔
          named < arrived + count)) ↔
      Unwrapped start named arrived := by
  rw [← compares_iff near]
  constructor
  · rintro ⟨skips, clears⟩
    have skip := skips 1
    have clear := clears 1 Nat.one_pos
    rw [filterArrivals_one numbered] at skip clear
    simp only [List.range_one, List.map_cons, List.map_nil, Nat.add_zero,
      List.cons.injEq, and_true] at skip
    constructor
    · intro reached
      rw [skipBeforeBoundary] at skip
      split at skip
      · simp at skip
        exact skip
      · rw [if_neg (Nat.not_lt.mpr reached)] at skip
        simp at skip
        exact skip
    · intro order
      rw [skipBeforeBoundary] at skip
      split at skip
      · next zero => omega
      · split at skip
        · simp at skip
          omega
        · next reached => exact Nat.le_of_not_lt reached
  · intro compares
    have follow := numbered_following numbered arrived
    have shifted (index : Nat) :
        stamp (start + arrived) index = stamp start (arrived + index) := by
      rw [stamp, stamp, Nat.add_assoc]
    have flat := (compares_iff near).mp compares
    by_cases zero : stamp start named = 0
    · -- A boundary of zero is none, and no packet comes before it here.
      have order : named ≤ arrived :=
        compares.mp (by rw [zero]; exact Nat.zero_le _)
      rw [zero]
      simp only [filterArrivals_zero follow]
      refine ⟨?_, ?_⟩
      · intro count
        apply List.map_congr_left
        intro index _
        simp
        omega
      · intro count positive
        simp
        omega
    · have below :
          ∀ index, index < named - arrived →
            stamp (start + arrived) index < stamp start named := by
        intro index early
        have before : arrived < named := by omega
        rw [Unwrapped, Nat.min_eq_right before.le,
          Nat.max_eq_left before.le, Wraps] at flat
        have upTo : (named - arrived) % 2 ^ 24 = named - arrived :=
          Nat.mod_eq_of_lt (by omega)
        rw [upTo] at flat
        have here : stamp start (arrived + index) =
            stamp start arrived + index :=
          stamp_add (by omega)
        have there : stamp start (arrived + (named - arrived)) =
            stamp start arrived + (named - arrived) :=
          stamp_add (by omega)
        rw [Nat.add_sub_cancel' before.le] at there
        rw [shifted, here, there]
        omega
      have reached :
          stamp start named ≤
            stamp (start + arrived) (named - arrived) := by
        rw [shifted]
        by_cases order : named ≤ arrived
        · rw [Nat.sub_eq_zero_of_le order, Nat.add_zero]
          exact compares.mpr order
        · rw [Nat.add_sub_cancel' (Nat.le_of_not_le order)]
      have filtered := filterArrivals_reached follow zero below reached
      refine ⟨?_, ?_⟩
      · intro count
        rw [filtered]
        apply List.map_congr_left
        intro index _
        simp
        omega
      · intro count positive
        rw [filtered]
        split
        · next soon =>
            simp
            omega
        · next late =>
            simp [zero]
            omega

/--
A flush that names a packet fewer than `2 ^ 23` after the oldest is exact if
and only if the counter does not wrap between the named packet and any packet
that is queued or the next to arrive.
-/
theorem flush_exact_iff
    (start : Nat) (packets : Nat → Bytes)
    (queued : List (Nat × Player.Packet))
    (oldest arrived named boundary : Nat)
    (numbered : Numbered start packets)
    (stamped :
      ∀ entry ∈ queued, packetSeq (packets entry.1) = some entry.2.seq)
    (names : packetSeq (packets named) = some boundary)
    (oldestQueued : ∀ entry ∈ queued, oldest ≤ entry.1)
    (oldestArrived : oldest ≤ arrived)
    (near : named < oldest + 2 ^ 23) :
    FlushesExactly packets queued arrived named boundary ↔
      Unwrapped start named arrived ∧
        ∀ entry ∈ queued, Unwrapped start named entry.1 := by
  have same : boundary = stamp start named :=
    Option.some.inj (names.symm.trans (numbered named))
  subst same
  have retained :
      ∀ entry ∈ queued,
        ((Player.keeps (Player.encodeFlush (some (stamp start named)))
              entry.2 = true ↔
            named ≤ entry.1) ↔
          Unwrapped start named entry.1) := by
    intro entry member
    have seq : entry.2.seq = stamp start entry.1 :=
      Option.some.inj
        ((stamped entry member).symm.trans (numbered entry.1))
    have small : stamp start named + 1 < Player.u64Max := by
      have := stamp_lt start named
      simp only [Player.u64Max]
      omega
    have young := oldestQueued entry member
    rw [Player.keeps_encodeFlush_iff small, seq]
    exact compares_iff (by omega)
  have reader :=
    @reader_exact_iff start arrived named packets numbered (by omega)
  constructor
  · rintro ⟨skips, clears, discards⟩
    refine ⟨reader.mp ⟨skips, clears⟩, ?_⟩
    intro entry member
    exact (retained entry member).mp (discards entry member)
  · rintro ⟨flat, allFlat⟩
    rcases reader.mpr flat with ⟨skips, clears⟩
    refine ⟨skips, clears, ?_⟩
    intro entry member
    exact (retained entry member).mpr (allFlat entry member)

/-- The first packet of a stream, as it is queued. -/
def firstQueued (start : Nat) : List (Nat × Player.Packet) :=
  [(0, ⟨0, stamp start 0, 0, [1]⟩)]

theorem firstQueued_stamped (start : Nat) :
    ∀ entry ∈ firstQueued start,
      packetSeq (header (start + entry.1)) = some entry.2.seq := by
  intro entry member
  rw [List.mem_singleton.mp member]
  exact packetSeq_header start

/-- A stream that starts at 5: one packet queued, and the fourth is named. -/
theorem flush_exact_iff_five :
    FlushesExactly (fun index => header (5 + index)) (firstQueued 5) 1 3
      8 :=
  (flush_exact_iff 5 _ (firstQueued 5) 0 1 3 8 (numbered_header 5)
    (firstQueued_stamped 5) (packetSeq_header 8)
    (fun entry _ => Nat.zero_le entry.1) (Nat.zero_le 1)
    (by decide)).mpr (by decide)

/--
A stream that starts two packets before the wrap: the first is queued, and the
fourth is named.  The queue retains the first.
-/
theorem flush_across_wrap :
    ¬ ∀ (start : Nat) (packets : Nat → Bytes)
        (queued : List (Nat × Player.Packet))
        (oldest arrived named boundary : Nat),
      Numbered start packets →
        (∀ entry ∈ queued,
          packetSeq (packets entry.1) = some entry.2.seq) →
          packetSeq (packets named) = some boundary →
            (∀ entry ∈ queued, oldest ≤ entry.1) →
              oldest ≤ arrived →
                oldest ≤ named →
                  named < oldest + 2 ^ 23 →
                    FlushesExactly packets queued arrived named
                      boundary := by
  intro claim
  have names : packetSeq (header 16777217) = some 1 := by
    rw [packetSeq_header]
    norm_num
  have exactly :=
    claim 16777214 (fun index => header (16777214 + index))
      (firstQueued 16777214) 0 1 3 1 (numbered_header 16777214)
      (firstQueued_stamped 16777214) names
      (fun entry _ => Nat.zero_le entry.1) (Nat.zero_le 1)
      (Nat.zero_le 3) (by decide)
  have retained :=
    (exactly.discards _ (List.mem_singleton_self _)).mp (by decide)
  exact absurd retained (by decide)

end OpenAirplay2.Buffered.Counter

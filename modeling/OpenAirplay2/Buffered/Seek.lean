import OpenAirplay2.Player.Due
import OpenAirplay2.Player.Records

/-!
# Seeking: two filters and three actors

A seek discards old audio in two places.  The RTSP task stores the boundary
for the reader task, which skips packets still arriving, and then asks the
playback queue to drop what is queued already.  A packet on its way from the
one to the other is seen by neither.

The RTSP task and the reader task each make their queue calls one after the
other.  The backpressure of the reader only delays it, and every delay is a
schedule here anyway.  Decrypting and decoding a packet gives the samples
the packet comes with in this model, or fails.
-/

namespace OpenAirplay2.Buffered

open OpenAirplay2.Lib.Transition

/-- A packet of the data stream, with what decoding it gives. -/
structure Incoming where
  seq : Nat
  timestamp : Nat
  pcm : Option (List Player.Sample)
deriving DecidableEq, Repr

/-- Decoding gives samples to play. -/
def Incoming.audible (packet : Incoming) : Bool :=
  match packet.pcm with
  | some (_ :: _) => true
  | _ => false

/-- Where `buffered_audio` stands with the packet at hand. -/
inductive Reader where
  | idle
  | arrived (packet : Incoming)
  | loaded (packet : Incoming) (boundary : Nat)
  | passed (packet : Incoming)
deriving DecidableEq, Repr

/-- Where the RTSP task stands in `Session::flush`. -/
inductive Rtsp where
  | idle
  | flushing (boundary : Option Nat)
deriving DecidableEq, Repr

structure State where
  player : Player.State
  flushUntilSeq : Nat
  rtsp : Rtsp
  reader : Reader
  stream : List Incoming
deriving DecidableEq, Repr

/-- A session that has just started its stream. -/
def start (stream : List Incoming) : State where
  player := Player.spawn
  flushUntilSeq := 0
  rtsp := .idle
  reader := .idle
  stream := stream

/-- `AtomicU64::compare_exchange`, as seen in the cell. -/
def compareExchange (cell current new : Nat) : Nat :=
  if cell = current then new else cell

namespace State

variable (state : State)

/-- The RTSP task is in no call. -/
def RtspFree : Prop :=
  state.rtsp = .idle ∧
    ∀ call ∈ state.player.calls, call.command ≠ .wake

instance : Decidable state.RtspFree :=
  inferInstanceAs (Decidable (_ ∧ _))

/-- The reader task is in no call and has no packet at hand. -/
def ReaderFree : Prop :=
  state.reader = .idle ∧ state.player.inFlight = []

instance : Decidable state.ReaderFree :=
  inferInstanceAs (Decidable (_ ∧ _))

/-- `Session::flush`, up to its call on the queue. -/
def flush (boundary : Option Nat) : State :=
  match boundary with
  | some seq =>
      { state with
        flushUntilSeq := seq
        rtsp := .flushing boundary }
  | none => { state with rtsp := .flushing boundary }

/--
The rest of `skip_before_boundary`, once it has loaded the boundary, and what
the loop does with the answer.
-/
def skipBeforeBoundary (packet : Incoming) (boundary : Nat) : State :=
  if boundary = 0 then
    { state with reader := .passed packet }
  else if packet.seq < boundary then
    { state with reader := .idle }
  else
    { state with
      flushUntilSeq :=
        compareExchange state.flushUntilSeq boundary 0
      reader := .passed packet }

/-- Decrypt and decode the packet, and play what that gives. -/
def decode (packet : Incoming) : State :=
  match packet.pcm with
  | some (sample :: rest) =>
      { state with
        player :=
          state.player.play packet.seq packet.timestamp (sample :: rest)
        reader := .idle }
  | _ => { state with reader := .idle }

end State

/-- What the scheduler chooses. -/
inductive Act where
  | flush (boundary : Option Nat)
  | control
  | setPaused (paused : Bool)
  | arrive
  | load
  | decide
  | decode
  | send (index : Nat)
  | thread
deriving DecidableEq, Repr

/-- One step of the RTSP task, the reader task or the playback thread. -/
def step (state : State) : Act → Option State
  | .flush boundary =>
      if state.RtspFree then some (state.flush boundary) else none
  | .control =>
      match state.rtsp with
      | .flushing boundary =>
          some
            { state with
              player := state.player.flush boundary
              rtsp := .idle }
      | .idle => none
  | .setPaused paused =>
      if state.RtspFree then
        some { state with player := state.player.setPaused paused }
      else
        none
  | .arrive =>
      match state.stream with
      | packet :: rest =>
          if state.ReaderFree then
            some { state with reader := .arrived packet, stream := rest }
          else
            none
      | [] => none
  | .load =>
      match state.reader with
      | .arrived packet =>
          some { state with reader := .loaded packet state.flushUntilSeq }
      | _ => none
  | .decide =>
      match state.reader with
      | .loaded packet boundary =>
          some (state.skipBeforeBoundary packet boundary)
      | _ => none
  | .decode =>
      match state.reader with
      | .passed packet => some (state.decode packet)
      | _ => none
  | .send index =>
      (state.player.send index).map fun player =>
        { state with player := player }
  | .thread =>
      state.player.thread.map fun player =>
        { state with player := player }

/-- A session playing the given stream. -/
def seek (stream : List Incoming) : System State Act where
  initial := start stream
  step := step

/-- What one step can do. -/
inductive SeekStep (state : State) : Act → State → Prop where
  | flushTo (boundary : Nat) (free : state.RtspFree) :
      SeekStep state (.flush (some boundary))
        { state with
          flushUntilSeq := boundary
          rtsp := .flushing (some boundary) }
  | flushAll (free : state.RtspFree) :
      SeekStep state (.flush none)
        { state with rtsp := .flushing none }
  | control (boundary : Option Nat)
      (position : state.rtsp = .flushing boundary) :
      SeekStep state .control
        { state with
          player := state.player.flush boundary
          rtsp := .idle }
  | setPaused (paused : Bool) (free : state.RtspFree) :
      SeekStep state (.setPaused paused)
        { state with player := state.player.setPaused paused }
  | arrive (packet : Incoming) (rest : List Incoming)
      (free : state.ReaderFree)
      (incoming : state.stream = packet :: rest) :
      SeekStep state .arrive
        { state with reader := .arrived packet, stream := rest }
  | load (packet : Incoming)
      (position : state.reader = .arrived packet) :
      SeekStep state .load
        { state with reader := .loaded packet state.flushUntilSeq }
  | unbounded (packet : Incoming)
      (position : state.reader = .loaded packet 0) :
      SeekStep state .decide { state with reader := .passed packet }
  | skipped (packet : Incoming) (boundary : Nat)
      (position : state.reader = .loaded packet boundary)
      (below : packet.seq < boundary) :
      SeekStep state .decide { state with reader := .idle }
  | passed (packet : Incoming) (boundary : Nat)
      (position : state.reader = .loaded packet boundary)
      (reached : boundary ≤ packet.seq) :
      SeekStep state .decide
        { state with
          flushUntilSeq :=
            compareExchange state.flushUntilSeq boundary 0
          reader := .passed packet }
  | silent (packet : Incoming)
      (position : state.reader = .passed packet) :
      SeekStep state .decode { state with reader := .idle }
  | played (packet : Incoming) (pcm : List Player.Sample)
      (position : state.reader = .passed packet)
      (audible : packet.audible = true) :
      SeekStep state .decode
        { state with
          player := state.player.play packet.seq packet.timestamp pcm
          reader := .idle }
  | send (index : Nat) (player : Player.State)
      (stepped : Player.step state.player (.send index) = some player) :
      SeekStep state (.send index) { state with player := player }
  | thread (player : Player.State)
      (stepped : Player.step state.player .thread = some player) :
      SeekStep state .thread { state with player := player }

theorem seek_cases
    {state next : State} {act : Act}
    (stepped : step state act = some next) :
    SeekStep state act next := by
  cases act with
  | flush boundary =>
      simp only [step, Option.ite_none_right_eq_some] at stepped
      rcases stepped with ⟨free, same⟩
      cases same
      cases boundary with
      | none => exact .flushAll free
      | some seq => exact .flushTo seq free
  | control =>
      simp only [step] at stepped
      split at stepped
      · next boundary position =>
          cases stepped
          exact .control boundary position
      · cases stepped
  | setPaused paused =>
      simp only [step, Option.ite_none_right_eq_some] at stepped
      rcases stepped with ⟨free, same⟩
      cases same
      exact .setPaused paused free
  | arrive =>
      simp only [step] at stepped
      split at stepped
      · next packet rest incoming =>
          rw [Option.ite_none_right_eq_some] at stepped
          rcases stepped with ⟨free, same⟩
          cases same
          exact .arrive packet rest free incoming
      · cases stepped
  | load =>
      simp only [step] at stepped
      split at stepped
      · next packet position =>
          cases stepped
          exact .load packet position
      · cases stepped
  | decide =>
      simp only [step] at stepped
      split at stepped
      · next packet boundary position =>
          cases stepped
          unfold State.skipBeforeBoundary
          split
          · next zero =>
              rw [zero] at position
              exact .unbounded packet position
          · split
            · next below => exact .skipped packet boundary position below
            · next reached =>
                exact
                  .passed packet boundary position (Nat.le_of_not_lt reached)
      · cases stepped
  | decode =>
      simp only [step] at stepped
      split at stepped
      · next packet position =>
          cases stepped
          unfold State.decode
          split
          · next sample rest decoded =>
              exact
                .played packet (sample :: rest) position
                  (by simp [Incoming.audible, decoded])
          · exact .silent packet position
      · cases stepped
  | send index =>
      simp only [step, Option.map_eq_some_iff] at stepped
      rcases stepped with ⟨player, moved, rfl⟩
      exact .send index player moved
  | thread =>
      simp only [step, Option.map_eq_some_iff] at stepped
      rcases stepped with ⟨player, moved, rfl⟩
      exact .thread player moved

/-! ## The reader's side of the boundary -/

/-- The packet the reader has at hand. -/
@[simp]
def Reader.packets : Reader → List Incoming
  | .idle => []
  | .arrived packet | .loaded packet _ | .passed packet => [packet]

/-- The packets whose boundary test is still to begin. -/
def State.untested (state : State) : List Incoming :=
  match state.reader with
  | .arrived packet => packet :: state.stream
  | _ => state.stream

/--
The stamps of the packets that are past the boundary test and will be, or are
being, played.
-/
def State.onTheWay (state : State) : List Nat :=
  (match state.reader with
    | .loaded packet boundary =>
        if packet.audible && boundary ≤ packet.seq then [packet.seq]
        else []
    | .passed packet => if packet.audible then [packet.seq] else []
    | _ => []) ++
    state.player.inFlight.map Player.Packet.seq

/-- The sequence numbers rise along what the reader still has to see. -/
def State.Ordered (state : State) : Prop :=
  (state.reader.packets ++ state.stream).Pairwise
    fun earlier later => earlier.seq < later.seq

/-- Everything still to be tested is at the boundary or will be skipped. -/
def State.Guarded (boundary : Nat) (state : State) : Prop :=
  ∀ packet ∈ state.untested,
    boundary ≤ packet.seq ∨ packet.seq < state.flushUntilSeq

/--
The drain for a flush ends while a packet below its boundary is past the
reader's test; or the boundary about to be stored spares a packet that the
one in force would skip.
-/
def SlipsThrough (state : State) : Act → Prop
  | .thread =>
      match state.player.pc with
      | .drain _ _ =>
          state.player.channel = [] ∧
            ∃ flush ∈ state.player.flushes[state.player.consumed - 1]?,
              ∃ boundary ∈ flush.below,
                ∃ seq ∈ state.onTheWay, seq < boundary
      | _ => False
  | .flush (some boundary) =>
      ∃ packet ∈ state.untested,
        packet.seq < state.flushUntilSeq ∧ boundary ≤ packet.seq
  | _ => False

instance (state : State) (act : Act) :
    Decidable (SlipsThrough state act) := by
  unfold SlipsThrough
  split
  · split <;> infer_instance
  · infer_instance
  · infer_instance

theorem ordered_step
    {state next : State} {act : Act}
    (ordered : state.Ordered)
    (stepped : SeekStep state act next) :
    next.Ordered := by
  cases stepped with
  | arrive packet rest free incoming =>
      simpa [State.Ordered, free.1, incoming] using ordered
  | load packet position =>
      simpa [State.Ordered, position] using ordered
  | unbounded packet position =>
      simpa [State.Ordered, position] using ordered
  | passed packet boundary position reached =>
      simpa [State.Ordered, position] using ordered
  | skipped packet boundary position below =>
      simp only [State.Ordered, position, Reader.packets,
        List.singleton_append, List.pairwise_cons] at ordered
      exact ordered.2
  | silent packet position =>
      simp only [State.Ordered, position, Reader.packets,
        List.singleton_append, List.pairwise_cons] at ordered
      exact ordered.2
  | played packet pcm position audible =>
      simp only [State.Ordered, position, Reader.packets,
        List.singleton_append, List.pairwise_cons] at ordered
      exact ordered.2
  | _ => exact ordered

/-- A guarded boundary stays guarded until a lower one spares something. -/
theorem guarded_step
    {boundary : Nat} {state next : State} {act : Act}
    (ordered : state.Ordered)
    (guarded : state.Guarded boundary)
    (caught : ¬ SlipsThrough state act)
    (stepped : SeekStep state act next) :
    next.Guarded boundary := by
  cases stepped with
  | flushTo lower free =>
      intro packet untested
      rcases guarded packet untested with above | skipped
      · exact Or.inl above
      · right
        by_contra spared
        exact caught ⟨packet, untested, skipped, Nat.le_of_not_lt spared⟩
  | arrive packet rest free incoming =>
      simpa [State.Guarded, State.untested, free.1, incoming]
        using guarded
  | load packet position =>
      intro other later
      apply guarded
      simp only [State.untested, position]
      exact List.mem_cons_of_mem _ later
  | unbounded packet position =>
      simpa [State.Guarded, State.untested, position] using guarded
  | skipped packet lower position below =>
      simpa [State.Guarded, State.untested, position] using guarded
  | passed packet lower position reached =>
      -- The exchange clears the boundary; the rest of the stream is past it.
      intro other later
      have old :
          boundary ≤ other.seq ∨ other.seq < state.flushUntilSeq := by
        apply guarded
        simpa [State.untested, position] using later
      simp only [State.Ordered, position, Reader.packets,
        List.singleton_append, List.pairwise_cons] at ordered
      have beyond := ordered.1 other later
      by_cases exchanged : state.flushUntilSeq = lower
      · rcases old with above | skipped
        · exact Or.inl above
        · omega
      · simpa [compareExchange, exchanged] using old
  | silent packet position =>
      simpa [State.Guarded, State.untested, position] using guarded
  | played packet pcm position audible =>
      simpa [State.Guarded, State.untested, position] using guarded
  | _ => exact guarded

/-- The stamps on the way to the queue are not below the boundary. -/
def State.WayAbove (boundary : Nat) (state : State) : Prop :=
  ∀ seq ∈ state.onTheWay, boundary ≤ seq

theorem inFlight_send
    {state next : Player.State} {index : Nat}
    (stepped : Player.step state (.send index) = some next) :
    next.inFlight ⊆ state.inFlight := by
  rcases Player.step_cases stepped with ⟨impossible, -⟩ | callStep
  · cases impossible
  · cases callStep with
    | send _ call called =>
        intro packet member
        rcases List.mem_flatMap.mp member with ⟨other, left, carried⟩
        exact
          List.mem_flatMap.mpr
            ⟨other, List.mem_of_mem_eraseIdx left, carried⟩

/-- Under a guarded boundary nothing below it gets past the reader's test. -/
theorem wayAbove_step
    {boundary : Nat} {state next : State} {act : Act}
    (guarded : state.Guarded boundary)
    (above : state.WayAbove boundary)
    (stepped : SeekStep state act next) :
    next.WayAbove boundary := by
  intro seq member
  cases stepped with
  | flushTo lower free => exact above seq member
  | flushAll free => exact above seq member
  | control lower position =>
      apply above
      simpa [State.onTheWay, Player.State.flush, Player.State.inFlight,
        Player.Call.command, Player.Command.packets] using member
  | setPaused paused free =>
      apply above
      simpa [State.onTheWay, Player.State.setPaused,
        Player.State.inFlight, Player.Call.command,
        Player.Command.packets] using member
  | arrive packet rest free incoming =>
      apply above
      simpa [State.onTheWay, free.1] using member
  | load packet position =>
      have tested :
          boundary ≤ packet.seq ∨ packet.seq < state.flushUntilSeq := by
        apply guarded
        simp [State.untested, position]
      rw [State.onTheWay, List.mem_append] at member
      rcases member with passing | flying
      · simp only at passing
        split at passing
        · next passes =>
            simp only [Bool.and_eq_true, decide_eq_true_eq] at passes
            rw [List.mem_singleton] at passing
            omega
        · cases passing
      · apply above
        rw [State.onTheWay]
        exact List.mem_append_right _ flying
  | unbounded packet position =>
      apply above
      simpa [State.onTheWay, position] using member
  | skipped packet lower position below =>
      apply above
      rw [State.onTheWay]
      exact List.mem_append_right _ member
  | passed packet lower position reached =>
      apply above
      simpa [State.onTheWay, position, reached] using member
  | silent packet position =>
      apply above
      rw [State.onTheWay]
      exact List.mem_append_right _ member
  | played packet pcm position audible =>
      apply above
      simpa [State.onTheWay, position, audible, Player.State.play,
        Player.State.inFlight, Player.Call.command,
        Player.Command.packets, or_comm] using member
  | send index player moved =>
      apply above
      rw [State.onTheWay, List.mem_append] at member ⊢
      rcases member with passing | flying
      · exact Or.inl passing
      · right
        rcases List.mem_map.mp flying with ⟨packet, called, rfl⟩
        exact List.mem_map_of_mem (inFlight_send moved called)
  | thread player moved =>
      apply above
      have same : player.inFlight = state.player.inFlight := by
        rw [Player.State.inFlight,
          (Player.records_thread (Player.thread_cases moved)).2.1,
          Player.State.inFlight]
      simpa only [State.onTheWay, same] using member

/-! ## Up to the swap -/

/-- A step leaves the queue alone or is one of the queue, and never a drop. -/
theorem player_step
    {state next : State} {act : Act}
    (stepped : SeekStep state act next) :
    next.player = state.player ∨
      ∃ own, own ≠ .drop ∧
        Player.step state.player own = some next.player := by
  cases stepped with
  | control boundary position =>
      exact Or.inr ⟨.flush boundary, by simp, rfl⟩
  | setPaused paused free =>
      exact Or.inr ⟨.setPaused paused, by simp, rfl⟩
  | played packet pcm position audible =>
      exact
        Or.inr ⟨.play packet.seq packet.timestamp pcm, by simp, rfl⟩
  | send index player moved => exact Or.inr ⟨.send index, by simp, moved⟩
  | thread player moved => exact Or.inr ⟨.thread, by simp, moved⟩
  | _ => exact Or.inl rfl

theorem unstopped_step
    {state next : State} {act : Act}
    (unstopped : state.player.Unstopped)
    (stepped : SeekStep state act next) :
    next.player.Unstopped := by
  rcases player_step stepped with same | ⟨own, noDrop, moved⟩
  · rw [same]
    exact unstopped
  · exact Player.unstopped_step unstopped noDrop moved

/--
The boundary about to reach the queue, and the one the flush slot holds, are
guarded by the reader.
-/
structure State.Prepared (state : State) : Prop where
  storing :
    ∀ boundary, state.rtsp = .flushing (some boundary) →
      state.Guarded boundary
  slot :
    state.player.flushRequest ≠ Player.flushNone →
      ∃ flush ∈ state.player.flushes.getLast?,
        state.player.flushRequest = Player.encodeFlush flush.below ∧
          ∀ boundary ∈ flush.below, state.Guarded boundary

theorem prepared_start (stream : List Incoming) :
    (start stream).Prepared where
  storing := by simp [start]
  slot := fun requested => (requested rfl).elim

/-- A send keeps the request of the latest call. -/
theorem getLast?_send
    {state next : Player.State} {index : Nat}
    {flush : Player.FlushCall}
    (stepped : Player.step state (.send index) = some next)
    (latest : flush ∈ state.flushes.getLast?) :
    ∃ new ∈ next.flushes.getLast?, new.below = flush.below := by
  rcases Player.step_cases stepped with ⟨impossible, -⟩ | callStep
  · cases impossible
  · cases callStep with
    | send _ call called =>
        have requests :=
          congrArg List.getLast?
            (Player.returnFlush_requests state.flushes state.plays call)
        rw [List.getLast?_map, List.getLast?_map,
          Option.mem_def.mp latest, Option.map_some,
          Option.map_eq_some_iff] at requests
        rcases requests with ⟨new, newLatest, same⟩
        rw [Prod.mk.injEq] at same
        exact ⟨new, newLatest, same.1⟩

theorem prepared_step
    {state next : State} {act : Act}
    (ordered : state.Ordered)
    (prepared : state.Prepared)
    (caught : ¬ SlipsThrough state act)
    (stepped : SeekStep state act next) :
    next.Prepared := by
  rcases prepared with ⟨storing, slot⟩
  have carried :
      ∀ boundary, state.Guarded boundary → next.Guarded boundary :=
    fun boundary guarded => guarded_step ordered guarded caught stepped
  have slotKept :
      state.player.flushRequest ≠ Player.flushNone →
        ∃ flush ∈ state.player.flushes.getLast?,
          state.player.flushRequest = Player.encodeFlush flush.below ∧
            ∀ boundary ∈ flush.below, next.Guarded boundary := by
    intro requested
    rcases slot requested with ⟨flush, latest, encoded, guarded⟩
    exact
      ⟨flush, latest, encoded, fun boundary member =>
        carried boundary (guarded boundary member)⟩
  have storingKept :
      ∀ boundary, state.rtsp = .flushing (some boundary) →
        next.Guarded boundary :=
    fun boundary position => carried boundary (storing boundary position)
  cases stepped with
  | flushTo lower free =>
      refine ⟨?_, slotKept⟩
      intro boundary position
      cases position
      intro packet untested
      exact (Nat.lt_or_ge packet.seq lower).symm
  | flushAll free =>
      refine ⟨?_, slotKept⟩
      intro boundary position
      cases position
  | control lower position =>
      constructor
      · intro boundary storingNow
        cases storingNow
      · intro requested
        refine
          ⟨⟨lower, state.player.sent, none⟩, ?_, rfl, ?_⟩
        · simp [Player.State.flush]
        · intro boundary member
          have same : lower = some boundary := member
          apply storingKept
          rw [position, same]
  | send index player moved =>
      refine ⟨storingKept, ?_⟩
      have sameSlot :
          player.flushRequest = state.player.flushRequest := by
        rcases Player.step_cases moved with ⟨impossible, -⟩ | callStep
        · cases impossible
        · cases callStep
          rfl
      intro requested
      rw [sameSlot] at requested
      rcases slotKept requested with ⟨flush, latest, encoded, guarded⟩
      rcases getLast?_send moved latest with ⟨new, newLatest, same⟩
      refine ⟨new, newLatest, ?_, ?_⟩
      · show player.flushRequest = _
        rw [sameSlot, encoded, same]
      · rw [same]
        exact guarded
  | thread player moved =>
      refine ⟨storingKept, ?_⟩
      have threadStep := Player.thread_cases moved
      intro requested
      rcases Player.flushRequest_thread threadStep with same | emptied
      · rw [show player.flushRequest = _ from same] at requested
        show
          ∃ flush ∈ player.flushes.getLast?,
            player.flushRequest = _ ∧ _
        rw [(Player.records_thread threadStep).2.2.2, same]
        exact slotKept requested
      · exact (requested emptied).elim
  | arrive packet rest free incoming => exact ⟨storingKept, slotKept⟩
  | load packet position => exact ⟨storingKept, slotKept⟩
  | unbounded packet position => exact ⟨storingKept, slotKept⟩
  | skipped packet boundary position below =>
      exact ⟨storingKept, slotKept⟩
  | passed packet boundary position reached =>
      exact ⟨storingKept, slotKept⟩
  | silent packet position => exact ⟨storingKept, slotKept⟩
  | played packet pcm position audible => exact ⟨storingKept, slotKept⟩
  | setPaused paused free => exact ⟨storingKept, slotKept⟩

/-! ## From the swap on -/

/-- The call on record flushes up to the boundary. -/
def FlushesTo (boundary : Nat) (call : Option Player.FlushCall) : Prop :=
  ∃ flush ∈ call, flush.below = some boundary

/-- The filter discards everything below the boundary. -/
def DiscardsBelow (boundary filter : Nat) : Prop :=
  ∀ packet : Player.Packet, packet.seq < boundary →
    Player.keeps filter packet = false

/-- How far the seek to the boundary has come since the swap. -/
inductive Sought (boundary : Nat) (state : State) : Prop where
  | draining (paused : Bool) (filter : Nat)
      (position : state.player.pc = .drain paused filter)
      (discards : DiscardsBelow boundary filter)
      (call :
        FlushesTo boundary
          state.player.flushes[state.player.consumed - 1]?)
  | filtering (paused : Bool) (filter : Nat)
      (kept : List Player.Packet)
      (position : state.player.pc = .retain paused filter kept)
      (discards : DiscardsBelow boundary filter)
      (queued :
        ∀ packet ∈
            kept ++
              state.player.channel.flatMap Player.Command.packets,
          boundary ≤ packet.seq)
      (way : state.WayAbove boundary)
  | cleared
      (queued :
        ∀ packet ∈ state.player.pc.writing ++ state.player.waiting,
          boundary ≤ packet.seq)
      (way : state.WayAbove boundary)

theorem writing_of_sought
    {boundary : Nat} {state : State}
    (sought : Sought boundary state) :
    ∀ packet ∈ state.player.pc.writing, boundary ≤ packet.seq := by
  intro packet writing
  cases sought with
  | draining paused filter position discards call =>
      simp [position] at writing
  | filtering paused filter kept position discards queued way =>
      simp [position] at writing
  | cleared queued way =>
      exact queued packet (List.mem_append_left _ writing)

/-- What a step of the queue's handles can add to the queue. -/
theorem queue_call
    {state next : State} {act : Act}
    (stepped : SeekStep state act next)
    (calling : act ≠ .thread) :
    next.player.pc = state.player.pc ∧
      next.player.held = state.player.held ∧
        next.player.consumed = state.player.consumed ∧
          (∀ packet ∈
              next.player.channel.flatMap Player.Command.packets,
            packet ∈
                state.player.channel.flatMap Player.Command.packets ∨
              packet.seq ∈ state.onTheWay) ∧
            (∀ (index boundary : Nat),
              FlushesTo boundary state.player.flushes[index]? →
                FlushesTo boundary next.player.flushes[index]?) := by
  cases stepped with
  | thread player moved => exact (calling rfl).elim
  | control lower position =>
      refine ⟨rfl, rfl, rfl, fun packet queued => Or.inl queued, ?_⟩
      rintro index boundary ⟨flush, found, below⟩
      refine ⟨flush, ?_, below⟩
      rcases List.getElem?_eq_some_iff.mp found with ⟨bound, -⟩
      simp only [Player.State.flush, Option.mem_def]
      rw [List.getElem?_append_left bound]
      exact found
  | send index player moved =>
      rcases Player.step_cases moved with ⟨impossible, -⟩ | callStep
      · cases impossible
      · cases callStep with
        | send _ call called =>
            refine ⟨rfl, rfl, rfl, ?_, ?_⟩
            · intro packet queued
              have split :
                  packet ∈
                      state.player.channel.flatMap
                        Player.Command.packets ∨
                    packet ∈ call.command.packets := by
                simp only [Player.State.deliverTo] at queued
                split at queued
                · exact Or.inl queued
                · simpa using queued
              rcases split with old | new
              · exact Or.inl old
              · right
                apply List.mem_append_right
                apply List.mem_map_of_mem
                exact
                  List.mem_flatMap.mpr
                    ⟨call, List.mem_of_getElem? called, new⟩
            · rintro place boundary ⟨flush, found, below⟩
              simp only [Option.mem_def] at found
              simp only [FlushesTo, Option.mem_def,
                Player.returnFlush_getElem?, found, Option.map_some,
                Option.some.injEq, exists_eq_left']
              split <;> exact below
  | _ =>
      exact
        ⟨rfl, rfl, rfl, fun packet queued => Or.inl queued,
          fun index boundary flushesTo => flushesTo⟩

/-- What the handles add to the queue was on its way. -/
theorem sought_call
    {boundary : Nat} {state next : State} {act : Act}
    (guarded : state.Guarded boundary)
    (sought : Sought boundary state)
    (stepped : SeekStep state act next)
    (calling : act ≠ .thread) :
    Sought boundary next := by
  rcases queue_call stepped calling with
    ⟨samePc, sameHeld, sameConsumed, arriving, records⟩
  cases sought with
  | draining paused filter position discards call =>
      apply Sought.draining paused filter (samePc.trans position) discards
      rw [sameConsumed]
      exact records _ _ call
  | filtering paused filter kept position discards queued way =>
      have wayNext := wayAbove_step guarded way stepped
      apply
        Sought.filtering paused filter kept (samePc.trans position)
          discards ?_ wayNext
      intro packet member
      rw [List.mem_append] at member
      rcases member with old | inChannel
      · exact queued packet (List.mem_append_left _ old)
      · rcases arriving packet inChannel with old | new
        · exact queued packet (List.mem_append_right _ old)
        · exact way _ new
  | cleared queued way =>
      have wayNext := wayAbove_step guarded way stepped
      apply Sought.cleared ?_ wayNext
      intro packet member
      have split :
          packet ∈ state.player.pc.writing ++ state.player.waiting ∨
            packet.seq ∈ state.onTheWay := by
        simp only [Player.State.waiting, samePc, sameHeld,
          List.flatMap_append, List.mem_append] at member ⊢
        rcases member with writing | (held | (inHand | inChannel))
        · exact Or.inl (Or.inl writing)
        · exact Or.inl (Or.inr (Or.inl held))
        · exact Or.inl (Or.inr (Or.inr (Or.inl inHand)))
        · rcases arriving packet inChannel with old | new
          · exact Or.inl (Or.inr (Or.inr (Or.inr old)))
          · exact Or.inr new
      rcases split with old | new
      · exact queued packet old
      · exact way _ new

/-- The thread drains, filters and then only has packets above. -/
theorem sought_thread
    {boundary : Nat} {state : State} {player : Player.State}
    (unstopped : state.player.Unstopped)
    (guarded : state.Guarded boundary)
    (sought : Sought boundary state)
    (caught : ¬ SlipsThrough state .thread)
    (moved : Player.step state.player .thread = some player) :
    Sought boundary { state with player := player } := by
  have threadStep := Player.thread_cases moved
  have wayKept :
      state.WayAbove boundary →
        State.WayAbove boundary { state with player := player } :=
    fun way => wayAbove_step guarded way (.thread player moved)
  cases sought with
  | draining paused filter position discards call =>
      cases threadStep with
      | drainEmpty _ _ drainPosition empty =>
          rw [position] at drainPosition
          cases drainPosition
          rcases call with ⟨flush, found, below⟩
          apply Sought.filtering paused filter [] rfl discards
          · simp [empty]
          · apply wayKept
            intro seq onTheWay
            by_contra under
            apply caught
            simp only [SlipsThrough, position]
            exact
              ⟨empty, flush, found, boundary, below, seq, onTheWay,
                Nat.lt_of_not_le under⟩
      | drainPacket _ _ packet rest drainPosition queued =>
          exact .draining paused filter position discards call
      | drainWake _ _ rest drainPosition queued =>
          exact .draining paused filter position discards call
      | drainStop _ _ rest drainPosition queued =>
          have impossible := unstopped.channel
          simp [queued] at impossible
      | _ => simp_all
  | filtering paused filter kept position discards queued way =>
      have wayNext := wayKept way
      cases threadStep with
      | retained _ _ _ retainPosition empty =>
          rw [position] at retainPosition
          cases retainPosition
          apply Sought.cleared ?_ wayNext
          intro packet member
          apply queued
          rcases Player.afterControl_cases paused with after | after <;>
            simpa [Player.State.waiting, after] using member
      | keep _ _ _ passed rest retainPosition holds spared =>
          rw [position] at retainPosition
          cases retainPosition
          apply
            Sought.filtering paused filter (kept ++ [passed]) rfl discards
              ?_ wayNext
          intro packet member
          rw [List.append_assoc, List.mem_append] at member
          rcases member with old | new
          · exact queued packet (List.mem_append_left _ old)
          · rw [List.singleton_append, List.mem_cons] at new
            rcases new with rfl | inChannel
            · by_contra under
              have discarded :=
                discards packet (Nat.lt_of_not_le under)
              rw [spared] at discarded
              cases discarded
            · exact queued packet (List.mem_append_right _ inChannel)
      | discard _ _ _ packet rest retainPosition holds named =>
          exact
            .filtering paused filter kept position discards queued wayNext
      | _ => simp_all
  | cleared queued way =>
      apply Sought.cleared ?_ (wayKept way)
      intro packet member
      rw [List.mem_append] at member
      apply queued
      rw [List.mem_append]
      rcases member with writing | waits
      · rcases Player.writing_thread threadStep packet writing with
          old | ⟨-, waited⟩
        · exact Or.inl old
        · exact Or.inr waited
      · exact Or.inr (Player.waiting_thread threadStep waits)

/-- What carries the seek to the boundary through the rest of the run. -/
structure Seeking (boundary : Nat) (state : State) : Prop where
  unstopped : state.player.Unstopped
  ordered : state.Ordered
  guarded : state.Guarded boundary
  sought : Sought boundary state

theorem seeking_step
    {boundary : Nat} {state next : State} {act : Act}
    (seeking : Seeking boundary state)
    (caught : ¬ SlipsThrough state act)
    (stepped : SeekStep state act next) :
    Seeking boundary next := by
  rcases seeking with ⟨unstopped, ordered, guarded, sought⟩
  constructor
  · exact unstopped_step unstopped stepped
  · exact ordered_step ordered stepped
  · exact guarded_step ordered guarded caught stepped
  · by_cases calling : act = .thread
    · subst calling
      cases stepped with
      | thread player moved =>
          exact sought_thread unstopped guarded sought caught moved
    · exact sought_call guarded sought stepped calling

/-- The thread is about to take up the request of a flush to the boundary. -/
structure TakesUp (boundary : Nat) (state : State) : Prop where
  position :
    ∃ command paused, state.player.pc = .swapFlush command paused
  requested : state.player.flushRequest ≠ Player.flushNone
  latest : FlushesTo boundary state.player.flushes.getLast?

/-- The swap begins the drain, under a boundary the reader guards. -/
theorem seeking_of_takesUp
    {boundary : Nat} {state next : State}
    (unstopped : state.player.Unstopped)
    (ordered : state.Ordered)
    (prepared : state.Prepared)
    (takesUp : TakesUp boundary state)
    (stepped : SeekStep state .thread next) :
    Seeking boundary next := by
  have nextUnstopped := unstopped_step unstopped stepped
  have nextOrdered := ordered_step ordered stepped
  rcases takesUp with ⟨⟨command, paused, position⟩, requested, latest⟩
  rcases latest with ⟨flush, isLatest, below⟩
  rcases prepared.slot requested with
    ⟨other, isOther, encoded, guardedAll⟩
  rw [Option.mem_def] at isLatest isOther
  rw [isLatest, Option.some.injEq] at isOther
  subst isOther
  have guarded : state.Guarded boundary := guardedAll boundary below
  cases stepped with
  | thread player moved =>
      refine ⟨nextUnstopped, nextOrdered, guarded, ?_⟩
      cases Player.thread_cases moved with
      | swapSome _ _ swapPosition running _ =>
          apply Sought.draining _ state.player.flushRequest rfl
          · intro packet under
            rw [encoded]
            apply Player.discards_of_names
            simp [Player.FlushCall.names, below, under]
          · refine ⟨flush, ?_, below⟩
            show
              state.player.flushes[state.player.flushes.length - 1]? =
                some flush
            rw [← List.getLast?_eq_getElem?]
            exact isLatest
      | swapNone _ _ swapPosition running quiet =>
          exact (requested quiet).elim
      | swapStop _ swapPosition =>
          have impossible := unstopped.inHand
          simp [swapPosition] at impossible
      | _ => simp_all

/--
After a seek no stale packet plays, in every run in which no packet slips
through between the reader's boundary test and the end of the drain and no
flush lowers the boundary over packets still to come.
-/
theorem seek_plays_nothing_stale
    (stream : List Incoming) (before after : List Act)
    (middle final : State) (boundary : Nat)
    (increasing :
      stream.Pairwise fun earlier later => earlier.seq < later.seq)
    (reached : (seek stream).exec (start stream) before = some middle)
    (takesUp : TakesUp boundary middle)
    (ran : (seek stream).exec middle (.thread :: after) = some final)
    (caught :
      (seek stream).Meets (fun state act => ¬ SlipsThrough state act)
        (start stream) (before ++ .thread :: after)) :
    ∀ packet ∈ final.player.pc.writing, boundary ≤ packet.seq := by
  have upToSwap :
      middle.player.Unstopped ∧ middle.Ordered ∧ middle.Prepared := by
    apply
      System.invariant_of_meets
        (fun state =>
          state.player.Unstopped ∧ state.Ordered ∧ state.Prepared)
        ?_ ⟨Player.unstopped_spawn, increasing, prepared_start stream⟩
        caught.append_left reached
    rintro state act next ⟨unstopped, ordered, prepared⟩ caught stepped
    have seekStep := seek_cases stepped
    exact
      ⟨unstopped_step unstopped seekStep, ordered_step ordered seekStep,
        prepared_step ordered prepared caught seekStep⟩
  have caughtAfter := caught.append_right reached
  rw [System.exec_cons_iff] at ran
  rcases ran with ⟨swapped, stepped, ranAfter⟩
  have begun : Seeking boundary swapped :=
    seeking_of_takesUp upToSwap.1 upToSwap.2.1 upToSwap.2.2 takesUp
      (seek_cases stepped)
  have seeking : Seeking boundary final :=
    System.invariant_of_meets (Seeking boundary)
      (fun state act next seeking caught stepped =>
        seeking_step seeking caught (seek_cases stepped))
      begun (caughtAfter.2 swapped stepped) ranAfter
  exact writing_of_sought seeking.sought

/-- One more command on the channel, and nothing else a thread looks at. -/
structure Queued (packet : Player.Packet) (old new : Player.State) :
    Prop where
  channel : new.channel = old.channel ++ [.pcm packet]
  position : new.pc = old.pc
  paused : new.paused = old.paused
  slot : new.flushRequest = old.flushRequest

/-- A call under way can send its packet. -/
theorem queued_of_inFlight
    {stream : List Incoming} {state : State} {seq : Nat}
    (alive : state.player.pc ≠ .done)
    (way : seq ∈ state.player.inFlight.map Player.Packet.seq) :
    ∃ acts next packet,
      (seek stream).exec state acts = some next ∧
        packet.seq = seq ∧ Queued packet state.player next.player := by
  rcases List.mem_map.mp way with ⟨packet, inFlight, same⟩
  rcases List.mem_flatMap.mp inFlight with ⟨call, member, carried⟩
  rcases List.mem_iff_getElem?.mp member with ⟨index, called⟩
  have command : call.command = .pcm packet := by
    cases call with
    | play own =>
        simp only [Player.Call.command, Player.Command.packets,
          List.mem_singleton] at carried
        rw [carried]
        rfl
    | setPaused | flush index | stop => cases carried
  have sends :
      ∃ player, state.player.send index = some player ∧
        Queued packet state.player player := by
    simp only [Player.State.send, called, Option.some.injEq,
      exists_eq_left']
    exact ⟨by simp [Player.State.deliverTo, alive, command], rfl, rfl, rfl⟩
  rcases sends with ⟨player, sent, queues⟩
  refine
    ⟨[.send index], { state with player := player }, packet, ?_, same,
      queues⟩
  simp [System.exec_cons_iff, seek, step, sent]

/-- A packet past the reader's test can be played and sent. -/
theorem queued_of_passed
    {stream : List Incoming} {state : State} {packet : Incoming}
    (alive : state.player.pc ≠ .done)
    (position : state.reader = .passed packet)
    (audible : packet.audible = true) :
    ∃ acts next queued,
      (seek stream).exec state acts = some next ∧
        queued.seq = packet.seq ∧
          Queued queued state.player next.player := by
  have decoded :
      ∃ pcm, state.decode packet =
        { state with
          player := state.player.play packet.seq packet.timestamp pcm
          reader := .idle } := by
    unfold Incoming.audible at audible
    unfold State.decode
    split at audible
    · next sample rest samples => exact ⟨sample :: rest, rfl⟩
    · cases audible
  rcases decoded with ⟨pcm, decoded⟩
  have way :
      packet.seq ∈
        (state.decode packet).player.inFlight.map Player.Packet.seq := by
    simp [decoded, Player.State.inFlight, Player.State.play,
      Player.Call.command, Player.Command.packets]
  have stillAlive : (state.decode packet).player.pc ≠ .done := by
    rw [decoded]
    exact alive
  rcases @queued_of_inFlight stream _ _ stillAlive way with
    ⟨acts, next, queued, ran, same, queues⟩
  refine ⟨.decode :: acts, next, queued, ?_, same, ?_⟩
  · rw [System.exec_cons_iff]
    refine ⟨state.decode packet, ?_, ran⟩
    simp [seek, step, position]
  · rw [decoded] at queues
    exact ⟨queues.channel, queues.position, queues.paused, queues.slot⟩

/-- A packet that will pass the reader's test can be played and sent. -/
theorem queued_of_loaded
    {stream : List Incoming} {state : State} {packet : Incoming}
    {boundary : Nat}
    (alive : state.player.pc ≠ .done)
    (position : state.reader = .loaded packet boundary)
    (audible : packet.audible = true)
    (reached : boundary ≤ packet.seq) :
    ∃ acts next queued,
      (seek stream).exec state acts = some next ∧
        queued.seq = packet.seq ∧
          Queued queued state.player next.player := by
  have passes :
      ∃ cell, state.skipBeforeBoundary packet boundary =
        { state with flushUntilSeq := cell, reader := .passed packet } := by
    unfold State.skipBeforeBoundary
    split
    · exact ⟨state.flushUntilSeq, rfl⟩
    · rw [if_neg (Nat.not_lt_of_le reached)]
      exact ⟨_, rfl⟩
  rcases passes with ⟨cell, passes⟩
  rcases @queued_of_passed stream
      { state with flushUntilSeq := cell, reader := .passed packet } packet
      alive rfl audible with
    ⟨acts, next, queued, ran, same, queues⟩
  refine ⟨.decide :: acts, next, queued, ?_, same, queues⟩
  rw [System.exec_cons_iff]
  refine ⟨_, ?_, ran⟩
  simp [seek, step, position, passes]

/-- What is on its way can come to the queue without a step of the thread. -/
theorem queued_of_onTheWay
    {stream : List Incoming} {state : State} {seq : Nat}
    (alive : state.player.pc ≠ .done)
    (way : seq ∈ state.onTheWay) :
    ∃ acts next packet,
      (seek stream).exec state acts = some next ∧
        packet.seq = seq ∧ Queued packet state.player next.player := by
  simp only [State.onTheWay, List.mem_append] at way
  rcases way with reader | inFlight
  · split at reader
    · next packet boundary position =>
        split at reader
        · next passes =>
            simp only [Bool.and_eq_true, decide_eq_true_eq] at passes
            rw [List.mem_singleton] at reader
            subst reader
            exact queued_of_loaded alive position passes.1 passes.2
        · cases reader
    · next packet position =>
        split at reader
        · next audible =>
            rw [List.mem_singleton] at reader
            subst reader
            exact queued_of_passed alive position audible
        · cases reader
    · cases reader
  · exact queued_of_inFlight alive inFlight

/-- The thread's steps are those of the queue alone. -/
theorem exec_thread
    {stream : List Incoming} {state : State} {count : Nat}
    {player : Player.State}
    (ran :
      Player.queue.exec state.player (List.replicate count .thread) =
        some player) :
    (seek stream).exec state (List.replicate count .thread) =
      some { state with player := player } := by
  induction count generalizing state with
  | zero =>
      cases ran
      rfl
  | succ count induction =>
      rw [List.replicate_succ, System.exec_cons_iff] at ran ⊢
      rcases ran with ⟨next, stepped, ran⟩
      refine ⟨{ state with player := next }, ?_, induction ran⟩
      show state.player.thread.map _ = _
      rw [show state.player.thread = some next from stepped]
      rfl

/--
A drain that lets a packet slip through leads to stale audio: with playback
not paused and no other flush waiting, the packet arrives and the thread
writes it.
-/
theorem slipped_is_written
    {stream : List Incoming} {schedule : List Act} {state : State}
    {filter : Nat}
    (reached : (seek stream).exec (start stream) schedule = some state)
    (position : state.player.pc = .drain false filter)
    (playing : state.player.paused = false)
    (quiet : state.player.flushRequest = Player.flushNone)
    (slips : SlipsThrough state .thread) :
    ∃ flush ∈ state.player.flushes[state.player.consumed - 1]?,
      ∃ boundary ∈ flush.below, ∃ after final,
        (seek stream).exec state (.thread :: after) = some final ∧
          ∃ packet ∈ final.player.pc.writing, packet.seq < boundary := by
  simp only [SlipsThrough, position] at slips
  rcases slips with
    ⟨empty, flush, found, boundary, below, seq, way, stale⟩
  refine ⟨flush, found, boundary, below, ?_⟩
  -- The drain ends, and only then does the packet arrive.
  have drained :
      (seek stream).step state .thread =
        some
          { state with
            player :=
              { state.player with pc := .retain false filter [] } } := by
    show state.player.thread.map _ = _
    simp only [Player.State.thread, position, empty]
    rfl
  rcases @queued_of_onTheWay stream
      { state with
        player := { state.player with pc := .retain false filter [] } }
      seq (by simp) way with
    ⟨acts, next, packet, arrives, same, queues⟩
  have whole :
      (seek stream).exec (start stream) (schedule ++ .thread :: acts) =
        some next := by
    rw [System.exec_append_iff]
    refine ⟨state, reached, ?_⟩
    rw [System.exec_cons_iff]
    exact ⟨_, drained, arrives⟩
  have unstopped : next.player.Unstopped :=
    System.invariant_of_reached
      (fun state : State => state.player.Unstopped)
      (fun state act next unstopped stepped =>
        unstopped_step unstopped (seek_cases stepped))
      Player.unstopped_spawn whole
  have due : next.player.Due packet := by
    refine
      ⟨unstopped, queues.paused.trans playing, ?_,
        fun requested => (requested (queues.slot.trans quiet)).elim, ?_⟩
    · simp [Player.State.waiting, queues.channel, Player.Command.packets]
    · simp only [Player.State.Course, queues.position]
      refine ⟨trivial, Or.inl ?_, queues.slot.trans quiet⟩
      simp [queues.channel, Player.Command.packets]
  rcases Player.due_is_written (fun _ => True) (fun _ _ _ _ => trivial)
      due trivial with
    ⟨count, player, ran, writing, -, -⟩
  refine ⟨acts ++ List.replicate count .thread,
    { next with player := player }, ?_, packet, writing, ?_⟩
  · rw [System.exec_cons_iff]
    refine ⟨_, drained, ?_⟩
    rw [System.exec_append_iff]
    exact ⟨next, arrives, exec_thread ran⟩
  · rw [same]
    exact stale

/-- One packet on each side of the boundary 10. -/
def aroundBoundary : List Incoming :=
  [⟨7, 0, some [1]⟩, ⟨12, 0, some [2]⟩]

/-- The first packet is queued, the seek is requested, the thread wakes. -/
def seekRequested : List Act :=
  [.arrive, .load, .decide, .decode, .send 0,
    .flush (some 10), .control, .send 0, .thread, .thread, .thread]

/-- The seek is carried out, and the second packet comes. -/
def seekCarriedOut : List Act :=
  List.replicate 5 .thread ++ [.arrive, .load, .decide, .decode, .send 0] ++
    List.replicate 5 .thread

/-- The packet beyond the boundary is the one being written. -/
theorem seek_plays_nothing_stale_around :
    ∃ middle final,
      (seek aroundBoundary).exec (start aroundBoundary) seekRequested =
          some middle ∧
        (seek aroundBoundary).exec middle (.thread :: seekCarriedOut) =
            some final ∧
          final.player.pc.writing = [⟨1, 12, 0, [2]⟩] ∧
            ∀ packet ∈ final.player.pc.writing, 10 ≤ packet.seq := by
  have takesUp :
      ∀ middle,
        (seek aroundBoundary).exec (start aroundBoundary) seekRequested =
            some middle →
          TakesUp 10 middle := by
    intro middle reached
    cases reached
    exact ⟨⟨_, _, rfl⟩, by decide, ⟨_, rfl, rfl⟩⟩
  refine ⟨_, _, rfl, rfl, rfl, ?_⟩
  exact
    seek_plays_nothing_stale aroundBoundary seekRequested seekCarriedOut
      _ _ 10 (by decide) rfl (takesUp _ rfl) rfl (by decide)

/-- The only packet is below the boundary 10. -/
def belowBoundary : List Incoming :=
  [⟨7, 0, some [1]⟩]

/-- The reader has loaded the boundary when the seek stores a new one. -/
def seekDuringTest : List Act :=
  [.arrive, .load, .flush (some 10), .control, .send 0, .decide,
    .thread, .thread, .thread]

/-- The packet is decoded after the drain. -/
def decodedAfterDrain : List Act :=
  List.replicate 3 .thread ++ [.decode, .send 0] ++
    List.replicate 5 .thread

/-- The stale packet is written after the flush has been consumed. -/
theorem stale_packet_slips_through :
    ¬ ∀ (stream : List Incoming) (before after : List Act)
        (middle final : State) (boundary : Nat),
      (stream.Pairwise fun earlier later => earlier.seq < later.seq) →
        (∀ packet ∈ stream, packet.seq < 2 ^ 24) →
          (seek stream).exec (start stream) before = some middle →
            TakesUp boundary middle →
              (seek stream).exec middle (.thread :: after) =
                  some final →
                ∀ packet ∈ final.player.pc.writing,
                  boundary ≤ packet.seq := by
  intro claim
  have ran :
      ∃ middle final,
        (seek belowBoundary).exec (start belowBoundary) seekDuringTest =
            some middle ∧
          TakesUp 10 middle ∧
            (seek belowBoundary).exec middle
                (.thread :: decodedAfterDrain) =
              some final ∧
              final.player.pc.writing = [⟨0, 7, 0, [1]⟩] :=
    ⟨_, _, rfl, ⟨⟨_, _, rfl⟩, by decide, ⟨_, rfl, rfl⟩⟩, rfl, rfl⟩
  rcases ran with ⟨middle, final, reached, takesUp, ran, writing⟩
  have above :=
    claim belowBoundary seekDuringTest decodedAfterDrain middle final 10
      (by decide) (by decide) reached takesUp ran ⟨0, 7, 0, [1]⟩
  rw [writing] at above
  exact absurd (above (List.mem_singleton_self _)) (by decide)

end OpenAirplay2.Buffered

import OpenAirplay2.Lib.Transition

/-!
# The playback queue

The playback thread `run` and the handles that feed it share four atomics and
one channel.  Every handle call is two steps, an atomic access followed by a
send, and any number of calls may be between the two at any moment.  The
thread takes one step for each shared access, so every interleaving of the
source is a schedule of this system.

Samples are never inspected, so nothing depends on their arithmetic.
Sequence stamps, time stamps and the flush slot are unbounded naturals; the
saturating additions of the source keep their bound.  The counters behind the
debug lines are left out.

The fields after `reported` are bookkeeping for the statements.  No step
reads them.
-/

namespace OpenAirplay2.Player

open OpenAirplay2.Lib.Transition

/-- An interleaved PCM sample. -/
abbrev Sample := Int16

/-- `u64::MAX`. -/
def u64Max : Nat := 2 ^ 64 - 1

/-- `u64::saturating_add`. -/
def saturatingAdd (left right : Nat) : Nat :=
  min (left + right) u64Max

/-- `AtomicUsize::fetch_add`, which wraps. -/
def fetchAdd (counter amount : Nat) : Nat :=
  (counter + amount) % 2 ^ 64

/-- `AtomicUsize::fetch_sub`, which wraps. -/
def fetchSub (counter amount : Nat) : Nat :=
  (counter + (2 ^ 64 - amount % 2 ^ 64)) % 2 ^ 64

/-- `FLUSH_NONE`: no flush request is waiting. -/
def flushNone : Nat := 0

/-- `FLUSH_ALL`: discard everything queued. -/
def flushAll : Nat := u64Max

/-- `WRITE_CHUNK`: samples handed to the sink between two flag checks. -/
def writeChunk : Nat := 256

/--
A decoded packet.  `number` is the number of the `play` call that brought it
and only serves the statements; the source carries the other three fields.
-/
structure Packet where
  number : Nat
  seq : Nat
  timestamp : Nat
  pcm : List Sample
deriving DecidableEq, Repr

/-- What travels on the channel. -/
inductive Command where
  | pcm (packet : Packet)
  | wake
  | stop
deriving DecidableEq, Repr

/-- The packet a command carries, if it carries one. -/
def Command.packets : Command → List Packet
  | .pcm packet => [packet]
  | .wake => []
  | .stop => []

/-- The request a `flush` call stores. -/
def encodeFlush : Option Nat → Nat
  | none => flushAll
  | some seq => saturatingAdd seq 1

/-- The test of the `retain` filter. -/
def keeps (flush : Nat) (packet : Packet) : Bool :=
  flush != flushAll && flush ≤ saturatingAdd packet.seq 1

theorem keeps_iff (flush : Nat) (packet : Packet) :
    keeps flush packet = true ↔
      flush ≠ flushAll ∧ flush ≤ saturatingAdd packet.seq 1 := by
  simp [keeps]

/-- Below the saturation the filter is the comparison with the boundary. -/
theorem keeps_encodeFlush_iff
    {boundary : Nat} (bounded : boundary + 1 < u64Max)
    (packet : Packet) :
    keeps (encodeFlush (some boundary)) packet = true ↔
      boundary ≤ packet.seq := by
  rw [keeps_iff]
  simp only [encodeFlush, saturatingAdd, flushAll]
  omega

/-- A handle call between its atomic access and its send. -/
inductive Call where
  | play (packet : Packet)
  | setPaused
  | flush (index : Nat)
  | stop
deriving DecidableEq, Repr

/-- The command a call is about to send. -/
def Call.command : Call → Command
  | .play packet => .pcm packet
  | .setPaused => .wake
  | .flush _ => .wake
  | .stop => .stop

/-- What the thread asks of the host's sink. -/
inductive SinkCall where
  | write (packet : Packet) (chunk : List Sample)
  | flush
deriving DecidableEq, Repr

/--
Where the thread stands: each constructor is named after the shared access
it is about to make, with the locals that are live there.
-/
inductive Pc where
  | recv
  | observeStop (command : Command)
  | loadPaused (command : Command)
  | swapFlush (command : Command) (paused : Bool)
  | drain (paused : Bool) (flush : Nat)
  | retain (paused : Bool) (flush : Nat) (kept : List Packet)
  | deliver
  | write (packet : Packet) (unwritten : List Sample)
  | checkStop (packet : Packet) (unwritten : List Sample)
  | checkPaused (packet : Packet) (unwritten : List Sample)
  | checkFlush (packet : Packet) (unwritten : List Sample)
  | report (packet : Packet) (interrupted : Bool)
  | done
deriving DecidableEq, Repr

/-- Bookkeeping for one `flush` call. -/
structure FlushCall where
  below : Option Nat
  /-- The packets whose send preceded the store. -/
  queued : List Packet
  /-- How many `play` calls had started when the call returned. -/
  returned : Option Nat
deriving DecidableEq, Repr

structure State where
  channel : List Command
  pending : Nat
  flushRequest : Nat
  paused : Bool
  stop : Bool
  calls : List Call
  held : List Packet
  wasPaused : Bool
  pc : Pc
  sink : List SinkCall
  /-- The timestamps handed to `Position::played`. -/
  reported : List Nat
  /-- Every packet whose send has happened, in channel order. -/
  sent : List Packet
  /-- How many `play` calls have started. -/
  plays : Nat
  /-- Every `flush` call, in the order of the stores. -/
  flushes : List FlushCall
  /-- How many of them had been stored at the latest swap. -/
  consumed : Nat
  /-- What the filter discarded, and for which `flush` call. -/
  discarded : List (Nat × Packet)
deriving DecidableEq, Repr

/-- `Player::spawn`. -/
def spawn : State where
  channel := []
  pending := 0
  flushRequest := flushNone
  paused := false
  stop := false
  calls := []
  held := []
  wasPaused := false
  pc := .recv
  sink := []
  reported := []
  sent := []
  plays := 0
  flushes := []
  consumed := 0
  discarded := []

namespace State

variable (state : State)

/-! ## The handles -/

/-- `PlayerSender::play`, up to its send. -/
def play (seq timestamp : Nat) (pcm : List Sample) : State :=
  { state with
    pending := fetchAdd state.pending pcm.length
    calls := state.calls ++ [.play ⟨state.plays, seq, timestamp, pcm⟩]
    plays := state.plays + 1 }

/-- `PlayerSender::set_paused`, up to its send. -/
def setPaused (paused : Bool) : State :=
  { state with
    paused := paused
    calls := state.calls ++ [.setPaused] }

/-- `PlayerSender::flush`, up to its send. -/
def flush (below : Option Nat) : State :=
  { state with
    flushRequest := encodeFlush below
    calls := state.calls ++ [.flush state.flushes.length]
    flushes := state.flushes ++ [⟨below, state.sent, none⟩] }

/-- `Drop for Player`, up to its send. -/
def drop : State :=
  { state with
    stop := true
    calls := state.calls ++ [.stop] }

/-- A send to a thread that has returned is dropped with its receiver. -/
def deliverTo (pc : Pc) (channel : List Command) (command : Command) :
    List Command :=
  if pc = .done then channel else channel ++ [command]

/-- The `flush` call `index` returns. -/
def returnFlush (flushes : List FlushCall) (plays : Nat) (call : Call) :
    List FlushCall :=
  match call with
  | .flush index =>
      flushes.modify index fun flush =>
        { flush with returned := some plays }
  | _ => flushes

/-- The call at `index` performs its send and returns. -/
def send (index : Nat) : Option State :=
  match state.calls[index]? with
  | none => none
  | some call =>
      some
        { state with
          channel := deliverTo state.pc state.channel call.command
          calls := state.calls.eraseIdx index
          sent := state.sent ++ call.command.packets
          flushes := returnFlush state.flushes state.plays call }

/-! ## The playback thread -/

/-- Where the thread goes once control has been handled. -/
def afterControl (paused : Bool) : Pc :=
  if paused then .recv else .deliver

/--
What the swap of the flush request leaves behind, with the sink flush it may
entail.
-/
def swapped (paused : Bool) : State :=
  let flush := state.flushRequest
  let justPaused := paused && !state.wasPaused
  { state with
    flushRequest := flushNone
    sink :=
      if flush != flushNone || justPaused then
        state.sink ++ [SinkCall.flush]
      else
        state.sink
    wasPaused := paused
    consumed := state.flushes.length }

/-- The swap, and the match on the command. -/
def swapFlush (command : Command) (paused : Bool) : State :=
  match command with
  | .stop => { state.swapped paused with pc := .done }
  | _ =>
      { state.swapped paused with
        held := state.held ++ command.packets
        pc :=
          if state.flushRequest = flushNone then afterControl paused
          else .drain paused state.flushRequest }

/-- One step of `run`; `none` when the thread is blocked or has returned. -/
def thread : Option State :=
  match state.pc with
  | .recv =>
      match state.channel with
      | [] => none
      | command :: rest =>
          some { state with channel := rest, pc := .observeStop command }
  | .observeStop command =>
      if state.stop then
        some { state with pc := .done }
      else
        some { state with pc := .loadPaused command }
  | .loadPaused command =>
      some { state with pc := .swapFlush command state.paused }
  | .swapFlush command paused =>
      some (state.swapFlush command paused)
  | .drain paused flush =>
      match state.channel with
      | [] => some { state with pc := .retain paused flush [] }
      | .pcm packet :: rest =>
          some
            { state with
              channel := rest
              held := state.held ++ [packet] }
      | .wake :: rest => some { state with channel := rest }
      | .stop :: rest => some { state with channel := rest, pc := .done }
  | .retain paused flush kept =>
      match state.held with
      | [] => some { state with held := kept, pc := afterControl paused }
      | packet :: rest =>
          if keeps flush packet then
            some
              { state with
                held := rest
                pc := .retain paused flush (kept ++ [packet]) }
          else
            some
              { state with
                held := rest
                pending := fetchSub state.pending packet.pcm.length
                discarded :=
                  state.discarded ++ [(state.consumed - 1, packet)] }
  | .deliver =>
      match state.held with
      | [] => some { state with pc := .recv }
      | packet :: rest =>
          some
            { state with
              held := rest
              pending := fetchSub state.pending packet.pcm.length
              pc := .write packet packet.pcm }
  | .write packet unwritten =>
      match unwritten with
      | [] => some { state with pc := .report packet false }
      | _ :: _ =>
          some
            { state with
              sink :=
                state.sink ++ [.write packet (unwritten.take writeChunk)]
              pc := .checkStop packet (unwritten.drop writeChunk) }
  | .checkStop packet unwritten =>
      if state.stop then
        some { state with pc := .done }
      else
        some { state with pc := .checkPaused packet unwritten }
  | .checkPaused packet unwritten =>
      if state.paused then
        some { state with pc := .report packet true }
      else
        some { state with pc := .checkFlush packet unwritten }
  | .checkFlush packet unwritten =>
      if state.flushRequest = flushNone then
        some { state with pc := .write packet unwritten }
      else
        some { state with pc := .report packet true }
  | .report packet interrupted =>
      some
        { state with
          reported := state.reported ++ [packet.timestamp]
          pc := if interrupted then .recv else .deliver }
  | .done => none

end State

/-- What the scheduler chooses. -/
inductive Act where
  | play (seq timestamp : Nat) (pcm : List Sample)
  | setPaused (paused : Bool)
  | flush (below : Option Nat)
  | drop
  | send (index : Nat)
  | thread
deriving DecidableEq, Repr

/-- One step of the handles or of the thread. -/
def step (state : State) : Act → Option State
  | .play seq timestamp pcm => some (state.play seq timestamp pcm)
  | .setPaused paused => some (state.setPaused paused)
  | .flush below => some (state.flush below)
  | .drop => some state.drop
  | .send index => state.send index
  | .thread => state.thread

/-- The playback queue, from `Player::spawn` on. -/
def queue : System State Act where
  initial := spawn
  step := step

end OpenAirplay2.Player

import OpenAirplay2.Takeover.Handover

/-!
# One sink at a time

A handover never has two sinks alive, provided that no session asks the
factory for a sink while it has a player: the new sink is made before the old
player is dropped.

A connection with a sink has its guard, and only one connection has a guard.
-/

namespace OpenAirplay2.Takeover

open OpenAirplay2.Control
open OpenAirplay2.Lib.Transition
open OpenAirplay2.Pairing (Bytes)

variable {Db : Type}

/-! ## The sinks of a connection -/

/-- The sinks of a connection that were not dropped yet. -/
def sinksOf (live : List (Nat × Nat)) (id : Nat) : List Nat :=
  (live.filter (·.1 == id)).map Prod.snd

section Live

variable
    (live : List (Nat × Nat))
    (id stream : Nat)

theorem sinksOf_cons_self :
    sinksOf ((id, stream) :: live) id = stream :: sinksOf live id := by
  simp [sinksOf]

theorem sinksOf_cons_of_ne
    {other : Nat} (differ : id ≠ other) :
    sinksOf ((id, stream) :: live) other = sinksOf live other := by
  simp [sinksOf, differ]

theorem sinksOf_erase_self :
    sinksOf (live.erase (id, stream)) id =
      (sinksOf live id).erase stream := by
  induction live with
  | nil => rfl
  | cons sink rest induction =>
      rcases sink with ⟨owner, number⟩
      by_cases mine : owner = id
      · subst mine
        rw [sinksOf_cons_self]
        by_cases same : number = stream
        · subst same
          rw [List.erase_cons_head, List.erase_cons_head]
        · rw [List.erase_cons_tail (by simpa using same),
            List.erase_cons_tail (by simpa using same),
            sinksOf_cons_self, induction]
      · rw [List.erase_cons_tail (by simp [mine]),
          sinksOf_cons_of_ne _ _ _ mine, sinksOf_cons_of_ne _ _ _ mine,
          induction]

theorem sinksOf_erase_of_ne
    {other : Nat} (differ : id ≠ other) :
    sinksOf (live.erase (id, stream)) other = sinksOf live other := by
  induction live with
  | nil => rfl
  | cons sink rest induction =>
      by_cases same : sink = (id, stream)
      · rw [same, List.erase_cons_head,
          sinksOf_cons_of_ne _ _ _ differ]
      · rw [List.erase_cons_tail (by simpa using same)]
        rcases sink with ⟨owner, number⟩
        by_cases others : owner = other
        · subst others
          rw [sinksOf_cons_self, sinksOf_cons_self, induction]
        · rw [sinksOf_cons_of_ne _ _ _ others,
            sinksOf_cons_of_ne _ _ _ others, induction]

end Live

/-- The factory is going to be asked for a sink. -/
def OpensSink (effects : List (Effect Db)) : Prop :=
  ∃ stream rate channels, .openSink stream rate channels ∈ effects

/--
Carried out one by one, the effects never have two sinks of a session alive
and end with that of the player it has.  A guard is dropped last.
-/
def Fits (player : Option Nat) :
    List (Effect Db) → List Nat → Prop
  | [], sinks => sinks = player.toList
  | .openSink stream _ _ :: rest, sinks =>
      sinks = [] ∧ Fits player rest [stream]
  | .closeSink stream :: rest, sinks =>
      sinks = [stream] ∧ Fits player rest []
  | .dropGuard _ :: rest, sinks =>
      sinks = [] ∧ rest = [] ∧ player = none
  | _ :: rest, sinks => Fits player rest sinks

section Quiet

variable
    {player : Option Nat}
    {effect : Effect Db}
    {effects : List (Effect Db)}

theorem fits_quiet
    (quiet : effect.isQuiet = true)
    (rest : List (Effect Db)) (sinks : List Nat) :
    Fits player (effect :: rest) sinks ↔ Fits player rest sinks := by
  cases effect with
  | openSink => cases quiet
  | closeSink => cases quiet
  | dropGuard => cases quiet
  | event => rfl
  | anchor => rfl
  | startPlayer => rfl
  | setPaused => rfl
  | flush => rfl
  | spawn => rfl
  | abort => rfl

theorem fits_quiet_append
    (quiet : ∀ effect ∈ effects, effect.isQuiet = true)
    (rest : List (Effect Db)) (sinks : List Nat) :
    Fits player (effects ++ rest) sinks ↔ Fits player rest sinks := by
  induction effects with
  | nil => rfl
  | cons effect effects induction =>
      rw [List.cons_append,
        fits_quiet (quiet effect List.mem_cons_self)]
      exact
        induction fun other member =>
          quiet other (List.mem_cons_of_mem _ member)

theorem not_opensSink_quiet
    (quiet : ∀ effect ∈ effects, effect.isQuiet = true) :
    ¬ OpensSink effects := by
  rintro ⟨stream, rate, channels, member⟩
  cases quiet _ member

end Quiet

/-! ## The invariant -/

/-- The sinks fit the effects under way, and the guard is there with them. -/
structure Apart (sinks : List Nat) (conn : Conn Db) : Prop where
  fits : Fits conn.session.player conn.pending sinks
  holds : sinks ≠ [] ∨ OpensSink conn.pending → conn.guards ≠ []

def SinksApart (receiver : Receiver Db) : Prop :=
  ∀ id, Apart (sinksOf receiver.live id) (receiver.conns id)

section Apart

variable
    {sinks : List Nat}
    {conn : Conn Db}

/-- A session without effects under way has the sink of its player. -/
theorem Apart.sinks_eq
    (apart : Apart sinks conn) (nothing : conn.pending = []) :
    sinks = conn.session.player.toList := by
  have fits := apart.fits
  rw [nothing] at fits
  exact fits

/-- The phase counts by its effects only. -/
theorem Apart.move
    {phase : Phase Db}
    (apart : Apart sinks conn)
    (pending : Conn.pending { conn with phase := phase } = conn.pending) :
    Apart sinks { conn with phase := phase } := by
  constructor
  · rw [pending]
    exact apart.fits
  · rw [Conn.guards, pending]
    exact apart.holds

/-- A quiet operation. -/
theorem Apart.quiet
    {session : Session Db} {next : Phase Db}
    (apart : Apart sinks conn)
    (nothing : conn.pending = [])
    (noEffects : conn.session.effects = [])
    (quiet : Quiet conn.session session)
    (guards : (conn.operate session next).guards = conn.guards) :
    Apart sinks (conn.operate session next) := by
  rcases quiet.effects with ⟨extra, effects, extraQuiet⟩
  rw [noEffects, List.nil_append] at effects
  constructor
  · show Fits session.player session.effects sinks
    rw [effects, ← List.append_nil extra, fits_quiet_append extraQuiet,
      quiet.player]
    exact apart.sinks_eq nothing
  · rw [guards]
    rintro (alive | opens)
    · exact apart.holds (Or.inl alive)
    · rw [← effects] at extraQuiet
      exact absurd opens (not_opensSink_quiet extraQuiet)

/-- The start of a stream on a session without a player. -/
theorem Apart.starts
    {session : Session Db} {next : Phase Db}
    (apart : Apart sinks conn)
    (nothing : conn.pending = [])
    (noEffects : conn.session.effects = [])
    (starts : Starts conn.session session)
    (first : conn.session.player = none)
    (guards : (conn.operate session next).guards ≠ []) :
    Apart sinks (conn.operate session next) := by
  rcases starts.effects with
    ⟨before, between, after, rate, channels, effects, beforeQuiet,
      betweenQuiet, afterQuiet⟩
  rw [noEffects, first, List.nil_append, Option.toList_none,
    List.map_nil, List.nil_append] at effects
  constructor
  · show Fits session.player session.effects sinks
    rw [effects, fits_quiet_append beforeQuiet]
    constructor
    · rw [apart.sinks_eq nothing, first]
      rfl
    · rw [fits_quiet_append betweenQuiet, ← List.append_nil after,
        fits_quiet_append afterQuiet, starts.player]
      rfl
  · exact fun _ => guards

/-- The end of a session. -/
theorem Apart.ends
    {session : Session Db} {next : Phase Db}
    (apart : Apart sinks conn)
    (nothing : conn.pending = [])
    (noEffects : conn.session.effects = [])
    (ends : Ends conn.session session)
    (guards : (conn.operate session next).guards = conn.guards) :
    Apart sinks (conn.operate session next) := by
  rcases ends.effects with ⟨before, effects, quiet⟩
  rw [noEffects, List.nil_append] at effects
  constructor
  · show Fits session.player session.effects sinks
    rw [effects, fits_quiet_append quiet, ends.player,
      apart.sinks_eq nothing]
    cases conn.session.player <;> cases conn.session.activeGuard <;>
      simp [Fits]
  · rw [guards]
    rintro (alive | ⟨stream, rate, channels, member⟩)
    · exact apart.holds (Or.inl alive)
    · change _ ∈ session.effects at member
      rw [effects, List.mem_append] at member
      rcases member with isBefore | isEnd
      · cases quiet _ isBefore
      · simp at isEnd

end Apart

/-! ## Steps -/

section Steps

variable
    {receiver next : Receiver Db}
    {id : Nat}
    {conn : Conn Db}

/-- One connection and its sinks change. -/
theorem SinksApart.update
    (apart : SinksApart receiver)
    (conns : next.conns = Function.update receiver.conns id conn)
    (others :
      ∀ other, id ≠ other →
        sinksOf next.live other = sinksOf receiver.live other)
    (changed : Apart (sinksOf next.live id) conn) :
    SinksApart next := by
  intro other
  rw [conns]
  by_cases same : other = id
  · rw [same, Function.update_self]
    exact changed
  · rw [Function.update_of_ne same, others other (Ne.symm same)]
    exact apart other

/-- One connection goes on to a phase with the same effects. -/
theorem SinksApart.enter
    {phase : Phase Db}
    (apart : SinksApart receiver)
    (moved :
      next.conns =
          Function.update receiver.conns id
            { receiver.conns id with phase := phase } ∧
        next.live = receiver.live)
    (pending :
      Conn.pending { receiver.conns id with phase := phase } =
        (receiver.conns id).pending) :
    SinksApart next := by
  apply apart.update moved.1
  · exact fun _ _ => by rw [moved.2]
  · rw [moved.2]
    exact (apart id).move pending

theorem apart_lock
    {request : Request} {ports : Ports}
    (apart : SinksApart receiver)
    (claiming : (receiver.conns id).phase = .claiming request ports) :
    SinksApart (receiver.lock id request ports) := by
  unfold Receiver.lock
  split
  · apply apart.enter
    · exact ⟨rfl, rfl⟩
    · rw [Conn.pending, Conn.pending, claiming]
  · apply apart.enter
    · exact ⟨rfl, rfl⟩
    · rw [Conn.pending, Conn.pending, claiming]
      cases receiver.slot <;> rfl

theorem apart_notify
    {request : Request} {ports : Ports} {ticket : Nat} {previous : Holder}
    (apart : SinksApart receiver)
    (notifying :
      (receiver.conns id).phase =
        .notifying request ports ticket previous) :
    SinksApart (receiver.notify id request ports ticket previous) := by
  have told :
      SinksApart
        (receiver.setConn previous.id
          { receiver.conns previous.id with permit := true }) := by
    apply apart.update
    · rfl
    · exact fun _ _ => rfl
    · exact ⟨(apart previous.id).fits, (apart previous.id).holds⟩
  apply told.enter
  · exact ⟨rfl, rfl⟩
  · rw [Conn.pending, Conn.pending, receiver.phase_told, notifying]

theorem apart_install
    {request : Request} {ports : Ports} {ticket : Nat}
    (apart : SinksApart receiver)
    (sound : Sound receiver)
    (guarded :
      (receiver.conns id).phase = .guarded request ports ticket) :
    SinksApart (receiver.install id request ports ticket) := by
  have here := sound.conns id
  have noEffects :=
    effects_setActiveGuard here.effects
      (activeGuard_of_guarded here guarded) { id := id, ticket := ticket }
  apply apart.update
  · rfl
  · exact fun _ _ => rfl
  · constructor
    · show Fits _ (Session.effects _) _
      rw [noEffects]
      apply (apart id).sinks_eq
      rw [Conn.pending, guarded]
    · exact fun _ => List.cons_ne_nil _ _

theorem apart_leave
    (apart : SinksApart receiver)
    (sound : Sound receiver)
    (reading : (receiver.conns id).phase = .reading) :
    SinksApart (receiver.leave id) := by
  have nothing : (receiver.conns id).pending = [] := by
    rw [Conn.pending, reading]
  have here : Apart (sinksOf receiver.live id)
      { receiver.conns id with permit := false } :=
    ⟨(apart id).fits, (apart id).holds⟩
  apply apart.update
  · rfl
  · exact fun _ _ => rfl
  · apply here.ends nothing (sound.conns id).effects
      (ends_drop (receiver.conns id).session)
    exact guards_leave (sound.conns id).effects reading

/-- A `SETUP` that starts a stream finds its session without a player. -/
def FirstStream (platform : Platform Db) (receiver : Receiver Db) :
    Act → Prop
  | .dispatch id =>
      match (receiver.conns id).phase with
      | .dispatching request ports =>
          request.method = "SETUP" →
            startsStream platform ports request.body = true →
              (receiver.conns id).session.player = none
      | _ => True
  | _ => True

instance (platform : Platform Db) (receiver : Receiver Db) (act : Act) :
    Decidable (FirstStream platform receiver act) := by
  unfold FirstStream
  split
  · split <;> infer_instance
  · infer_instance

theorem apart_dispatch
    {platform : Platform Db} {request : Request} {ports : Ports}
    (apart : SinksApart receiver)
    (sound : Sound receiver)
    (dispatching :
      (receiver.conns id).phase = .dispatching request ports)
    (first : FirstStream platform receiver (.dispatch id)) :
    SinksApart (receiver.dispatch platform id request ports) := by
  have here := sound.conns id
  have nothing : (receiver.conns id).pending = [] := by
    rw [Conn.pending, dispatching]
  have guards :
      ((receiver.conns id).operate
        (dispatched platform (receiver.conns id).session ports request)
        .reading).guards = (receiver.conns id).guards :=
    guards_dispatched platform here.effects dispatching
  simp only [FirstStream, dispatching] at first
  apply apart.update
  · rfl
  · exact fun _ _ => rfl
  · rcases
      dispatched_cases platform (receiver.conns id).session ports
        request with
      quiet | ⟨isSetup, startsIt, starts⟩
    · exact (apart id).quiet nothing here.effects quiet guards
    · apply (apart id).starts nothing here.effects starts
        (first isSetup startsIt)
      rw [guards]
      apply here.ahead
      rw [dispatching]
      exact isSetup

/-- An effect that drops no guard was carried out. -/
theorem Apart.carried
    {effect : Effect Db} {rest : List (Effect Db)} {phase : Phase Db}
    {sinks left : List Nat}
    (apart : Apart sinks conn)
    (acting : conn.phase = .acting (effect :: rest) phase)
    (keeps : dropped effect = none)
    (fits : Fits conn.session.player rest left)
    (needs : left ≠ [] → conn.guards ≠ []) :
    Apart left { conn with phase := .acting rest phase } := by
  have guards :
      Conn.guards { conn with phase := .acting rest phase } =
        conn.guards := by
    rw [Conn.guards, Conn.guards, Conn.pending, Conn.pending, acting]
    show guardsOf _ rest = guardsOf _ (effect :: rest)
    rw [guardsOf, guardsOf, List.filterMap_cons_none keeps]
  constructor
  · exact fits
  · rw [guards]
    rintro (alive | ⟨stream, rate, channels, member⟩)
    · exact needs alive
    · apply apart.holds
      refine Or.inr ⟨stream, rate, channels, ?_⟩
      rw [Conn.pending, acting]
      exact List.mem_cons_of_mem _ member

theorem apart_perform
    {effect : Effect Db} {rest : List (Effect Db)} {phase : Phase Db}
    (apart : SinksApart receiver)
    (acting :
      (receiver.conns id).phase = .acting (effect :: rest) phase) :
    SinksApart
      ((receiver.perform id effect).enter id (.acting rest phase)) := by
  have here := apart id
  have fits := here.fits
  rw [Conn.pending, acting] at fits
  have quiet :
      effect.isQuiet = true →
        ∀ events,
          SinksApart
            ({ receiver with events := events }.enter id
              (.acting rest phase)) := by
    intro isQuiet events
    apply apart.update
    · rfl
    · exact fun _ _ => rfl
    · apply here.carried acting (dropped_of_isQuiet isQuiet)
      · exact (fits_quiet isQuiet rest _).mp fits
      · exact fun alive => here.holds (Or.inl alive)
  cases effect with
  | openSink stream rate channels =>
      rcases fits with ⟨noSink, fits⟩
      apply apart.update
      · rfl
      · exact fun other differ => sinksOf_cons_of_ne _ _ _ differ
      · apply here.carried acting rfl
        · show Fits _ _ (sinksOf ((id, stream) :: receiver.live) id)
          rw [sinksOf_cons_self, noSink]
          exact fits
        · intro _
          apply here.holds
          refine Or.inr ⟨stream, rate, channels, ?_⟩
          rw [Conn.pending, acting]
          exact List.mem_cons_self
  | closeSink stream =>
      rcases fits with ⟨oneSink, fits⟩
      have noneLeft :
          sinksOf (receiver.live.erase (id, stream)) id = [] := by
        rw [sinksOf_erase_self, oneSink, List.erase_cons_head]
      apply apart.update
      · rfl
      · exact fun other differ => sinksOf_erase_of_ne _ _ _ differ
      · apply here.carried acting rfl
        · show Fits _ _ (sinksOf (receiver.live.erase (id, stream)) id)
          rw [noneLeft]
          exact fits
        · exact fun alive => absurd noneLeft alive
  | dropGuard guard =>
      rcases fits with ⟨noSink, noRest, noPlayer⟩
      apply apart.update
      · rfl
      · exact fun _ _ => rfl
      · subst noRest
        constructor
        · show
            sinksOf receiver.live id =
              (receiver.conns id).session.player.toList
          rw [noSink, noPlayer]
          rfl
        · rintro (alive | ⟨_, _, _, member⟩)
          · exact absurd noSink alive
          · cases member
  | event event => exact quiet rfl _
  | _ => exact quiet rfl receiver.events

theorem apart_resume
    {phase : Phase Db}
    (apart : SinksApart receiver)
    (sound : Sound receiver)
    (acting : (receiver.conns id).phase = .acting [] phase) :
    SinksApart (receiver.enter id phase) := by
  have progress := (sound.conns id).progress
  rw [acting] at progress
  have resumes := progress.1
  apply apart.enter
  · exact ⟨rfl, rfl⟩
  · rw [Conn.pending, Conn.pending, acting]
    cases phase with
    | acting => cases resumes
    | _ => rfl

theorem apart_step
    {platform : Platform Db} {act : Act}
    (apart : SinksApart receiver)
    (sound : Sound receiver)
    (first : FirstStream platform receiver act)
    (stepped : step platform receiver act = some next) :
    SinksApart next := by
  cases step_cases stepped with
  | readSetup reading unnoticed isSetup =>
      apply apart.enter
      · exact ⟨rfl, rfl⟩
      · rw [Conn.pending, Conn.pending, reading]
  | readOther reading unnoticed notSetup =>
      apply apart.enter
      · exact ⟨rfl, rfl⟩
      · rw [Conn.pending, Conn.pending, reading]
  | lock claiming => exact apart_lock apart claiming
  | notify notifying => exact apart_notify apart notifying
  | finish awaiting finished =>
      apply apart.enter
      · exact ⟨rfl, rfl⟩
      · rw [Conn.pending, Conn.pending, awaiting]
  | timeout awaiting =>
      apply apart.enter
      · exact ⟨rfl, rfl⟩
      · rw [Conn.pending, Conn.pending, awaiting]
  | install guarded => exact apart_install apart sound guarded
  | dispatch dispatching =>
      exact apart_dispatch apart sound dispatching first
  | resume acting => exact apart_resume apart sound acting
  | perform acting => exact apart_perform apart acting
  | evict reading noticed => exact apart_leave apart sound reading
  | close reading => exact apart_leave apart sound reading

end Steps

/-! ## Runs -/

theorem apart_initial
    (platform : Platform Db) (peerIp : Nat → IpAddr)
    (localIp : IpAddr) :
    SinksApart (takeover platform peerIp localIp).initial := by
  intro id
  constructor
  · rfl
  · rintro (alive | ⟨_, _, _, member⟩)
    · exact absurd rfl alive
    · cases member

/-- The factory is called when every sink it made was dropped. -/
def FindsNoSink (receiver : Receiver Db) : Act → Prop
  | .effect id =>
      match (receiver.conns id).phase with
      | .acting (.openSink _ _ _ :: _) _ => receiver.live = []
      | _ => True
  | _ => True

instance (receiver : Receiver Db) (act : Act) :
    Decidable (FindsNoSink receiver act) := by
  unfold FindsNoSink
  split
  · split <;> infer_instance
  · infer_instance

/-- Whoever opens a sink has the only guard, so no sink is alive. -/
theorem findsNoSink_of_apart
    {receiver : Receiver Db}
    (sound : Sound receiver) (apart : SinksApart receiver) (act : Act) :
    FindsNoSink receiver act := by
  cases act with
  | effect id =>
      simp only [FindsNoSink]
      split
      · next stream rate channels rest following acting =>
          have fits := (apart id).fits
          rw [Conn.pending, acting] at fits
          have holding : (receiver.conns id).guards ≠ [] := by
            apply (apart id).holds
            refine Or.inr ⟨stream, rate, channels, ?_⟩
            rw [Conn.pending, acting]
            exact List.mem_cons_self
          rw [List.eq_nil_iff_forall_not_mem]
          rintro ⟨owner, number⟩ member
          have alive : number ∈ sinksOf receiver.live owner := by
            apply List.mem_map.mpr
            exact
              ⟨(owner, number), List.mem_filter.mpr ⟨member, by simp⟩, rfl⟩
          have isOwner : owner = id := by
            apply sound.exclusive _ holding
            exact
              (apart owner).holds (Or.inl (List.ne_nil_of_mem alive))
          rw [isOwner, fits.1] at alive
          cases alive
      · trivial
  | _ => trivial

/--
In every run without a timeout in which no `SETUP` starts a stream on a
session that has a player, the factory is called only when every sink it made
before was dropped.
-/
theorem sinks_apart
    (platform : Platform Db) (peerIp : Nat → IpAddr) (localIp : IpAddr)
    (schedule : List Act)
    (untimed : ∀ act ∈ schedule, Untimed act)
    (first :
      (takeover platform peerIp localIp).Meets (FirstStream platform)
        (takeover platform peerIp localIp).initial schedule) :
    (takeover platform peerIp localIp).Meets FindsNoSink
      (takeover platform peerIp localIp).initial schedule := by
  have allowed :=
    ((takeover platform peerIp localIp).meets_of_forall_mem untimed
      (takeover platform peerIp localIp).initial).and first
  apply System.meets_of_invariant
    (fun receiver => Sound receiver ∧ SinksApart receiver) _ _
    ⟨sound_initial platform peerIp localIp,
      apart_initial platform peerIp localIp⟩
    allowed
  · rintro receiver act next ⟨sound, apart⟩ ⟨isUntimed, isFirst⟩ stepped
    exact
      ⟨sound_step sound isUntimed stepped,
        apart_step apart sound isFirst stepped⟩
  · rintro receiver act ⟨sound, apart⟩ -
    exact findsNoSink_of_apart sound apart act

/-! ## A handover, and a stream replaced -/

/-- A binary property list: one buffered stream with a key of zeros. -/
def streamBody : Bytes :=
  [98, 112, 108, 105, 115, 116, 48, 48, 209, 1, 2, 87, 115, 116, 114, 101,
    97, 109, 115, 161, 3, 210, 4, 5, 6, 7, 83, 115, 104, 107, 84, 116, 121,
    112, 101, 79, 16, 32] ++ List.replicate 32 0 ++
  [16, 103, 8, 11, 19, 21, 26, 30, 35, 70, 0, 0, 0, 0, 0, 0, 1, 1, 0, 0, 0,
    0, 0, 0, 0, 8, 0, 0, 0, 0, 0, 0, 0, 0, 0, 0, 0, 0, 0, 0, 0, 72]

/-- Crates that read this one body. -/
def streamPlatform : Platform Unit where
  readPlist body :=
    if body = streamBody then
      some
        (.dictionary
          [("streams",
            .array
              [.dictionary
                [("shk", .data (List.replicate 32 0)),
                  ("type", .integer 103)]])])
    else
      none
  writePlist _ := some []
  makesDecoder _ _ := true
  ofInt _ := ()
  parseDb _ := none
  isFinite _ := true
  clamp db _ _ := db
  display _ := ""

def streamSetup : Request where
  method := "SETUP"
  target := "rtsp://192.0.2.1/1"
  protocol := "RTSP/1.0"
  headers := []
  body := streamBody

/-- Connection `id` asks for its stream, up to the lock of the slot. -/
def asks (id : Nat) : List Act :=
  [.read id streamSetup ⟨some 49152, some 49153⟩, .lock id]

/-- It installs its guard and starts the stream. -/
def streams (id : Nat) : List Act :=
  [.install id, .effect id, .dispatch id] ++
    List.replicate 7 (.effect id)

/-- The second connection takes over from the first. -/
def handedOver : List Act :=
  asks 1 ++ streams 1 ++ asks 2 ++ [.notify 2, .evict 1] ++
    List.replicate 6 (.effect 1) ++ [.finish 2] ++ streams 2

def twoSenders : System (Receiver Unit) Act :=
  takeover streamPlatform (fun _ => ⟨"192.0.2.2"⟩) ⟨"192.0.2.1"⟩

theorem sinks_apart_handed_over :
    (twoSenders.exec twoSenders.initial handedOver).map
        (fun receiver => receiver.live) = some [(2, 0)] ∧
      twoSenders.Meets FindsNoSink twoSenders.initial handedOver :=
  ⟨by decide +kernel,
    sinks_apart streamPlatform _ _ handedOver (by decide)
      (by decide +kernel)⟩

/-- The factory is called a second time while the first sink is alive. -/
theorem sinks_overlap :
    ¬ ∀ (platform : Platform Unit) (peerIp : Nat → IpAddr)
        (localIp : IpAddr) (schedule : List Act),
      (∀ act ∈ schedule, Untimed act) →
        (takeover platform peerIp localIp).Meets FindsNoSink
          (takeover platform peerIp localIp).initial schedule := by
  intro claim
  have apart :=
    claim streamPlatform (fun _ => ⟨"192.0.2.2"⟩) ⟨"192.0.2.1"⟩
      (asks 1 ++ streams 1 ++ asks 1 ++ [.dispatch 1] ++
        List.replicate 3 (.effect 1))
      (by decide)
  exact absurd apart (by decide +kernel)

end OpenAirplay2.Takeover

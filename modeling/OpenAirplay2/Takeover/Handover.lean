import OpenAirplay2.Takeover.Receiver

/-!
# The order of the handovers

As long as no claim gives up waiting, the tickets are finished in the order
they were given out: a claim waits for the ticket before its own, so when it
returns its guard every earlier guard was dropped.  At most one connection
has a guard at any time, and it has one only.

A connection that is displaced and claims again before it noticed never gets
its second guard: it waits, by way of the others, for its first.
-/

namespace OpenAirplay2.Takeover

open OpenAirplay2.Control
open OpenAirplay2.Lib.Transition

variable {Db : Type}

/-! ## What a connection has -/

/-- The effects under way. -/
def Conn.pending (conn : Conn Db) : List (Effect Db) :=
  match conn.phase with
  | .acting effects _ => effects
  | _ => []

/-- The ticket of the claim under way. -/
def Conn.ticket (conn : Conn Db) : Option Nat :=
  match conn.phase with
  | .notifying _ _ ticket _ => some ticket
  | .awaiting _ _ ticket _ => some ticket
  | .guarded _ _ ticket => some ticket
  | _ => none

/-- The guard an effect drops. -/
def dropped : Effect Db → Option Guard
  | .dropGuard guard => some guard
  | _ => none

/-- The guards that are in a session or about to be dropped. -/
def guardsOf (activeGuard : Option Guard) (effects : List (Effect Db)) :
    List Guard :=
  activeGuard.toList ++ effects.filterMap dropped

/-- The guards a connection has and has not dropped yet. -/
def Conn.guards (conn : Conn Db) : List Guard :=
  guardsOf conn.session.activeGuard conn.pending

/-- A `SETUP` is about to be dispatched. -/
def SetupAhead : Phase Db → Prop
  | .dispatching request _ => request.method = "SETUP"
  | .acting _ next => SetupAhead next
  | _ => False

/-- Where effects may lead. -/
def Resumes : Phase Db → Prop
  | .reading => True
  | .dispatching _ _ => True
  | .closed => True
  | _ => False

theorem dropped_of_isQuiet
    {effect : Effect Db} (quiet : effect.isQuiet = true) :
    dropped effect = none := by
  cases effect with
  | dropGuard => cases quiet
  | _ => rfl

theorem dropped_quiet
    {effects : List (Effect Db)}
    (quiet : ∀ effect ∈ effects, effect.isQuiet = true) :
    effects.filterMap dropped = [] := by
  rw [List.filterMap_eq_nil_iff]
  intro effect member
  exact dropped_of_isQuiet (quiet effect member)

/-- Dispatching a request leaves the guard where it is. -/
theorem guardsOf_dispatched
    (platform : Platform Db) {session : Session Db}
    (nothing : session.effects = [])
    (ports : Ports) (request : Request) :
    guardsOf (dispatched platform session ports request).activeGuard
        (dispatched platform session ports request).effects =
      session.activeGuard.toList := by
  rcases dispatched_cases platform session ports request with
    quiet | ⟨-, -, starts⟩
  · rcases quiet.effects with ⟨extra, effects, extraQuiet⟩
    rw [guardsOf, effects, nothing, List.nil_append,
      dropped_quiet extraQuiet, quiet.activeGuard, List.append_nil]
  · rcases starts.effects with
      ⟨before, between, after, rate, channels, effects, beforeQuiet,
        betweenQuiet, afterQuiet⟩
    have closes :
        (session.player.toList.map
          (.closeSink : Nat → Effect Db)).filterMap dropped = [] := by
      cases session.player <;> rfl
    rw [guardsOf, effects, nothing, List.nil_append,
      List.filterMap_append, dropped_quiet beforeQuiet,
      List.filterMap_cons_none rfl, List.filterMap_append,
      dropped_quiet betweenQuiet, List.filterMap_append, closes,
      dropped_quiet afterQuiet, starts.activeGuard]
    simp

/-- The end of a session drops the guard. -/
theorem guardsOf_drop
    {session : Session Db} (nothing : session.effects = []) :
    guardsOf session.drop.activeGuard session.drop.effects =
      session.activeGuard.toList := by
  have ends := ends_drop session
  rcases ends.effects with ⟨before, effects, quiet⟩
  rw [guardsOf, effects, nothing, List.nil_append,
    List.filterMap_append, dropped_quiet quiet, ends.activeGuard]
  cases session.player <;> cases session.activeGuard <;> rfl

/-- An operation that leaves the guard where it is. -/
theorem Conn.guards_operate
    {conn : Conn Db} {session : Session Db} (next : Phase Db)
    (nothing : conn.pending = [])
    (kept :
      guardsOf session.activeGuard session.effects =
        conn.session.activeGuard.toList) :
    (conn.operate session next).guards = conn.guards := by
  have unchanged :
      guardsOf session.activeGuard session.effects =
        guardsOf conn.session.activeGuard conn.pending := by
    rw [kept, nothing, guardsOf, List.filterMap_nil, List.append_nil]
  exact unchanged

theorem guards_dispatched
    (platform : Platform Db) {conn : Conn Db} {request : Request}
    {ports : Ports}
    (noEffects : conn.session.effects = [])
    (dispatching : conn.phase = .dispatching request ports) :
    (conn.operate (dispatched platform conn.session ports request)
      .reading).guards = conn.guards := by
  have nothing : conn.pending = [] := by
    rw [Conn.pending, dispatching]
  exact
    Conn.guards_operate _ nothing
      (guardsOf_dispatched platform noEffects ports request)

theorem guards_leave
    {conn : Conn Db}
    (noEffects : conn.session.effects = [])
    (reading : conn.phase = .reading) :
    (Conn.operate { conn with permit := false } conn.session.drop
      .closed).guards = conn.guards := by
  have nothing : Conn.pending { conn with permit := false } = [] := by
    rw [Conn.pending, reading]
  exact Conn.guards_operate _ nothing (guardsOf_drop noEffects)

/-! ## The invariant -/

/-- A claim of connection `id` that returned: only its guard is left. -/
structure Settled (claims finished : List Nat) (id ticket : Nat) :
    Prop where
  claimed : claims[ticket]? = some id
  alive : ticket ∉ finished
  earlier : ∀ before, before < ticket → before ∈ finished

/-- What a claim under way has achieved. -/
def Progressed (finished : List Nat) : Phase Db → Prop
  | .notifying _ _ ticket previous => previous.ticket + 1 = ticket
  | .awaiting _ _ ticket previous => previous.ticket + 1 = ticket
  | .guarded _ _ ticket => ∀ before, before < ticket → before ∈ finished
  | .acting effects next =>
      Resumes next ∧ (SetupAhead next → effects = [])
  | _ => True

structure ConnSound
    (claims finished : List Nat) (id : Nat) (conn : Conn Db) :
    Prop where
  effects : conn.session.effects = []
  guards :
    ∀ guard ∈ conn.guards,
      guard.id = id ∧ Settled claims finished id guard.ticket
  single : conn.guards.length ≤ 1
  ticket :
    ∀ ticket ∈ conn.ticket,
      claims[ticket]? = some id ∧ ticket ∉ finished ∧
        ∀ guard ∈ conn.guards, guard.ticket < ticket
  progress : Progressed finished conn.phase
  ahead : SetupAhead conn.phase → conn.guards ≠ []

/-- The ticket is that of the connection's claim, or of a guard it has. -/
def Conn.Owns (conn : Conn Db) (ticket : Nat) : Prop :=
  conn.ticket = some ticket ∨
    ∃ guard ∈ conn.guards, guard.ticket = ticket

/-- The slot is with the latest claim, or every guard was dropped. -/
def SlotSound (receiver : Receiver Db) : Prop :=
  match receiver.slot with
  | none =>
      ∀ ticket, ticket < receiver.claims.length →
        ticket ∈ receiver.finished
  | some holder =>
      holder.ticket + 1 = receiver.claims.length ∧
        receiver.claims[holder.ticket]? = some holder.id ∧
          holder.ticket ∉ receiver.finished ∧
            (receiver.conns holder.id).Owns holder.ticket

structure Sound (receiver : Receiver Db) : Prop where
  conns :
    ∀ id,
      ConnSound receiver.claims receiver.finished id (receiver.conns id)
  slot : SlotSound receiver
  bounded :
    ∀ ticket ∈ receiver.finished, ticket < receiver.claims.length
  ordered :
    ∀ ticket ∈ receiver.finished,
      ∀ before, before < ticket → before ∈ receiver.finished

/-- Only one connection has a guard at any time. -/
theorem Sound.exclusive
    {receiver : Receiver Db}
    (sound : Sound receiver) {left right : Nat}
    (leftHolds : (receiver.conns left).guards ≠ [])
    (rightHolds : (receiver.conns right).guards ≠ []) :
    left = right := by
  rcases List.exists_mem_of_ne_nil _ leftHolds with
    ⟨leftGuard, leftMember⟩
  rcases List.exists_mem_of_ne_nil _ rightHolds with
    ⟨rightGuard, rightMember⟩
  have leftSettled := ((sound.conns left).guards _ leftMember).2
  have rightSettled := ((sound.conns right).guards _ rightMember).2
  rcases Nat.lt_trichotomy leftGuard.ticket rightGuard.ticket with
    before | same | after
  · exact absurd (rightSettled.earlier _ before) leftSettled.alive
  · have leftClaimed := leftSettled.claimed
    rw [same, rightSettled.claimed] at leftClaimed
    exact (Option.some.inj leftClaimed).symm
  · exact absurd (leftSettled.earlier _ after) rightSettled.alive

/-! ## What other connections do -/

/-- A claim that was made stays in the list of claims. -/
theorem claimed_later
    {claims later : List Nat} {ticket id : Nat}
    (grown : claims <+: later)
    (claimed : claims[ticket]? = some id) :
    later[ticket]? = some id := by
  rcases grown with ⟨rest, rfl⟩
  rw [List.getElem?_append_left
    (List.getElem?_eq_some_iff.mp claimed).1]
  exact claimed

theorem Settled.frame
    {claims laterClaims finished laterFinished : List Nat}
    {id ticket : Nat}
    (settled : Settled claims finished id ticket)
    (grown : claims <+: laterClaims)
    (more : finished ⊆ laterFinished)
    (foreign :
      ∀ ticket ∈ laterFinished,
        ticket ∈ finished ∨ claims[ticket]? ≠ some id) :
    Settled laterClaims laterFinished id ticket where
  claimed := claimed_later grown settled.claimed
  alive := by
    intro member
    rcases foreign ticket member with before | other
    · exact settled.alive before
    · exact other settled.claimed
  earlier := fun before isBefore => more (settled.earlier before isBefore)

theorem Progressed.frame
    {finished laterFinished : List Nat} {phase : Phase Db}
    (progress : Progressed finished phase)
    (more : finished ⊆ laterFinished) :
    Progressed laterFinished phase := by
  cases phase with
  | guarded request ports ticket =>
      exact fun before isBefore => more (progress before isBefore)
  | _ => exact progress

/-- A connection is sound whatever claims and drops the others make. -/
theorem ConnSound.frame
    {claims laterClaims finished laterFinished : List Nat}
    {id : Nat} {conn : Conn Db}
    (sound : ConnSound claims finished id conn)
    (grown : claims <+: laterClaims)
    (more : finished ⊆ laterFinished)
    (foreign :
      ∀ ticket ∈ laterFinished,
        ticket ∈ finished ∨ claims[ticket]? ≠ some id) :
    ConnSound laterClaims laterFinished id conn where
  effects := sound.effects
  guards := fun guard member =>
    ⟨(sound.guards guard member).1,
      (sound.guards guard member).2.frame grown more foreign⟩
  single := sound.single
  ticket := by
    intro ticket isTicket
    rcases sound.ticket ticket isTicket with ⟨claimed, alive, later⟩
    refine ⟨claimed_later grown claimed, ?_, later⟩
    intro member
    rcases foreign ticket member with before | other
    · exact alive before
    · exact other claimed
  progress := sound.progress.frame more
  ahead := sound.ahead

/-- One connection changes, and neither the claims nor the slot do. -/
theorem Sound.update
    {receiver : Receiver Db} {id : Nat} {conn : Conn Db}
    (sound : Sound receiver)
    (live : List (Nat × Nat)) (events : List (Event Db))
    (changed : ConnSound receiver.claims receiver.finished id conn)
    (owns :
      ∀ ticket, (receiver.conns id).Owns ticket → conn.Owns ticket) :
    Sound
      ({ receiver with live := live, events := events }.setConn id
        conn) where
  conns := by
    intro other
    by_cases same : other = id
    · subst same
      simpa [Receiver.setConn] using changed
    · simpa [Receiver.setConn, same] using sound.conns other
  slot := by
    have slot := sound.slot
    unfold SlotSound at slot ⊢
    cases held : receiver.slot with
    | none =>
        simp only [Receiver.setConn, held] at slot ⊢
        exact slot
    | some holder =>
        simp only [Receiver.setConn, held] at slot ⊢
        rcases slot with ⟨latest, claimed, alive, owned⟩
        refine ⟨latest, claimed, alive, ?_⟩
        by_cases same : holder.id = id
        · rw [same] at owned ⊢
          rw [Function.update_self]
          exact owns holder.ticket owned
        · rw [Function.update_of_ne same]
          exact owned
  bounded := sound.bounded
  ordered := sound.ordered

/-! ## A connection that keeps what it has -/

section Keep

variable
    {receiver : Receiver Db}
    {id : Nat}

/-- A connection goes on with the guards and the ticket it has. -/
theorem Sound.keep
    {conn : Conn Db}
    (sound : Sound receiver)
    (live : List (Nat × Nat)) (events : List (Event Db))
    (effects : conn.session.effects = [])
    (guards : conn.guards = (receiver.conns id).guards)
    (ticket : conn.ticket = (receiver.conns id).ticket)
    (progress : Progressed receiver.finished conn.phase)
    (ahead : SetupAhead conn.phase → conn.guards ≠ []) :
    Sound
      ({ receiver with live := live, events := events }.setConn id
        conn) := by
  have here := sound.conns id
  apply sound.update live events
  · constructor
    · exact effects
    · rw [guards]
      exact here.guards
    · rw [guards]
      exact here.single
    · rw [guards, ticket]
      exact here.ticket
    · exact progress
    · exact ahead
  · intro owned owns
    rw [Conn.Owns, guards, ticket]
    exact owns

/-- It goes on to a phase with the same effects and the same ticket. -/
theorem Sound.enter
    {phase : Phase Db}
    (sound : Sound receiver)
    (pending :
      Conn.pending { receiver.conns id with phase := phase } =
        (receiver.conns id).pending)
    (ticket :
      Conn.ticket { receiver.conns id with phase := phase } =
        (receiver.conns id).ticket)
    (progress : Progressed receiver.finished phase)
    (ahead : SetupAhead phase → (receiver.conns id).guards ≠ []) :
    Sound (receiver.enter id phase) := by
  have guards :
      Conn.guards { receiver.conns id with phase := phase } =
        (receiver.conns id).guards := by
    rw [Conn.guards, pending]
    rfl
  apply sound.keep receiver.live receiver.events
  · exact (sound.conns id).effects
  · exact guards
  · exact ticket
  · exact progress
  · rw [guards]
    exact ahead

/-- A session operation that keeps the guards. -/
theorem Sound.operate
    {conn : Conn Db} {session : Session Db} {next : Phase Db}
    (sound : Sound receiver)
    (noTicket : (receiver.conns id).ticket = none)
    (guards :
      (conn.operate session next).guards = (receiver.conns id).guards)
    (resumes : Resumes next)
    (noSetup : ¬ SetupAhead next) :
    Sound (receiver.setConn id (conn.operate session next)) := by
  apply sound.keep receiver.live receiver.events
  · rfl
  · exact guards
  · rw [noTicket]
    rfl
  · exact ⟨resumes, fun ahead => absurd ahead noSetup⟩
  · exact fun ahead => absurd ahead noSetup

end Keep

/-! ## Claims -/

section Claims

variable
    {receiver : Receiver Db}
    {id : Nat}
    {request : Request}
    {ports : Ports}
    {ticket : Nat}
    {previous : Holder}

/-- The holder of the slot that is about to claim has its guard. -/
theorem guards_of_held
    (sound : Sound receiver)
    (claiming : (receiver.conns id).phase = .claiming request ports)
    (held : receiver.slot.any (·.id == id) = true) :
    (receiver.conns id).guards ≠ [] := by
  have slot := sound.slot
  unfold SlotSound at slot
  cases isSlot : receiver.slot with
  | none =>
      rw [isSlot] at held
      cases held
  | some holder =>
      simp only [isSlot] at slot held
      have same : holder.id = id := by simpa using held
      rw [same] at slot
      rcases slot.2.2.2 with isTicket | ⟨guard, member, -⟩
      · rw [Conn.ticket, claiming] at isTicket
        cases isTicket
      · exact List.ne_nil_of_mem member

/-- The claim that takes the slot. -/
theorem sound_taken
    {phase : Phase Db}
    (sound : Sound receiver)
    (claiming : (receiver.conns id).phase = .claiming request ports)
    (isTicket :
      Conn.ticket { receiver.conns id with phase := phase } =
        some receiver.claims.length)
    (nothing :
      Conn.pending { receiver.conns id with phase := phase } = [])
    (progress : Progressed receiver.finished phase)
    (noSetup : ¬ SetupAhead phase) :
    Sound
      ({ receiver with
        slot := some { id := id, ticket := receiver.claims.length }
        claims := receiver.claims ++ [id] }.enter id phase) := by
  have grown : receiver.claims <+: receiver.claims ++ [id] :=
    List.prefix_append _ _
  have unfinished : receiver.claims.length ∉ receiver.finished := by
    intro member
    exact Nat.lt_irrefl _ (sound.bounded _ member)
  have claimed :
      (receiver.claims ++ [id])[receiver.claims.length]? = some id := by
    simp
  have guards :
      Conn.guards { receiver.conns id with phase := phase } =
        (receiver.conns id).guards := by
    rw [Conn.guards, nothing, Conn.guards, Conn.pending, claiming]
  have framed :
      ∀ other,
        ConnSound (receiver.claims ++ [id]) receiver.finished other
          (receiver.conns other) :=
    fun other =>
      (sound.conns other).frame grown (List.Subset.refl _)
        fun _ member => Or.inl member
  constructor
  · intro other
    by_cases same : other = id
    · subst same
      have here := framed other
      simp only [Receiver.enter, Receiver.setConn, Function.update_self]
      constructor
      · exact here.effects
      · rw [guards]
        exact here.guards
      · rw [guards]
        exact here.single
      · intro ticket member
        rw [isTicket, Option.mem_some_iff] at member
        subst member
        refine ⟨claimed, unfinished, ?_⟩
        rw [guards]
        intro guard isGuard
        exact
          (List.getElem?_eq_some_iff.mp
            ((sound.conns other).guards guard isGuard).2.claimed).1
      · exact progress
      · exact fun ahead => absurd ahead noSetup
    · simpa [Receiver.enter, Receiver.setConn, same] using framed other
  · simp only [SlotSound, Receiver.enter, Receiver.setConn]
    refine ⟨by simp, claimed, unfinished, Or.inl ?_⟩
    rw [Function.update_self]
    exact isTicket
  · intro finished member
    have bound := sound.bounded finished member
    simp only [Receiver.enter, Receiver.setConn, List.length_append,
      List.length_singleton]
    exact Nat.lt_succ_of_lt bound
  · exact sound.ordered

theorem sound_lock
    (sound : Sound receiver)
    (claiming : (receiver.conns id).phase = .claiming request ports) :
    Sound (receiver.lock id request ports) := by
  unfold Receiver.lock
  split
  · next held =>
      apply sound.enter
      · simp [Conn.pending, claiming]
      · simp [Conn.ticket, claiming]
      · trivial
      · exact fun _ => guards_of_held sound claiming held
  · have slot := sound.slot
    unfold SlotSound at slot
    cases isSlot : receiver.slot with
    | none =>
        rw [isSlot] at slot
        exact sound_taken sound claiming rfl rfl slot not_false
    | some previous =>
        simp only [isSlot] at slot
        exact sound_taken sound claiming rfl rfl slot.1 not_false

/-- Who is told stays in its phase, and so does everyone else. -/
theorem Receiver.phase_told
    (receiver : Receiver Db) (told id : Nat) :
    ((receiver.setConn told
        { receiver.conns told with permit := true }).conns id).phase =
      (receiver.conns id).phase := by
  by_cases same : id = told
  · subst same
    simp [Receiver.setConn]
  · simp [Receiver.setConn, same]

theorem sound_notify
    (sound : Sound receiver)
    (notifying :
      (receiver.conns id).phase =
        .notifying request ports ticket previous) :
    Sound (receiver.notify id request ports ticket previous) := by
  have told :
      Sound
        (receiver.setConn previous.id
          { receiver.conns previous.id with permit := true }) :=
    sound.keep receiver.live receiver.events
      (sound.conns previous.id).effects rfl rfl
      (sound.conns previous.id).progress (sound.conns previous.id).ahead
  have stays :
      ((receiver.setConn previous.id
          { receiver.conns previous.id with permit := true }).conns
        id).phase = .notifying request ports ticket previous :=
    (receiver.phase_told previous.id id).trans notifying
  have progress := (told.conns id).progress
  rw [stays] at progress
  apply told.enter
  · rw [Conn.pending, Conn.pending, stays]
  · rw [Conn.ticket, Conn.ticket, stays]
  · exact progress
  · exact False.elim

theorem sound_finish
    (sound : Sound receiver)
    (awaiting :
      (receiver.conns id).phase =
        .awaiting request ports ticket previous)
    (finished : previous.ticket ∈ receiver.finished) :
    Sound (receiver.enter id (.guarded request ports ticket)) := by
  have progress := (sound.conns id).progress
  rw [awaiting] at progress
  have next : previous.ticket + 1 = ticket := progress
  apply sound.enter
  · rw [Conn.pending, Conn.pending, awaiting]
  · rw [Conn.ticket, Conn.ticket, awaiting]
  · intro before isBefore
    rw [← next, Nat.lt_succ_iff_lt_or_eq] at isBefore
    rcases isBefore with earlier | same
    · exact sound.ordered _ finished before earlier
    · rw [same]
      exact finished
  · exact False.elim

/-- A claim that got through found every guard dropped, its own as well. -/
theorem ConnSound.guards_eq_nil
    {claims finished : List Nat} {conn : Conn Db}
    (sound : ConnSound claims finished id conn)
    (guarded : conn.phase = .guarded request ports ticket) :
    conn.guards = [] := by
  rw [List.eq_nil_iff_forall_not_mem]
  intro guard member
  have isTicket : conn.ticket = some ticket := by
    rw [Conn.ticket, guarded]
  have older := (sound.ticket ticket isTicket).2.2 guard member
  have progress := sound.progress
  rw [guarded] at progress
  exact (sound.guards guard member).2.alive (progress _ older)

/-- So its guard goes into a session without one. -/
theorem activeGuard_of_guarded
    {claims finished : List Nat} {conn : Conn Db}
    (sound : ConnSound claims finished id conn)
    (guarded : conn.phase = .guarded request ports ticket) :
    conn.session.activeGuard = none := by
  have noGuards := sound.guards_eq_nil guarded
  rw [Conn.guards, guardsOf, List.append_eq_nil_iff,
    Option.toList_eq_nil_iff] at noGuards
  exact noGuards.1

theorem effects_setActiveGuard
    {session : Session Db}
    (nothing : session.effects = [])
    (noGuard : session.activeGuard = none) (guard : Guard) :
    (session.setActiveGuard guard).effects = [] := by
  rw [Session.setActiveGuard, noGuard]
  exact (List.append_nil _).trans nothing

theorem sound_install
    (sound : Sound receiver)
    (guarded :
      (receiver.conns id).phase = .guarded request ports ticket) :
    Sound (receiver.install id request ports ticket) := by
  have here := sound.conns id
  have isTicket : (receiver.conns id).ticket = some ticket := by
    rw [Conn.ticket, guarded]
  have noEffects :=
    effects_setActiveGuard here.effects
      (activeGuard_of_guarded here guarded) { id := id, ticket := ticket }
  have guards :
      ((receiver.conns id).operate
        ((receiver.conns id).session.setActiveGuard
          { id := id, ticket := ticket })
        (.dispatching request ports)).guards =
          [{ id := id, ticket := ticket }] := by
    show guardsOf (some { id := id, ticket := ticket }) _ = _
    rw [Conn.pending, Conn.operate, noEffects]
    rfl
  have progress := here.progress
  rw [guarded] at progress
  rcases here.ticket ticket isTicket with ⟨claimed, alive, -⟩
  apply sound.update receiver.live receiver.events
  · constructor
    · rfl
    · rw [guards]
      intro guard member
      rw [List.mem_singleton] at member
      rw [member]
      exact ⟨rfl, claimed, alive, progress⟩
    · rw [guards]
      exact Nat.le_refl 1
    · intro _ member
      cases member
    · exact ⟨trivial, fun _ => noEffects⟩
    · rw [guards]
      exact fun _ => List.cons_ne_nil _ _
  · intro owned owns
    rcases owns with isOwned | ⟨guard, member, -⟩
    · rw [isTicket, Option.some.injEq] at isOwned
      subst isOwned
      refine Or.inr ⟨{ id := id, ticket := ticket }, ?_, rfl⟩
      rw [guards]
      exact List.mem_singleton.mpr rfl
    · rw [here.guards_eq_nil guarded] at member
      cases member

end Claims

/-! ## Effects -/

section Effects

variable
    {receiver : Receiver Db}
    {id : Nat}
    {guard : Guard}
    {effect : Effect Db}
    {rest : List (Effect Db)}
    {next : Phase Db}

/-- All effects were carried out. -/
theorem sound_resume
    (sound : Sound receiver)
    (acting : (receiver.conns id).phase = .acting [] next) :
    Sound (receiver.enter id next) := by
  have here := sound.conns id
  have progress := here.progress
  have ahead := here.ahead
  rw [acting] at progress ahead
  have resumes := progress.1
  apply sound.enter
  · rw [Conn.pending, Conn.pending, acting]
    cases next with
    | acting => cases resumes
    | _ => rfl
  · rw [Conn.ticket, Conn.ticket, acting]
    cases next with
    | notifying => cases resumes
    | awaiting => cases resumes
    | guarded => cases resumes
    | _ => rfl
  · cases next with
    | reading => trivial
    | dispatching => trivial
    | closed => trivial
    | _ => cases resumes
  · exact ahead

/-- An effect that drops no guard was carried out. -/
theorem sound_carried
    (sound : Sound receiver)
    (acting :
      (receiver.conns id).phase = .acting (effect :: rest) next)
    (keeps : dropped effect = none)
    (live : List (Nat × Nat)) (events : List (Event Db)) :
    Sound
      ({ receiver with live := live, events := events }.enter id
        (.acting rest next)) := by
  have progress := (sound.conns id).progress
  rw [acting] at progress
  apply sound.keep live events
  · exact (sound.conns id).effects
  · rw [Conn.guards, Conn.guards, Conn.pending, Conn.pending, acting]
    show guardsOf _ rest = guardsOf _ (effect :: rest)
    rw [guardsOf, guardsOf, List.filterMap_cons_none keeps]
  · rw [Conn.ticket, Conn.ticket, acting]
  · exact ⟨progress.1, fun ahead => nomatch progress.2 ahead⟩
  · exact fun ahead => nomatch progress.2 ahead

/-- The guard about to be dropped is the only one its connection has. -/
theorem guards_of_dropGuard
    (sound : Sound receiver)
    (acting :
      (receiver.conns id).phase = .acting (.dropGuard guard :: rest) next) :
    (receiver.conns id).guards = [guard] ∧
      Conn.guards
        { receiver.conns id with phase := .acting rest next } = [] := by
  have single := (sound.conns id).single
  rw [Conn.guards, Conn.pending, acting] at single ⊢
  change (_ ++ guard :: rest.filterMap dropped).length ≤ 1 at single
  rw [List.length_append, List.length_cons] at single
  have noGuard :
      (receiver.conns id).session.activeGuard.toList = [] :=
    List.length_eq_zero_iff.mp (by omega)
  have noneLeft : rest.filterMap dropped = [] :=
    List.length_eq_zero_iff.mp (by omega)
  constructor
  · show _ ++ guard :: rest.filterMap dropped = _
    rw [noGuard, noneLeft, List.nil_append]
  · show _ ++ rest.filterMap dropped = _
    rw [noGuard, noneLeft, List.nil_append]

/-- Whoever claimed later keeps the slot; otherwise every guard is gone. -/
theorem slotSound_dropGuard
    (sound : Sound receiver)
    (acting :
      (receiver.conns id).phase = .acting (.dropGuard guard :: rest) next)
    (isOwner : guard.id = id)
    (settled : Settled receiver.claims receiver.finished id guard.ticket) :
    SlotSound
      ((receiver.perform id (.dropGuard guard)).enter id
        (.acting rest next)) := by
  have slot := sound.slot
  have more : receiver.finished ⊆ guard.ticket :: receiver.finished :=
    List.subset_cons_self _ _
  unfold SlotSound at slot ⊢
  cases held : receiver.slot with
  | none =>
      simp only [held, Receiver.perform, Receiver.enter,
        Receiver.setConn] at slot ⊢
      exact fun ticket isClaim => more (slot ticket isClaim)
  | some holder =>
      simp only [held] at slot
      rcases slot with ⟨latest, claimed, alive, owns⟩
      by_cases same : holder.id = guard.id
      · simp only [Receiver.perform, Receiver.enter, Receiver.setConn,
          held, Option.any_some, same, beq_self_eq_true, if_true]
        have sameTicket : guard.ticket = holder.ticket := by
          rw [same, isOwner] at owns
          rcases owns with isTicket | ⟨other, member, isOther⟩
          · rw [Conn.ticket, acting] at isTicket
            cases isTicket
          · rw [(guards_of_dropGuard sound acting).1,
              List.mem_singleton] at member
            rw [← member]
            exact isOther
        intro ticket isClaim
        rw [← latest, ← sameTicket, Nat.lt_succ_iff_lt_or_eq] at isClaim
        rcases isClaim with before | isGuard
        · exact more (settled.earlier ticket before)
        · rw [isGuard]
          exact List.mem_cons_self
      · simp only [Receiver.perform, Receiver.enter, Receiver.setConn,
          held, Option.any_some, beq_eq_false_iff_ne.mpr same,
          Bool.false_eq_true, if_false]
        refine ⟨latest, claimed, ?_, ?_⟩
        · rw [List.mem_cons, not_or]
          refine ⟨?_, alive⟩
          intro sameTicket
          rw [sameTicket, settled.claimed] at claimed
          exact same (isOwner.trans (Option.some.inj claimed)).symm
        · rw [isOwner] at same
          rw [Function.update_of_ne same]
          exact owns

theorem sound_dropGuard
    (sound : Sound receiver)
    (acting :
      (receiver.conns id).phase = .acting (.dropGuard guard :: rest) next) :
    Sound
      ((receiver.perform id (.dropGuard guard)).enter id
        (.acting rest next)) := by
  have here := sound.conns id
  rcases guards_of_dropGuard sound acting with ⟨guards, noneLeft⟩
  have member : guard ∈ (receiver.conns id).guards := by
    rw [guards]
    exact List.mem_singleton.mpr rfl
  rcases here.guards guard member with ⟨isOwner, settled⟩
  have progress := here.progress
  rw [acting] at progress
  have more : receiver.finished ⊆ guard.ticket :: receiver.finished :=
    List.subset_cons_self _ _
  constructor
  · intro other
    by_cases same : other = id
    · subst same
      simp only [Receiver.perform, Receiver.enter, Receiver.setConn,
        Function.update_self]
      constructor
      · exact here.effects
      · rw [noneLeft]
        intro _ member
        cases member
      · rw [noneLeft]
        exact Nat.zero_le 1
      · intro _ member
        cases member
      · exact ⟨progress.1, fun ahead => nomatch progress.2 ahead⟩
      · exact fun ahead => nomatch progress.2 ahead
    · have framed :=
        (sound.conns other).frame (List.prefix_refl _) more (by
          intro ticket isFinished
          rcases List.mem_cons.mp isFinished with rfl | before
          · right
            rw [settled.claimed]
            intro isOther
            exact same (Option.some.inj isOther).symm
          · exact Or.inl before)
      simpa [Receiver.perform, Receiver.enter, Receiver.setConn, same]
        using framed
  · exact slotSound_dropGuard sound acting isOwner settled
  · intro ticket isFinished
    rcases List.mem_cons.mp isFinished with rfl | before
    · exact (List.getElem?_eq_some_iff.mp settled.claimed).1
    · exact sound.bounded ticket before
  · intro ticket isFinished before isBefore
    rcases List.mem_cons.mp isFinished with rfl | earlier
    · exact more (settled.earlier before isBefore)
    · exact more (sound.ordered ticket earlier before isBefore)

theorem sound_perform
    (sound : Sound receiver)
    (acting :
      (receiver.conns id).phase = .acting (effect :: rest) next) :
    Sound ((receiver.perform id effect).enter id (.acting rest next)) := by
  cases effect with
  | dropGuard guard => exact sound_dropGuard sound acting
  | event event => exact sound_carried sound acting rfl receiver.live _
  | openSink stream rate channels =>
      exact sound_carried sound acting rfl _ receiver.events
  | closeSink stream =>
      exact sound_carried sound acting rfl _ receiver.events
  | _ => exact sound_carried sound acting rfl receiver.live receiver.events

end Effects

/-! ## Runs -/

/-- No claim gives up waiting for the previous holder. -/
def Untimed : Act → Prop
  | .timeout _ => False
  | _ => True

instance (act : Act) : Decidable (Untimed act) := by
  unfold Untimed
  split <;> infer_instance

theorem sound_leave
    {receiver : Receiver Db} {id : Nat}
    (sound : Sound receiver)
    (reading : (receiver.conns id).phase = .reading) :
    Sound (receiver.leave id) := by
  apply sound.operate
  · rw [Conn.ticket, reading]
  · exact guards_leave (sound.conns id).effects reading
  · trivial
  · exact not_false

theorem sound_step
    {platform : Platform Db} {receiver next : Receiver Db} {act : Act}
    (sound : Sound receiver)
    (untimed : Untimed act)
    (stepped : step platform receiver act = some next) :
    Sound next := by
  cases step_cases stepped with
  | readSetup reading unnoticed isSetup =>
      apply sound.enter
      · rw [Conn.pending, Conn.pending, reading]
      · rw [Conn.ticket, Conn.ticket, reading]
      · trivial
      · exact False.elim
  | readOther reading unnoticed notSetup =>
      apply sound.enter
      · rw [Conn.pending, Conn.pending, reading]
      · rw [Conn.ticket, Conn.ticket, reading]
      · trivial
      · exact fun isSetup => absurd isSetup notSetup
  | lock claiming => exact sound_lock sound claiming
  | notify notifying => exact sound_notify sound notifying
  | finish awaiting finished => exact sound_finish sound awaiting finished
  | timeout awaiting => exact absurd untimed not_false
  | install guarded => exact sound_install sound guarded
  | dispatch dispatching =>
      apply sound.operate
      · rw [Conn.ticket, dispatching]
      · exact
          guards_dispatched platform (sound.conns _).effects dispatching
      · trivial
      · exact not_false
  | resume acting => exact sound_resume sound acting
  | perform acting => exact sound_perform sound acting
  | evict reading noticed => exact sound_leave sound reading
  | close reading => exact sound_leave sound reading

theorem sound_initial
    (platform : Platform Db) (peerIp : Nat → IpAddr)
    (localIp : IpAddr) :
    Sound (takeover platform peerIp localIp).initial where
  conns _ :=
    { effects := rfl
      guards := fun _ member => nomatch member
      single := Nat.zero_le 1
      ticket := fun _ member => nomatch member
      progress := trivial
      ahead := False.elim }
  slot := fun _ isClaim => absurd isClaim (Nat.not_lt_zero _)
  bounded := fun _ member => nomatch member
  ordered := fun _ member => nomatch member

end OpenAirplay2.Takeover

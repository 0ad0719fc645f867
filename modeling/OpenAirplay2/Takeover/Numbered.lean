import OpenAirplay2.Takeover.Handover

/-!
# The numbers of the claims

What holds of the tickets in every run, timeouts included: the slot is with
the latest claim or with nobody, a claim waits for the ticket before its own,
and the newest guard of a connection is that of its latest claim.
-/

namespace OpenAirplay2.Takeover

open OpenAirplay2.Control
open OpenAirplay2.Lib.Transition

variable {Db : Type}

/-! ## The connection that steps, and the others -/

/-- The connection that takes the act. -/
def Act.actor : Act → Nat
  | .read id _ _ => id
  | .lock id => id
  | .notify id => id
  | .finish id => id
  | .timeout id => id
  | .install id => id
  | .dispatch id => id
  | .effect id => id
  | .evict id => id
  | .close id => id

/-- At most, the connection was told to close. -/
def Undisturbed (conn later : Conn Db) : Prop :=
  later = conn ∨ later = { conn with permit := true }

section Others

variable
    (receiver : Receiver Db)
    {id other : Nat}

@[simp]
theorem Receiver.setConn_self (conn : Conn Db) :
    (receiver.setConn id conn).conns id = conn := by
  simp [Receiver.setConn]

@[simp]
theorem Receiver.setConn_of_ne (conn : Conn Db) (differ : other ≠ id) :
    (receiver.setConn id conn).conns other = receiver.conns other := by
  simp [Receiver.setConn, differ]

@[simp]
theorem Receiver.enter_self (phase : Phase Db) :
    (receiver.enter id phase).conns id =
      { receiver.conns id with phase := phase } := by
  simp [Receiver.enter]

@[simp]
theorem Receiver.enter_of_ne (phase : Phase Db) (differ : other ≠ id) :
    (receiver.enter id phase).conns other = receiver.conns other := by
  simp [Receiver.enter, differ]

@[simp]
theorem Receiver.perform_conns (effect : Effect Db) :
    (receiver.perform id effect).conns = receiver.conns := by
  cases effect <;> rfl

/-- Who notifies goes on to wait; it may be told to close itself. -/
theorem Receiver.notify_self
    (request : Request) (ports : Ports) (ticket : Nat)
    (previous : Holder) :
    ∃ permit,
      (receiver.notify id request ports ticket previous).conns id =
        { receiver.conns id with
          permit := permit
          phase := .awaiting request ports ticket previous } := by
  rw [Receiver.notify, Receiver.enter_self]
  by_cases self : id = previous.id
  · subst self
    rw [Receiver.setConn_self]
    exact ⟨true, rfl⟩
  · rw [Receiver.setConn_of_ne _ _ self]
    exact ⟨(receiver.conns id).permit, rfl⟩

end Others

/-- A step leaves the other connections where they are. -/
theorem undisturbed_step
    {platform : Platform Db} {receiver next : Receiver Db} {act : Act}
    (stepped : step platform receiver act = some next)
    {other : Nat} (differ : other ≠ act.actor) :
    Undisturbed (receiver.conns other) (next.conns other) := by
  cases step_cases stepped with
  | lock claiming =>
      left
      unfold Receiver.lock
      split
      · exact Receiver.enter_of_ne _ _ differ
      · exact Receiver.enter_of_ne _ _ differ
  | @notify id request ports ticket previous notifying =>
      have apart : other ≠ id := differ
      rw [Receiver.notify, Receiver.enter_of_ne _ _ apart]
      by_cases told : other = previous.id
      · subst told
        right
        rw [Receiver.setConn_self]
      · left
        rw [Receiver.setConn_of_ne _ _ told]
  | install guarded => exact Or.inl (Receiver.setConn_of_ne _ _ differ)
  | dispatch dispatching =>
      exact Or.inl (Receiver.setConn_of_ne _ _ differ)
  | @perform id effect rest following acting =>
      have apart : other ≠ id := differ
      left
      rw [Receiver.enter_of_ne _ _ apart, Receiver.perform_conns]
  | evict reading noticed =>
      exact Or.inl (Receiver.setConn_of_ne _ _ differ)
  | close reading => exact Or.inl (Receiver.setConn_of_ne _ _ differ)
  | _ => exact Or.inl (Receiver.enter_of_ne _ _ differ)

/-! ## What was claimed and what was dropped stays so -/

/-- Claims are only added, and a dropped guard stays dropped. -/
structure Grown (receiver later : Receiver Db) : Prop where
  claims : receiver.claims <+: later.claims
  finished : receiver.finished ⊆ later.finished

theorem Grown.refl (receiver : Receiver Db) : Grown receiver receiver where
  claims := List.prefix_refl _
  finished := List.Subset.refl _

theorem Grown.trans
    {first second third : Receiver Db}
    (before : Grown first second) (after : Grown second third) :
    Grown first third where
  claims := before.claims.trans after.claims
  finished := List.Subset.trans before.finished after.finished

theorem grown_step
    {platform : Platform Db} {receiver next : Receiver Db} {act : Act}
    (stepped : step platform receiver act = some next) :
    Grown receiver next := by
  cases step_cases stepped with
  | lock claiming =>
      unfold Receiver.lock
      split
      · exact ⟨List.prefix_refl _, List.Subset.refl _⟩
      · exact ⟨List.prefix_append _ _, List.Subset.refl _⟩
  | @perform id effect rest following acting =>
      cases effect with
      | dropGuard guard =>
          exact ⟨List.prefix_refl _, List.subset_cons_self _ _⟩
      | _ => exact ⟨List.prefix_refl _, List.Subset.refl _⟩
  | _ => exact ⟨List.prefix_refl _, List.Subset.refl _⟩

theorem grown_run
    {platform : Platform Db} {peerIp : Nat → IpAddr} {localIp : IpAddr}
    {receiver later : Receiver Db} {schedule : List Act}
    (reached :
      (takeover platform peerIp localIp).exec receiver schedule =
        some later) :
    Grown receiver later := by
  induction schedule generalizing receiver with
  | nil =>
      rw [System.exec_nil, Option.some.injEq] at reached
      rw [reached]
      exact Grown.refl later
  | cons act rest induction =>
      rw [System.exec_cons_iff] at reached
      rcases reached with ⟨next, stepped, reachedRest⟩
      exact (grown_step stepped).trans (induction reachedRest)

/-! ## The invariant -/

/-- The claim under way and the holder it took the slot from. -/
def Conn.underWay (conn : Conn Db) : Option (Nat × Holder) :=
  match conn.phase with
  | .notifying _ _ ticket previous => some (ticket, previous)
  | .awaiting _ _ ticket previous => some (ticket, previous)
  | _ => none

/-- The connection left its request loop. -/
def Conn.HasLeft (conn : Conn Db) : Prop :=
  match conn.phase with
  | .acting _ .closed => True
  | .closed => True
  | _ => False

/-- Neither carrying out effects nor closed. -/
def Phase.InLoop : Phase Db → Prop
  | .acting _ _ => False
  | .closed => False
  | _ => True

section InLoop

variable
    {conn : Conn Db}
    {phase : Phase Db}

theorem Conn.not_hasLeft
    (isPhase : conn.phase = phase) (inLoop : phase.InLoop) :
    ¬ conn.HasLeft := by
  rw [Conn.HasLeft, isPhase]
  cases phase with
  | acting => exact False.elim inLoop
  | closed => exact False.elim inLoop
  | _ => exact not_false

theorem Conn.pending_of_inLoop
    (isPhase : conn.phase = phase) (inLoop : phase.InLoop) :
    conn.pending = [] := by
  rw [Conn.pending, isPhase]
  cases phase with
  | acting => exact False.elim inLoop
  | _ => rfl

theorem Conn.hasLeft_acting
    {effects : List (Effect Db)} {following : Phase Db}
    (acting : conn.phase = .acting effects following) :
    conn.HasLeft ↔ following = .closed := by
  rw [Conn.HasLeft, acting]
  cases following <;> simp

end InLoop

/-- The latest claim the connection still has something of. -/
def Conn.newest (conn : Conn Db) : Option Nat :=
  conn.ticket.or (conn.guards.head?.map Guard.ticket)

structure ConnNumbered (claims : List Nat) (id : Nat) (conn : Conn Db) :
    Prop where
  effects : conn.session.effects = []
  guards :
    ∀ guard ∈ conn.guards,
      guard.id = id ∧ claims[guard.ticket]? = some id
  /-- A guard that was replaced is older than the one in the session. -/
  sorted :
    conn.guards.Pairwise fun newer older => older.ticket < newer.ticket
  ticket :
    ∀ ticket ∈ conn.ticket,
      claims[ticket]? = some id ∧
        ∀ guard ∈ conn.guards, guard.ticket < ticket
  newest :
    ∀ ticket : Nat, claims[ticket]? = some id →
      conn.HasLeft ∧ conn.newest = none ∨
        ∃ latest ∈ conn.newest, ticket ≤ latest
  resumes :
    ∀ effects next, conn.phase = .acting effects next → Resumes next
  /-- Only a connection that left drops a guard without having another. -/
  leaves :
    conn.session.activeGuard = none → conn.guards ≠ [] →
      conn.HasLeft ∧ conn.guards.length = 1
  underWay :
    ∀ claim ∈ conn.underWay,
      claim.2.ticket + 1 = claim.1 ∧
        claims[claim.2.ticket]? = some claim.2.id

structure Numbered (receiver : Receiver Db) : Prop where
  conns :
    ∀ id, ConnNumbered receiver.claims id (receiver.conns id)
  slot :
    ∀ holder ∈ receiver.slot,
      holder.ticket + 1 = receiver.claims.length ∧
        receiver.claims[holder.ticket]? = some holder.id

/-- The claims of the others do not touch a connection's numbers. -/
theorem ConnNumbered.frame
    {claims later : List Nat} {id : Nat} {conn : Conn Db}
    (numbered : ConnNumbered claims id conn)
    (grown : claims <+: later)
    (foreign :
      ∀ ticket : Nat,
        later[ticket]? = some id → claims[ticket]? = some id) :
    ConnNumbered later id conn where
  effects := numbered.effects
  guards := fun guard member =>
    ⟨(numbered.guards guard member).1,
      claimed_later grown (numbered.guards guard member).2⟩
  sorted := numbered.sorted
  ticket := fun ticket isTicket =>
    ⟨claimed_later grown (numbered.ticket ticket isTicket).1,
      (numbered.ticket ticket isTicket).2⟩
  newest := fun ticket claimed =>
    numbered.newest ticket (foreign ticket claimed)
  resumes := numbered.resumes
  leaves := numbered.leaves
  underWay := fun claim isClaim =>
    ⟨(numbered.underWay claim isClaim).1,
      claimed_later grown (numbered.underWay claim isClaim).2⟩

theorem ConnNumbered.undisturbed
    {claims : List Nat} {id : Nat} {conn later : Conn Db}
    (numbered : ConnNumbered claims id conn)
    (undisturbed : Undisturbed conn later) :
    ConnNumbered claims id later := by
  rcases undisturbed with rfl | rfl
  · exact numbered
  · exact
      ⟨numbered.effects, numbered.guards, numbered.sorted,
        numbered.ticket, numbered.newest, numbered.resumes,
        numbered.leaves, numbered.underWay⟩

/-! ## Steps -/

section Steps

variable
    {receiver : Receiver Db}
    {id : Nat}

/-- One connection changes its numbers; no claim is made. -/
theorem Numbered.update
    {next : Receiver Db}
    (numbered : Numbered receiver)
    (claims : next.claims = receiver.claims)
    (others :
      ∀ other, other ≠ id →
        Undisturbed (receiver.conns other) (next.conns other))
    (slot : ∀ holder ∈ next.slot, holder ∈ receiver.slot)
    (changed : ConnNumbered receiver.claims id (next.conns id)) :
    Numbered next where
  conns := by
    intro other
    rw [claims]
    by_cases same : other = id
    · subst same
      exact changed
    · exact (numbered.conns other).undisturbed (others other same)
  slot := by
    rw [claims]
    exact fun holder held => numbered.slot holder (slot holder held)

theorem Numbered.setConn
    {conn : Conn Db}
    (numbered : Numbered receiver)
    (changed : ConnNumbered receiver.claims id conn) :
    Numbered (receiver.setConn id conn) := by
  apply numbered.update
  · rfl
  · exact fun other differ =>
      Or.inl (Receiver.setConn_of_ne receiver conn differ)
  · exact fun holder held => held
  · rw [Receiver.setConn_self]
    exact changed

/-- A connection goes on with the guards and the ticket it has. -/
theorem ConnNumbered.keep
    {claims : List Nat} {conn later : Conn Db}
    (numbered : ConnNumbered claims id conn)
    (left : conn.HasLeft → later.HasLeft)
    (effects : later.session.effects = [])
    (guards : later.guards = conn.guards)
    (ticket : later.ticket = conn.ticket)
    (resumes :
      ∀ effects next, later.phase = .acting effects next → Resumes next)
    (leaves :
      later.session.activeGuard = none → later.guards ≠ [] →
        later.HasLeft ∧ later.guards.length = 1)
    (underWay : ∀ claim ∈ later.underWay, conn.underWay = some claim) :
    ConnNumbered claims id later where
  effects := effects
  guards := by
    rw [guards]
    exact numbered.guards
  sorted := by
    rw [guards]
    exact numbered.sorted
  ticket := by
    rw [ticket, guards]
    exact numbered.ticket
  newest := by
    rw [Conn.newest, ticket, guards]
    intro claimed isClaim
    rcases numbered.newest claimed isClaim with ⟨hasLeft, none⟩ | covered
    · exact Or.inl ⟨left hasLeft, none⟩
    · exact Or.inr covered
  resumes := resumes
  leaves := leaves
  underWay := fun claim isClaim =>
    numbered.underWay claim (underWay claim isClaim)

theorem guards_of_nothing
    {conn : Conn Db}
    (nothing : conn.pending = [])
    (noGuard : conn.session.activeGuard = none) :
    conn.guards = [] := by
  rw [Conn.guards, nothing, noGuard]
  rfl

/-- It goes on with the same session, between two lists of effects. -/
theorem ConnNumbered.enter
    {claims : List Nat} {conn : Conn Db} {phase : Phase Db}
    (numbered : ConnNumbered claims id conn)
    (left : conn.HasLeft → Conn.HasLeft { conn with phase := phase })
    (idle : conn.pending = [])
    (nothing : Conn.pending { conn with phase := phase } = [])
    (ticket : Conn.ticket { conn with phase := phase } = conn.ticket)
    (notActing : ∀ effects next, phase ≠ .acting effects next)
    (underWay :
      ∀ claim ∈ Conn.underWay { conn with phase := phase },
        conn.underWay = some claim) :
    ConnNumbered claims id { conn with phase := phase } := by
  apply numbered.keep left
  · exact numbered.effects
  · rw [Conn.guards, Conn.guards, idle, nothing]
  · exact ticket
  · exact fun effects next acting =>
      absurd acting (notActing effects next)
  · intro noGuard alive
    exact absurd (guards_of_nothing nothing noGuard) alive
  · exact underWay

/-- It goes on with its ticket from one phase of its loop to another. -/
theorem ConnNumbered.advance
    {claims : List Nat} {conn : Conn Db} {before phase : Phase Db}
    (numbered : ConnNumbered claims id conn)
    (isPhase : conn.phase = before)
    (wasInLoop : before.InLoop) (inLoop : phase.InLoop)
    (ticket : Conn.ticket { conn with phase := phase } = conn.ticket)
    (underWay :
      ∀ claim ∈ Conn.underWay { conn with phase := phase },
        conn.underWay = some claim) :
    ConnNumbered claims id { conn with phase := phase } := by
  apply numbered.enter
  · exact fun left => absurd left (Conn.not_hasLeft isPhase wasInLoop)
  · exact Conn.pending_of_inLoop isPhase wasInLoop
  · exact Conn.pending_of_inLoop rfl inLoop
  · exact ticket
  · rintro effects next rfl
    exact inLoop
  · exact underWay

/-- The claim that takes the slot has the latest ticket. -/
theorem ConnNumbered.taken
    {claims : List Nat} {conn : Conn Db} {request : Request}
    {ports : Ports} {phase : Phase Db}
    (numbered : ConnNumbered claims id conn)
    (claiming : conn.phase = .claiming request ports)
    (isTicket :
      Conn.ticket { conn with phase := phase } = some claims.length)
    (inLoop : phase.InLoop)
    (underWay :
      ∀ claim ∈ Conn.underWay { conn with phase := phase },
        claim.2.ticket + 1 = claim.1 ∧
          claims[claim.2.ticket]? = some claim.2.id) :
    ConnNumbered (claims ++ [id]) id { conn with phase := phase } := by
  have grown : claims <+: claims ++ [id] := List.prefix_append _ _
  have nothing : Conn.pending { conn with phase := phase } = [] :=
    Conn.pending_of_inLoop rfl inLoop
  have guards :
      Conn.guards { conn with phase := phase } = conn.guards := by
    rw [Conn.guards, nothing, Conn.guards,
      Conn.pending_of_inLoop claiming trivial]
  constructor
  · exact numbered.effects
  · rw [guards]
    intro guard member
    exact
      ⟨(numbered.guards guard member).1,
        claimed_later grown (numbered.guards guard member).2⟩
  · rw [guards]
    exact numbered.sorted
  · rw [isTicket, guards]
    intro ticket isLatest
    rw [Option.mem_some_iff] at isLatest
    subst isLatest
    constructor
    · simp
    · intro guard member
      exact
        (List.getElem?_eq_some_iff.mp
          (numbered.guards guard member).2).1
  · intro ticket claimed
    right
    refine ⟨claims.length, ?_, ?_⟩
    · rw [Conn.newest, isTicket]
      rfl
    · have bound := (List.getElem?_eq_some_iff.mp claimed).1
      rw [List.length_append, List.length_singleton] at bound
      exact Nat.lt_succ_iff.mp bound
  · rintro effects next rfl
    exact False.elim inLoop
  · intro noGuard alive
    exact absurd (guards_of_nothing nothing noGuard) alive
  · intro claim isClaim
    rcases underWay claim isClaim with ⟨follows, claimed⟩
    exact ⟨follows, claimed_later grown claimed⟩

theorem Conn.guards_installed
    {conn : Conn Db} {request : Request} {ports : Ports} {ticket : Nat}
    (noEffects : conn.session.effects = [])
    (guarded : conn.phase = .guarded request ports ticket) :
    (conn.operate
      (conn.session.setActiveGuard { id := id, ticket := ticket })
      (.dispatching request ports)).guards =
        { id := id, ticket := ticket } :: conn.guards := by
  have nothing : conn.pending = [] := by rw [Conn.pending, guarded]
  rw [Conn.guards, Conn.guards, nothing]
  simp only [Conn.operate, Conn.pending, Session.setActiveGuard,
    Session.performAll, noEffects, guardsOf]
  cases conn.session.activeGuard <;> rfl

/-- The guard that goes into the session is newer than the one there. -/
theorem ConnNumbered.installed
    {claims : List Nat} {conn : Conn Db} {request : Request}
    {ports : Ports} {ticket : Nat}
    (numbered : ConnNumbered claims id conn)
    (guarded : conn.phase = .guarded request ports ticket) :
    ConnNumbered claims id
      (conn.operate
        (conn.session.setActiveGuard { id := id, ticket := ticket })
        (.dispatching request ports)) := by
  have isTicket : conn.ticket = some ticket := by
    rw [Conn.ticket, guarded]
  have guards :
      (conn.operate
        (conn.session.setActiveGuard { id := id, ticket := ticket })
        (.dispatching request ports)).guards =
          { id := id, ticket := ticket } :: conn.guards :=
    Conn.guards_installed numbered.effects guarded
  rcases numbered.ticket ticket isTicket with ⟨claimed, older⟩
  constructor
  · rfl
  · rw [guards]
    intro guard member
    rcases List.mem_cons.mp member with rfl | before
    · exact ⟨rfl, claimed⟩
    · exact numbered.guards guard before
  · rw [guards, List.pairwise_cons]
    exact ⟨older, numbered.sorted⟩
  · intro _ member
    cases member
  · intro other isClaim
    right
    refine ⟨ticket, ?_, ?_⟩
    · rw [Conn.newest, guards]
      rfl
    · rcases numbered.newest other isClaim with ⟨left, -⟩ | covered
      · rw [Conn.HasLeft, guarded] at left
        exact False.elim left
      · rw [Conn.newest, isTicket] at covered
        rcases covered with ⟨latest, isLatest, bound⟩
        rw [← Option.some.inj isLatest] at bound
        exact bound
  · intro effects next acting
    cases acting
    trivial
  · intro noGuard
    cases noGuard
  · intro _ member
    cases member

/-- A guard is dropped: the last of those its connection has. -/
theorem ConnNumbered.dropped
    {claims : List Nat} {conn : Conn Db} {guard : Guard}
    {rest : List (Effect Db)} {next : Phase Db}
    (numbered : ConnNumbered claims id conn)
    (acting : conn.phase = .acting (.dropGuard guard :: rest) next) :
    ConnNumbered claims id { conn with phase := .acting rest next } := by
  have guards :
      conn.guards =
        conn.session.activeGuard.toList ++
          guard :: rest.filterMap Takeover.dropped := by
    rw [Conn.guards, Conn.pending, acting]
    rfl
  have later :
      Conn.guards { conn with phase := .acting rest next } =
        conn.session.activeGuard.toList ++
          rest.filterMap Takeover.dropped :=
    rfl
  have fewer :
      (Conn.guards { conn with phase := .acting rest next }).Sublist
        conn.guards := by
    rw [guards, later]
    exact List.Sublist.append_left (List.sublist_cons_self _ _) _
  have left :
      Conn.HasLeft { conn with phase := .acting rest next } ↔
        conn.HasLeft :=
    (Conn.hasLeft_acting rfl).trans (Conn.hasLeft_acting acting).symm
  have noTicket : conn.ticket = none := by
    rw [Conn.ticket, acting]
  constructor
  · exact numbered.effects
  · exact fun other member => numbered.guards other (fewer.subset member)
  · exact numbered.sorted.sublist fewer
  · intro _ member
    cases member
  · intro ticket isClaim
    cases active : conn.session.activeGuard with
    | some newer =>
        right
        rcases numbered.newest ticket isClaim with ⟨-, none⟩ | covered
        · rw [Conn.newest, noTicket, guards, active] at none
          cases none
        · rw [Conn.newest, noTicket, guards, active] at covered
          rw [Conn.newest, later, active]
          exact covered
    | none =>
        have alive : conn.guards ≠ [] := by
          rw [guards, active]
          exact List.cons_ne_nil _ _
        rcases numbered.leaves active alive with ⟨hasLeft, single⟩
        rw [guards, active] at single
        have noneLeft :
            Conn.guards { conn with phase := .acting rest next } = [] := by
          rw [later, active]
          exact List.length_eq_zero_iff.mp (Nat.succ.inj single)
        left
        refine ⟨left.mpr hasLeft, ?_⟩
        rw [Conn.newest, noneLeft]
        rfl
  · intro effects following isActing
    cases isActing
    exact numbered.resumes _ _ acting
  · intro noGuard alive
    have before : conn.guards ≠ [] := by
      rw [guards]
      simp
    rcases numbered.leaves noGuard before with ⟨-, single⟩
    have positive := List.length_pos_iff.mpr alive
    rw [guards, List.length_append, List.length_cons] at single
    rw [later, List.length_append] at positive
    omega
  · intro _ member
    cases member

/-- An effect that drops no guard was carried out. -/
theorem ConnNumbered.carried
    {claims : List Nat} {conn : Conn Db} {effect : Effect Db}
    {rest : List (Effect Db)} {next : Phase Db}
    (numbered : ConnNumbered claims id conn)
    (acting : conn.phase = .acting (effect :: rest) next)
    (keeps : Takeover.dropped effect = none) :
    ConnNumbered claims id { conn with phase := .acting rest next } := by
  have left :
      Conn.HasLeft { conn with phase := .acting rest next } ↔
        conn.HasLeft :=
    (Conn.hasLeft_acting rfl).trans (Conn.hasLeft_acting acting).symm
  have guards :
      Conn.guards { conn with phase := .acting rest next } =
        conn.guards := by
    rw [Conn.guards, Conn.guards, Conn.pending, Conn.pending, acting]
    show guardsOf _ rest = guardsOf _ (effect :: rest)
    rw [guardsOf, guardsOf, List.filterMap_cons_none keeps]
  apply numbered.keep left.mpr
  · exact numbered.effects
  · exact guards
  · rw [Conn.ticket, Conn.ticket, acting]
  · intro effects following isActing
    cases isActing
    exact numbered.resumes _ _ acting
  · rw [guards, left]
    exact numbered.leaves
  · intro _ member
    cases member

/-- Effects lead to no phase with a claim or with effects. -/
theorem Conn.ticket_of_resumes
    {conn : Conn Db} (resumes : Resumes conn.phase) :
    conn.ticket = none := by
  rw [Conn.ticket]
  cases phase : conn.phase with
  | notifying =>
      rw [phase] at resumes
      cases resumes
  | awaiting =>
      rw [phase] at resumes
      cases resumes
  | guarded =>
      rw [phase] at resumes
      cases resumes
  | _ => rfl

theorem Conn.pending_of_resumes
    {conn : Conn Db} (resumes : Resumes conn.phase) :
    conn.pending = [] := by
  rw [Conn.pending]
  split
  · next acting =>
      rw [acting] at resumes
      cases resumes
  · rfl

theorem Conn.underWay_of_resumes
    {conn : Conn Db} (resumes : Resumes conn.phase) :
    conn.underWay = none := by
  rw [Conn.underWay]
  split
  · next phase =>
      rw [phase] at resumes
      cases resumes
  · next phase =>
      rw [phase] at resumes
      cases resumes
  · rfl

/-- All effects were carried out. -/
theorem ConnNumbered.resumed
    {claims : List Nat} {conn : Conn Db} {next : Phase Db}
    (numbered : ConnNumbered claims id conn)
    (acting : conn.phase = .acting [] next) :
    ConnNumbered claims id { conn with phase := next } := by
  have resumes := numbered.resumes _ _ acting
  apply numbered.enter
  · rw [Conn.hasLeft_acting acting]
    rintro rfl
    trivial
  · rw [Conn.pending, acting]
  · exact Conn.pending_of_resumes resumes
  · rw [Conn.ticket_of_resumes resumes, Conn.ticket, acting]
  · rintro effects following rfl
    cases resumes
  · rw [Conn.underWay_of_resumes resumes]
    intro _ member
    cases member

/-- An operation of the session of a connection that reads or dispatches. -/
theorem ConnNumbered.operate
    {claims : List Nat} {conn before : Conn Db} {session : Session Db}
    {next : Phase Db}
    (numbered : ConnNumbered claims id conn)
    (stayed : ¬ conn.HasLeft)
    (noTicket : conn.ticket = none)
    (guards : (before.operate session next).guards = conn.guards)
    (resumes : Resumes next)
    (leaves :
      session.activeGuard = none → conn.guards ≠ [] →
        Conn.HasLeft (before.operate session next) ∧
          conn.guards.length = 1) :
    ConnNumbered claims id (before.operate session next) := by
  apply numbered.keep
  · exact fun left => absurd left stayed
  · rfl
  · exact guards
  · rw [noTicket]
    rfl
  · intro effects following acting
    cases acting
    exact resumes
  · rw [guards]
    exact leaves
  · intro _ member
    cases member

theorem activeGuard_dispatched
    (platform : Platform Db) (session : Session Db) (ports : Ports)
    (request : Request) :
    (dispatched platform session ports request).activeGuard =
      session.activeGuard := by
  rcases dispatched_cases platform session ports request with
    quiet | ⟨-, -, starts⟩
  · exact quiet.activeGuard
  · exact starts.activeGuard

/-- A connection that is not dropping guards has one, if any. -/
theorem guards_length_of_nothing
    {conn : Conn Db}
    (nothing : conn.pending = []) (alive : conn.guards ≠ []) :
    conn.guards.length = 1 := by
  rw [Conn.guards, nothing] at alive ⊢
  cases active : conn.session.activeGuard with
  | none =>
      rw [active] at alive
      exact absurd rfl alive
  | some guard => rfl

theorem numbered_dispatch
    (platform : Platform Db) {request : Request} {ports : Ports}
    {claims : List Nat} {conn : Conn Db}
    (numbered : ConnNumbered claims id conn)
    (dispatching : conn.phase = .dispatching request ports) :
    ConnNumbered claims id
      (conn.operate (dispatched platform conn.session ports request)
        .reading) := by
  have nothing : conn.pending = [] :=
    Conn.pending_of_inLoop dispatching trivial
  apply numbered.operate
  · exact Conn.not_hasLeft dispatching trivial
  · rw [Conn.ticket, dispatching]
  · exact guards_dispatched platform numbered.effects dispatching
  · trivial
  · rw [activeGuard_dispatched]
    intro noGuard alive
    exact absurd (guards_of_nothing nothing noGuard) alive

theorem numbered_leave
    {claims : List Nat} {conn : Conn Db}
    (numbered : ConnNumbered claims id conn)
    (reading : conn.phase = .reading) :
    ConnNumbered claims id
      (Conn.operate { conn with permit := false } conn.session.drop
        .closed) := by
  have nothing : conn.pending = [] :=
    Conn.pending_of_inLoop reading trivial
  apply numbered.operate
  · exact Conn.not_hasLeft reading trivial
  · rw [Conn.ticket, reading]
  · exact guards_leave numbered.effects reading
  · trivial
  · exact fun _ alive => ⟨trivial, guards_length_of_nothing nothing alive⟩

theorem numbered_lock
    {request : Request} {ports : Ports}
    (numbered : Numbered receiver)
    (claiming : (receiver.conns id).phase = .claiming request ports) :
    Numbered (receiver.lock id request ports) := by
  have here := numbered.conns id
  unfold Receiver.lock
  split
  · apply numbered.setConn
    apply here.advance claiming trivial
    · trivial
    · rw [Conn.ticket, Conn.ticket, claiming]
    · intro _ member
      cases member
  · constructor
    · intro other
      by_cases same : other = id
      · subst same
        rw [Receiver.enter_self]
        show ConnNumbered (receiver.claims ++ [other]) other _
        cases held : receiver.slot with
        | none =>
            apply here.taken claiming rfl
            · trivial
            · intro _ member
              cases member
        | some previous =>
            apply here.taken claiming rfl
            · trivial
            · intro claim isClaim
              cases isClaim
              exact numbered.slot previous held
      · rw [Receiver.enter_of_ne _ _ same]
        apply (numbered.conns other).frame (List.prefix_append _ _)
        intro ticket claimed
        rcases Nat.lt_or_ge ticket receiver.claims.length with
          before | after
        · have isEarlier :
              (receiver.claims ++ [id])[ticket]? = some other :=
            claimed
          rw [List.getElem?_append_left before] at isEarlier
          exact isEarlier
        · have isLast : (receiver.claims ++ [id])[ticket]? = some other :=
            claimed
          rw [List.getElem?_append_right after] at isLast
          have member := List.mem_of_getElem? isLast
          exact absurd (List.mem_singleton.mp member) same
    · intro holder held
      rw [Option.mem_def] at held
      cases held
      constructor
      · simp [Receiver.enter, Receiver.setConn]
      · simp [Receiver.enter, Receiver.setConn]

theorem numbered_notify
    {request : Request} {ports : Ports} {ticket : Nat}
    {previous : Holder}
    (numbered : Numbered receiver)
    (notifying :
      (receiver.conns id).phase =
        .notifying request ports ticket previous) :
    Numbered (receiver.notify id request ports ticket previous) := by
  have told :
      Numbered
        (receiver.setConn previous.id
          { receiver.conns previous.id with permit := true }) :=
    numbered.setConn
      ((numbered.conns previous.id).undisturbed (Or.inr rfl))
  have stays :
      ((receiver.setConn previous.id
          { receiver.conns previous.id with permit := true }).conns
        id).phase = .notifying request ports ticket previous :=
    (receiver.phase_told previous.id id).trans notifying
  apply told.setConn
  apply (told.conns id).advance stays trivial
  · trivial
  · rw [Conn.ticket, Conn.ticket, stays]
  · intro claim isClaim
    rw [Conn.underWay, stays]
    exact isClaim

/-- A claim returns its guard. -/
theorem numbered_return
    {request : Request} {ports : Ports} {ticket : Nat}
    {previous : Holder}
    (numbered : Numbered receiver)
    (awaiting :
      (receiver.conns id).phase =
        .awaiting request ports ticket previous) :
    Numbered (receiver.enter id (.guarded request ports ticket)) := by
  apply numbered.setConn
  apply (numbered.conns id).advance awaiting trivial
  · trivial
  · rw [Conn.ticket, Conn.ticket, awaiting]
  · intro _ member
    cases member

theorem numbered_perform
    {effect : Effect Db} {rest : List (Effect Db)} {next : Phase Db}
    (numbered : Numbered receiver)
    (acting :
      (receiver.conns id).phase = .acting (effect :: rest) next) :
    Numbered
      ((receiver.perform id effect).enter id (.acting rest next)) := by
  apply numbered.update
  · cases effect <;> rfl
  · intro other differ
    left
    rw [Receiver.enter_of_ne _ _ differ, Receiver.perform_conns]
  · intro holder held
    cases effect with
    | dropGuard guard =>
        simp only [Receiver.enter, Receiver.setConn, Receiver.perform]
          at held
        split at held
        · cases held
        · exact held
    | _ => exact held
  · rw [Receiver.enter_self, Receiver.perform_conns]
    cases effect with
    | dropGuard guard => exact (numbered.conns id).dropped acting
    | _ => exact (numbered.conns id).carried acting rfl

theorem numbered_step
    {platform : Platform Db} {next : Receiver Db} {act : Act}
    (numbered : Numbered receiver)
    (stepped : step platform receiver act = some next) :
    Numbered next := by
  cases step_cases stepped with
  | @readSetup id request ports reading unnoticed isSetup =>
      apply numbered.setConn
      apply (numbered.conns id).advance reading trivial
      · trivial
      · rw [Conn.ticket, Conn.ticket, reading]
      · intro _ member
        cases member
  | @readOther id request ports reading unnoticed notSetup =>
      apply numbered.setConn
      apply (numbered.conns id).advance reading trivial
      · trivial
      · rw [Conn.ticket, Conn.ticket, reading]
      · intro _ member
        cases member
  | lock claiming => exact numbered_lock numbered claiming
  | notify notifying => exact numbered_notify numbered notifying
  | finish awaiting finished => exact numbered_return numbered awaiting
  | timeout awaiting => exact numbered_return numbered awaiting
  | install guarded =>
      exact numbered.setConn ((numbered.conns _).installed guarded)
  | dispatch dispatching =>
      exact
        numbered.setConn
          (numbered_dispatch platform (numbered.conns _) dispatching)
  | resume acting =>
      exact numbered.setConn ((numbered.conns _).resumed acting)
  | perform acting => exact numbered_perform numbered acting
  | evict reading noticed =>
      exact numbered.setConn (numbered_leave (numbered.conns _) reading)
  | close reading =>
      exact numbered.setConn (numbered_leave (numbered.conns _) reading)

end Steps

theorem numbered_initial
    (platform : Platform Db) (peerIp : Nat → IpAddr)
    (localIp : IpAddr) :
    Numbered (takeover platform peerIp localIp).initial where
  conns _ :=
    { effects := rfl
      guards := fun _ member => nomatch member
      sorted := List.Pairwise.nil
      ticket := fun _ member => nomatch member
      newest := fun _ isClaim => nomatch isClaim
      resumes := fun _ _ isActing => nomatch isActing
      leaves := fun _ alive => absurd rfl alive
      underWay := fun _ member => nomatch member }
  slot := fun _ member => nomatch member

end OpenAirplay2.Takeover

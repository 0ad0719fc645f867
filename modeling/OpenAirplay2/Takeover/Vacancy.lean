import OpenAirplay2.Takeover.Waits

/-!
# Who empties the slot

A guard that is dropped empties the slot if its connection has it, whichever
claim of the connection took it.  At the end of a session that is the claim
of this very guard.  A guard that is replaced by a newer one is older than
the holder, so it must not find the slot with its own connection.
-/

namespace OpenAirplay2.Takeover

open OpenAirplay2.Control
open OpenAirplay2.Lib.Transition

variable {Db : Type}

/-- A guard that is dropped empties the slot of its own claim only. -/
def VacatesOwn (receiver : Receiver Db) : Act → Prop
  | .effect id =>
      match (receiver.conns id).phase with
      | .acting (.dropGuard guard :: _) _ =>
          (receiver.perform id (.dropGuard guard)).slot = none →
            ∀ holder ∈ receiver.slot, holder.ticket = guard.ticket
      | _ => True
  | _ => True

/-- The slot is not empty while the guard of the latest claim is alive. -/
def Occupied (receiver : Receiver Db) : Prop :=
  ∀ id ticket, ticket + 1 = receiver.claims.length →
    (receiver.conns id).HasGuard ticket → receiver.slot ≠ none

/-- A guard is not replaced while its connection holds the slot. -/
def ReplacedLate (receiver : Receiver Db) : Act → Prop
  | .effect id =>
      match (receiver.conns id).phase with
      | .acting (.dropGuard _ :: _) _ =>
          (receiver.conns id).session.activeGuard.isSome = true →
            receiver.slot.any (·.id == id) = false
      | _ => True
  | _ => True

/-- What is asked of a guard that is dropped next can be decided. -/
def decideDropped (asked : Prop) [Decidable asked] :
    (phase : Phase Db) →
      Decidable
        (match phase with
        | .acting (.dropGuard _ :: _) _ => asked
        | _ => True)
  | .acting (.dropGuard _ :: _) _ => inferInstanceAs (Decidable asked)
  | .acting [] _ => instDecidableTrue
  | .acting (.event _ :: _) _ => instDecidableTrue
  | .acting (.openSink _ _ _ :: _) _ => instDecidableTrue
  | .acting (.anchor _ :: _) _ => instDecidableTrue
  | .acting (.startPlayer _ _ :: _) _ => instDecidableTrue
  | .acting (.closeSink _ :: _) _ => instDecidableTrue
  | .acting (.setPaused _ _ :: _) _ => instDecidableTrue
  | .acting (.flush _ _ :: _) _ => instDecidableTrue
  | .acting (.spawn _ :: _) _ => instDecidableTrue
  | .acting (.abort _ :: _) _ => instDecidableTrue
  | .reading => instDecidableTrue
  | .claiming _ _ => instDecidableTrue
  | .notifying _ _ _ _ => instDecidableTrue
  | .awaiting _ _ _ _ => instDecidableTrue
  | .guarded _ _ _ => instDecidableTrue
  | .dispatching _ _ => instDecidableTrue
  | .closed => instDecidableTrue

instance (receiver : Receiver Db) (act : Act) :
    Decidable (ReplacedLate receiver act) :=
  match act with
  | .effect id =>
      decideDropped
        ((receiver.conns id).session.activeGuard.isSome = true →
          receiver.slot.any (·.id == id) = false)
        (receiver.conns id).phase
  | .read _ _ _ => instDecidableTrue
  | .lock _ => instDecidableTrue
  | .notify _ => instDecidableTrue
  | .finish _ => instDecidableTrue
  | .timeout _ => instDecidableTrue
  | .install _ => instDecidableTrue
  | .dispatch _ => instDecidableTrue
  | .evict _ => instDecidableTrue
  | .close _ => instDecidableTrue

section Drops

variable
    {receiver : Receiver Db}
    {id : Nat}
    {guard : Guard}
    {rest : List (Effect Db)}
    {following : Phase Db}

/-- The guards of a connection that is about to drop one. -/
theorem guards_of_acting
    {conn : Conn Db}
    (acting : conn.phase = .acting (.dropGuard guard :: rest) following) :
    conn.guards =
      conn.session.activeGuard.toList ++
        guard :: rest.filterMap dropped := by
  rw [Conn.guards, Conn.pending, acting]
  rfl

theorem mem_guards_of_acting
    {conn : Conn Db}
    (acting : conn.phase = .acting (.dropGuard guard :: rest) following) :
    guard ∈ conn.guards := by
  rw [guards_of_acting acting]
  exact List.mem_append_right _ List.mem_cons_self

/-- The holder has the latest ticket, and it is a ticket of its own. -/
theorem ticket_le_holder
    (numbered : Numbered receiver) {holder : Holder}
    (held : holder ∈ receiver.slot) {owned : Guard}
    (member : owned ∈ (receiver.conns id).guards) :
    owned.ticket ≤ holder.ticket := by
  have claimed := ((numbered.conns id).guards owned member).2
  have bound := (List.getElem?_eq_some_iff.mp claimed).1
  rw [← (numbered.slot holder held).1] at bound
  exact Nat.lt_succ_iff.mp bound

/-- At the end of a session the guard is that of the latest claim. -/
theorem vacatesOwn_of_left
    (numbered : Numbered receiver)
    (acting :
      (receiver.conns id).phase =
        .acting (.dropGuard guard :: rest) following)
    (noGuard : (receiver.conns id).session.activeGuard = none)
    {holder : Holder} (held : holder ∈ receiver.slot)
    (mine : holder.id = id) :
    holder.ticket = guard.ticket := by
  have here := numbered.conns id
  have claimed := (numbered.slot holder held).2
  rw [mine] at claimed
  have newest : (receiver.conns id).newest = some guard.ticket := by
    rw [Conn.newest, Conn.ticket, guards_of_acting acting, acting, noGuard]
    rfl
  apply Nat.le_antisymm
  · rcases here.newest holder.ticket claimed with
      ⟨-, none⟩ | ⟨latest, isLatest, bound⟩
    · rw [newest] at none
      cases none
    · rw [newest] at isLatest
      cases isLatest
      exact bound
  · exact ticket_le_holder numbered held (mem_guards_of_acting acting)

/-- A guard that was replaced is older than the claim of the holder. -/
theorem older_of_replaced
    (numbered : Numbered receiver)
    (acting :
      (receiver.conns id).phase =
        .acting (.dropGuard guard :: rest) following)
    {newer : Guard}
    (active : (receiver.conns id).session.activeGuard = some newer)
    {holder : Holder} (held : holder ∈ receiver.slot) :
    guard.ticket < holder.ticket := by
  have guards := guards_of_acting acting
  rw [active] at guards
  have sorted := (numbered.conns id).sorted
  rw [guards] at sorted
  have older : guard.ticket < newer.ticket :=
    (List.pairwise_cons.mp sorted).1 guard List.mem_cons_self
  apply older.trans_le
  apply ticket_le_holder numbered held
  rw [guards]
  exact List.mem_cons_self

theorem vacatesOwn_iff
    (numbered : Numbered receiver) (act : Act) :
    VacatesOwn receiver act ↔ ReplacedLate receiver act := by
  cases act with
  | effect id =>
      simp only [VacatesOwn, ReplacedLate]
      split
      · next guard rest following acting =>
          have isOwner :=
            ((numbered.conns id).guards guard
              (mem_guards_of_acting acting)).1
          cases held : receiver.slot with
          | none => simp
          | some holder =>
              rw [Receiver.perform, held, isOwner]
              simp only [Option.any_some, Option.mem_some_iff]
              by_cases mine : holder.id = id
              · cases active : (receiver.conns id).session.activeGuard with
                | none =>
                    have own :=
                      vacatesOwn_of_left numbered acting active held mine
                    simp [own]
                | some newer =>
                    have older :=
                      older_of_replaced numbered acting active held
                    simp [mine, older.ne']
              · simp [mine]
      · exact Iff.rfl
  | _ => exact Iff.rfl

end Drops

/-! ## The latest claim -/

/-- Nobody has the latest claim, or its guard, when the slot is empty. -/
def Vacant (receiver : Receiver Db) : Prop :=
  receiver.slot = none →
    ∀ id ticket, ticket + 1 = receiver.claims.length →
      ¬ (receiver.conns id).Owns ticket

theorem owns_of_hasGuard
    {conn : Conn Db} {ticket : Nat} (hasGuard : conn.HasGuard ticket) :
    conn.Owns ticket := by
  rcases hasGuard with ⟨request, ports, guarded⟩ | inGuards
  · left
    rw [Conn.ticket, guarded]
  · exact Or.inr inGuards

theorem Vacant.occupied
    {receiver : Receiver Db} (vacant : Vacant receiver) :
    Occupied receiver := by
  intro id ticket isLatest hasGuard empty
  exact vacant empty id ticket isLatest (owns_of_hasGuard hasGuard)

section Steps

variable
    {platform : Platform Db}
    {receiver next : Receiver Db}
    {act : Act}

theorem Conn.Owns.of_eq
    {conn later : Conn Db} {ticket : Nat}
    (owns : later.Owns ticket)
    (sameTicket : later.ticket = conn.ticket)
    (guards : later.guards = conn.guards) :
    conn.Owns ticket := by
  rw [Conn.Owns, sameTicket, guards] at owns
  exact owns

theorem Conn.Owns.undisturbed
    {conn later : Conn Db} {ticket : Nat}
    (owns : later.Owns ticket) (undisturbed : Undisturbed conn later) :
    conn.Owns ticket := by
  rcases undisturbed with rfl | rfl
  · exact owns
  · exact owns.of_eq rfl rfl

theorem Conn.Owns.of_enter
    {conn : Conn Db} {phase : Phase Db} {ticket : Nat}
    (owns : Conn.Owns { conn with phase := phase } ticket)
    (sameTicket : Conn.ticket { conn with phase := phase } = conn.ticket)
    (pending :
      Conn.pending { conn with phase := phase } = conn.pending) :
    conn.Owns ticket := by
  apply owns.of_eq sameTicket
  rw [Conn.guards, pending]
  rfl

/-- A guard that goes into the session was the connection's ticket. -/
theorem Conn.Owns.of_installed
    {conn : Conn Db} {id claimed ticket : Nat} {request : Request}
    {ports : Ports}
    (noEffects : conn.session.effects = [])
    (guarded : conn.phase = .guarded request ports claimed)
    (owns :
      (conn.operate
        (conn.session.setActiveGuard { id := id, ticket := claimed })
        (.dispatching request ports)).Owns ticket) :
    conn.Owns ticket := by
  rcases owns with isTicket | ⟨guard, member, rfl⟩
  · cases isTicket
  · rw [Conn.guards_installed noEffects guarded] at member
    rcases List.mem_cons.mp member with rfl | before
    · left
      rw [Conn.ticket, guarded]
    · exact Or.inr ⟨guard, before, rfl⟩

/-- Effects that are carried out leave fewer guards. -/
theorem Conn.Owns.of_carried
    {conn : Conn Db} {effect : Effect Db} {rest : List (Effect Db)}
    {following : Phase Db} {ticket : Nat}
    (acting : conn.phase = .acting (effect :: rest) following)
    (owns :
      Conn.Owns { conn with phase := .acting rest following } ticket) :
    conn.Owns ticket := by
  rcases owns with isTicket | ⟨guard, member, rfl⟩
  · cases isTicket
  · right
    refine ⟨guard, ?_, rfl⟩
    rw [Conn.guards, Conn.pending, acting]
    have fewer :
        (rest.filterMap dropped).Sublist
          ((effect :: rest).filterMap dropped) :=
      (List.sublist_cons_self effect rest).filterMap dropped
    exact (List.Sublist.append_left fewer _).subset member

/-- No step but a lock gives its connection a ticket or a guard. -/
theorem owns_actor
    (numbered : Numbered receiver)
    (stepped : step platform receiver act = some next)
    (notLock : ∀ id, act ≠ .lock id)
    {ticket : Nat} (owns : (next.conns act.actor).Owns ticket) :
    (receiver.conns act.actor).Owns ticket := by
  cases step_cases stepped with
  | @readSetup id request ports reading unnoticed isSetup =>
      rw [Act.actor, Receiver.enter_self] at owns
      apply owns.of_enter
      · rw [Conn.ticket, Conn.ticket, reading]
      · rw [Conn.pending, Conn.pending, reading]
  | @readOther id request ports reading unnoticed notSetup =>
      rw [Act.actor, Receiver.enter_self] at owns
      apply owns.of_enter
      · rw [Conn.ticket, Conn.ticket, reading]
      · rw [Conn.pending, Conn.pending, reading]
  | @lock id request ports claiming => exact absurd rfl (notLock id)
  | @notify id request ports claimed previous notifying =>
      rcases receiver.notify_self request ports claimed previous with
        ⟨permit, self⟩
      rw [Act.actor, self] at owns
      apply owns.of_eq
      · rw [Conn.ticket, Conn.ticket, Act.actor, notifying]
      · rw [Conn.guards, Conn.guards, Conn.pending, Conn.pending,
          Act.actor, notifying]
  | @finish id request ports claimed previous awaiting finished =>
      rw [Act.actor, Receiver.enter_self] at owns
      apply owns.of_enter
      · rw [Conn.ticket, Conn.ticket, awaiting]
      · rw [Conn.pending, Conn.pending, awaiting]
  | @timeout id request ports claimed previous awaiting =>
      rw [Act.actor, Receiver.enter_self] at owns
      apply owns.of_enter
      · rw [Conn.ticket, Conn.ticket, awaiting]
      · rw [Conn.pending, Conn.pending, awaiting]
  | @install id request ports claimed guarded =>
      rw [Act.actor, Receiver.install, Receiver.setConn_self] at owns
      exact Conn.Owns.of_installed (numbered.conns id).effects guarded owns
  | @dispatch id request ports dispatching =>
      rw [Act.actor, Receiver.dispatch, Receiver.setConn_self] at owns
      apply owns.of_eq
      · rw [Conn.ticket, Act.actor, Conn.ticket, dispatching]
        rfl
      · exact
          guards_dispatched platform (numbered.conns id).effects
            dispatching
  | @resume id following acting =>
      have resumes := (numbered.conns id).resumes _ _ acting
      rw [Act.actor, Receiver.enter_self] at owns
      apply owns.of_enter
      · rw [Conn.ticket_of_resumes resumes, Conn.ticket, acting]
      · rw [Conn.pending_of_resumes resumes, Conn.pending, acting]
  | @perform id effect rest following acting =>
      rw [Act.actor, Receiver.enter_self, Receiver.perform_conns] at owns
      exact owns.of_carried acting
  | @evict id reading noticed =>
      rw [Act.actor, Receiver.leave, Receiver.setConn_self] at owns
      apply owns.of_eq
      · rw [Conn.ticket, Act.actor, Conn.ticket, reading]
        rfl
      · exact guards_leave (numbered.conns id).effects reading
  | @close id reading =>
      rw [Act.actor, Receiver.leave, Receiver.setConn_self] at owns
      apply owns.of_eq
      · rw [Conn.ticket, Act.actor, Conn.ticket, reading]
        rfl
      · exact guards_leave (numbered.conns id).effects reading

/-- Every step but a lock leaves the claims as they are. -/
theorem claims_step
    (stepped : step platform receiver act = some next)
    (notLock : ∀ id, act ≠ .lock id) :
    next.claims = receiver.claims := by
  cases step_cases stepped with
  | @lock id request ports claiming => exact absurd rfl (notLock id)
  | @perform id effect rest following acting => cases effect <;> rfl
  | _ => rfl

/-- The slot is emptied by a guard that is dropped, and by nothing else. -/
theorem slot_step
    (stepped : step platform receiver act = some next)
    (empty : next.slot = none) :
    receiver.slot = none ∨
      ∃ id guard rest following,
        act = .effect id ∧
          (receiver.conns id).phase =
              .acting (.dropGuard guard :: rest) following ∧
            (receiver.perform id (.dropGuard guard)).slot = none ∧
              next.conns id =
                { receiver.conns id with
                  phase := .acting rest following } := by
  cases step_cases stepped with
  | @lock id request ports claiming =>
      unfold Receiver.lock at empty
      split at empty
      · exact Or.inl empty
      · cases empty
  | @perform id effect rest following acting =>
      cases effect with
      | dropGuard guard =>
          right
          refine ⟨id, guard, rest, following, rfl, acting, empty, ?_⟩
          rw [Receiver.enter_self, Receiver.perform_conns]
      | _ => exact Or.inl empty
  | _ => exact Or.inl empty

/-- A connection that has dropped a guard does not have it any more. -/
theorem not_owns_dropped
    {claims : List Nat} {id : Nat} {conn : Conn Db} {guard : Guard}
    {rest : List (Effect Db)} {following : Phase Db}
    (numbered : ConnNumbered claims id conn)
    (acting : conn.phase = .acting (.dropGuard guard :: rest) following) :
    ¬ Conn.Owns { conn with phase := .acting rest following }
      guard.ticket := by
  have sorted := numbered.sorted
  rw [guards_of_acting acting, List.pairwise_append,
    List.pairwise_cons] at sorted
  rcases sorted with ⟨-, ⟨older, -⟩, newer⟩
  rintro (isTicket | ⟨other, member, same⟩)
  · cases isTicket
  · rcases List.mem_append.mp member with active | isRest
    · exact
        absurd same (newer other active guard List.mem_cons_self).ne'
    · exact absurd same (older other isRest).ne

theorem claimed_of_owns
    {claims : List Nat} {id ticket : Nat} {conn : Conn Db}
    (numbered : ConnNumbered claims id conn) (owns : conn.Owns ticket) :
    claims[ticket]? = some id := by
  rcases owns with isTicket | ⟨guard, member, rfl⟩
  · exact (numbered.ticket ticket isTicket).1
  · exact (numbered.guards guard member).2

theorem vacant_step
    (numbered : Numbered receiver) (vacant : Vacant receiver)
    (late : ReplacedLate receiver act)
    (stepped : step platform receiver act = some next) :
    Vacant next := by
  intro empty
  by_cases locks : ∃ id, act = .lock id
  · rcases locks with ⟨id, rfl⟩
    cases step_cases stepped with
    | @lock id request ports claiming =>
        unfold Receiver.lock at empty
        split at empty
        · next held =>
            have isEmpty : receiver.slot = none := empty
            rw [isEmpty] at held
            cases held
        · cases empty
  · have notLock : ∀ id, act ≠ .lock id :=
      fun id isLock => locks ⟨id, isLock⟩
    have claims := claims_step stepped notLock
    have owns :
        ∀ id ticket, (next.conns id).Owns ticket →
          (receiver.conns id).Owns ticket := by
      intro id ticket owned
      by_cases mine : id = act.actor
      · subst mine
        exact owns_actor numbered stepped notLock owned
      · exact owned.undisturbed (undisturbed_step stepped mine)
    intro other ticket isLatest owned
    rw [claims] at isLatest
    rcases slot_step stepped empty with
      wasEmpty | ⟨id, guard, rest, following, rfl, acting, emptied, later⟩
    · exact vacant wasEmpty other ticket isLatest (owns _ _ owned)
    · have own := (vacatesOwn_iff numbered (.effect id)).mpr late
      simp only [VacatesOwn, acting] at own
      cases held : receiver.slot with
      | none => exact vacant held other ticket isLatest (owns _ _ owned)
      | some holder =>
          -- The slot was of the guard's claim, which is the latest one.
          have same := own emptied holder held
          have latest := (numbered.slot holder held).1
          have isGuard : ticket = guard.ticket := by omega
          subst isGuard
          have claimed :=
            ((numbered.conns id).guards guard
              (mem_guards_of_acting acting)).2
          have owner : other = id := by
            have alsoClaimed :=
              claimed_of_owns (numbered.conns other) (owns _ _ owned)
            rw [claimed] at alsoClaimed
            exact (Option.some.inj alsoClaimed).symm
          subst owner
          rw [later] at owned
          exact not_owns_dropped (numbered.conns other) acting owned

end Steps

/-! ## Runs -/

theorem meets_vacatesOwn_iff
    (platform : Platform Db) (peerIp : Nat → IpAddr) (localIp : IpAddr)
    (schedule : List Act) :
    (takeover platform peerIp localIp).Meets VacatesOwn
        (takeover platform peerIp localIp).initial schedule ↔
      (takeover platform peerIp localIp).Meets ReplacedLate
        (takeover platform peerIp localIp).initial schedule := by
  have start := numbered_initial platform peerIp localIp
  constructor
  · intro own
    apply System.meets_of_invariant Numbered _ _ start own
    · exact fun _ _ _ numbered _ stepped => numbered_step numbered stepped
    · exact fun _ act numbered isOwn =>
        (vacatesOwn_iff numbered act).mp isOwn
  · intro late
    apply System.meets_of_invariant Numbered _ _ start late
    · exact fun _ _ _ numbered _ stepped => numbered_step numbered stepped
    · exact fun _ act numbered isLate =>
        (vacatesOwn_iff numbered act).mpr isLate

theorem always_occupied
    {platform : Platform Db} {peerIp : Nat → IpAddr} {localIp : IpAddr}
    {schedule : List Act}
    (late :
      (takeover platform peerIp localIp).Meets ReplacedLate
        (takeover platform peerIp localIp).initial schedule) :
    (takeover platform peerIp localIp).Always Occupied
      (takeover platform peerIp localIp).initial schedule := by
  rw [System.always_iff_forall_prefix]
  rintro before middle ⟨after, rfl⟩ reached
  have holds : Numbered middle ∧ Vacant middle := by
    apply System.invariant_of_meets
      (fun receiver => Numbered receiver ∧ Vacant receiver) _ _
      late.append_left reached
    · rintro receiver act next ⟨numbered, vacant⟩ isLate stepped
      exact
        ⟨numbered_step numbered stepped,
          vacant_step numbered vacant isLate stepped⟩
    · refine ⟨numbered_initial platform peerIp localIp, ?_⟩
      intro _ id ticket isLatest
      exact absurd isLatest (Nat.succ_ne_zero ticket)
  exact holds.2.occupied

/--
In a run, guards empty the slot of their own claim only, and the slot is
never empty while the guard of the latest claim is alive, exactly when no
guard is replaced while its connection holds the slot.
-/
theorem guards_vacate_own_iff
    (platform : Platform Db) (peerIp : Nat → IpAddr) (localIp : IpAddr)
    (schedule : List Act) :
    ((takeover platform peerIp localIp).Meets VacatesOwn
        (takeover platform peerIp localIp).initial schedule ∧
      (takeover platform peerIp localIp).Always Occupied
        (takeover platform peerIp localIp).initial schedule) ↔
      (takeover platform peerIp localIp).Meets ReplacedLate
        (takeover platform peerIp localIp).initial schedule := by
  constructor
  · rintro ⟨own, -⟩
    exact (meets_vacatesOwn_iff platform peerIp localIp schedule).mp own
  · intro late
    exact
      ⟨(meets_vacatesOwn_iff platform peerIp localIp schedule).mpr late,
        always_occupied late⟩

/--
Connection 1 was displaced and claimed again; when its wait times out, its
new guard replaces the old one, which empties the slot of the new one.
-/
theorem guard_vacates_newer_claim :
    ¬ ∀ (platform : Platform Unit) (peerIp : Nat → IpAddr)
        (localIp : IpAddr) (schedule : List Act),
      (takeover platform peerIp localIp).Meets VacatesOwn
          (takeover platform peerIp localIp).initial schedule ∧
        (takeover platform peerIp localIp).Always Occupied
          (takeover platform peerIp localIp).initial schedule := by
  intro claim
  have own :=
    (claim streamPlatform (fun _ => ⟨"192.0.2.2"⟩) ⟨"192.0.2.1"⟩
      (crossed ++ [.timeout 1, .install 1, .effect 1])).1
  rw [meets_vacatesOwn_iff] at own
  exact absurd own (by decide +kernel)

end OpenAirplay2.Takeover

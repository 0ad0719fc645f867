import OpenAirplay2.Lib.WaitGraph
import OpenAirplay2.Takeover.Exclusion

/-!
# Who waits for whom

A claim waits for the holder it took the slot from.  Along the waits the
tickets go down by one, until they reach a ticket whose connection has
claimed again; from there the wait goes on at its later ticket.

If a claim has returned between the two, the waits never come back below it,
so they form no cycle.  Only a connection that claims again while every claim
since its guard is still under way closes one.
-/

namespace OpenAirplay2.Takeover

open OpenAirplay2.Control
open OpenAirplay2.Lib.Transition

variable {Db : Type}

/-! ## The waits -/

/-- The guard of this claim was returned and not dropped. -/
def Conn.HasGuard (conn : Conn Db) (ticket : Nat) : Prop :=
  (∃ request ports, conn.phase = .guarded request ports ticket) ∨
    ∃ guard ∈ conn.guards, guard.ticket = ticket

/-- The connection is in `claim`, awaiting this holder's completion. -/
def Awaits (receiver : Receiver Db) (id : Nat) (previous : Holder) :
    Prop :=
  ∃ request ports ticket,
    (receiver.conns id).phase = .awaiting request ports ticket previous

/-- The holder belongs to the other one, or its guard resolves it. -/
def WaitsFor (receiver : Receiver Db) (id other : Nat) : Prop :=
  ∃ previous, Awaits receiver id previous ∧
    (previous.id = other ∨
      (receiver.conns other).HasGuard previous.ticket)

/-! ## Claims under way -/

/-- The connection has not been given the guard of this claim. -/
def Conn.isUnderWay (conn : Conn Db) (ticket : Nat) : Bool :=
  conn.underWay.any (·.1 == ticket)

/-- The claim with this ticket has not returned. -/
def Receiver.underWay (receiver : Receiver Db) (ticket : Nat) : Bool :=
  (receiver.claims[ticket]?).any fun id =>
    (receiver.conns id).isUnderWay ticket

/--
A connection that claims the slot again does so only after a claim that was
made since its own guard has returned.
-/
def Ordered (receiver : Receiver Db) : Act → Prop
  | .lock id =>
      ∀ previous ∈ receiver.slot, previous.id ≠ id →
        ∀ guard ∈ (receiver.conns id).session.activeGuard,
          ∃ ticket < receiver.claims.length,
            guard.ticket < ticket ∧ receiver.underWay ticket = false
  | _ => True

instance (receiver : Receiver Db) (act : Act) :
    Decidable (Ordered receiver act) :=
  match act with
  | .lock _ => by
      unfold Ordered
      infer_instance
  | .read _ _ _ => instDecidableTrue
  | .notify _ => instDecidableTrue
  | .finish _ => instDecidableTrue
  | .timeout _ => instDecidableTrue
  | .install _ => instDecidableTrue
  | .dispatch _ => instDecidableTrue
  | .effect _ => instDecidableTrue
  | .evict _ => instDecidableTrue
  | .close _ => instDecidableTrue

/-- Between a claim under way and an older claim of its connection, one has
returned. -/
def Separated (receiver : Receiver Db) : Prop :=
  ∀ id latest older : Nat,
    (receiver.conns id).isUnderWay latest = true →
      receiver.claims[older]? = some id → older < latest →
        ∃ ticket, older < ticket ∧ ticket < latest ∧
          receiver.underWay ticket = false

section Steps

variable
    {platform : Platform Db}
    {receiver next : Receiver Db}
    {act : Act}

theorem Conn.isUnderWay_iff
    {conn : Conn Db} {ticket : Nat} :
    conn.isUnderWay ticket = true ↔
      ∃ previous, conn.underWay = some (ticket, previous) := by
  rw [Conn.isUnderWay, Option.any_eq_true]
  constructor
  · rintro ⟨⟨claim, previous⟩, isClaim, same⟩
    rw [beq_iff_eq] at same
    subst same
    exact ⟨previous, isClaim⟩
  · rintro ⟨previous, isClaim⟩
    exact ⟨(ticket, previous), isClaim, beq_self_eq_true ticket⟩

/-- The claim under way is the connection's ticket. -/
theorem Conn.ticket_of_isUnderWay
    {conn : Conn Db} {ticket : Nat}
    (isUnderWay : conn.isUnderWay ticket = true) :
    conn.ticket = some ticket := by
  rcases Conn.isUnderWay_iff.mp isUnderWay with ⟨previous, isClaim⟩
  rw [Conn.underWay] at isClaim
  rw [Conn.ticket]
  split at isClaim
  · next phase =>
      cases isClaim
      rw [phase]
  · next phase =>
      cases isClaim
      rw [phase]
  · cases isClaim

theorem Conn.isUnderWay_undisturbed
    {conn later : Conn Db}
    (undisturbed : Undisturbed conn later) (ticket : Nat) :
    later.isUnderWay ticket = conn.isUnderWay ticket := by
  rcases undisturbed with rfl | rfl
  · rfl
  · rfl

theorem Conn.not_isUnderWay
    {conn : Conn Db} (nothing : conn.underWay = none) (ticket : Nat) :
    ¬ conn.isUnderWay ticket = true := by
  rw [Conn.isUnderWay, nothing]
  exact Bool.false_ne_true

/-- The lock that takes the slot from another puts a claim under way. -/
theorem isUnderWay_lock
    {id ticket : Nat} {request : Request} {ports : Ports}
    (isUnderWay :
      ((receiver.lock id request ports).conns id).isUnderWay ticket =
        true) :
    ticket = receiver.claims.length ∧
      (receiver.lock id request ports).claims =
          receiver.claims ++ [id] ∧
        ∃ previous ∈ receiver.slot, previous.id ≠ id := by
  unfold Receiver.lock at isUnderWay ⊢
  split at isUnderWay
  · rw [Receiver.enter_self] at isUnderWay
    exact absurd isUnderWay (Conn.not_isUnderWay rfl ticket)
  · next free =>
      rw [if_neg free]
      rw [Receiver.enter_self] at isUnderWay
      cases held : receiver.slot with
      | none =>
          rw [held] at isUnderWay
          exact absurd isUnderWay (Conn.not_isUnderWay rfl ticket)
      | some previous =>
          rw [held] at isUnderWay free
          rcases Conn.isUnderWay_iff.mp isUnderWay with ⟨other, isClaim⟩
          cases isClaim
          refine ⟨rfl, rfl, previous, rfl, ?_⟩
          simpa using free

/-- Every other step only returns a claim that was under way. -/
theorem isUnderWay_actor
    (numbered : Numbered receiver)
    (stepped : step platform receiver act = some next)
    (notLock : ∀ id, act ≠ .lock id)
    {ticket : Nat}
    (isUnderWay : (next.conns act.actor).isUnderWay ticket = true) :
    (receiver.conns act.actor).isUnderWay ticket = true := by
  cases step_cases stepped with
  | @readSetup id request ports reading unnoticed isSetup =>
      rw [Act.actor, Receiver.enter_self] at isUnderWay
      exact absurd isUnderWay (Conn.not_isUnderWay rfl ticket)
  | @readOther id request ports reading unnoticed notSetup =>
      rw [Act.actor, Receiver.enter_self] at isUnderWay
      exact absurd isUnderWay (Conn.not_isUnderWay rfl ticket)
  | @lock id request ports claiming => exact absurd rfl (notLock id)
  | @notify id request ports claimed previous notifying =>
      rw [Act.actor, Receiver.notify, Receiver.enter_self] at isUnderWay
      rw [Act.actor, Conn.isUnderWay, Conn.underWay, notifying]
      exact isUnderWay
  | @finish id request ports claimed previous awaiting finished =>
      rw [Act.actor, Receiver.enter_self] at isUnderWay
      exact absurd isUnderWay (Conn.not_isUnderWay rfl ticket)
  | @timeout id request ports claimed previous awaiting =>
      rw [Act.actor, Receiver.enter_self] at isUnderWay
      exact absurd isUnderWay (Conn.not_isUnderWay rfl ticket)
  | @install id request ports claimed guarded =>
      rw [Act.actor, Receiver.install, Receiver.setConn_self]
        at isUnderWay
      exact absurd isUnderWay (Conn.not_isUnderWay rfl ticket)
  | @dispatch id request ports dispatching =>
      rw [Act.actor, Receiver.dispatch, Receiver.setConn_self]
        at isUnderWay
      exact absurd isUnderWay (Conn.not_isUnderWay rfl ticket)
  | @resume id following acting =>
      have resumes := (numbered.conns id).resumes _ _ acting
      rw [Act.actor, Receiver.enter_self] at isUnderWay
      exact
        absurd isUnderWay
          (Conn.not_isUnderWay (Conn.underWay_of_resumes resumes) ticket)
  | @perform id effect rest following acting =>
      rw [Act.actor, Receiver.enter_self] at isUnderWay
      exact absurd isUnderWay (Conn.not_isUnderWay rfl ticket)
  | @evict id reading noticed =>
      rw [Act.actor, Receiver.leave, Receiver.setConn_self] at isUnderWay
      exact absurd isUnderWay (Conn.not_isUnderWay rfl ticket)
  | @close id reading =>
      rw [Act.actor, Receiver.leave, Receiver.setConn_self] at isUnderWay
      exact absurd isUnderWay (Conn.not_isUnderWay rfl ticket)

/-- What a step puts under way is the latest claim. -/
theorem isUnderWay_step
    (numbered : Numbered receiver)
    (stepped : step platform receiver act = some next)
    {id ticket : Nat}
    (isUnderWay : (next.conns id).isUnderWay ticket = true) :
    (receiver.conns id).isUnderWay ticket = true ∨
      act = .lock id ∧ ticket = receiver.claims.length ∧
        next.claims = receiver.claims ++ [id] ∧
          (∃ request ports,
            (receiver.conns id).phase = .claiming request ports) ∧
            ∃ previous ∈ receiver.slot, previous.id ≠ id := by
  by_cases mine : id = act.actor
  · subst mine
    by_cases locks : ∃ id, act = .lock id
    · rcases locks with ⟨id, rfl⟩
      cases step_cases stepped with
      | @lock id request ports claiming =>
          right
          rcases isUnderWay_lock isUnderWay with ⟨isLatest, claims, held⟩
          exact ⟨rfl, isLatest, claims, ⟨request, ports, claiming⟩, held⟩
    · left
      exact
        isUnderWay_actor numbered stepped
          (fun id isLock => locks ⟨id, isLock⟩) isUnderWay
  · left
    rw [← Conn.isUnderWay_undisturbed (undisturbed_step stepped mine)]
    exact isUnderWay

/-- A claim that has returned is not under way again. -/
theorem returned_step
    (numbered : Numbered receiver)
    (stepped : step platform receiver act = some next)
    {ticket : Nat}
    (isClaim : ticket < receiver.claims.length)
    (returned : receiver.underWay ticket = false) :
    next.underWay ticket = false := by
  have claimed := List.getElem?_eq_getElem isClaim
  have later := claimed_later (grown_step stepped).claims claimed
  rw [Receiver.underWay, claimed, Option.any_some] at returned
  rw [Receiver.underWay, later, Option.any_some, ← Bool.not_eq_true]
  intro isUnderWay
  rcases isUnderWay_step numbered stepped isUnderWay with
    before | ⟨-, isLatest, -⟩
  · rw [returned] at before
    cases before
  · exact absurd isLatest isClaim.ne

/-- A connection that claims again has the guard of its latest claim. -/
theorem activeGuard_of_claiming
    {claims : List Nat} {id ticket : Nat} {conn : Conn Db}
    {request : Request} {ports : Ports}
    (numbered : ConnNumbered claims id conn)
    (claiming : conn.phase = .claiming request ports)
    (claimed : claims[ticket]? = some id) :
    ∃ guard ∈ conn.session.activeGuard, ticket ≤ guard.ticket := by
  rcases numbered.newest ticket claimed with ⟨left, -⟩ | covered
  · rw [Conn.HasLeft, claiming] at left
    exact False.elim left
  · rcases covered with ⟨latest, isLatest, bound⟩
    rw [Conn.newest, Conn.ticket, Conn.guards, Conn.pending, claiming]
      at isLatest
    cases active : conn.session.activeGuard with
    | none =>
        rw [active] at isLatest
        cases isLatest
    | some guard =>
        rw [active] at isLatest
        cases isLatest
        exact ⟨guard, rfl, bound⟩

theorem separated_lock
    (numbered : Numbered receiver)
    {id older : Nat} {request : Request} {ports : Ports}
    {previous : Holder}
    (claiming : (receiver.conns id).phase = .claiming request ports)
    (held : previous ∈ receiver.slot) (differ : previous.id ≠ id)
    (ordered : Ordered receiver (.lock id))
    (claimed : receiver.claims[older]? = some id) :
    ∃ ticket, older < ticket ∧ ticket < receiver.claims.length ∧
      receiver.underWay ticket = false := by
  have here := numbered.conns id
  rcases activeGuard_of_claiming here claiming claimed with
    ⟨guard, active, bound⟩
  have member : guard ∈ (receiver.conns id).guards := by
    rw [Conn.guards, guardsOf, active]
    exact List.mem_append_left _ (List.mem_singleton.mpr rfl)
  have isClaim := (here.guards guard member).2
  rcases bound.lt_or_eq with before | same
  · refine ⟨guard.ticket, before, ?_, ?_⟩
    · exact (List.getElem?_eq_some_iff.mp isClaim).1
    · -- The connection is about to claim, so none of its claims is.
      rw [Receiver.underWay, isClaim, Option.any_some,
        Conn.isUnderWay, Conn.underWay, claiming]
      rfl
  · rcases ordered previous held differ guard active with
      ⟨ticket, isTicket, after, returned⟩
    exact ⟨ticket, same.trans_lt after, isTicket, returned⟩

theorem separated_step
    (numbered : Numbered receiver) (separated : Separated receiver)
    (ordered : Ordered receiver act)
    (stepped : step platform receiver act = some next) :
    Separated next := by
  intro id latest older isUnderWay claimed isOlder
  rcases isUnderWay_step numbered stepped isUnderWay with
    before | ⟨rfl, rfl, claims, ⟨request, ports, claiming⟩, previous,
      held, differ⟩
  · have isLatest :=
      ((numbered.conns id).ticket latest
        (Conn.ticket_of_isUnderWay before)).1
    have bound := (List.getElem?_eq_some_iff.mp isLatest).1
    have wasClaimed : receiver.claims[older]? = some id := by
      have kept :=
        claimed_later (grown_step stepped).claims
          (List.getElem?_eq_getElem (isOlder.trans bound))
      rw [claimed] at kept
      rw [List.getElem?_eq_getElem (isOlder.trans bound)]
      exact kept.symm
    rcases separated id latest older before wasClaimed isOlder with
      ⟨ticket, above, below, returned⟩
    exact
      ⟨ticket, above, below,
        returned_step numbered stepped (below.trans bound) returned⟩
  · rw [claims, List.getElem?_append_left isOlder] at claimed
    rcases separated_lock numbered claiming held differ ordered claimed
      with ⟨ticket, above, below, returned⟩
    exact
      ⟨ticket, above, below,
        returned_step numbered stepped below returned⟩

end Steps

/-! ## No cycle -/

section Cycle

variable {receiver : Receiver Db}

/-- A guard belongs to the connection that claimed it. -/
theorem claimed_of_hasGuard
    (numbered : Numbered receiver) {id ticket : Nat}
    (hasGuard : (receiver.conns id).HasGuard ticket) :
    receiver.claims[ticket]? = some id := by
  rcases hasGuard with ⟨request, ports, guarded⟩ | ⟨guard, member, rfl⟩
  · have isTicket : (receiver.conns id).ticket = some ticket := by
      rw [Conn.ticket, guarded]
    exact ((numbered.conns id).ticket ticket isTicket).1
  · exact ((numbered.conns id).guards guard member).2

/-- What a connection that waits is waiting for. -/
theorem WaitsFor.claim
    (numbered : Numbered receiver) {id other : Nat}
    (waits : WaitsFor receiver id other) :
    ∃ ticket, (receiver.conns id).isUnderWay (ticket + 1) = true ∧
      receiver.claims[ticket]? = some other := by
  rcases waits with ⟨previous, ⟨request, ports, claim, awaiting⟩, whose⟩
  have isClaim :
      (receiver.conns id).underWay = some (claim, previous) := by
    rw [Conn.underWay, awaiting]
  rcases (numbered.conns id).underWay _ isClaim with ⟨follows, claimed⟩
  refine ⟨previous.ticket, ?_, ?_⟩
  · rw [Conn.isUnderWay_iff]
    exact ⟨previous, by rw [isClaim, follows]⟩
  · rcases whose with rfl | hasGuard
    · exact claimed
    · exact claimed_of_hasGuard numbered hasGuard

/-- The ticket of the claim a connection has under way. -/
def turn (receiver : Receiver Db) (id : Nat) : Nat :=
  (receiver.conns id).ticket.getD 0

theorem turn_of_isUnderWay
    {id ticket : Nat}
    (isUnderWay : (receiver.conns id).isUnderWay ticket = true) :
    turn receiver id = ticket := by
  rw [turn, Conn.ticket_of_isUnderWay isUnderWay, Option.getD_some]

theorem underWay_of_isUnderWay
    (numbered : Numbered receiver) {id ticket : Nat}
    (isUnderWay : (receiver.conns id).isUnderWay ticket = true) :
    receiver.underWay ticket = true := by
  have claimed :=
    ((numbered.conns id).ticket ticket
      (Conn.ticket_of_isUnderWay isUnderWay)).1
  rw [Receiver.underWay, claimed, Option.any_some]
  exact isUnderWay

theorem no_cycle_of_separated
    (numbered : Numbered receiver) (separated : Separated receiver)
    (id : Nat) : ¬ Relation.TransGen (WaitsFor receiver) id id := by
  apply Lib.WaitGraph.no_cycle (turn receiver)
    (fun ticket => receiver.underWay ticket = false)
  · intro first second third firstWaits secondWaits
    rcases firstWaits.claim numbered with ⟨before, isFirst, claimed⟩
    rcases secondWaits.claim numbered with ⟨latest, isSecond, -⟩
    rw [turn_of_isUnderWay isFirst, turn_of_isUnderWay isSecond]
    have isTicket := Conn.ticket_of_isUnderWay isSecond
    rcases (numbered.conns second).newest before claimed with
      ⟨-, none⟩ | ⟨newest, isNewest, bound⟩
    · rw [Conn.newest, isTicket] at none
      cases none
    · rw [Conn.newest, isTicket] at isNewest
      cases isNewest
      rcases bound.lt_or_eq with older | same
      · right
        rcases separated second _ before isSecond claimed older with
          ⟨ticket, above, below, returned⟩
        refine ⟨ticket, ?_, below, returned⟩
        -- The first one's own claim is under way, so it is not that one.
        have differ : before + 1 ≠ ticket := by
          rintro rfl
          rw [underWay_of_isUnderWay numbered isFirst] at returned
          cases returned
        omega
      · left
        rw [same]
  · intro first second waits
    rcases waits.claim numbered with ⟨before, isFirst, -⟩
    rw [turn_of_isUnderWay isFirst, Bool.not_eq_false]
    exact underWay_of_isUnderWay numbered isFirst

end Cycle

/-! ## Runs -/

/--
In every run in which no connection claims again while every claim since its
guard is under way, no connections wait for each other in a cycle.
-/
theorem takeovers_form_no_cycle
    (platform : Platform Db) (peerIp : Nat → IpAddr) (localIp : IpAddr)
    (schedule : List Act) (receiver : Receiver Db)
    (ordered :
      (takeover platform peerIp localIp).Meets Ordered
        (takeover platform peerIp localIp).initial schedule)
    (reached :
      (takeover platform peerIp localIp).exec
        (takeover platform peerIp localIp).initial schedule =
          some receiver)
    (id : Nat) :
    ¬ Relation.TransGen (WaitsFor receiver) id id := by
  have holds : Numbered receiver ∧ Separated receiver := by
    apply System.invariant_of_meets
      (fun receiver => Numbered receiver ∧ Separated receiver) _ _
      ordered reached
    · rintro receiver act next ⟨numbered, separated⟩ isOrdered stepped
      exact
        ⟨numbered_step numbered stepped,
          separated_step numbered separated isOrdered stepped⟩
    · refine ⟨numbered_initial platform peerIp localIp, ?_⟩
      intro id latest older isUnderWay
      exact absurd isUnderWay (Conn.not_isUnderWay rfl latest)
  exact no_cycle_of_separated holds.1 holds.2 id

/-! ## Two senders that take over from each other -/

/--
Connection 1 has its stream and has read a second `SETUP` when connection 2
takes the slot.  It takes the slot back before it can notice its eviction.
-/
def crossed : List Act :=
  asks 1 ++ streams 1 ++
    [.read 1 streamSetup ⟨some 49152, some 49153⟩] ++ asks 2 ++
      [.lock 1, .notify 2, .notify 1]

/-- In the handover of one sender to another nobody claims again. -/
theorem handover_forms_no_cycle :
    ∃ receiver,
      twoSenders.exec twoSenders.initial handedOver = some receiver ∧
        ¬ Relation.TransGen (WaitsFor receiver) 2 2 := by
  have run :
      (twoSenders.exec twoSenders.initial handedOver).isSome = true := by
    decide +kernel
  rcases Option.isSome_iff_exists.mp run with ⟨receiver, reached⟩
  refine ⟨receiver, reached, ?_⟩
  exact
    takeovers_form_no_cycle streamPlatform _ _ handedOver receiver
      (by decide +kernel) reached 2

/-- Each of the two waits for the other one's guard. -/
theorem takeovers_wait_for_each_other :
    ¬ ∀ (platform : Platform Unit) (peerIp : Nat → IpAddr)
        (localIp : IpAddr) (schedule : List Act)
        (receiver : Receiver Unit),
      (takeover platform peerIp localIp).exec
          (takeover platform peerIp localIp).initial schedule =
            some receiver →
        ∀ id, ¬ Relation.TransGen (WaitsFor receiver) id id := by
  intro claim
  have waiting :
      (twoSenders.exec twoSenders.initial crossed).map
          (fun receiver =>
            ((receiver.conns 1).phase, (receiver.conns 2).phase)) =
        some
          (.awaiting streamSetup ⟨some 49152, some 49153⟩ 2 ⟨2, 1⟩,
            .awaiting streamSetup ⟨some 49152, some 49153⟩ 1 ⟨1, 0⟩) := by
    decide +kernel
  rcases Option.map_eq_some_iff.mp waiting with
    ⟨receiver, reached, phases⟩
  rcases Prod.mk.inj phases with ⟨first, second⟩
  have firstWaits : WaitsFor receiver 1 2 :=
    ⟨⟨2, 1⟩, ⟨_, _, _, first⟩, Or.inl rfl⟩
  have secondWaits : WaitsFor receiver 2 1 :=
    ⟨⟨1, 0⟩, ⟨_, _, _, second⟩, Or.inl rfl⟩
  exact
    claim streamPlatform _ _ crossed receiver reached 1
      ((Relation.TransGen.single firstWaits).tail secondWaits)

end OpenAirplay2.Takeover

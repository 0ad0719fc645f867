import OpenAirplay2.Takeover.Numbered
import OpenAirplay2.Takeover.Sinks

/-!
# Mutual exclusion

As long as no claim gives up waiting, a claim returns its guard when every
guard that was returned to another connection has been dropped.

A connection that was displaced finds a permit at its eviction until it
leaves its loop: only the eviction takes the permit, and it leaves the loop.
-/

namespace OpenAirplay2.Takeover

open OpenAirplay2.Control
open OpenAirplay2.Lib.Transition

variable {Db : Type}

/-! ## Permits -/

/-- A permit waits for the connection until it has left its loop. -/
def Conn.Warned (conn : Conn Db) : Prop :=
  conn.permit = true ∨ conn.HasLeft

theorem Conn.Warned.undisturbed
    {conn later : Conn Db}
    (warned : conn.Warned) (undisturbed : Undisturbed conn later) :
    later.Warned := by
  rcases undisturbed with rfl | rfl
  · exact warned
  · exact Or.inl rfl

section Steps

variable
    {platform : Platform Db}
    {receiver next : Receiver Db}
    {id : Nat}

/-- A connection that has not left has its permit, and keeps it. -/
theorem warned_setConn
    {conn : Conn Db}
    (stayed : ¬ (receiver.conns id).HasLeft)
    (permit : conn.permit = (receiver.conns id).permit)
    (warned : (receiver.conns id).Warned) :
    ((receiver.setConn id conn).conns id).Warned := by
  rw [Receiver.setConn_self]
  rcases warned with told | left
  · exact Or.inl (permit.trans told)
  · exact absurd left stayed

/-- Carrying out effects leads nowhere else. -/
theorem warned_acting
    {effects rest : List (Effect Db)} {following : Phase Db}
    (acting : (receiver.conns id).phase = .acting effects following)
    (warned : (receiver.conns id).Warned) :
    Conn.Warned
      { receiver.conns id with phase := .acting rest following } := by
  rcases warned with told | left
  · exact Or.inl told
  · right
    rw [Conn.hasLeft_acting acting] at left
    exact (Conn.hasLeft_acting rfl).mpr left

theorem warned_resume
    {following : Phase Db}
    (acting : (receiver.conns id).phase = .acting [] following)
    (warned : (receiver.conns id).Warned) :
    ((receiver.enter id following).conns id).Warned := by
  rw [Receiver.enter_self]
  rcases warned with told | left
  · exact Or.inl told
  · right
    rw [Conn.hasLeft_acting acting] at left
    rw [left]
    trivial

theorem warned_notify
    {request : Request} {ports : Ports} {ticket : Nat}
    {previous : Holder} :
    ((receiver.notify id request ports ticket previous).conns
      previous.id).Warned := by
  left
  by_cases same : previous.id = id
  · rw [Receiver.notify, same, Receiver.enter_self, Receiver.setConn_self]
  · rw [Receiver.notify, Receiver.enter_of_ne _ _ same,
      Receiver.setConn_self]

theorem warned_actor
    {act : Act}
    (stepped : step platform receiver act = some next)
    (warned : (receiver.conns act.actor).Warned) :
    (next.conns act.actor).Warned := by
  cases step_cases stepped with
  | readSetup reading unnoticed isSetup =>
      exact warned_setConn (Conn.not_hasLeft reading trivial) rfl warned
  | readOther reading unnoticed notSetup =>
      exact warned_setConn (Conn.not_hasLeft reading trivial) rfl warned
  | lock claiming =>
      unfold Receiver.lock
      split
      · exact warned_setConn (Conn.not_hasLeft claiming trivial) rfl warned
      · exact warned_setConn (Conn.not_hasLeft claiming trivial) rfl warned
  | @notify id request ports ticket previous notifying =>
      by_cases self : id = previous.id
      · subst self
        exact warned_notify
      · left
        rw [Act.actor, Receiver.notify, Receiver.enter_self,
          Receiver.setConn_of_ne _ _ self]
        rcases warned with told | left
        · exact told
        · exact absurd left (Conn.not_hasLeft notifying trivial)
  | finish awaiting finished =>
      exact warned_setConn (Conn.not_hasLeft awaiting trivial) rfl warned
  | timeout awaiting =>
      exact warned_setConn (Conn.not_hasLeft awaiting trivial) rfl warned
  | install guarded =>
      exact warned_setConn (Conn.not_hasLeft guarded trivial) rfl warned
  | dispatch dispatching =>
      exact warned_setConn (Conn.not_hasLeft dispatching trivial) rfl warned
  | resume acting => exact warned_resume acting warned
  | @perform id effect rest following acting =>
      rw [Act.actor, Receiver.enter_self, Receiver.perform_conns]
      exact warned_acting acting warned
  | evict reading noticed =>
      right
      rw [Act.actor, Receiver.leave, Receiver.setConn_self]
      trivial
  | close reading =>
      right
      rw [Act.actor, Receiver.leave, Receiver.setConn_self]
      trivial

/-- No step of any connection takes a permit without leaving the loop. -/
theorem warned_step
    {act : Act}
    (stepped : step platform receiver act = some next)
    (warned : (receiver.conns id).Warned) :
    (next.conns id).Warned := by
  by_cases mine : id = act.actor
  · subst mine
    exact warned_actor stepped warned
  · exact warned.undisturbed (undisturbed_step stepped mine)

end Steps

theorem warned_run
    {platform : Platform Db} {peerIp : Nat → IpAddr} {localIp : IpAddr}
    {receiver later : Receiver Db} {schedule : List Act}
    (reached :
      (takeover platform peerIp localIp).exec receiver schedule =
        some later)
    {id : Nat} (warned : (receiver.conns id).Warned) :
    (later.conns id).Warned :=
  System.invariant_of_reached (fun state => (state.conns id).Warned)
    (fun _ _ _ holds stepped => warned_step stepped holds) warned reached

/-! ## Guards -/

/-- `claim` returned this guard, and the session does not have it yet. -/
def Returned (receiver : Receiver Db) (id ticket : Nat) : Prop :=
  ∃ request ports,
    (receiver.conns id).phase = .guarded request ports ticket

/-- The ticket of a guard that was just returned follows dropped ones. -/
theorem Returned.settled
    {receiver : Receiver Db} {id ticket : Nat}
    (returned : Returned receiver id ticket) (sound : Sound receiver) :
    Settled receiver.claims receiver.finished id ticket := by
  rcases returned with ⟨request, ports, guarded⟩
  have here := sound.conns id
  have isTicket : (receiver.conns id).ticket = some ticket := by
    rw [Conn.ticket, guarded]
  have progress := here.progress
  rw [guarded] at progress
  rcases here.ticket ticket isTicket with ⟨claimed, alive, -⟩
  exact ⟨claimed, alive, progress⟩

/-- A guard returned before one of another connection was dropped. -/
theorem finished_of_returned
    {between state : Receiver Db} {holder id ticket latest : Nat}
    (soundBetween : Sound between) (sound : Sound state)
    (grown : Grown between state)
    (before : Returned between holder ticket)
    (returned : Returned state id latest)
    (differ : id ≠ holder) :
    ticket ∈ state.finished := by
  have earlier := before.settled soundBetween
  have later := returned.settled sound
  rcases Nat.lt_trichotomy ticket latest with isBefore | same | isAfter
  · exact later.earlier ticket isBefore
  · have claimed := claimed_later grown.claims earlier.claimed
    rw [same, later.claimed] at claimed
    exact absurd (Option.some.inj claimed) differ
  · have dropped := grown.finished (earlier.earlier latest isAfter)
    exact absurd dropped later.alive

theorem sound_run
    {platform : Platform Db} {peerIp : Nat → IpAddr} {localIp : IpAddr}
    {receiver later : Receiver Db} {schedule : List Act}
    (sound : Sound receiver)
    (untimed : ∀ act ∈ schedule, Untimed act)
    (reached :
      (takeover platform peerIp localIp).exec receiver schedule =
        some later) :
    Sound later :=
  System.invariant_of_meets Sound
    (fun _ _ _ holds isUntimed stepped =>
      sound_step holds isUntimed stepped)
    sound (System.meets_of_forall_mem untimed receiver) reached

/--
In every run without a timeout, a claim returns its guard to a connection
when every guard returned to another one before was dropped, and a connection
that was told to close has its permit until it leaves its loop.
-/
theorem takeover_exclusive
    (platform : Platform Db) (peerIp : Nat → IpAddr) (localIp : IpAddr)
    (first second : List Act) (between state : Receiver Db)
    (untimed : ∀ act ∈ first ++ second, Untimed act)
    (reached :
      (takeover platform peerIp localIp).exec
        (takeover platform peerIp localIp).initial first = some between)
    (later :
      (takeover platform peerIp localIp).exec between second =
        some state) :
    (∀ holder ticket id latest,
      Returned between holder ticket → Returned state id latest →
        id ≠ holder → ticket ∈ state.finished) ∧
      ∀ id request ports ticket previous rest,
        (between.conns id).phase =
            .notifying request ports ticket previous →
          second = .notify id :: rest →
            (state.conns previous.id).Warned := by
  rw [List.forall_mem_append] at untimed
  have soundBetween :=
    sound_run (sound_initial platform peerIp localIp) untimed.1 reached
  have sound := sound_run soundBetween untimed.2 later
  constructor
  · intro holder ticket id latest before returned differ
    exact
      finished_of_returned soundBetween sound (grown_run later) before
        returned differ
  · rintro id request ports ticket previous rest notifying rfl
    rw [System.exec_cons_iff] at later
    rcases later with ⟨next, stepped, reachedRest⟩
    have notified :
        next = between.notify id request ports ticket previous := by
      simp only [takeover, step, notifying, Option.some.injEq] at stepped
      exact stepped.symm
    apply warned_run reachedRest
    rw [notified]
    exact warned_notify

/-- The second connection gets its guard when the first has left. -/
theorem takeover_exclusive_handed_over :
    ∃ between state,
      twoSenders.exec twoSenders.initial (asks 1) = some between ∧
        twoSenders.exec between
            (streams 1 ++ asks 2 ++ [.notify 2, .evict 1] ++
              List.replicate 6 (.effect 1) ++ [.finish 2]) =
          some state ∧
        Returned between 1 0 ∧ Returned state 2 1 ∧
          0 ∈ state.finished := by
  have first :
      (twoSenders.exec twoSenders.initial (asks 1)).map
          (fun receiver => (receiver.conns 1).phase) =
        some (.guarded streamSetup ⟨some 49152, some 49153⟩ 0) := by
    decide +kernel
  have second :
      (twoSenders.exec twoSenders.initial
          (asks 1 ++
            (streams 1 ++ asks 2 ++ [.notify 2, .evict 1] ++
              List.replicate 6 (.effect 1) ++ [.finish 2]))).map
          (fun receiver => (receiver.conns 2).phase) =
        some (.guarded streamSetup ⟨some 49152, some 49153⟩ 1) := by
    decide +kernel
  rcases Option.map_eq_some_iff.mp first with ⟨between, reached, holds⟩
  rcases Option.map_eq_some_iff.mp second with ⟨state, run, takes⟩
  rw [System.exec_append_iff] at run
  rcases run with ⟨middle, toMiddle, later⟩
  rw [reached, Option.some.injEq] at toMiddle
  subst toMiddle
  have before : Returned between 1 0 := ⟨_, _, holds⟩
  have returned : Returned state 2 1 := ⟨_, _, takes⟩
  refine ⟨between, state, reached, later, before, returned, ?_⟩
  exact
    (takeover_exclusive streamPlatform _ _ (asks 1) _ between state
      (by decide) reached later).1 1 0 2 1 before returned (by decide)

end OpenAirplay2.Takeover

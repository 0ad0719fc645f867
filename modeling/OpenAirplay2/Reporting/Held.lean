import OpenAirplay2.Reporting.Connection

/-!
# Positions held back

A playback thread sends the position of a packet some time after it found it,
and knows nothing of the session.  What it sends is told during a session as
long as no packet that it would tell of is played outside one, and no session
ends while it holds a position back.
-/

namespace OpenAirplay2.Reporting

open OpenAirplay2.Control
open OpenAirplay2.Lib.Transition

variable {Db : Type}

/--
Outside a session no thread is handed a packet that it would tell of, and no
session ends while a thread of the connection holds a position back.
-/
def Timely (connection : Connection Db) : Act → Prop
  | .played stream ts =>
      connection.untold stream ts = true →
        inSession connection.events = true
  | .effect =>
      connection.ending = true →
        ∀ stream < connection.session.streams,
          connection.unsent stream = false
  | _ => True

instance (connection : Connection Db) (act : Act) :
    Decidable (Timely connection act) :=
  match act with
  | .played stream ts =>
      inferInstanceAs
        (Decidable
          (connection.untold stream ts = true →
            inSession connection.events = true))
  | .effect =>
      inferInstanceAs
        (Decidable
          (connection.ending = true →
            ∀ stream < connection.session.streams,
              connection.unsent stream = false))
  | .request _ _ => instDecidableTrue
  | .close => instDecidableTrue
  | .report _ => instDecidableTrue

/-! ## Threads are numbered -/

section Numbered

variable
    {pauses : Bool → Bool → Prop}
    {session next : Session Db}
    {stream rate : Nat}

/-- A move starts no thread. -/
theorem startPlayer_of_moves
    (moves : Moves pauses session next)
    (starts : .startPlayer stream rate ∈ next.effects) :
    .startPlayer stream rate ∈ session.effects := by
  induction moves with
  | refl => exact starts
  | @tail middle next _ move induction =>
      apply induction
      have appended (effect : Effect Db)
          (other : effect ≠ .startPlayer stream rate)
          (member :
            .startPlayer stream rate ∈ middle.effects ++ [effect]) :
          .startPlayer stream rate ∈ middle.effects := by
        rcases List.mem_append.mp member with before | now
        · exact before
        · exact absurd (List.mem_singleton.mp now).symm other
      cases move with
      | update effects => exact effects ▸ starts
      | @silent effect silent =>
          refine appended effect ?_ starts
          rintro rfl
          cases silent
      | free => exact appended _ (by rintro ⟨⟩) starts
      | pause => exact appended _ (by rintro ⟨⟩) starts
      | inside => exact appended _ (by rintro ⟨⟩) starts
      | ended => exact appended _ (by rintro ⟨⟩) starts

/-- The thread of a stream that starts has the next number. -/
theorem startPlayer_startStream
    {key : Pairing.Bytes}
    (starts :
      .startPlayer stream rate ∈ (session.startStream key).effects) :
    .startPlayer stream rate ∈ session.effects ∨
      stream = session.streams := by
  rw [effects_startStream, List.mem_append] at starts
  refine starts.imp_right fun starts => ?_
  simp only [startEffects, List.mem_append, List.mem_cons, List.mem_map,
    List.not_mem_nil, reduceCtorEq, Effect.startPlayer.injEq, and_false,
    exists_false, false_or, or_false] at starts
  exact starts.1

theorem streams_startStream (session : Session Db) (key : Pairing.Bytes) :
    (session.startStream key).streams = session.streams + 1 :=
  rfl

/-- No thread is started when a session is dropped. -/
theorem startPlayer_drop
    (starts : .startPlayer stream rate ∈ session.drop.effects) :
    .startPlayer stream rate ∈ session.effects := by
  have moves : Moves (fun _ _ => False) session session.endSession :=
    moves_endSession session
  apply startPlayer_of_moves moves
  rcases List.mem_append.mp starts with before | now
  · exact before
  · simp only [List.mem_append, List.mem_map, reduceCtorEq, and_false,
      exists_false, or_false] at now

theorem streams_drop (session : Session Db) :
    session.drop.streams = session.streams := by
  have moves : Moves (fun _ _ => False) session session.endSession :=
    moves_endSession session
  exact moves.streams_eq

/-- What a request starts is numbered below the count of the streams. -/
theorem startPlayer_dispatched
    {platform : Platform Db} {ports : Ports} {request : Request}
    (settled : session.effects = [])
    (starts :
      .startPlayer stream rate ∈
        (dispatched platform session ports request).effects) :
    stream < (dispatched platform session ports request).streams := by
  have none : .startPlayer stream rate ∉ session.effects := by
    rw [settled]
    exact List.not_mem_nil
  rcases dispatched_moves platform session ports request with
    moves | ⟨-, -, middle, key, moves, -, isNext⟩
  · exact absurd (startPlayer_of_moves moves starts) none
  · rw [isNext] at starts ⊢
    rcases startPlayer_startStream starts with before | last
    · exact absurd (startPlayer_of_moves moves before) none
    · rw [last, streams_startStream]
      exact Nat.lt_succ_self _

/-- Streams are only ever counted up. -/
theorem streams_le_dispatched
    (platform : Platform Db) (session : Session Db) (ports : Ports)
    (request : Request) :
    session.streams ≤
      (dispatched platform session ports request).streams := by
  rcases dispatched_moves platform session ports request with
    moves | ⟨-, -, middle, key, moves, -, isNext⟩
  · exact moves.streams_eq.ge
  · rw [isNext, streams_startStream, moves.streams_eq]
    exact Nat.le_succ _

end Numbered

/-! ## Nothing is held back outside a session -/

/--
The threads are numbered, those to be started too, and what one of them holds
back is held back during a session.
-/
structure Held (connection : Connection Db) : Prop where
  settled : connection.session.effects = []
  threads :
    ∀ stream, (connection.threads stream).isSome = true →
      stream < connection.session.streams
  ahead :
    ∀ stream rate, .startPlayer stream rate ∈ connection.effects →
      stream < connection.session.streams
  within :
    ∀ stream, connection.unsent stream = true →
      inSession connection.events = true

theorem held_initial
    (platform : Platform Db) (localIp peerIp : IpAddr) :
    Held (reporting platform localIp peerIp).initial where
  settled := rfl
  threads := fun _ isSome => nomatch isSome
  ahead := fun _ _ starts => absurd starts List.not_mem_nil
  within := fun _ unsent => nomatch unsent

section Steps

variable
    {platform : Platform Db}
    {connection next : Connection Db}

/-- A packet leaves something to send only if it is to be told of. -/
theorem untold_of_sending
    {stream : Nat} {ts : UInt32} {reporter : Reporter}
    (thread : connection.threads stream = some reporter)
    (idle : reporter.sending = none)
    (found :
      (reporter.played connection.anchor ts).sending.isSome = true) :
    connection.untold stream ts = true := by
  rw [Connection.untold, thread, Option.any_some]
  unfold Reporter.played at found
  split at found
  · rw [idle] at found
    cases found
  · next track anchor =>
      rw [anchor, Option.any_some]
      split at found
      · rw [idle] at found
        cases found
      · next elapsed duration inside =>
          rw [inside, Option.any_some]
          split at found
          · rw [idle] at found
            cases found
          · next anew => exact bne_iff_ne.mpr anew

/-- A packet that is to be told of leaves something to send. -/
theorem sending_of_untold
    {stream : Nat} {ts : UInt32} {reporter : Reporter}
    (thread : connection.threads stream = some reporter)
    (untold : connection.untold stream ts = true) :
    (reporter.played connection.anchor ts).sending.isSome = true := by
  rw [Connection.untold, thread, Option.any_some] at untold
  rcases (Option.any_eq_true _ _).mp untold with ⟨track, anchor, isInside⟩
  rcases (Option.any_eq_true _ _).mp isInside with
    ⟨⟨elapsed, duration⟩, inside, anew⟩
  rw [bne_iff_ne] at anew
  simp only [Reporter.played, anchor, inside, if_neg anew, Option.isSome_some]

/-- More is told; while something is held back a session stays open. -/
theorem Held.tell
    (held : Held connection)
    {event : Event Db}
    (stays :
      ∀ stream, connection.unsent stream = true →
        nowOpen (inSession connection.events) event = true) :
    Held { connection with events := connection.events ++ [event] } where
  settled := held.settled
  threads := held.threads
  ahead := held.ahead
  within := by
    intro stream unsent
    rw [inSession_append]
    exact stays stream unsent

theorem Held.operate
    (held : Held connection)
    {session : Session Db}
    (streams : connection.session.streams ≤ session.streams)
    (ahead :
      ∀ stream rate, .startPlayer stream rate ∈ session.effects →
        stream < session.streams) :
    Held (connection.operate session) where
  settled := rfl
  threads := fun stream isSome =>
    (held.threads stream isSome).trans_le streams
  ahead := ahead
  within := held.within

/-- The thread of a stream on record changes, and may hold something back. -/
theorem Held.update
    (held : Held connection)
    {stream : Nat} {thread : Option Reporter}
    (numbered :
      thread.isSome = true → stream < connection.session.streams)
    (within :
      thread.any (fun reporter => reporter.sending.isSome) = true →
        inSession connection.events = true) :
    Held
      { connection with
        threads := Function.update connection.threads stream thread } where
  settled := held.settled
  threads := by
    intro other isSome
    change
      (Function.update connection.threads stream thread other).isSome = true
        at isSome
    rcases eq_or_ne other stream with rfl | differs
    · rw [Function.update_self] at isSome
      exact numbered isSome
    · rw [Function.update_of_ne differs] at isSome
      exact held.threads other isSome
  ahead := held.ahead
  within := by
    intro other unsent
    change
      (Function.update connection.threads stream thread other).any _ = true
        at unsent
    rcases eq_or_ne other stream with rfl | differs
    · rw [Function.update_self] at unsent
      exact within unsent
    · rw [Function.update_of_ne differs] at unsent
      exact held.within other unsent

/-- The operation goes on after one of its effects. -/
theorem Held.rest
    (held : Held connection)
    {effect : Effect Db} {rest : List (Effect Db)}
    (effects : connection.effects = effect :: rest) :
    Held { connection with effects := rest } where
  settled := held.settled
  threads := held.threads
  ahead := by
    intro stream rate starts
    apply held.ahead stream rate
    rw [effects]
    exact List.mem_cons_of_mem _ starts
  within := held.within

/-- Nothing held back outlasts the session. -/
theorem Held.stays
    (held : Held connection)
    (timely : Timely connection .effect)
    {event : Event Db} {rest : List (Effect Db)}
    (effects : connection.effects = .event event :: rest)
    {stream : Nat} (unsent : connection.unsent stream = true) :
    nowOpen (inSession connection.events) event = true := by
  have opened := held.within stream unsent
  cases event with
  | sessionStarted => rfl
  | sessionEnded =>
      have ends : connection.ending = true := by
        rw [Connection.ending, effects]
      have numbered : stream < connection.session.streams :=
        held.threads stream (Option.isSome_of_any unsent)
      rw [timely ends stream numbered] at unsent
      cases unsent
  | _ => exact opened

theorem held_effect
    (held : Held connection)
    (timely : Timely connection .effect)
    (stepped : step platform connection .effect = some next) :
    Held next := by
  cases reporting_cases stepped with
  | effect effect rest performed effects isPerformed =>
      cases effect with
      | event event =>
          cases isPerformed
          exact
            (held.rest effects).tell fun _ unsent =>
              held.stays timely effects unsent
      | startPlayer stream rate =>
          cases isPerformed
          have numbered : stream < connection.session.streams := by
            apply held.ahead stream rate
            rw [effects]
            exact List.mem_cons_self
          exact
            (held.rest effects).update (fun _ => numbered)
              fun unsent => nomatch unsent
      | closeSink stream =>
          rw [Connection.perform, Option.ite_none_left_eq_some]
            at isPerformed
          rcases isPerformed with ⟨-, isPerformed⟩
          cases isPerformed
          exact
            (held.rest effects).update (fun isSome => nomatch isSome)
              fun unsent => nomatch unsent
      | _ =>
          cases isPerformed
          have after := held.rest effects
          exact ⟨after.settled, after.threads, after.ahead, after.within⟩

/-- A step that is timely leaves nothing held back outside a session. -/
theorem held_step
    (held : Held connection)
    {act : Act} (timely : Timely connection act)
    (stepped : step platform connection act = some next) :
    Held next := by
  cases reporting_cases stepped with
  | request request ports isOpen finished =>
      exact
        held.operate (streams_le_dispatched platform _ ports request)
          fun _ _ starts => startPlayer_dispatched held.settled starts
  | close isOpen finished =>
      have none (stream rate : Nat) :
          .startPlayer stream rate ∉ connection.session.drop.effects := by
        intro starts
        have before := startPlayer_drop starts
        rw [held.settled] at before
        cases before
      have after :=
        held.operate (streams_drop connection.session).ge
          fun stream rate starts => absurd starts (none stream rate)
      exact ⟨after.settled, after.threads, after.ahead, after.within⟩
  | effect => exact held_effect held timely stepped
  | played stream ts reporter thread idle =>
      apply held.update fun _ => held.threads stream (thread ▸ rfl)
      exact fun found => timely (untold_of_sending thread idle found)
  | report stream reporter elapsed duration thread found =>
      have after :
          Held
            (connection.setThread stream
              { reporter with sending := none }) :=
        held.update (fun _ => held.threads stream (thread ▸ rfl))
          fun unsent => nomatch unsent
      exact after.tell fun other unsent => after.within other unsent

end Steps

end OpenAirplay2.Reporting

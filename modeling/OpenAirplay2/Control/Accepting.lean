import OpenAirplay2.Control.Gate
import OpenAirplay2.Lib.History

/-!
# The control connections together

The server has a number of permits and gives one to each connection it
accepts, until the connection's task ends; without a permit a connection is
dropped at once.  An unpaired connection may take only so long over a
request.  Beyond that the connections have nothing to do with each other:
each runs its own request loop.

A request is handled at one moment, and a timer that is due fires before time
goes on.
-/

namespace OpenAirplay2.Control.Accepting

open OpenAirplay2.Lib.Transition

variable {Db : Type}

/-! ## The server -/

def maxConnections : Nat := 32

/-- In milliseconds. -/
def handshakeTimeout : Nat := 10000

/-- The task of a connection. -/
structure Task (Db : Type) where
  id : Nat
  context : Context Db
  connection : Connection Db
  /-- When it began to wait for the next request. -/
  since : Nat

structure Server (Db : Type) where
  /-- The permits of the semaphore that are left. -/
  permits : Nat
  tasks : List (Task Db)
  /-- How many connections have been accepted. -/
  accepted : Nat
  now : Nat

/-- The handshake timeout of the connection has run out. -/
def Task.due (now : Nat) (task : Task Db) : Bool :=
  !task.connection.conn.isEncrypted &&
    decide (task.since + handshakeTimeout ≤ now)

namespace Server

def new : Server Db where
  permits := maxConnections
  tasks := []
  accepted := 0
  now := 0

def find (server : Server Db) (id : Nat) : Option (Task Db) :=
  server.tasks.find? (·.id == id)

/-- The task handles a request and waits for the next. -/
def handle (server : Server Db) (id : Nat) (input : Input) : Server Db :=
  { server with
    tasks :=
      server.tasks.map fun task =>
        if task.id = id then
          { task with
            connection := task.connection.handle task.context input
            since := server.now }
        else task }

/-- The task ends and its permit is released. -/
def finish (server : Server Db) (id : Nat) : Server Db :=
  { server with
    permits := server.permits + 1
    tasks := server.tasks.eraseP (·.id == id) }

/-- `try_acquire_owned`, and the task of the connection. -/
def accept (shared : Context Db) (localIp peerIp : IpAddr)
    (server : Server Db) : Server Db :=
  if server.permits = 0 then server
  else
    let context := { shared with localIp := localIp, peerIp := peerIp }
    { server with
      permits := server.permits - 1
      tasks :=
        server.tasks ++
          [{ id := server.accepted
             context := context
             connection := Connection.new context
             since := server.now }]
      accepted := server.accepted + 1 }

end Server

/-- What can happen to the server. -/
inductive Act where
  | accept (localIp peerIp : IpAddr)
  | request (id : Nat) (input : Input)
  /-- The peer hangs up, an error, or another sender takes over. -/
  | close (id : Nat)
  /-- The handshake timeout of a connection fires. -/
  | expire (id : Nat)
  /-- A millisecond passes. -/
  | tick

def step (shared : Context Db) (server : Server Db) :
    Act → Option (Server Db)
  | .accept localIp peerIp => some (server.accept shared localIp peerIp)
  | .request id input =>
      (server.find id).map fun _ => server.handle id input
  | .close id => (server.find id).map fun _ => server.finish id
  | .expire id =>
      (server.find id).bind fun task =>
        if task.due server.now then some (server.finish id) else none
  | .tick =>
      if server.tasks.any (Task.due server.now) then none
      else some { server with now := server.now + 1 }

def system (shared : Context Db) : System (Server Db) Act where
  initial := Server.new
  step := step shared

/-! ## Permits and timers -/

/-- What holds of the server at any moment. -/
structure Sound (server : Server Db) : Prop where
  permits : server.permits + server.tasks.length = maxConnections
  distinct : (server.tasks.map Task.id).Nodup
  below : ∀ task ∈ server.tasks, task.id < server.accepted
  started : ∀ task ∈ server.tasks, task.since ≤ server.now
  inTime :
    ∀ task ∈ server.tasks, task.connection.conn.isEncrypted = false →
      server.now ≤ task.since + handshakeTimeout

theorem sound_new : Sound (Server.new : Server Db) where
  permits := rfl
  distinct := List.nodup_nil
  below _ isTask := nomatch isTask
  started _ isTask := nomatch isTask
  inTime _ isTask := nomatch isTask

section Steps

variable
    {shared : Context Db}
    {server next : Server Db}

theorem Sound.accept
    (sound : Sound server) (localIp peerIp : IpAddr) :
    Sound (server.accept shared localIp peerIp) := by
  rw [Server.accept]
  by_cases full : server.permits = 0
  · rw [if_pos full]
    exact sound
  · rw [if_neg full]
    have permits := sound.permits
    refine
      { permits := ?_
        distinct := ?_
        below := ?_
        started := ?_
        inTime := ?_ }
    · simp only [List.length_append, List.length_singleton]
      omega
    · rw [List.map_append, List.nodup_append]
      refine ⟨sound.distinct, List.nodup_singleton _, ?_⟩
      intro id isOld other isNew
      rcases List.mem_map.mp isOld with ⟨task, isTask, rfl⟩
      rw [List.mem_singleton.mp isNew]
      exact (sound.below task isTask).ne
    · intro task isTask
      rcases List.mem_append.mp isTask with old | new
      · exact Nat.lt_succ_of_lt (sound.below task old)
      · rw [List.mem_singleton.mp new]
        exact Nat.lt_succ_self _
    · intro task isTask
      rcases List.mem_append.mp isTask with old | new
      · exact sound.started task old
      · rw [List.mem_singleton.mp new]
    · intro task isTask clear
      rcases List.mem_append.mp isTask with old | new
      · exact sound.inTime task old clear
      · rw [List.mem_singleton.mp new]
        exact Nat.le_add_right _ _

theorem ids_handle (id : Nat) (input : Input) :
    (server.handle id input).tasks.map Task.id =
      server.tasks.map Task.id := by
  rw [Server.handle, List.map_map]
  apply List.map_congr_left
  intro task _
  simp only [Function.comp_apply]
  split_ifs <;> rfl

theorem mem_handle
    {id : Nat} {input : Input} {task : Task Db}
    (isTask : task ∈ (server.handle id input).tasks) :
    ∃ before ∈ server.tasks, before.id = task.id ∧
      before.context = task.context ∧
      (task.id ≠ id ∧ task = before ∨
        task.id = id ∧ task.since = server.now ∧
          task.connection =
            before.connection.handle before.context input) := by
  rcases List.mem_map.mp isTask with ⟨before, isBefore, rfl⟩
  refine ⟨before, isBefore, ?_⟩
  by_cases same : before.id = id
  · rw [if_pos same]
    exact ⟨rfl, rfl, Or.inr ⟨same, rfl, rfl⟩⟩
  · rw [if_neg same]
    exact ⟨rfl, rfl, Or.inl ⟨same, rfl⟩⟩

theorem Sound.handle
    (sound : Sound server) (id : Nat) (input : Input) :
    Sound (server.handle id input) where
  permits := by
    show server.permits + (server.tasks.map _).length = _
    rw [List.length_map]
    exact sound.permits
  distinct := by
    rw [ids_handle]
    exact sound.distinct
  below task isTask := by
    rcases mem_handle isTask with ⟨before, isBefore, same, _⟩
    rw [← same]
    exact sound.below before isBefore
  started task isTask := by
    rcases mem_handle isTask with
      ⟨before, isBefore, _, _, ⟨_, rfl⟩ | ⟨_, isNow, _⟩⟩
    · exact sound.started task isBefore
    · rw [isNow]
      exact le_refl server.now
  inTime task isTask clear := by
    rcases mem_handle isTask with
      ⟨before, isBefore, _, _, ⟨_, rfl⟩ | ⟨_, isNow, _⟩⟩
    · exact sound.inTime task isBefore clear
    · rw [isNow]
      exact Nat.le_add_right _ _

theorem find_eq_some
    {id : Nat} {task : Task Db} (found : server.find id = some task) :
    task ∈ server.tasks ∧ task.id = id :=
  ⟨List.mem_of_find?_eq_some found, by
    simpa using List.find?_some found⟩

theorem mem_finish
    {id : Nat} {task : Task Db} (isTask : task ∈ (server.finish id).tasks) :
    task ∈ server.tasks :=
  List.mem_of_mem_eraseP isTask

theorem Sound.finish
    (sound : Sound server) {id : Nat} {task : Task Db}
    (found : server.find id = some task) :
    Sound (server.finish id) where
  permits := by
    rcases find_eq_some found with ⟨isTask, isId⟩
    have length :=
      List.length_eraseP_of_mem (p := (·.id == id)) isTask
        (by simpa using isId)
    have some := List.length_pos_of_mem isTask
    have permits := sound.permits
    show server.permits + 1 + (server.tasks.eraseP _).length = _
    omega
  distinct :=
    sound.distinct.sublist (List.eraseP_sublist.map Task.id)
  below task isTask := sound.below task (mem_finish isTask)
  started task isTask := sound.started task (mem_finish isTask)
  inTime task isTask := sound.inTime task (mem_finish isTask)

theorem Sound.tick
    (sound : Sound server)
    (none : ¬server.tasks.any (Task.due server.now) = true) :
    Sound { server with now := server.now + 1 } where
  permits := sound.permits
  distinct := sound.distinct
  below := sound.below
  started task isTask := Nat.le_succ_of_le (sound.started task isTask)
  inTime task isTask clear := by
    by_contra late
    apply none
    rw [List.any_eq_true]
    refine ⟨task, isTask, ?_⟩
    have bound : ¬server.now + 1 ≤ task.since + handshakeTimeout := late
    simp only [Task.due, clear, Bool.not_false, Bool.true_and,
      decide_eq_true_eq]
    omega

theorem Sound.step
    {act : Act} (sound : Sound server)
    (stepped : step shared server act = some next) :
    Sound next := by
  cases act with
  | accept localIp peerIp =>
      rw [← Option.some.inj stepped]
      exact sound.accept localIp peerIp
  | request id input =>
      rcases Option.map_eq_some_iff.mp stepped with ⟨_, _, rfl⟩
      exact sound.handle id input
  | close id =>
      rcases Option.map_eq_some_iff.mp stepped with ⟨_, found, rfl⟩
      exact sound.finish found
  | expire id =>
      rcases Option.bind_eq_some_iff.mp stepped with ⟨_, found, fired⟩
      split_ifs at fired
      rw [← Option.some.inj fired]
      exact sound.finish found
  | tick =>
      simp only [Accepting.step] at stepped
      split_ifs at stepped with none
      rw [← Option.some.inj stepped]
      exact sound.tick none

theorem sound_of_reached
    {schedule : List Act}
    (reached :
      (system shared).exec Server.new schedule = some server) :
    Sound server :=
  System.invariant_of_reached Sound
    (fun _ _ _ sound stepped => sound.step stepped) sound_new reached

/-- At every moment at most so many connections are alive, and a peer is
refused exactly when they all are. -/
theorem refused_iff_full
    {schedule : List Act}
    (reached :
      (system shared).exec Server.new schedule = some server)
    (localIp peerIp : IpAddr) :
    server.tasks.length ≤ maxConnections ∧
      (server.accept shared localIp peerIp = server ↔
        server.tasks.length = maxConnections) ∧
      (server.tasks.length < maxConnections →
        (server.accept shared localIp peerIp).tasks =
          server.tasks ++
            [{ id := server.accepted
               context :=
                 { shared with localIp := localIp, peerIp := peerIp }
               connection :=
                 Connection.new
                   { shared with localIp := localIp, peerIp := peerIp }
               since := server.now }]) := by
  have permits := (sound_of_reached reached).permits
  refine ⟨by omega, ?_, ?_⟩
  · rw [Server.accept]
    by_cases full : server.permits = 0
    · rw [if_pos full]
      exact iff_of_true rfl (by omega)
    · rw [if_neg full]
      refine iff_of_false ?_ (by omega)
      intro same
      have grown := congrArg Server.accepted same
      exact absurd grown (Nat.succ_ne_self server.accepted)
  · intro room
    rw [Server.accept, if_neg (by omega)]

/-- As many peers as there are permits. -/
def crowd : List Act :=
  List.replicate maxConnections (.accept ⟨"192.0.2.1"⟩ ⟨"192.0.2.9"⟩)

theorem refused_iff_full_crowd :
    ∃ server, (system bareContext).exec Server.new crowd = some server ∧
      server.accept bareContext ⟨"192.0.2.1"⟩ ⟨"192.0.2.2"⟩ = server := by
  have full :
      ((system bareContext).exec Server.new crowd).map
          (fun server => server.tasks.length) =
        some maxConnections := by
    decide +kernel
  rcases Option.map_eq_some_iff.mp full with ⟨server, reached, isFull⟩
  exact
    ⟨server, reached,
      (refused_iff_full reached ⟨"192.0.2.1"⟩ ⟨"192.0.2.2"⟩).2.1.mpr
        isFull⟩

/-! ## Connections that say nothing -/

/-- A task that handles nothing is as it was. -/
theorem mem_of_step
    {act : Act} {id : Nat} {task : Task Db}
    (stepped : step shared server act = some next)
    (silent : ∀ input, act ≠ .request id input)
    (known : id < server.accepted)
    (isTask : task ∈ next.tasks) (isId : task.id = id) :
    task ∈ server.tasks := by
  cases act with
  | accept localIp peerIp =>
      rw [← Option.some.inj stepped, Server.accept] at isTask
      split_ifs at isTask
      · exact isTask
      · rcases List.mem_append.mp isTask with old | new
        · exact old
        · rw [List.mem_singleton.mp new] at isId
          exact absurd isId known.ne'
  | request other input =>
      rcases Option.map_eq_some_iff.mp stepped with ⟨_, _, rfl⟩
      rcases mem_handle isTask with
        ⟨before, isBefore, _, _, ⟨_, rfl⟩ | ⟨same, _⟩⟩
      · exact isBefore
      · rw [isId] at same
        exact absurd (same ▸ rfl) (silent input)
  | close other =>
      rcases Option.map_eq_some_iff.mp stepped with ⟨_, _, rfl⟩
      exact mem_finish isTask
  | expire other =>
      rcases Option.bind_eq_some_iff.mp stepped with ⟨_, _, fired⟩
      split_ifs at fired
      rw [← Option.some.inj fired] at isTask
      exact mem_finish isTask
  | tick =>
      simp only [Accepting.step] at stepped
      split_ifs at stepped
      rw [← Option.some.inj stepped] at isTask
      exact isTask

theorem accepted_le_of_step
    {act : Act} (stepped : step shared server act = some next) :
    server.accepted ≤ next.accepted := by
  cases act with
  | accept localIp peerIp =>
      rw [← Option.some.inj stepped, Server.accept]
      split_ifs
      · exact le_refl _
      · exact Nat.le_succ _
  | request id input =>
      rcases Option.map_eq_some_iff.mp stepped with ⟨_, _, rfl⟩
      exact le_refl _
  | close id =>
      rcases Option.map_eq_some_iff.mp stepped with ⟨_, _, rfl⟩
      exact le_refl _
  | expire id =>
      rcases Option.bind_eq_some_iff.mp stepped with ⟨_, _, fired⟩
      split_ifs at fired
      rw [← Option.some.inj fired]
      exact le_refl _
  | tick =>
      simp only [Accepting.step] at stepped
      split_ifs at stepped
      rw [← Option.some.inj stepped]

theorem mem_of_exec
    {schedule : List Act} {id : Nat} {task : Task Db}
    (reached : (system shared).exec server schedule = some next)
    (silent : ∀ act ∈ schedule, ∀ input, act ≠ .request id input)
    (known : id < server.accepted)
    (isTask : task ∈ next.tasks) (isId : task.id = id) :
    task ∈ server.tasks := by
  induction schedule generalizing server with
  | nil =>
      rw [System.exec_nil, Option.some.injEq] at reached
      rw [reached]
      exact isTask
  | cons act rest induction =>
      rw [System.exec_cons_iff] at reached
      rcases reached with ⟨middle, stepped, reachedRest⟩
      rw [List.forall_mem_cons] at silent
      have isMiddle :=
        induction reachedRest silent.2
          (known.trans_le (accepted_le_of_step stepped))
      exact mem_of_step stepped silent.1 known isMiddle isId

/-- Time goes on up to the next timer. -/
theorem exec_ticks
    (count : Nat) (server : Server Db)
    (early :
      ∀ task ∈ server.tasks, task.connection.conn.isEncrypted = false →
        server.now + count ≤ task.since + handshakeTimeout) :
    (system shared).exec server (List.replicate count .tick) =
      some { server with now := server.now + count } := by
  induction count generalizing server with
  | zero => rfl
  | succ count induction =>
      rw [List.replicate_succ, System.exec_cons_iff]
      refine ⟨{ server with now := server.now + 1 }, ?_, ?_⟩
      · show (if server.tasks.any (Task.due server.now) then none
          else some _) = _
        rw [if_neg]
        intro isDue
        rcases List.any_eq_true.mp isDue with ⟨task, isTask, due⟩
        simp only [Task.due, Bool.and_eq_true, Bool.not_eq_true',
          decide_eq_true_eq] at due
        have bound := early task isTask due.1
        omega
      · rw [induction]
        · simp only [Option.some.injEq, Server.mk.injEq, true_and]
          omega
        · intro task isTask clear
          have bound := early task isTask clear
          show server.now + 1 + count ≤ _
          omega

/-- A peer that connects and says nothing until its timeout fires. -/
def silence : List Act :=
  List.replicate handshakeTimeout .tick ++ [.expire 0, .tick]

/-! ## Each connection by itself -/

/-- The requests of one connection, in order. -/
def asked (id : Nat) (schedule : List Act) : List Input :=
  schedule.filterMap fun act =>
    match act with
    | .request other input => if other = id then some input else none
    | _ => none

/-- The requests of a connection do not concern one that is yet to come. -/
structure Alone
    (shared : Context Db) (server : Server Db) (acts : List Act) :
    Prop where
  task :
    ∀ task ∈ server.tasks,
      task.context =
          { shared with
            localIp := task.context.localIp
            peerIp := task.context.peerIp } ∧
        (requestLoop task.context).exec (Connection.new task.context)
            (asked task.id acts) =
          some task.connection
  fresh : ∀ id, server.accepted ≤ id → asked id acts = []

theorem asked_append (id : Nat) (before after : List Act) :
    asked id (before ++ after) = asked id before ++ asked id after :=
  List.filterMap_append

theorem asked_request_of_ne
    {id other : Nat} (differ : other ≠ id) (input : Input) :
    asked id [.request other input] = [] := by
  simp [asked, differ]

/-- A task that does nothing stays alone. -/
theorem Alone.still
    {acts : List Act} (alone : Alone shared server acts)
    {act : Act} (silent : ∀ id, asked id [act] = [])
    (accepted : server.accepted = next.accepted)
    (within : ∀ task ∈ next.tasks, task ∈ server.tasks) :
    Alone shared next (acts ++ [act]) where
  task task isTask := by
    rw [asked_append, silent, List.append_nil]
    exact alone.task task (within task isTask)
  fresh id above := by
    rw [asked_append, silent, List.append_nil]
    exact alone.fresh id (accepted ▸ above)

theorem Alone.accept
    {acts : List Act} (alone : Alone shared server acts)
    (localIp peerIp : IpAddr) :
    Alone shared (server.accept shared localIp peerIp)
      (acts ++ [.accept localIp peerIp]) := by
  rw [Server.accept]
  split_ifs with full
  · exact alone.still (fun _ => rfl) rfl fun _ isTask => isTask
  · constructor
    · intro task isTask
      rw [asked_append]
      rcases List.mem_append.mp isTask with old | new
      · rw [show asked task.id [Act.accept localIp peerIp] = [] from rfl,
          List.append_nil]
        exact alone.task task old
      · rw [List.mem_singleton.mp new, alone.fresh _ (le_refl _)]
        exact ⟨rfl, rfl⟩
    · intro id above
      rw [asked_append, alone.fresh id (Nat.le_of_succ_le above)]
      rfl

theorem Alone.handle
    {acts : List Act} (alone : Alone shared server acts)
    {id : Nat} (known : id < server.accepted) (input : Input) :
    Alone shared (server.handle id input)
      (acts ++ [.request id input]) where
  task task isTask := by
    rcases mem_handle isTask with
      ⟨before, isBefore, sameId, sameContext, ⟨other, rfl⟩ |
        ⟨isId, _, isConnection⟩⟩
    · rw [asked_append, asked_request_of_ne (Ne.symm other),
        List.append_nil]
      exact alone.task task isBefore
    · rcases alone.task before isBefore with ⟨isContext, ran⟩
      rw [sameContext] at isContext ran isConnection
      rw [sameId] at ran
      refine ⟨isContext, ?_⟩
      have now : asked task.id [Act.request id input] = [input] := by
        simp [asked, isId]
      rw [asked_append, now, System.exec_append_iff]
      refine ⟨before.connection, ran, ?_⟩
      rw [isConnection]
      rfl
  fresh other above := by
    have differ : id ≠ other :=
      Nat.ne_of_lt (known.trans_le above)
    rw [asked_append, alone.fresh other above,
      asked_request_of_ne differ]
    rfl

theorem Alone.step
    {acts : List Act} {act : Act}
    (alone : Alone shared server acts) (sound : Sound server)
    (stepped : Accepting.step shared server act = some next) :
    Alone shared next (acts ++ [act]) := by
  cases act with
  | accept localIp peerIp =>
      rw [← Option.some.inj stepped]
      exact alone.accept localIp peerIp
  | request id input =>
      rcases Option.map_eq_some_iff.mp stepped with ⟨task, found, rfl⟩
      rcases find_eq_some found with ⟨isTask, isId⟩
      exact alone.handle (isId ▸ sound.below task isTask) input
  | close id =>
      rcases Option.map_eq_some_iff.mp stepped with ⟨_, _, rfl⟩
      exact alone.still (fun _ => rfl) rfl fun _ => mem_finish
  | expire id =>
      rcases Option.bind_eq_some_iff.mp stepped with ⟨_, _, fired⟩
      split_ifs at fired
      rw [← Option.some.inj fired]
      exact alone.still (fun _ => rfl) rfl fun _ => mem_finish
  | tick =>
      simp only [Accepting.step] at stepped
      split_ifs at stepped
      rw [← Option.some.inj stepped]
      exact alone.still (fun _ => rfl) rfl fun _ isTask => isTask

theorem alone_of_exec
    {acts schedule : List Act}
    (alone : Alone shared server acts) (sound : Sound server)
    (reached : (system shared).exec server schedule = some next) :
    Alone shared next (acts ++ schedule) := by
  induction schedule generalizing server acts with
  | nil =>
      rw [System.exec_nil, Option.some.injEq] at reached
      rw [← reached, List.append_nil]
      exact alone
  | cons act rest induction =>
      rw [System.exec_cons_iff] at reached
      rcases reached with ⟨middle, stepped, reachedRest⟩
      have later :=
        induction (alone.step sound stepped) (sound.step stepped)
          reachedRest
      rw [List.append_assoc] at later
      exact later

/-- A channel that is in the clear was never encrypted. -/
theorem clear_of_handle
    {context : Context Db} {connection : Connection Db} {input : Input}
    (clear :
      (connection.handle context input).conn.isEncrypted = false) :
    connection.conn.isEncrypted = false := by
  rcases handle_cases context connection input with
    ⟨response, -, ⟨conn, -⟩ | ⟨key, -, -, conn, -⟩⟩
  · rw [conn, isEncrypted_write] at clear
    exact clear
  · rw [conn] at clear
    simp [ControlConnection.isEncrypted,
      ControlConnection.enableEncryption] at clear

/-- While the channel is in the clear nothing is done for the peer. -/
theorem untouched_of_exec
    {context : Context Db} {connection final : Connection Db}
    {inputs : List Input}
    (noSlip : ∀ input ∈ inputs, ¬Slips input.request)
    (untouched :
      connection.conn.isEncrypted = false →
        Untouched context connection)
    (reached :
      (requestLoop context).exec connection inputs = some final)
    (clear : final.conn.isEncrypted = false) :
    Untouched context final := by
  induction inputs generalizing connection with
  | nil =>
      rw [System.exec_nil, Option.some.injEq] at reached
      rw [← reached] at clear ⊢
      exact untouched clear
  | cons input rest induction =>
      rw [System.exec_cons_iff] at reached
      rcases reached with ⟨next, stepped, reachedRest⟩
      cases stepped
      rw [List.forall_mem_cons] at noSlip
      apply induction noSlip.2 _ reachedRest
      intro stillClear
      have before := clear_of_handle stillClear
      exact untouched_handle context (untouched before) before noSlip.1

/-- Two peers that take turns. -/
def turns : List Act :=
  [.accept ⟨"192.0.2.1"⟩ ⟨"192.0.2.2"⟩,
    .accept ⟨"192.0.2.1"⟩ ⟨"192.0.2.3"⟩,
    .request 1 (plainInput "GET" "/info"),
    .request 0 (plainInput "SETUP" "rtsp://x/1"), .tick,
    .request 1 (plainInput "POST" "/feedback")]

end Steps

end OpenAirplay2.Control.Accepting

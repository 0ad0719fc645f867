import OpenAirplay2.Control.Server

/-!
# The gate in front of the session

Until pairing is through, a connection may ask for `/info` and use the
`/pair-` endpoints.  The gate knows these by their target; the session behind
it goes by the method alone.  A session method on a `/pair-` target is let in
by the one and carried out by the other.
-/

namespace OpenAirplay2.Control

open OpenAirplay2.Lib.Str
open OpenAirplay2.Lib.Transition

variable {Db : Type}

/-- `GET /info`, or a `/pair-` endpoint that is no session operation. -/
def Exempt (request : Request) : Prop :=
  (request.method = "GET" ∧ request.target = "/info") ∨
    (startsWith request.target "/pair-" = true ∧
      Operation.ofMethod request.method = none)

/-- A session method on a `/pair-` target. -/
def Slips (request : Request) : Prop :=
  startsWith request.target "/pair-" = true ∧
    Operation.ofMethod request.method ≠ none

/--
Nothing was done for the peer: no claim, no session operation, a session as
it was created, with no event among its effects, and 403 for everything but
the exempt requests.
-/
structure Untouched
    (context : Context Db) (connection : Connection Db) : Prop where
  claims : connection.claims = 0
  operations : connection.operations = []
  session :
    connection.session =
      Session.new context.platform context.localIp context.peerIp
  refused :
    ∀ answer ∈ connection.answers,
      ¬ Exempt answer.1 → answer.2.status = 403

/-- No session key was handed out to the connection yet. -/
def Unpaired (connection : Connection Db) : Prop :=
  connection.secrets = []

instance (connection : Connection Db) : Decidable (Unpaired connection) :=
  inferInstanceAs (Decidable (connection.secrets = []))

/-- The channel is encrypted exactly when a key was handed out. -/
def KeysInstalled (connection : Connection Db) : Prop :=
  connection.conn.isEncrypted = false ↔ Unpaired connection

section Handle

variable (context : Context Db)

theorem keysInstalled_handle
    {connection : Connection Db}
    (installed : KeysInstalled connection) (input : Input) :
    KeysInstalled (connection.handle context input) := by
  rcases handle_cases context connection input with
    ⟨response, -, ⟨conn, secrets⟩ | ⟨key, -, -, conn, secrets⟩⟩
  · simpa [KeysInstalled, Unpaired, conn, secrets] using installed
  · simp [KeysInstalled, Unpaired, conn, secrets,
      ControlConnection.isEncrypted, ControlConnection.enableEncryption]

/-- A method that is no session operation claims nothing. -/
theorem claim_of_ofMethod_none
    {connection : Connection Db} {input : Input}
    (stateless : Operation.ofMethod input.request.method = none) :
    connection.claim input = connection := by
  have noSetup : input.request.method ≠ "SETUP" := by
    intro setup
    rw [setup] at stateless
    exact nomatch stateless
  rw [Connection.claim, if_neg noSetup]

theorem handleDispatched_of_ofMethod_none
    {connection : Connection Db} {input : Input}
    (stateless : Operation.ofMethod input.request.method = none) :
    connection.handleDispatched context input =
      connection.respond context input.request
        (dispatch context.infoPlist input.request) := by
  simp only [Connection.handleDispatched,
    claim_of_ofMethod_none stateless, dispatchSession, stateless,
    Option.map_none]

/-- What the gate lets through is exempt or slips. -/
theorem exempt_of_allowedInClear
    {request : Request}
    (allowed : allowedInClear request = true)
    (noSlip : ¬ Slips request) :
    Exempt request := by
  simp only [allowedInClear, Bool.or_eq_true, Bool.and_eq_true,
    beq_iff_eq] at allowed
  rcases allowed with info | pairing
  · exact Or.inl info
  · refine Or.inr ⟨pairing, ?_⟩
    by_contra session
    exact noSlip ⟨pairing, session⟩

theorem ofMethod_none_of_exempt
    {request : Request}
    (exempt : Exempt request) :
    Operation.ofMethod request.method = none := by
  rcases exempt with ⟨get, -⟩ | ⟨-, stateless⟩
  · rw [get]
    rfl
  · exact stateless

theorem exempt_of_pairing
    {request : Request}
    (post : request.method = "POST")
    (pairing : startsWith request.target "/pair-" = true) :
    Exempt request := by
  refine Or.inr ⟨pairing, ?_⟩
  rw [post]
  rfl

/-- What a request that does not slip does to an unpaired connection. -/
theorem handle_in_clear
    {connection : Connection Db} {input : Input}
    (clear : connection.conn.isEncrypted = false)
    (noSlip : ¬ Slips input.request) :
    let next := connection.handle context input
    next.claims = connection.claims ∧
      next.operations = connection.operations ∧
      next.session = connection.session ∧
      ∃ response,
        next.answers = connection.answers ++ [(input.request, response)] ∧
          (¬ Exempt input.request → response.status = 403) := by
  simp only [Connection.handle, clear]
  rcases route_cases false input.request with
    ⟨routed, post, target⟩ | ⟨routed, post, target⟩ |
      ⟨routed, -, -⟩ | ⟨routed, allowed⟩
  · have exempt : Exempt input.request :=
      exempt_of_pairing post (by rw [target]; decide)
    simp only [routed, Connection.handlePairSetup]
    split
    · exact ⟨rfl, rfl, rfl, _, rfl, fun other => absurd exempt other⟩
    · exact ⟨rfl, rfl, rfl, _, rfl, fun other => absurd exempt other⟩
    · exact ⟨rfl, rfl, rfl, _, rfl, fun other => absurd exempt other⟩
  · have exempt : Exempt input.request :=
      exempt_of_pairing post (by rw [target]; decide)
    simp only [routed]
    exact ⟨rfl, rfl, rfl, _, rfl, fun other => absurd exempt other⟩
  · simp only [routed]
    exact ⟨rfl, rfl, rfl, _, rfl, fun _ => by simp⟩
  · have exempt : Exempt input.request :=
      exempt_of_allowedInClear (allowed rfl) noSlip
    simp only [routed,
      handleDispatched_of_ofMethod_none context
        (ofMethod_none_of_exempt exempt)]
    exact ⟨rfl, rfl, rfl, _, rfl, fun other => absurd exempt other⟩

/-- A session operation answers 200 or 400. -/
theorem status_run
    (platform : Platform Db) (session : Session Db) (ports : Ports)
    (request : Request) (operation : Operation) :
    (operation.run platform session ports request).2.status = 200 ∨
      (operation.run platform session ports request).2.status = 400 := by
  cases operation with
  | handleSetup =>
      simp only [Operation.run]
      split
      · exact Or.inl rfl
      · exact Or.inr rfl
  | getParameter => exact Or.inl rfl
  | setParameter => exact Or.inl rfl
  | setRateAnchor => exact Or.inl rfl
  | flush => exact Or.inl rfl
  | teardown => exact Or.inl rfl
  | ack => exact Or.inl rfl

/-- A request that slips is carried out, whatever the state. -/
theorem handle_slips
    {connection : Connection Db} {input : Input}
    (slips : Slips input.request) :
    ∃ response,
      (connection.handle context input).answers =
          connection.answers ++ [(input.request, response)] ∧
        ¬ Exempt input.request ∧ response.status ≠ 403 := by
  have notExempt : ¬ Exempt input.request := by
    intro exempt
    exact slips.2 (ofMethod_none_of_exempt exempt)
  have noPost : input.request.method ≠ "POST" := by
    intro post
    apply slips.2
    rw [post]
    rfl
  have routed :
      route connection.conn.isEncrypted input.request = .dispatched := by
    rcases route_cases connection.conn.isEncrypted input.request with
      ⟨-, post, -⟩ | ⟨-, post, -⟩ | ⟨-, -, refused⟩ | ⟨routed, -⟩
    · exact absurd post noPost
    · exact absurd post noPost
    · simp [allowedInClear, slips.1] at refused
    · exact routed
  obtain ⟨operation, isOperation⟩ :=
    Option.ne_none_iff_exists'.mp slips.2
  simp only [Connection.handle, routed, Connection.handleDispatched,
    dispatchSession, isOperation, Option.map_some]
  refine
    ⟨_, congrArg (· ++ _) (answers_claim connection input), notExempt, ?_⟩
  rw [status_finalize]
  have status :=
    status_run context.platform (connection.claim input).session
      input.ports input.request operation
  omega

/-! ## Runs -/

/-- What was answered stays in the record. -/
theorem answers_exec
    {connection final : Connection Db} {inputs : List Input}
    (reached :
      (requestLoop context).exec connection inputs = some final) :
    connection.answers <+: final.answers := by
  induction inputs generalizing connection with
  | nil =>
      rw [System.exec_nil, Option.some.injEq] at reached
      rw [reached]
  | cons input rest induction =>
      rw [System.exec_cons_iff] at reached
      rcases reached with ⟨next, stepped, reachedRest⟩
      cases stepped
      rcases handle_cases context connection input with
        ⟨response, answered, -⟩
      have later := induction reachedRest
      rw [answered] at later
      exact (List.prefix_append _ _).trans later

theorem untouched_new : Untouched context (Connection.new context) where
  claims := rfl
  operations := rfl
  session := rfl
  refused := fun _ member => nomatch member

/-- One request that does not slip leaves the connection untouched. -/
theorem untouched_handle
    {connection : Connection Db} {input : Input}
    (untouched : Untouched context connection)
    (clear : connection.conn.isEncrypted = false)
    (noSlip : ¬ Slips input.request) :
    Untouched context (connection.handle context input) := by
  rcases handle_in_clear context clear noSlip with
    ⟨claims, operations, session, response, answers, refused⟩
  refine
    { claims := claims.trans untouched.claims
      operations := operations.trans untouched.operations
      session := session.trans untouched.session
      refused := ?_ }
  intro answer member
  rw [answers, List.mem_append, List.mem_singleton] at member
  rcases member with earlier | rfl
  · exact untouched.refused answer earlier
  · exact refused

/--
Before pairing is through nothing is done for a peer, whatever the requests,
exactly when none of them is a session method on a `/pair-` target.
-/
theorem unpaired_untouched_iff
    (inputs : List Input) (final : Connection Db)
    (unpaired :
      (requestLoop context).Meets
        (fun connection _ => Unpaired connection)
        (Connection.new context) inputs)
    (reached :
      (requestLoop context).exec (Connection.new context) inputs =
        some final) :
    Untouched context final ↔
      ∀ input ∈ inputs, ¬ Slips input.request := by
  constructor
  · intro untouched input member slips
    rcases List.append_of_mem member with ⟨before, after, rfl⟩
    rw [System.exec_append_iff] at reached
    rcases reached with ⟨middle, -, reachedRest⟩
    rw [System.exec_cons_iff] at reachedRest
    rcases reachedRest with ⟨next, stepped, reachedFinal⟩
    cases stepped
    rcases handle_slips context slips with
      ⟨response, answered, notExempt, accepted⟩
    have recorded :
        (input.request, response) ∈ final.answers := by
      apply (answers_exec context reachedFinal).subset
      rw [answered]
      exact List.mem_append_right _ List.mem_cons_self
    exact accepted (untouched.refused _ recorded notExempt)
  · intro noSlip
    have allowed :=
      unpaired.and
        (System.meets_of_forall_mem noSlip (Connection.new context))
    have kept :
        KeysInstalled final ∧ Untouched context final := by
      apply
        System.invariant_of_meets
          (fun connection =>
            KeysInstalled connection ∧ Untouched context connection)
          ?_ ?_ allowed reached
      · rintro connection input next ⟨installed, untouched⟩
          ⟨clear, harmless⟩ stepped
        cases stepped
        exact
          ⟨keysInstalled_handle context installed input,
            untouched_handle context untouched (installed.mpr clear)
              harmless⟩
      · exact
          ⟨by simp [KeysInstalled, Unpaired, Connection.new,
            ControlConnection.new, ControlConnection.isEncrypted],
            untouched_new context⟩
    exact kept.2

end Handle

/-! ## A request that slips through -/

/-- A context whose crates refuse everything. -/
def bareContext : Context Unit where
  platform :=
    { readPlist := fun _ => none
      writePlist := fun _ => none
      makesDecoder := fun _ _ => false
      ofInt := fun _ => ()
      parseDb := fun _ => none
      isFinite := fun _ => false
      clamp := fun db _ _ => db
      display := fun _ => "" }
  crypto :=
    { encrypt := fun _ _ _ plaintext => plaintext
      decrypt := fun _ _ _ _ => none
      hkdf := fun _ _ _ => Pairing.zeros 32 }
  sha512 := fun _ => Pairing.zeros 64
  password := none
  infoPlist := []
  localIp := ⟨"192.0.2.1"⟩
  peerIp := ⟨"192.0.2.2"⟩

/-- A request without headers or body, and nothing drawn or bound for it. -/
def plainInput (method target : String) : Input where
  request :=
    { method := method
      target := target
      protocol := "RTSP/1.0"
      headers := []
      body := [] }
  draws := Pairing.zeroDraws
  ports := ⟨none, none⟩
  guard := none

theorem unpaired_untouched_probing :
    Untouched bareContext
      ((Connection.new bareContext).handle bareContext
        (plainInput "SETUP" "rtsp://x/1")) :=
  (unpaired_untouched_iff bareContext [plainInput "SETUP" "rtsp://x/1"]
    _ ⟨rfl, fun _ _ => trivial⟩ rfl).mpr
      (by
        intro input member
        rw [List.mem_singleton] at member
        rw [member]
        rintro ⟨pairing, -⟩
        exact absurd pairing (by decide))

/-- A `SETUP` of `/pair-x` claims the active slot. -/
theorem setup_slips_through :
    ¬ ∀ (context : Context Unit) (inputs : List Input)
        (final : Connection Unit),
      (requestLoop context).Meets
          (fun connection _ => Unpaired connection)
          (Connection.new context) inputs →
        (requestLoop context).exec (Connection.new context) inputs =
            some final →
          Untouched context final := by
  intro claim
  have untouched :=
    claim bareContext [plainInput "SETUP" "/pair-x"] _
      ⟨rfl, fun _ _ => trivial⟩ rfl
  have claims := untouched.claims
  exact absurd claims (by decide)

end OpenAirplay2.Control

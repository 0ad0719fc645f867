import OpenAirplay2.Pairing.PairSetup

/-!
# When `pair-setup` completes

What a body can complete depends on the requests before it only through the
latest accepted M1: the open challenge is the server built for it, up to the
session key and the count of proofs, and the transient flag is its flag.  So
the exchange is done exactly with an M3 whose proof that server expects.
-/

namespace OpenAirplay2.Pairing

open OpenAirplay2.Lib.Transition

/-- The latest request whose body is an accepted M1. -/
def latestM1 (requests : List Request) : Option Request :=
  (requests.filter fun request => bodyKind request.body = .start).getLast?

theorem latestM1_concat
    (requests : List Request) (request : Request) :
    latestM1 (requests ++ [request]) =
      if bodyKind request.body = .start then some request
      else latestM1 requests := by
  unfold latestM1
  rw [List.filter_append, List.filter_singleton]
  split_ifs with start
  · rw [decide_eq_true start, cond_true, List.getLast?_concat]
  · rw [decide_eq_false start, cond_false, List.append_nil]

/-- The body carries the transient flag. -/
def transientFlag (body : Bytes) : Bool :=
  (Tlv.decode body).any fun request =>
    ((request.get Ty.flags).bind List.head?).any
      fun byte => byte &&& flagTransient != 0

/-- What a server answers with: everything but its key and its count. -/
def SrpServer.challenge (server : SrpServer) : SrpServer :=
  { server with sessionKey := none, checked := 0 }

/-- A server as the source has it, without the count. -/
def SrpServer.uncounted (server : SrpServer) : SrpServer :=
  { server with checked := 0 }

section Completion

variable (sha512 : Bytes → Digest)

/-- The server behind the reply to an accepted M1. -/
def Request.server (password : Option String) (request : Request) :
    SrpServer :=
  SrpServer.new sha512 (password.getD pairSetupPin) request.draws

/-! ## One request -/

/-- The proof expected does not depend on the key or the count. -/
theorem expectedM1_challenge (server : SrpServer) (a : Nat) :
    server.challenge.expectedM1 sha512 a = server.expectedM1 sha512 a :=
  rfl

/-- Checking a proof does not change the challenge. -/
theorem challenge_verify
    (server : SrpServer) (aBytes m1 : Bytes) :
    (server.verify sha512 aBytes m1).1.challenge = server.challenge := by
  simp only [SrpServer.verify]
  split
  · rfl
  · split <;> rfl

/-- A proof that is refused leaves the server as it was. -/
theorem uncounted_verify
    {server checked : SrpServer} {aBytes m1 : Bytes}
    (refused : server.verify sha512 aBytes m1 = (checked, none)) :
    checked.uncounted = server.uncounted := by
  simp only [SrpServer.verify] at refused
  split at refused
  · cases refused
    rfl
  · split at refused
    · cases refused
    · cases refused
      rfl

/-- What completes the exchange, read off the body and the open challenge. -/
theorem completedKey_eq_some
    {setup : PairSetup} {body : Bytes} {key : Digest} :
    completedKey sha512 setup body = some key ↔
      ∃ request srp a m1,
        (Tlv.decode body = some request ∧ setup.srp = some srp ∧
          request.getU8 Ty.state = some 3 ∧
            request.get Ty.publicKey = some a ∧
              request.get Ty.proof = some m1 ∧
                fromBytesBe a % groupN ≠ 0 ∧ setup.transient = true ∧
                  m1 = (srp.expectedM1 sha512 (fromBytesBe a)).1) ∧
          key = srp.sessionKeyFor sha512 (fromBytesBe a) := by
  constructor
  · intro completes
    unfold completedKey at completes
    split at completes
    · next request srp decoded opened =>
        split at completes
        · next a m1 state publicKey proof =>
            split at completes
            · next holds =>
                rcases holds with ⟨unit, transient, expected⟩
                cases completes
                rw [constantTimeEq_iff] at expected
                exact
                  ⟨request, srp, a, m1,
                    ⟨decoded, opened, state, publicKey, proof, unit,
                      transient, expected.symm⟩,
                    rfl⟩
            · cases completes
        · cases completes
    · cases completes
  · rintro
      ⟨request, srp, a, m1,
        ⟨decoded, opened, state, publicKey, proof, unit, transient, rfl⟩,
        rfl⟩
    simp only [completedKey, decoded, opened, state, publicKey, proof]
    rw [if_pos ⟨unit, transient, (constantTimeEq_iff _ _).mpr rfl⟩]

/-- A body that completes the exchange makes it done. -/
theorem done_of_completedKey
    {setup : PairSetup} {body : Bytes} {key : Digest}
    (draws : Draws)
    (completes : completedKey sha512 setup body = some key) :
    ∃ response,
      (setup.handle sha512 draws body).2 = .done response key := by
  rcases (completedKey_eq_some sha512).mp completes with
    ⟨request, srp, a, m1,
      ⟨decoded, opened, state, publicKey, proof, unit, transient, rfl⟩,
      rfl⟩
  have verified := verify_expectedM1 sha512 srp unit
  simp only [PairSetup.handle, decoded, state, PairSetup.handleM3, opened,
    publicKey, proof, verified, transient]
  exact ⟨_, rfl⟩

/-- The same, for some key. -/
theorem completedKey_iff
    {setup : PairSetup} {body : Bytes} :
    (∃ key, completedKey sha512 setup body = some key) ↔
      ∃ request srp a m1,
        Tlv.decode body = some request ∧ setup.srp = some srp ∧
          request.getU8 Ty.state = some 3 ∧
            request.get Ty.publicKey = some a ∧
              request.get Ty.proof = some m1 ∧
                fromBytesBe a % groupN ≠ 0 ∧ setup.transient = true ∧
                  m1 = (srp.expectedM1 sha512 (fromBytesBe a)).1 := by
  constructor
  · rintro ⟨key, completes⟩
    rcases (completedKey_eq_some sha512).mp completes with
      ⟨request, srp, a, m1, parts, _⟩
    exact ⟨request, srp, a, m1, parts⟩
  · rintro ⟨request, srp, a, m1, parts⟩
    exact
      ⟨_, (completedKey_eq_some sha512).mpr
        ⟨request, srp, a, m1, parts, rfl⟩⟩

/-- The reply to an accepted M1: the salt and the public key of a server. -/
def replyM2 (server : SrpServer) : Tlv :=
  ((Tlv.new.putU8 Ty.state stateM2).put Ty.salt server.salt).put
    Ty.publicKey server.publicB

/-- What an accepted M1 does, and what it is answered. -/
theorem handle_start
    {setup : PairSetup} {draws : Draws} {body : Bytes}
    (start : bodyKind body = .start) :
    setup.handle sha512 draws body =
      ({ setup with
          srp := some (SrpServer.new sha512 setup.pin draws)
          transient := transientFlag body },
        .continue
          (replyM2 (SrpServer.new sha512 setup.pin draws)).encode) := by
  unfold bodyKind at start
  split at start
  · cases start
  · next request decoded =>
      split at start
      · next state =>
          split at start
          · next method =>
              simp only [PairSetup.handle, decoded, state,
                PairSetup.handleM1, method, ne_eq, not_true_eq_false,
                if_false, transientFlag, Option.any_some]
              rfl
          · cases start
      · split at start
        · split at start <;> cases start
        · cases start
      · cases start

/-- What stays as it was, whatever an M3 comes to. -/
theorem handleM3_keeps (setup : PairSetup) (request : Tlv) :
    (setup.handleM3 sha512 request).1.pin = setup.pin ∧
      (setup.handleM3 sha512 request).1.transient = setup.transient ∧
        (setup.handleM3 sha512 request).1.srp.map SrpServer.challenge =
          setup.srp.map SrpServer.challenge := by
  unfold PairSetup.handleM3
  split
  · exact ⟨rfl, rfl, rfl⟩
  · next srp opened =>
      split
      · next a m1 publicKey proof =>
          have same := challenge_verify sha512 srp a m1
          split
          · next checked verified =>
              rw [verified] at same
              exact ⟨rfl, rfl, by simp [opened, same]⟩
          · next checked hamk verified =>
              rw [verified] at same
              split <;> exact ⟨rfl, rfl, by simp [opened, same]⟩
      · exact ⟨rfl, rfl, rfl⟩

/-- A failed M3 leaves the challenge as it was. -/
theorem handleM3_failed
    {setup : PairSetup} {request : Tlv} {response : Bytes}
    (refused :
      (setup.handleM3 sha512 request).2 = .failed response) :
    (setup.handleM3 sha512 request).1.srp.map SrpServer.uncounted =
      setup.srp.map SrpServer.uncounted := by
  unfold PairSetup.handleM3 at refused ⊢
  split at refused
  · next opened => simp [opened]
  · next srp opened =>
      split at refused
      · next a m1 publicKey proof =>
          split at refused
          · next checked verified =>
              simp [opened, uncounted_verify sha512 verified]
          · split at refused <;> cases refused
      · simp [opened]

/-- The body decodes to nothing, or to no M1 that is accepted. -/
theorem handle_kept
    {setup : PairSetup} {draws : Draws} {body : Bytes}
    (other : bodyKind body ≠ .start) :
    setup.handle sha512 draws body = (setup, Pairing.failed stateM2) ∨
      ∃ request,
        setup.handle sha512 draws body = setup.handleM3 sha512 request := by
  unfold bodyKind at other
  unfold PairSetup.handle
  split
  · exact Or.inl rfl
  · next request decoded =>
      split
      · next state =>
          left
          have method : request.getU8 Ty.method ≠ some 0 := by
            intro accepted
            simp [decoded, state, accepted] at other
          rw [PairSetup.handleM1, if_pos method]
      · exact Or.inr ⟨request, rfl⟩
      · exact Or.inl rfl

/-- What a failed request leaves as it was. -/
theorem handle_failed
    {setup : PairSetup} {draws : Draws} {body response : Bytes}
    (refused : (setup.handle sha512 draws body).2 = .failed response) :
    (setup.handle sha512 draws body).1.transient = setup.transient ∧
      (setup.handle sha512 draws body).1.srp.map SrpServer.uncounted =
        setup.srp.map SrpServer.uncounted := by
  by_cases start : bodyKind body = .start
  · rw [handle_start sha512 start] at refused
    cases refused
  · rcases @handle_kept sha512 setup draws body start with
      same | ⟨request, third⟩
    · rw [same]
      exact ⟨rfl, rfl⟩
    · rw [third] at refused ⊢
      exact
        ⟨(handleM3_keeps sha512 setup request).2.1,
          handleM3_failed sha512 refused⟩

/-! ## A run -/

/-- The setup knows of the requests so far only the latest accepted M1. -/
structure Remembers (password : Option String) (requests : List Request)
    (setup : PairSetup) : Prop where
  pin : setup.pin = password.getD pairSetupPin
  opened :
    setup.srp.map SrpServer.challenge =
      (latestM1 requests).map (Request.server sha512 password)
  transient :
    setup.transient =
      (latestM1 requests).any fun opening => transientFlag opening.body

theorem remembers_new (password : Option String) :
    Remembers sha512 password [] (PairSetup.new password) :=
  ⟨rfl, rfl, rfl⟩

theorem remembers_handle
    {password : Option String} {requests : List Request}
    {setup : PairSetup}
    (remembers : Remembers sha512 password requests setup)
    (request : Request) :
    Remembers sha512 password (requests ++ [request])
      (setup.handle sha512 request.draws request.body).1 := by
  rcases remembers with ⟨pin, opened, transient⟩
  by_cases start : bodyKind request.body = .start
  · rw [handle_start sha512 start]
    constructor
    · exact pin
    · rw [latestM1_concat, if_pos start, pin]
      rfl
    · rw [latestM1_concat, if_pos start]
      rfl
  · have latest : latestM1 (requests ++ [request]) = latestM1 requests := by
      rw [latestM1_concat, if_neg start]
    rcases @handle_kept sha512 setup request.draws request.body start with
      same | ⟨third, handled⟩
    · rw [same]
      exact ⟨pin, latest ▸ opened, latest ▸ transient⟩
    · rcases handleM3_keeps sha512 setup third with
        ⟨samePin, sameFlag, sameChallenge⟩
      rw [handled]
      constructor
      · rw [samePin, pin]
      · rw [sameChallenge, latest, opened]
      · rw [sameFlag, latest, transient]

theorem remembers_run
    {password : Option String} {before requests : List Request}
    {setup final : PairSetup}
    (remembers : Remembers sha512 password before setup)
    (reached :
      (pairSetup sha512 password).exec setup requests = some final) :
    Remembers sha512 password (before ++ requests) final := by
  induction requests generalizing setup before with
  | nil =>
      rw [System.exec_nil, Option.some.injEq] at reached
      rw [List.append_nil, ← reached]
      exact remembers
  | cons request rest induction =>
      rw [System.exec_cons_iff] at reached
      rcases reached with ⟨next, stepped, reachedRest⟩
      cases stepped
      rw [List.append_cons]
      exact induction (remembers_handle sha512 remembers request) reachedRest

/--
A body completes the exchange exactly when it is an M3 with a public key and
the proof that the server of the latest accepted M1 expects, and that M1 was
transient.  That M1 was answered with the salt and the public key of this
server.  A failed request leaves the challenge and the flag as they were.
-/
theorem pairSetup_done_iff
    (password : Option String) (requests : List Request)
    (request : Request) (setup : PairSetup)
    (reached :
      (pairSetup sha512 password).exec (PairSetup.new password) requests =
        some setup) :
    ((∃ response key,
        (setup.handle sha512 request.draws request.body).2 =
          .done response key) ↔
      ∃ tlv a m1 opening,
        Tlv.decode request.body = some tlv ∧
          tlv.getU8 Ty.state = some 3 ∧
            tlv.get Ty.publicKey = some a ∧
              tlv.get Ty.proof = some m1 ∧
                latestM1 requests = some opening ∧
                  transientFlag opening.body = true ∧
                    fromBytesBe a % groupN ≠ 0 ∧
                      m1 =
                        ((opening.server sha512 password).expectedM1
                          sha512 (fromBytesBe a)).1) ∧
      (∀ before opening after earlier,
        requests = before ++ opening :: after →
          bodyKind opening.body = .start →
            (pairSetup sha512 password).exec (PairSetup.new password)
                before =
              some earlier →
              (earlier.handle sha512 opening.draws opening.body).2 =
                .continue
                  (replyM2 (opening.server sha512 password)).encode) ∧
        ∀ response,
          (setup.handle sha512 request.draws request.body).2 =
              .failed response →
            (setup.handle sha512 request.draws request.body).1.transient =
                setup.transient ∧
              (setup.handle sha512 request.draws
                    request.body).1.srp.map SrpServer.uncounted =
                setup.srp.map SrpServer.uncounted := by
  have remembers :=
    remembers_run sha512 (remembers_new sha512 password) reached
  rw [List.nil_append] at remembers
  refine ⟨⟨?_, ?_⟩, ?_, fun response refused =>
    handle_failed sha512 refused⟩
  · rintro ⟨response, key, done⟩
    rcases (completedKey_iff sha512).mp
        ⟨key, completedKey_of_done sha512 done⟩ with
      ⟨tlv, srp, a, m1, decoded, opened, state, publicKey, proof, unit,
        transient, expected⟩
    have challenge := remembers.opened
    rw [opened, Option.map_some, eq_comm, Option.map_eq_some_iff]
      at challenge
    rcases challenge with ⟨opening, latest, same⟩
    have flag := remembers.transient
    rw [latest, Option.any_some, transient] at flag
    refine
      ⟨tlv, a, m1, opening, decoded, state, publicKey, proof, latest,
        flag.symm, unit, ?_⟩
    rw [expected, same, expectedM1_challenge]
  · rintro
      ⟨tlv, a, m1, opening, decoded, state, publicKey, proof, latest, flag,
        unit, expected⟩
    have challenge := remembers.opened
    rw [latest, Option.map_some, Option.map_eq_some_iff] at challenge
    rcases challenge with ⟨srp, opened, same⟩
    have transient := remembers.transient
    rw [latest, Option.any_some, flag] at transient
    rcases (completedKey_iff sha512).mpr
        ⟨tlv, srp, a, m1, decoded, opened, state, publicKey, proof, unit,
          transient, by
            rw [expected, ← same, expectedM1_challenge]⟩ with
      ⟨key, completes⟩
    rcases done_of_completedKey sha512 request.draws completes with
      ⟨response, done⟩
    exact ⟨response, key, done⟩
  · intro before opening after earlier split start ran
    have past := remembers_run sha512 (remembers_new sha512 password) ran
    rw [handle_start sha512 start, past.pin]
    rfl

end Completion

/-- After one accepted M1, a proof of a single byte completes nothing. -/
theorem pairSetup_done_iff_guess :
    ∃ setup,
      (pairSetup (fun _ => zeros 64) none).exec (PairSetup.new none)
          [⟨zeroDraws, openingBody⟩] =
        some setup ∧
        ¬ ∃ response key,
          (setup.handle (fun _ => zeros 64) zeroDraws guessBody).2 =
            .done response key := by
  rcases
      pairSetup_total (fun _ => zeros 64) none (PairSetup.new none)
        [⟨zeroDraws, openingBody⟩] with
    ⟨setup, reached⟩
  refine ⟨setup, reached, ?_⟩
  intro done
  rcases
      (pairSetup_done_iff (fun _ => zeros 64) none
        [⟨zeroDraws, openingBody⟩] ⟨zeroDraws, guessBody⟩ setup
        reached).1.mp done with
    ⟨tlv, a, m1, opening, decoded, -, -, proof, -, -, -, expected⟩
  have decodes :
      Tlv.decode guessBody = some ⟨[(6, [3]), (3, [5]), (4, [0])]⟩ := by
    decide +kernel
  rw [decodes, Option.some.injEq] at decoded
  rw [← decoded] at proof
  have single : m1 = [0] := by
    have got :
        Tlv.get ⟨[(6, [3]), (3, [5]), (4, [0])]⟩ Ty.proof = some [0] := by
      decide
    rw [got, Option.some.injEq] at proof
    exact proof.symm
  have lengths := congrArg List.length expected
  rw [single] at lengths
  exact
    absurd (lengths.trans (SrpServer.expectedM1 _ _ _).2) (by decide)

end OpenAirplay2.Pairing

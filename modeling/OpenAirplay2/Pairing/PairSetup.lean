import OpenAirplay2.Lib.Transition
import OpenAirplay2.Pairing.Srp

/-!
# The `pair-setup` state machine

Transient pairing is a two-round exchange, M1 to M2 and M3 to M4.  An accepted
M1 opens an SRP challenge; the proof of an M3 is checked against it.  Nothing
closes the challenge again, so it may be guessed at any number of times.

A client proof is a guess when it can be checked at all: the body decodes to
an M3 with a proof and a public key that is not a multiple of the modulus.
-/

namespace OpenAirplay2.Pairing

open OpenAirplay2.Lib.Transition

def stateM2 : UInt8 := 2

def stateM4 : UInt8 := 4

def flagTransient : UInt8 := 0x10

def errorAuthentication : UInt8 := 0x02

def pairSetupPin : String := "3939"

/-- What a request to `pair-setup` comes to. -/
inductive Outcome where
  | continue (response : Bytes)
  | done (response : Bytes) (sharedSecret : Digest)
  | failed (response : Bytes)
deriving DecidableEq, Repr

structure PairSetup where
  srp : Option SrpServer
  transient : Bool
  pin : String
deriving DecidableEq, Repr

/-- The answer to a failed exchange; the reason only goes to the log. -/
def failed (state : UInt8) : Outcome :=
  .failed
    ((Tlv.new.putU8 Ty.state state).putU8 Ty.error
      errorAuthentication).encode

namespace PairSetup

def new (password : Option String) : PairSetup where
  srp := none
  transient := false
  pin := password.getD pairSetupPin

section Handle

variable (sha512 : Bytes → Digest)

/-- M1 to M2: open a challenge and reply with its salt and public key. -/
def handleM1 (setup : PairSetup) (draws : Draws) (request : Tlv) :
    PairSetup × Outcome :=
  if request.getU8 Ty.method ≠ some 0 then
    (setup, Pairing.failed stateM2)
  else
    let transient :=
      ((request.get Ty.flags).bind List.head?).any
        fun byte => byte &&& flagTransient != 0
    let srp := SrpServer.new sha512 setup.pin draws
    let response :=
      ((Tlv.new.putU8 Ty.state stateM2).put Ty.salt srp.salt).put
        Ty.publicKey srp.publicB
    ({ setup with srp := some srp, transient := transient },
      .continue response.encode)

/-- M3 to M4: check the client proof and reply with the server's. -/
def handleM3 (setup : PairSetup) (request : Tlv) :
    PairSetup × Outcome :=
  match setup.srp with
  | none => (setup, Pairing.failed stateM4)
  | some srp =>
      match request.get Ty.publicKey, request.get Ty.proof with
      | some a, some m1 =>
          match srp.verify sha512 a m1 with
          | (checked, none) =>
              ({ setup with srp := some checked },
                Pairing.failed stateM4)
          | (checked, some hamk) =>
              let response :=
                (Tlv.new.putU8 Ty.state stateM4).put Ty.proof hamk.1
              match setup.transient, checked.sessionKey with
              | true, some sharedSecret =>
                  ({ setup with srp := some checked },
                    .done response.encode sharedSecret)
              -- A key is always there once a proof was accepted.
              | _, _ =>
                  ({ setup with srp := some checked },
                    .continue response.encode)
      | _, _ => (setup, Pairing.failed stateM4)

/-- Process one request body. -/
def handle (setup : PairSetup) (draws : Draws) (body : Bytes) :
    PairSetup × Outcome :=
  match Tlv.decode body with
  | none => (setup, Pairing.failed stateM2)
  | some request =>
      match request.getU8 Ty.state with
      | some 1 => handleM1 sha512 setup draws request
      | some 3 => handleM3 sha512 setup request
      | _ => (setup, Pairing.failed stateM2)

end Handle

end PairSetup

/-! ## Guesses -/

/-- What a request body amounts to for the challenge. -/
inductive BodyKind where
  | start
  | guess
  | other
deriving DecidableEq, Repr

/-- An accepted M1, an M3 whose proof can be checked, or neither. -/
def bodyKind (body : Bytes) : BodyKind :=
  match Tlv.decode body with
  | none => .other
  | some request =>
      match request.getU8 Ty.state with
      | some 1 =>
          if request.getU8 Ty.method = some 0 then .start else .other
      | some 3 =>
          match request.get Ty.publicKey, request.get Ty.proof with
          | some a, some _ =>
              if fromBytesBe a % groupN = 0 then .other else .guess
          | _, _ => .other
      | _ => .other

/-- One more body of the kind, given the guesses at the open challenge. -/
def BodyKind.count (kind : BodyKind) (count : Option Nat) : Option Nat :=
  match kind with
  | .start => some 0
  | .guess => count.map (· + 1)
  | .other => count

/-- The guesses since the latest accepted M1; `none` before the first. -/
def guesses (bodies : List Bytes) : Option Nat :=
  bodies.foldl (fun count body => (bodyKind body).count count) none

/-- The body decodes to an M3. -/
def IsM3 (body : Bytes) : Prop :=
  ∃ request ∈ Tlv.decode body, request.getU8 Ty.state = some 3

/-! ## Completion -/

section Completion

variable (sha512 : Bytes → Digest)

/--
The session key a body completes the exchange with: an M3 of a transient
exchange, with the proof that the open challenge expects.
-/
def completedKey (setup : PairSetup) (body : Bytes) : Option Digest :=
  match Tlv.decode body, setup.srp with
  | some request, some srp =>
      match
        request.getU8 Ty.state, request.get Ty.publicKey,
          request.get Ty.proof
      with
      | some 3, some a, some m1 =>
          if fromBytesBe a % groupN ≠ 0 ∧ setup.transient = true ∧
              constantTimeEq
                (srp.expectedM1 sha512 (fromBytesBe a)).1 m1 = true then
            some (srp.sessionKeyFor sha512 (fromBytesBe a))
          else
            none
      | _, _, _ => none
  | _, _ => none

/-- What an accepted proof leaves behind. -/
theorem verify_accepted
    {server checked : SrpServer} {aBytes m1 : Bytes} {hamk : Digest}
    (verified : server.verify sha512 aBytes m1 = (checked, some hamk)) :
    fromBytesBe aBytes % groupN ≠ 0 ∧
      constantTimeEq
          (server.expectedM1 sha512 (fromBytesBe aBytes)).1 m1 = true ∧
      checked.sessionKey =
        some (server.sessionKeyFor sha512 (fromBytesBe aBytes)) := by
  unfold SrpServer.verify at verified
  simp only at verified
  split at verified
  · cases verified
  · next unit =>
      split at verified
      · next accepted =>
          cases verified
          exact ⟨unit, accepted, rfl⟩
      · cases verified

theorem handleM1_ne_done
    (setup : PairSetup) (draws : Draws) (request : Tlv)
    (response : Bytes) (key : Digest) :
    (setup.handleM1 sha512 draws request).2 ≠ .done response key := by
  unfold PairSetup.handleM1
  split
  · exact Outcome.noConfusion
  · exact Outcome.noConfusion

/-- The exchange is done with the key the body completes it with. -/
theorem completedKey_of_done
    {setup : PairSetup} {draws : Draws} {body response : Bytes}
    {key : Digest}
    (done : (setup.handle sha512 draws body).2 = .done response key) :
    completedKey sha512 setup body = some key := by
  unfold PairSetup.handle at done
  split at done
  · cases done
  · next request decoded =>
      split at done
      · exact absurd done (handleM1_ne_done sha512 _ _ _ _ _)
      · next state =>
          unfold PairSetup.handleM3 at done
          split at done
          · cases done
          · next srp opened =>
              split at done
              · next a m1 publicKey proof =>
                  split at done
                  · cases done
                  · next checked hamk verified =>
                      rcases verify_accepted sha512 verified with
                        ⟨unit, accepted, sessionKey⟩
                      split at done
                      · next transient isKey =>
                          simp only [Outcome.done.injEq] at done
                          rw [sessionKey, Option.some.injEq] at isKey
                          simp only [completedKey, decoded, opened,
                            state, publicKey, proof]
                          rw [if_pos ⟨unit, transient, accepted⟩, isKey,
                            done.2]
                      · cases done
              · cases done
      · cases done

end Completion

/-! ## Runs -/

/-- A request, with what a challenge it opens will draw. -/
structure Request where
  draws : Draws
  body : Bytes
deriving DecidableEq, Repr

section Run

variable (sha512 : Bytes → Digest)

/-- One `PairSetup` handling requests. -/
def pairSetup (password : Option String) : System PairSetup Request where
  initial := PairSetup.new password
  step setup request :=
    some (setup.handle sha512 request.draws request.body).1

/-- At most one proof was checked against the open challenge. -/
def OneGuess (setup : PairSetup) : Prop :=
  ∀ srp ∈ setup.srp, srp.checked ≤ 1

/-- Once a proof was checked, an M3 is refused and leaves no trace. -/
def Refuses (setup : PairSetup) (request : Request) : Prop :=
  (∃ srp ∈ setup.srp, 1 ≤ srp.checked) → IsM3 request.body →
    setup.handle sha512 request.draws request.body =
      (setup, Pairing.failed stateM4)

theorem checked_verify
    (server : SrpServer) (aBytes m1 : Bytes) :
    (server.verify sha512 aBytes m1).1.checked =
      if fromBytesBe aBytes % groupN = 0 then server.checked
      else server.checked + 1 := by
  simp only [SrpServer.verify]
  split
  · rfl
  · split <;> rfl

theorem verify_multiple
    {server : SrpServer} {aBytes : Bytes} (m1 : Bytes)
    (multiple : fromBytesBe aBytes % groupN = 0) :
    server.verify sha512 aBytes m1 = (server, none) := by
  simp [SrpServer.verify, multiple]

/-- The challenge an M3 leaves behind is the one its check leaves behind. -/
theorem srp_handleM3
    {setup : PairSetup} {request : Tlv} {srp : SrpServer} {a m1 : Bytes}
    (opened : setup.srp = some srp)
    (publicKey : request.get Ty.publicKey = some a)
    (proof : request.get Ty.proof = some m1) :
    (setup.handleM3 sha512 request).1.srp =
      some (srp.verify sha512 a m1).1 := by
  simp only [PairSetup.handleM3, opened, publicKey, proof]
  split
  · next checked verified => rw [verified]
  · next checked hamk verified =>
      rw [verified]
      split <;> rfl

/-- Every body does to the count what it does to the challenge. -/
theorem checked_handle
    (setup : PairSetup) (draws : Draws) (body : Bytes) :
    (setup.handle sha512 draws body).1.srp.map SrpServer.checked =
      (bodyKind body).count (setup.srp.map SrpServer.checked) := by
  unfold PairSetup.handle bodyKind
  split
  · rfl
  · next request decoded =>
      split
      · by_cases method : request.getU8 Ty.method = some 0
        · simp [PairSetup.handleM1, method, SrpServer.new,
            BodyKind.count]
        · simp [PairSetup.handleM1, method, BodyKind.count]
      · cases publicKey : request.get Ty.publicKey with
        | none =>
            cases opened : setup.srp <;>
              simp [PairSetup.handleM3, opened, publicKey,
                BodyKind.count]
        | some a =>
            cases proof : request.get Ty.proof with
            | none =>
                cases opened : setup.srp <;>
                  simp [PairSetup.handleM3, opened, publicKey, proof,
                    BodyKind.count]
            | some m1 =>
                cases opened : setup.srp with
                | none =>
                    simp only [PairSetup.handleM3, opened]
                    split <;> rfl
                | some srp =>
                    rw [srp_handleM3 sha512 opened publicKey proof,
                      Option.map_some, checked_verify]
                    by_cases multiple :
                        fromBytesBe a % groupN = 0
                    · simp [multiple, BodyKind.count]
                    · simp [multiple, BodyKind.count]
      · rfl

/-- An M3 that is no guess is refused and leaves no trace. -/
theorem handle_other
    {setup : PairSetup} {draws : Draws} {body : Bytes}
    (third : IsM3 body)
    (noGuess : bodyKind body = .other) :
    setup.handle sha512 draws body = (setup, Pairing.failed stateM4) := by
  rcases third with ⟨request, decoded, state⟩
  rw [Option.mem_def] at decoded
  simp only [bodyKind, decoded, state] at noGuess
  simp only [PairSetup.handle, decoded, state, PairSetup.handleM3]
  cases opened : setup.srp with
  | none => rfl
  | some srp =>
      cases publicKey : request.get Ty.publicKey with
      | none => rfl
      | some a =>
          cases proof : request.get Ty.proof with
          | none => rfl
          | some m1 =>
              have multiple : fromBytesBe a % groupN = 0 := by
                simpa [publicKey, proof] using noGuess
              simp only [verify_multiple sha512 m1 multiple]
              cases setup
              simp only at opened
              rw [opened]

theorem kind_of_M3
    {body : Bytes}
    (third : IsM3 body) :
    bodyKind body = .guess ∨ bodyKind body = .other := by
  rcases third with ⟨request, decoded, state⟩
  rw [Option.mem_def] at decoded
  simp only [bodyKind, decoded, state]
  split
  · split
    · exact Or.inr rfl
    · exact Or.inl rfl
  · exact Or.inr rfl

/-- The count of the open challenge is the guesses of the bodies so far. -/
theorem guesses_run
    {setup final : PairSetup} {password : Option String}
    {requests : List Request}
    (reached :
      (pairSetup sha512 password).exec setup requests = some final) :
    final.srp.map SrpServer.checked =
      (requests.map Request.body).foldl
        (fun count body => (bodyKind body).count count)
        (setup.srp.map SrpServer.checked) := by
  induction requests generalizing setup with
  | nil =>
      rw [System.exec_nil, Option.some.injEq] at reached
      rw [reached]
      rfl
  | cons request rest induction =>
      rw [System.exec_cons_iff] at reached
      rcases reached with ⟨next, stepped, reachedRest⟩
      rw [induction reachedRest, List.map_cons, List.foldl_cons,
        ← checked_handle sha512 setup request.draws request.body]
      cases stepped
      rfl

theorem pairSetup_total
    (password : Option String) (setup : PairSetup)
    (requests : List Request) :
    ∃ final,
      (pairSetup sha512 password).exec setup requests = some final := by
  induction requests generalizing setup with
  | nil => exact ⟨setup, rfl⟩
  | cons request rest induction =>
      rcases induction (setup.handle sha512 request.draws request.body).1
        with ⟨final, reached⟩
      refine ⟨final, ?_⟩
      rw [System.exec_cons_iff]
      exact ⟨_, rfl, reached⟩

/-- A further guess at a challenge that was guessed at makes two. -/
theorem refuses_of_guesses
    {setup : PairSetup} {request : Request} {bodies : List Bytes}
    (counted : setup.srp.map SrpServer.checked = guesses bodies)
    (few :
      ∀ count ∈ guesses (bodies ++ [request.body]), count ≤ 1) :
    Refuses sha512 setup request := by
  rintro ⟨srp, opened, checked⟩ third
  rcases kind_of_M3 third with guess | other
  · rw [Option.mem_def] at opened
    have again :
        guesses (bodies ++ [request.body]) = some (srp.checked + 1) := by
      rw [guesses, List.foldl_append, ← guesses, ← counted, opened]
      simp [guess, BodyKind.count]
    have bound := few (srp.checked + 1) again
    omega
  · exact handle_other sha512 third other

/--
Every guess costs a fresh challenge exactly when no two guesses are made at
one challenge in the first place.
-/
theorem guess_costs_challenge_iff
    (password : Option String) (requests : List Request) :
    ((pairSetup sha512 password).Always OneGuess
          (PairSetup.new password) requests ∧
        (pairSetup sha512 password).Meets (Refuses sha512)
          (PairSetup.new password) requests) ↔
      ∀ bodies, bodies <+: requests.map Request.body →
        ∀ count ∈ guesses bodies, count ≤ 1 := by
  constructor
  · rintro ⟨always, -⟩ bodies isPrefix count counted
    rw [List.prefix_iff_eq_take, ← List.map_take] at isPrefix
    rcases
        pairSetup_total sha512 password (PairSetup.new password)
          (requests.take bodies.length) with
      ⟨final, reached⟩
    have oneGuess : OneGuess final :=
      System.always_iff_forall_prefix.mp always _ final
        (List.take_prefix _ _) reached
    have checked := guesses_run sha512 reached
    rw [← isPrefix] at checked
    have opened : final.srp.map SrpServer.checked = some count :=
      checked.trans counted
    rw [Option.map_eq_some_iff] at opened
    rcases opened with ⟨srp, isOpen, rfl⟩
    exact oneGuess srp isOpen
  · intro few
    constructor
    · apply System.always_iff_forall_prefix.mpr
      intro before middle isPrefix reached srp isOpen
      have checked := guesses_run sha512 reached
      rw [Option.mem_def] at isOpen
      rw [isOpen, Option.map_some] at checked
      exact few _ (isPrefix.map _) srp.checked checked.symm
    · apply System.meets_iff_forall_prefix.mpr
      intro before request after middle split reached
      have fewHere :
          ∀ count ∈ guesses (before.map Request.body ++ [request.body]),
            count ≤ 1 := by
        apply few
        rw [split, List.map_append, List.map_cons]
        exact ⟨after.map Request.body, by simp⟩
      exact
        refuses_of_guesses sha512 (guesses_run sha512 reached) fewHere

end Run

/-- An M1, and an M3 with the public key 5 and a proof of one byte. -/
def openingBody : Bytes :=
  [6, 1, 1, 0, 1, 0, 0x13, 1, 0x10]

def guessBody : Bytes :=
  [6, 1, 3, 3, 1, 5, 4, 1, 0]

/-- Bytes whose values do not matter. -/
def zeros (count : Nat) : { bytes : Bytes // bytes.length = count } :=
  ⟨List.replicate count 0, List.length_replicate⟩

def zeroDraws : Draws where
  salt := zeros 16
  exponent := zeros 32

/-- One challenge and two guesses at it. -/
def twoGuesses : List Request :=
  [⟨zeroDraws, openingBody⟩, ⟨zeroDraws, guessBody⟩,
    ⟨zeroDraws, guessBody⟩]

/-- Two proofs are checked against one challenge. -/
theorem challenge_guessed_twice :
    ¬ ∀ (sha512 : Bytes → Digest) (password : Option String)
        (requests : List Request),
      (pairSetup sha512 password).Always OneGuess
          (PairSetup.new password) requests ∧
        (pairSetup sha512 password).Meets (Refuses sha512)
          (PairSetup.new password) requests := by
  intro claim
  have twice : guesses (twoGuesses.map Request.body) = some 2 := by
    decide +kernel
  have always :=
    (claim (fun _ => zeros 64) none twoGuesses).1
  rcases
      pairSetup_total (fun _ => zeros 64) none (PairSetup.new none)
        twoGuesses with
    ⟨final, reached⟩
  have checked := guesses_run _ reached
  have opened : final.srp.map SrpServer.checked = some 2 :=
    checked.trans twice
  rw [Option.map_eq_some_iff] at opened
  rcases opened with ⟨srp, isOpen, isTwo⟩
  have oneGuess : OneGuess final :=
    System.always_iff_forall_prefix.mp always _ final
      (List.prefix_refl _) reached
  have bound := oneGuess srp isOpen
  omega

end OpenAirplay2.Pairing

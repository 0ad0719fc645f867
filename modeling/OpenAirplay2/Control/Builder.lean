import OpenAirplay2.Control.Announced
import OpenAirplay2.Control.Gate
import OpenAirplay2.Control.Starts

/-!
# Building a receiver

A receiver is built from options, from the identity it is given or keeps in
a file, and from the MAC it is given or finds among the interfaces.  One that
is built again announces itself as before, and says truly whether it wants a
password.
-/

namespace OpenAirplay2.Control

open OpenAirplay2.Lib
open OpenAirplay2.Lib.Str
open OpenAirplay2.Lib.Transition
open OpenAirplay2.Pairing (Bytes Digest PairSetup)

variable {Uuid Db : Type}

/-! ## The interfaces -/

/-- A directory of `/sys/class/net`, with what can be read in it. -/
structure Interface where
  name : String
  address : Option String
  operstate : Option String
deriving DecidableEq, Repr

structure Candidate where
  name : String
  mac : Mac
  up : Bool
deriving DecidableEq, Repr

def candidate (interface : Interface) : Option Candidate :=
  if interface.name = "lo" then none
  else
    (interface.address.bind parseMac).bind fun mac =>
      if mac.1 = [0, 0, 0, 0, 0, 0] then none
      else
        some
          { name := interface.name
            mac := mac
            up :=
              (interface.operstate.map fun state =>
                trim state == "up").getD false }

/-- By name, as `sort_by` orders them. -/
def ordered (candidates : List Candidate) : List Candidate :=
  candidates.mergeSort fun first second =>
    decide (first.name ≤ second.name)

/-- The first that is up, or else the first; `none` when the directory
cannot be read. -/
def discoverIn (entries : Option (List Interface)) : Option Mac :=
  entries.bind fun entries =>
    let candidates := ordered (entries.filterMap candidate)
    ((candidates.find? Candidate.up).or candidates.head?).map Candidate.mac

/-! ## The builder -/

def defaultName : String := "OpenAirPlay2"

def defaultPort : UInt16 := 7000

def defaultModel : String := "OpenAirPlay2,1"

def defaultSourceVersion : String := "366.0"

def defaultFeatures : UInt64 := 0x00018340405FCA00

def defaultStatusFlags : UInt32 := 0x4

/-- Status-flag bit 7. -/
def passwordRequiredFlag : UInt32 := (1 : UInt32) <<< 7

def statusFlags (password : Bool) : UInt32 :=
  if password then defaultStatusFlags ||| passwordRequiredFlag
  else defaultStatusFlags

/-- Locally administered, for when no interface has a MAC. -/
def fallbackMac : Mac := ⟨[0x02, 0x4f, 0x41, 0x50, 0x32, 0x00], rfl⟩

structure ReceiverBuilder (Uuid : Type) where
  name : String
  port : UInt16
  mac : Option Mac
  identity : Option (Identity Uuid)
  identityPath : Option String
  advertise : Bool
  password : Option String

/-- `Receiver::builder`. -/
def ReceiverBuilder.new : ReceiverBuilder Uuid where
  name := defaultName
  port := defaultPort
  mac := none
  identity := none
  identityPath := none
  advertise := true
  password := none

structure Receiver (Uuid : Type) where
  config : Config
  identity : Identity Uuid
  advertise : Bool
deriving DecidableEq, Repr

/-- What a build finds around it. -/
structure Surroundings (Uuid : Type) where
  interfaces : Option (List Interface)
  attempt : Attempt Uuid

namespace ReceiverBuilder

/-- The receiver once its identity is known. -/
def receiver (builder : ReceiverBuilder Uuid)
    (interfaces : Option (List Interface)) (identity : Identity Uuid) :
    Receiver Uuid where
  config :=
    { name := builder.name
      port := builder.port
      mac := (builder.mac.or (discoverIn interfaces)).getD fallbackMac
      model := defaultModel
      sourceVersion := defaultSourceVersion
      features := defaultFeatures
      statusFlags := statusFlags builder.password.isSome
      password := builder.password }
  identity := identity
  advertise := builder.advertise

/-- The file is the one at `identity_path`. -/
def build (crates : Crates Uuid) (umask : BitVec 9)
    (builder : ReceiverBuilder Uuid) (surroundings : Surroundings Uuid)
    (file : Option File) :
    Option File × Except Failure (Receiver Uuid) :=
  match builder.identity, builder.identityPath with
  | some identity, none =>
      (file, .ok (builder.receiver surroundings.interfaces identity))
  | none, some _ =>
      let loaded :=
        Identity.loadOrCreate crates umask surroundings.attempt file
      (loaded.1,
        loaded.2.map (builder.receiver surroundings.interfaces))
  | some _, some _ =>
      (file,
        .error
          (.invalidInput "set either identity or identity_path, not both"))
  | none, none =>
      (file,
        .error
          (.invalidInput
            ("an identity is required (identity or identity_path): " ++
              "senders remember a receiver by it, so it must be stable")))

/-- What one build after another returns. -/
def builds (crates : Crates Uuid) (umask : BitVec 9)
    (builder : ReceiverBuilder Uuid) (file : Option File) :
    List (Surroundings Uuid) → List (Except Failure (Receiver Uuid))
  | [] => []
  | surroundings :: rest =>
      (builder.build crates umask surroundings file).2 ::
        builds crates umask builder
          (builder.build crates umask surroundings file).1 rest

end ReceiverBuilder

namespace Receiver

/-- `Receiver::txt_records`. -/
def txtRecords (crates : Crates Uuid) (receiver : Receiver Uuid) :
    List String :=
  Control.txtRecords crates receiver.config receiver.identity

/-- What a connection to the receiver is created with. -/
def context (crates : Crates Uuid) (platform : Platform Db)
    (crypto : Crypto) (sha512 : Bytes → Digest)
    (localIp peerIp : IpAddr) (receiver : Receiver Uuid) :
    Option (Context Db) :=
  (infoPlist platform crates receiver.config receiver.identity).map
    fun plist =>
      { platform := platform
        crypto := crypto
        sha512 := sha512
        password := receiver.config.password
        infoPlist := plist
        localIp := localIp
        peerIp := peerIp }

end Receiver

/-! ## What is discovered -/

theorem ordered_perm (candidates : List Candidate) :
    (ordered candidates).Perm candidates :=
  List.mergeSort_perm _ _

theorem ordered_pairwise (candidates : List Candidate) :
    (ordered candidates).Pairwise fun first second =>
      first.name ≤ second.name := by
  have transitive (first second third : Candidate)
      (isFirst : decide (first.name ≤ second.name) = true)
      (isSecond : decide (second.name ≤ third.name) = true) :
      decide (first.name ≤ third.name) = true := by
    rw [decide_eq_true_eq] at isFirst isSecond ⊢
    exact isFirst.trans isSecond
  have total (first second : Candidate) :
      (decide (first.name ≤ second.name) ||
          decide (second.name ≤ first.name)) =
        true := by
    simpa using le_total first.name second.name
  have sorted := List.pairwise_mergeSort transitive total candidates
  rw [ordered]
  simpa only [decide_eq_true_eq] using sorted

/-- Candidates of different names have one order. -/
theorem ordered_eq_of_perm
    {candidates others : List Candidate}
    (distinct : (candidates.map Candidate.name).Nodup)
    (perm : candidates.Perm others) :
    ordered candidates = ordered others := by
  apply List.Perm.eq_of_pairwise _ (ordered_pairwise candidates)
    (ordered_pairwise others)
  · exact
      (ordered_perm candidates).trans
        (perm.trans (ordered_perm others).symm)
  · intro first second isFirst isSecond below above
    rw [(ordered_perm candidates).mem_iff] at isFirst
    rw [(ordered_perm others).mem_iff, ← perm.mem_iff] at isSecond
    exact
      List.inj_on_of_nodup_map distinct isFirst isSecond
        (le_antisymm below above)

theorem name_candidate
    {interface : Interface} {found : Candidate}
    (isCandidate : candidate interface = some found) :
    found.name = interface.name := by
  rw [candidate] at isCandidate
  split_ifs at isCandidate
  rcases Option.bind_eq_some_iff.mp isCandidate with ⟨mac, _, isFound⟩
  split_ifs at isFound
  rw [← Option.some.inj isFound]

theorem names_candidates (entries : List Interface) :
    ((entries.filterMap candidate).map Candidate.name).Sublist
      (entries.map Interface.name) := by
  induction entries with
  | nil => exact List.Sublist.slnil
  | cons first rest induction =>
      cases isCandidate : candidate first with
      | none =>
          rw [List.filterMap_cons_none isCandidate]
          exact induction.cons _
      | some found =>
          rw [List.filterMap_cons_some isCandidate, List.map_cons,
            List.map_cons, name_candidate isCandidate]
          exact induction.cons_cons _

/-- What is chosen of candidates in the order of their names. -/
theorem chosen_least
    {candidates : List Candidate} {chosen : Candidate}
    (sorted :
      candidates.Pairwise fun first second => first.name ≤ second.name)
    (isChosen :
      (candidates.find? Candidate.up).or candidates.head? =
        some chosen) :
    chosen ∈ candidates ∧
      ∀ other ∈ candidates,
        (other.up = true → chosen.up = true) ∧
          (other.up = chosen.up → chosen.name ≤ other.name) := by
  induction candidates with
  | nil => cases isChosen
  | cons first rest induction =>
      rw [List.pairwise_cons] at sorted
      cases isUp : first.up with
      | true =>
          rw [List.find?_cons_of_pos isUp, Option.some_or] at isChosen
          rw [← Option.some.inj isChosen]
          refine ⟨List.mem_cons_self, fun other isOther => ?_⟩
          refine ⟨fun _ => isUp, fun _ => ?_⟩
          rcases List.mem_cons.mp isOther with rfl | later
          · exact le_refl _
          · exact sorted.1 other later
      | false =>
          rw [List.find?_cons_of_neg (by simp [isUp])] at isChosen
          cases found : rest.find? Candidate.up with
          | some later =>
              rw [found, Option.some_or] at isChosen
              have isLater :
                  (rest.find? Candidate.up).or rest.head? =
                    some chosen := by
                rw [found, Option.some_or, isChosen]
              have chosenUp : chosen.up = true := by
                rw [← Option.some.inj isChosen]
                exact List.find?_some found
              rcases induction sorted.2 isLater with ⟨within, least⟩
              refine
                ⟨List.mem_cons_of_mem _ within, fun other isOther => ?_⟩
              rcases List.mem_cons.mp isOther with rfl | later
              · rw [isUp, chosenUp]
                exact ⟨fun up => absurd up Bool.false_ne_true,
                  fun same => absurd same Bool.false_ne_true⟩
              · exact least other later
          | none =>
              rw [found, Option.none_or, List.head?_cons] at isChosen
              rw [← Option.some.inj isChosen]
              refine ⟨List.mem_cons_self, fun other isOther => ?_⟩
              have notUp : other.up = false := by
                rcases List.mem_cons.mp isOther with rfl | later
                · exact isUp
                · exact
                    Bool.not_eq_true _ ▸
                      List.find?_eq_none.mp found other later
              refine ⟨fun up => ?_, fun _ => ?_⟩
              · rw [notUp] at up
                exact absurd up Bool.false_ne_true
              · rcases List.mem_cons.mp isOther with rfl | later
                · exact le_refl _
                · exact sorted.1 other later

/-- The MAC is that of the first interface by name of those that are up, or
of all if none is, in whatever order the directory lists them. -/
theorem discoverIn_least
    {entries : List Interface}
    (distinct : (entries.map Interface.name).Nodup) :
    (∀ others, entries.Perm others →
        discoverIn (some others) = discoverIn (some entries)) ∧
      (discoverIn (some entries) = none ↔
        entries.filterMap candidate = []) ∧
      ∀ mac, discoverIn (some entries) = some mac →
        ∃ chosen ∈ entries.filterMap candidate,
          chosen.mac = mac ∧
            ∀ other ∈ entries.filterMap candidate,
              (other.up = true → chosen.up = true) ∧
                (other.up = chosen.up → chosen.name ≤ other.name) := by
  have names := distinct.sublist (names_candidates entries)
  refine ⟨?_, ?_, ?_⟩
  · intro others perm
    simp only [discoverIn, Option.bind_some]
    rw [ordered_eq_of_perm names (perm.filterMap candidate)]
  · have isEmpty : ordered (entries.filterMap candidate) = [] ↔
        entries.filterMap candidate = [] := by
      constructor
      · intro none
        have perm := ordered_perm (entries.filterMap candidate)
        rw [none] at perm
        exact List.nil_perm.mp perm
      · intro none
        rw [none]
        exact List.mergeSort_nil
    simp only [discoverIn, Option.bind_some, Option.map_eq_none_iff,
      Option.or_eq_none_iff, List.head?_eq_none_iff, isEmpty]
    constructor
    · exact fun both => both.2
    · intro none
      rw [isEmpty.mpr none]
      exact ⟨rfl, none⟩
  · intro mac found
    simp only [discoverIn, Option.bind_some, Option.map_eq_some_iff]
      at found
    rcases found with ⟨chosen, isChosen, isMac⟩
    rcases chosen_least (ordered_pairwise _) isChosen with
      ⟨within, least⟩
    have perm := ordered_perm (entries.filterMap candidate)
    refine ⟨chosen, perm.mem_iff.mp within, isMac, ?_⟩
    intro other isOther
    exact least other (perm.mem_iff.mpr isOther)

/-- A loopback, an interface that is down and one that is up. -/
def someInterfaces : List Interface :=
  [⟨"lo", some "00:00:00:00:00:00\n", some "unknown\n"⟩,
    ⟨"eth0", some "aa:00:00:00:00:01\n", some "down\n"⟩,
    ⟨"wlan0", some "aa:00:00:00:00:02\n", some "up\n"⟩]

theorem discoverIn_least_someInterfaces :
    discoverIn (some someInterfaces.reverse) =
        discoverIn (some someInterfaces) ∧
      discoverIn (some someInterfaces) ≠ none := by
  have distinct : (someInterfaces.map Interface.name).Nodup := by decide
  have least := discoverIn_least distinct
  refine ⟨least.1 _ (List.reverse_perm _).symm, ?_⟩
  rw [Ne, least.2.1]
  exact (by decide : someInterfaces.filterMap candidate ≠ [])

/-! ## Receivers that are built again -/

section Builds

variable
    {crates : Crates Uuid}
    {umask : BitVec 9}
    {builder : ReceiverBuilder Uuid}
    {file : Option File}
    {runs : List (Surroundings Uuid)}
    {first second receiver : Receiver Uuid}

/-- A builder that has an identity leaves the file alone. -/
theorem build_given
    {identity : Identity Uuid}
    (given : builder.identity = some identity)
    (surroundings : Surroundings Uuid) :
    (builder.build crates umask surroundings file).1 = file ∧
      ((builder.build crates umask surroundings file).2 = .ok receiver →
        receiver = builder.receiver surroundings.interfaces identity) := by
  rw [ReceiverBuilder.build, given]
  cases builder.identityPath with
  | none => exact ⟨rfl, fun isBuilt => (Except.ok.inj isBuilt).symm⟩
  | some path => exact ⟨rfl, fun isBuilt => nomatch isBuilt⟩

/-- A builder with a path alone loads the identity. -/
theorem build_kept
    {path : String}
    (kept : builder.identity = none)
    (isPath : builder.identityPath = some path)
    (surroundings : Surroundings Uuid) :
    (builder.build crates umask surroundings file).1 =
        (Identity.loadOrCreate crates umask surroundings.attempt file).1 ∧
      ((builder.build crates umask surroundings file).2 = .ok receiver →
        ∃ identity,
          receiver = builder.receiver surroundings.interfaces identity ∧
            (Identity.loadOrCreate crates umask surroundings.attempt
                file).2 =
              .ok identity) := by
  rw [ReceiverBuilder.build, kept, isPath]
  refine ⟨rfl, fun isBuilt => ?_⟩
  cases loaded :
      (Identity.loadOrCreate crates umask surroundings.attempt file).2 with
  | error failure =>
      simp only [loaded] at isBuilt
      cases isBuilt
  | ok identity =>
      simp only [loaded] at isBuilt
      exact ⟨identity, (Except.ok.inj isBuilt).symm, rfl⟩

theorem mem_builds_given
    {identity : Identity Uuid}
    (given : builder.identity = some identity)
    (isBuilt : .ok receiver ∈ builder.builds crates umask file runs) :
    ∃ surroundings ∈ runs,
      receiver = builder.receiver surroundings.interfaces identity := by
  induction runs with
  | nil => cases isBuilt
  | cons surroundings rest induction =>
      have step :=
        @build_given Uuid crates umask builder file receiver identity given
          surroundings
      rw [ReceiverBuilder.builds, step.1] at isBuilt
      rcases List.mem_cons.mp isBuilt with now | later
      · exact ⟨surroundings, List.mem_cons_self, step.2 now.symm⟩
      · rcases induction later with ⟨one, isOne, isReceiver⟩
        exact ⟨one, List.mem_cons_of_mem _ isOne, isReceiver⟩

theorem mem_builds_kept
    (kept : builder.identity = none)
    (isBuilt : .ok receiver ∈ builder.builds crates umask file runs) :
    ∃ surroundings ∈ runs, ∃ identity,
      receiver = builder.receiver surroundings.interfaces identity ∧
        .ok identity ∈
          Identity.returned crates umask file
            (runs.map Surroundings.attempt) := by
  cases isPath : builder.identityPath with
  | none =>
      exfalso
      induction runs generalizing file with
      | nil => cases isBuilt
      | cons surroundings rest induction =>
          rw [ReceiverBuilder.builds, ReceiverBuilder.build, kept, isPath]
            at isBuilt
          rcases List.mem_cons.mp isBuilt with now | later
          · cases now
          · exact induction later
  | some path =>
      induction runs generalizing file with
      | nil => cases isBuilt
      | cons surroundings rest induction =>
          have step :=
            @build_kept Uuid crates umask builder file receiver path kept
              isPath surroundings
          rw [ReceiverBuilder.builds, step.1] at isBuilt
          rw [List.map_cons, Identity.returned]
          rcases List.mem_cons.mp isBuilt with now | later
          · rcases step.2 now.symm with ⟨identity, isReceiver, loaded⟩
            refine
              ⟨surroundings, List.mem_cons_self, identity, isReceiver, ?_⟩
            rw [loaded]
            exact List.mem_cons_self
          · rcases induction later with
              ⟨one, isOne, identity, isReceiver, isReturned⟩
            exact
              ⟨one, List.mem_cons_of_mem _ isOne, identity, isReceiver,
                List.mem_cons_of_mem _ isReturned⟩

/-- Each receiver is built of one identity. -/
theorem mem_builds
    (documented : crates.Documented)
    (isFirst : .ok first ∈ builder.builds crates umask file runs)
    (isSecond : .ok second ∈ builder.builds crates umask file runs) :
    ∃ identity, ∃ one ∈ runs, ∃ other ∈ runs,
      first = builder.receiver one.interfaces identity ∧
        second = builder.receiver other.interfaces identity := by
  cases kept : builder.identity with
  | some identity =>
      rcases mem_builds_given kept isFirst with ⟨one, isOne, rfl⟩
      rcases mem_builds_given kept isSecond with ⟨other, isOther, rfl⟩
      exact ⟨identity, one, isOne, other, isOther, rfl, rfl⟩
  | none =>
      rcases mem_builds_kept kept isFirst with
        ⟨one, isOne, identity, rfl, oneReturned⟩
      rcases mem_builds_kept kept isSecond with
        ⟨other, isOther, later, rfl, otherReturned⟩
      have same :=
        Identity.never_changes documented file _ oneReturned otherReturned
      rw [← same]
      exact ⟨identity, one, isOne, other, isOther, rfl, rfl⟩

/-- A builder with a path and no identity. -/
def kitchenBuilder : ReceiverBuilder Bytes16 :=
  { ReceiverBuilder.new with
    name := "Kitchen"
    mac := some knownConfig.mac
    identityPath := some "identity" }

/-- Builds with starts that fail. -/
def shakyRuns : List (Surroundings Bytes16) :=
  Identity.shakyStarts.map fun attempt => ⟨none, attempt⟩

/-- The defaults fit into records. -/
theorem fits_receiver
    (interfaces : Option (List Interface)) (identity : Identity Uuid) :
    (builder.receiver interfaces identity).config.Fits where
  model := by
    exact (by decide : (utf8 defaultModel.toList).length ≤ 249)
  sourceVersion := by
    exact (by decide : (utf8 defaultSourceVersion.toList).length ≤ 247)

end Builds

/-! ## What a receiver that was built announces -/

/-- Bit 7 is set for a password and for nothing else. -/
theorem testBit_statusFlags (password : Bool) :
    (statusFlags password).toNat.testBit 7 = password := by
  cases password <;> decide

section Announces

variable
    {crates : Crates Uuid}
    {umask : BitVec 9}
    {builder : ReceiverBuilder Uuid}
    {file : Option File}
    {runs : List (Surroundings Uuid)}
    {receiver : Receiver Uuid}

theorem receiver_of_builds
    (isBuilt : .ok receiver ∈ builder.builds crates umask file runs) :
    ∃ interfaces identity,
      receiver = builder.receiver interfaces identity := by
  cases kept : builder.identity with
  | some identity =>
      rcases mem_builds_given kept isBuilt with ⟨one, _, isReceiver⟩
      exact ⟨one.interfaces, identity, isReceiver⟩
  | none =>
      rcases mem_builds_kept kept isBuilt with
        ⟨one, _, identity, isReceiver, _⟩
      exact ⟨one.interfaces, identity, isReceiver⟩

end Announces

/-- What stands for the written property list. -/
def knownPlist : Bytes := [0x62, 0x70, 0x6c, 0x69, 0x73, 0x74, 0x30, 0x30]

/-- A platform that writes and reads the property list of one receiver. -/
def knownPlatform : Platform Unit :=
  { bareContext.platform with
    writePlist := fun _ => some knownPlist
    readPlist := fun bytes =>
      if bytes = knownPlist then
        some
          (.dictionary
            (infoDictionary knownCrates
              (kitchenBuilder.receiver none knownIdentity).config
              knownIdentity))
      else none }

/-- A connection to that receiver. -/
def knownContext : Context Unit :=
  { bareContext with platform := knownPlatform, infoPlist := knownPlist }

end OpenAirplay2.Control

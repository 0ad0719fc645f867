import OpenAirplay2.Control.Identity
import OpenAirplay2.Lib.CreateOnce

/-!
# Starts that share an identity

The first start writes the file of the identity and later starts read it.  A
start can fail or be cut off at any moment, and the file holds the private
key.
-/

namespace OpenAirplay2.Control

open OpenAirplay2.Lib
open OpenAirplay2.Lib.CreateOnce (Codec Start)

variable {Uuid : Type}

/-! ## The file -/

/-- A file of ASCII text, with the permissions of its owner, of the group
and of the others. -/
structure File where
  contents : List Char
  mode : BitVec 9
deriving DecidableEq, Repr

/-- Only the owner may read or write. -/
def File.Private (file : File) : Prop :=
  file.mode &&& 0o077#9 = 0#9

instance (file : File) : Decidable file.Private :=
  inferInstanceAs (Decidable (_ = _))

/-- What `write_private` asks of the system; `put` is one byte of
`write_all`. -/
inductive Call where
  | openTruncated
  | setPermissions
  | put (char : Char)
deriving DecidableEq, Repr

/-- The effect of a call; a file that is created gets its mode through the
mask of the process. -/
def Call.run (umask : BitVec 9) : Call → Option File → Option File
  | .openTruncated, none => some ⟨[], 0o600#9 &&& ~~~umask⟩
  | .openTruncated, some file => some { file with contents := [] }
  | .setPermissions, file => file.map ({ · with mode := 0o600#9 })
  | .put char, file =>
      file.map fun file =>
        { file with contents := file.contents ++ [char] }

def writePrivate (contents : String) : List Call :=
  .openTruncated :: .setPermissions :: contents.toList.map .put

/-- The file after some calls. -/
def afterCalls (umask : BitVec 9) (calls : List Call)
    (file : Option File) : Option File :=
  calls.foldl (fun file call => call.run umask file) file

/-- What `io::Error`s a start ends with. -/
inductive Failure where
  | invalidData (message : String)
  | invalidInput (message : String)
  /-- An error of the system, or a crash. -/
  | system
deriving DecidableEq, Repr

/-- What the outside does to one start. -/
structure Attempt (Uuid : Type) where
  /-- What `Identity::generate` would return. -/
  generated : Identity Uuid
  /-- The file can be read as text, or is seen to be missing. -/
  reads : Bool
  /-- The directory is there or can be created. -/
  createsDir : Bool
  /-- How many calls are done before an error or a crash. -/
  done : Nat
deriving DecidableEq, Repr

namespace Identity

variable (crates : Crates Uuid) (umask : BitVec 9)

/-- What a file that can be read holds. -/
def load (held : File) : Except Failure (Identity Uuid) :=
  match parse crates (String.ofList held.contents) with
  | some identity => .ok identity
  | none => .error (.invalidData "malformed identity file")

/-- `Identity::load_or_create`. -/
def loadOrCreate (attempt : Attempt Uuid) (file : Option File) :
    Option File × Except Failure (Identity Uuid) :=
  if attempt.reads then
    match file with
    | some held => (file, load crates held)
    | none =>
        if attempt.createsDir then
          let calls := writePrivate (attempt.generated.serialize crates)
          (afterCalls umask (calls.take attempt.done) none,
            if calls.length ≤ attempt.done then .ok attempt.generated
            else .error .system)
        else (none, .error .system)
  else (file, .error .system)

/-- The file after one start after another. -/
def fileAfter (file : Option File) : List (Attempt Uuid) → Option File
  | [] => file
  | attempt :: rest =>
      fileAfter (loadOrCreate crates umask attempt file).1 rest

/-- What one start after another returns. -/
def returned (file : Option File) :
    List (Attempt Uuid) → List (Except Failure (Identity Uuid))
  | [] => []
  | attempt :: rest =>
      (loadOrCreate crates umask attempt file).2 ::
        returned (loadOrCreate crates umask attempt file).1 rest

end Identity

/-! ## Starts -/

namespace Identity

variable {crates : Crates Uuid}

/-- The file as the codec of the identity. -/
def codec (crates : Crates Uuid) : Codec (Identity Uuid) Char where
  encode identity := (identity.serialize crates).toList
  decode contents := parse crates (String.ofList contents)

theorem codec_torn (documented : crates.Documented) :
    (codec crates).Torn := by
  intro identity length other read
  have isOther :
      some other = if 101 ≤ length then some identity else none :=
    read.symm.trans (parse_take documented identity length)
  split_ifs at isOther
  exact Option.some.inj isOther

end Identity

/-- A start as it concerns the contents of the file alone: the first two
calls write nothing. -/
def Attempt.start (attempt : Attempt Uuid) : Start (Identity Uuid) where
  fresh := attempt.generated
  looks := attempt.reads
  writes :=
    if attempt.createsDir ∧ attempt.done ≠ 0 then some (attempt.done - 2)
    else none

/-! ### The calls of a write -/

theorem afterCalls_put
    (umask : BitVec 9) (text : List Char) (file : File) :
    afterCalls umask (text.map .put) (some file) =
      some { file with contents := file.contents ++ text } := by
  induction text generalizing file with
  | nil => simp [afterCalls]
  | cons char rest induction =>
      rw [List.map_cons, afterCalls, List.foldl_cons]
      show afterCalls umask (rest.map .put) _ = _
      rw [Call.run, Option.map_some, induction]
      simp

/-- The file when a write to a missing file is cut off. -/
theorem afterCalls_writePrivate
    (umask : BitVec 9) (contents : String) (done : Nat) :
    afterCalls umask ((writePrivate contents).take done) none =
      if done = 0 then none
      else
        some
          { contents := contents.toList.take (done - 2)
            mode :=
              if done = 1 then 0o600#9 &&& ~~~umask else 0o600#9 } := by
  rcases done with _ | _ | length
  · rfl
  · rfl
  · rw [writePrivate, List.take_succ_cons, List.take_succ_cons,
      ← List.map_take]
    exact afterCalls_put umask _ ⟨[], 0o600#9⟩

namespace Identity

variable
    {crates : Crates Uuid}
    {umask : BitVec 9}

theorem length_writePrivate (contents : String) :
    (writePrivate contents).length = contents.toList.length + 2 := by
  simp [writePrivate]

/-- To the contents of the file a start is one of the codec. -/
theorem loadOrCreate_refines
    (documented : crates.Documented)
    (attempt : Attempt Uuid) (file : Option File) :
    CreateOnce.loadOrCreate (codec crates) attempt.start
        (file.map File.contents) =
      ((loadOrCreate crates umask attempt file).1.map File.contents,
        (loadOrCreate crates umask attempt file).2.toOption) := by
  unfold loadOrCreate
  cases file with
  | some held =>
      rw [Option.map_some, CreateOnce.loadOrCreate]
      cases looks : attempt.reads with
      | false => simp [Attempt.start, looks, Except.toOption]
      | true =>
          cases read : parse crates (String.ofList held.contents) with
          | none =>
              simp [Attempt.start, looks, codec, load, read,
                Except.toOption]
          | some identity =>
              simp [Attempt.start, looks, codec, load, read,
                Except.toOption]
  | none =>
      rw [Option.map_none, CreateOnce.loadOrCreate]
      have isLength := length_serialize documented attempt.generated
      cases looks : attempt.reads with
      | false => simp [Attempt.start, looks, Except.toOption]
      | true =>
          have isLooks : attempt.start.looks = true := looks
          have isFull :
              ((codec crates).encode attempt.start.fresh).length = 102 :=
            isLength
          by_cases created : attempt.createsDir ∧ attempt.done ≠ 0
          · have writes : attempt.start.writes = some (attempt.done - 2) :=
              if_pos created
            simp only [isLooks, writes, created.1, if_true,
              afterCalls_writePrivate, if_neg created.2, Option.map_some,
              length_writePrivate, isFull, isLength]
            by_cases whole : 104 ≤ attempt.done
            · rw [if_pos (show 102 ≤ attempt.done - 2 by omega),
                if_pos whole]
              rfl
            · rw [if_neg (show ¬102 ≤ attempt.done - 2 by omega),
                if_neg whole]
              rfl
          · have writes : attempt.start.writes = none := if_neg created
            simp only [isLooks, writes, if_true]
            cases makes : attempt.createsDir with
            | false => rfl
            | true =>
                have nothing : attempt.done = 0 := by
                  by_contra isDone
                  exact created ⟨makes, isDone⟩
                simp only [if_true, nothing, afterCalls_writePrivate,
                  length_writePrivate, isLength]
                rfl

/-- So are the starts one after another. -/
theorem returned_refines
    (documented : crates.Documented)
    (file : Option File) (attempts : List (Attempt Uuid)) :
    CreateOnce.loads (codec crates) (file.map File.contents)
        (attempts.map Attempt.start) =
      (returned crates umask file attempts).map Except.toOption := by
  induction attempts generalizing file with
  | nil => rfl
  | cons attempt rest induction =>
      rw [List.map_cons, CreateOnce.loads, returned, List.map_cons,
        @loadOrCreate_refines _ _ umask documented, induction]

theorem mem_loads_of_returned
    (documented : crates.Documented)
    {file : Option File} {attempts : List (Attempt Uuid)}
    {identity : Identity Uuid}
    (isReturned : .ok identity ∈ returned crates umask file attempts) :
    some identity ∈
      CreateOnce.loads (codec crates) (file.map File.contents)
        (attempts.map Attempt.start) := by
  rw [@returned_refines _ _ umask documented]
  exact List.mem_map_of_mem (f := Except.toOption) isReturned

/-- Whatever cuts off or fails the starts that share a file, they all
return one identity. -/
theorem never_changes
    (documented : crates.Documented)
    (file : Option File) (attempts : List (Attempt Uuid))
    {first second : Identity Uuid}
    (isFirst : .ok first ∈ returned crates umask file attempts)
    (isSecond : .ok second ∈ returned crates umask file attempts) :
    first = second := by
  rcases CreateOnce.loads_one_value (codec_torn documented)
      (file.map File.contents) (attempts.map Attempt.start) with
    ⟨kept, isKept⟩
  have keptFirst := isKept first (mem_loads_of_returned documented isFirst)
  have keptSecond :=
    isKept second (mem_loads_of_returned documented isSecond)
  exact Option.some.inj (keptFirst.symm.trans keptSecond)

/-- A start that is cut off in front of the last line feed, one that cannot
read the file, and one that can. -/
def shakyStarts : List (Attempt Bytes16) :=
  [⟨knownIdentity, true, true, 103⟩, ⟨otherIdentity, false, true, 104⟩,
    ⟨otherIdentity, true, true, 104⟩]

/-! ### After a start that was cut off -/

/-- Every start reads the file that is there, or cannot. -/
theorem mem_returned_some
    {held : File} {attempts : List (Attempt Uuid)}
    {result : Except Failure (Identity Uuid)}
    (isReturned : result ∈ returned crates umask (some held) attempts) :
    result = .error .system ∨ result = load crates held := by
  induction attempts with
  | nil => cases isReturned
  | cons attempt rest induction =>
      rw [returned, loadOrCreate] at isReturned
      cases looks : attempt.reads with
      | false =>
          simp only [looks, Bool.false_eq_true, if_false] at isReturned
          rcases List.mem_cons.mp isReturned with now | later
          · exact Or.inl now
          · exact induction later
      | true =>
          simp only [looks, if_true] at isReturned
          rcases List.mem_cons.mp isReturned with now | later
          · exact Or.inr now
          · exact induction later

/-- A start that was cut off is made good by the next one if nothing but
the last line feed is missing, and otherwise by none. -/
theorem cut_off_start
    (documented : crates.Documented)
    (attempt : Attempt Uuid) (attempts : List (Attempt Uuid))
    (looks : attempt.reads = true)
    (makes : attempt.createsDir = true)
    (begun : attempt.done ≠ 0) :
    ∀ result ∈
        returned crates umask
          (loadOrCreate crates umask attempt none).1 attempts,
      result = .error .system ∨
        result =
          if (writePrivate (attempt.generated.serialize crates)).length ≤
              attempt.done + 1 then
            .ok attempt.generated
          else .error (.invalidData "malformed identity file") := by
  intro result isReturned
  have isLength := length_serialize documented attempt.generated
  have isFile :
      (loadOrCreate crates umask attempt none).1 =
        some
          { contents :=
              (attempt.generated.serialize crates).toList.take
                (attempt.done - 2)
            mode :=
              if attempt.done = 1 then 0o600#9 &&& ~~~umask
              else 0o600#9 } := by
    rw [loadOrCreate]
    simp only [looks, makes, if_true, afterCalls_writePrivate,
      if_neg begun]
  rw [isFile] at isReturned
  rcases mem_returned_some isReturned with isFailure | isLoaded
  · exact Or.inl isFailure
  · right
    rw [isLoaded, load, parse_take documented, length_writePrivate,
      isLength]
    by_cases whole : 103 ≤ attempt.done
    · rw [if_pos (by omega), if_pos (by omega)]
    · rw [if_neg (by omega), if_neg (by omega)]

theorem cut_off_start_shakyStarts :
    (⟨otherIdentity, true, true, 60⟩ : Attempt Bytes16).done ≠ 0 ∧
      ∀ result ∈
          returned knownCrates 0o022#9
            (loadOrCreate knownCrates 0o022#9
              ⟨otherIdentity, true, true, 60⟩ none).1
            shakyStarts,
        result = .error .system ∨
          result = .error (.invalidData "malformed identity file") := by
  refine ⟨by decide, fun result isReturned => ?_⟩
  have cut :=
    cut_off_start knownCrates_documented
      ⟨otherIdentity, true, true, 60⟩ shakyStarts rfl rfl (by decide)
      result isReturned
  have short :
      ¬(writePrivate (otherIdentity.serialize knownCrates)).length ≤
        60 + 1 := by
    decide +kernel
  rw [if_neg short] at cut
  exact cut

/-! ### Who can read the file -/

theorem private_create :
    ∀ umask : BitVec 9, File.Private ⟨[], 0o600#9 &&& ~~~umask⟩ := by
  intro umask
  rw [File.Private, BitVec.and_assoc, BitVec.and_comm (~~~umask),
    ← BitVec.and_assoc]
  exact BitVec.zero_and

theorem private_afterCalls
    (contents : String) (done : Nat) {held : File}
    (written :
      afterCalls umask ((writePrivate contents).take done) none =
        some held) :
    held.Private := by
  rw [afterCalls_writePrivate] at written
  split_ifs at written with nothing created
  · rw [← Option.some.inj written]
    exact private_create umask
  · rw [← Option.some.inj written]
    exact (by decide : 0o600#9 &&& 0o077#9 = 0#9)

/-- A file that was there is cut short before it is closed to others. -/
theorem private_rewritten
    (contents : String) (done : Nat) {file held : File}
    (written :
      afterCalls umask ((writePrivate contents).take (done + 1))
          (some file) =
        some held) :
    held.contents = [] ∨ held.Private := by
  rw [writePrivate, List.take_succ_cons] at written
  cases done with
  | zero =>
      rw [List.take_zero] at written
      rw [← Option.some.inj written]
      exact Or.inl rfl
  | succ length =>
      rw [List.take_succ_cons, ← List.map_take] at written
      have isHeld :
          some held =
            some
              { contents := contents.toList.take length
                mode := 0o600#9 } :=
        written.symm.trans (afterCalls_put umask _ ⟨[], 0o600#9⟩)
      rw [Option.some.inj isHeld]
      exact Or.inr (by decide : 0o600#9 &&& 0o077#9 = 0#9)

theorem private_loadOrCreate
    (attempt : Attempt Uuid) {file : Option File}
    (isPrivate : ∀ held, file = some held → held.Private)
    {held : File}
    (left : (loadOrCreate crates umask attempt file).1 = some held) :
    held.Private := by
  cases file with
  | some before =>
      apply isPrivate
      rw [← left, loadOrCreate]
      split_ifs <;> rfl
  | none =>
      rw [loadOrCreate] at left
      split_ifs at left
      exact private_afterCalls _ _ left

theorem private_fileAfter
    (attempts : List (Attempt Uuid)) {file : Option File}
    (isPrivate : ∀ held, file = some held → held.Private)
    {held : File}
    (left : fileAfter crates umask file attempts = some held) :
    held.Private := by
  induction attempts generalizing file with
  | nil => exact isPrivate held left
  | cons attempt rest induction =>
      exact
        induction (fun _ => private_loadOrCreate attempt isPrivate) left

/-- At no moment of any starts can anyone but the owner read the file that
they create, and a file of wider permissions that is written again holds
nothing until it is closed to others. -/
theorem file_private
    (attempts : List (Attempt Uuid))
    (contents : String) (done : Nat) (file : File) :
    (∀ held, fileAfter crates umask none attempts = some held →
        held.Private) ∧
      ∀ held,
        afterCalls umask ((writePrivate contents).take (done + 1))
            (some file) =
          some held →
        held.contents = [] ∨ held.Private := by
  constructor
  · intro held left
    apply private_fileAfter attempts _ left
    intro _ isFile
    cases isFile
  · intro held written
    exact private_rewritten contents done written

theorem file_private_shakyStarts :
    (fileAfter knownCrates 0o022#9 none shakyStarts).isSome ∧
      (∀ held,
        fileAfter knownCrates 0o022#9 none shakyStarts = some held →
          held.Private) ∧
      ∀ held,
        afterCalls 0o022#9 ((writePrivate "seed").take (1 + 1))
            (some ⟨['x'], 0o644#9⟩) =
          some held →
        held.contents = [] ∨ held.Private :=
  ⟨by decide +kernel,
    file_private shakyStarts "seed" 1 ⟨['x'], 0o644#9⟩⟩

end Identity

end OpenAirplay2.Control

import OpenAirplay2.Lib.Hex
import OpenAirplay2.Lib.Lines

/-!
# The identity of the receiver

Senders remember a receiver by its public key and its public identifier.
Both are kept in a file of two lines.  The file reads as the identity it was
written for, and a beginning of it as that identity or as none.
-/

namespace OpenAirplay2.Control

open OpenAirplay2.Lib
open OpenAirplay2.Lib.Str

variable {Uuid : Type}

/-! ## What is kept -/

abbrev Bytes32 := { bytes : List UInt8 // bytes.length = 32 }

/-- An Ed25519 key, by its seed, and a public identifier. -/
structure Identity (Uuid : Type) where
  signingKey : Bytes32
  pi : Uuid
deriving DecidableEq, Repr

/-- What is used of the crates `hex`, `uuid` and `ed25519_dalek`. -/
structure Crates (Uuid : Type) where
  /-- `hex::encode`. -/
  hexEncode : List UInt8 → String
  /-- `hex::decode`. -/
  hexDecode : String → Option (List UInt8)
  /-- `Uuid::to_string`. -/
  uuidString : Uuid → String
  /-- `Uuid::parse_str`. -/
  parseStr : String → Option Uuid
  /-- `SigningKey::verifying_key`. -/
  verifyingKey : Bytes32 → Bytes32

/-- The digits of `hex::encode` and of `Uuid::to_string`. -/
def lowerDigits : List Char :=
  ['0', '1', '2', '3', '4', '5', '6', '7', '8', '9',
    'a', 'b', 'c', 'd', 'e', 'f']

/-- What the documentation of the crates promises. -/
structure Crates.Documented (crates : Crates Uuid) : Prop where
  hexEncode_digits :
    ∀ bytes, ∀ char ∈ (crates.hexEncode bytes).toList,
      char ∈ lowerDigits
  hexEncode_length :
    ∀ bytes, (crates.hexEncode bytes).toList.length = 2 * bytes.length
  hexDecode_hexEncode :
    ∀ bytes, crates.hexDecode (crates.hexEncode bytes) = some bytes
  /-- An identifier is written hyphenated, in lower case. -/
  uuidString_digits :
    ∀ uuid, ∀ char ∈ (crates.uuidString uuid).toList,
      char ∈ '-' :: lowerDigits
  uuidString_length :
    ∀ uuid, (crates.uuidString uuid).toList.length = 36
  uuidString_hyphen :
    ∀ uuid, (crates.uuidString uuid).toList[8]? = some '-'
  parseStr_uuidString :
    ∀ uuid, crates.parseStr (crates.uuidString uuid) = some uuid
  /-- The simple form, the hyphenated one, the one in braces and the URN. -/
  parseStr_length :
    ∀ text uuid, crates.parseStr text = some uuid →
      text.toList.length ∈ [32, 36, 38, 45]
  /-- The simple form has no hyphens. -/
  parseStr_simple :
    ∀ text uuid, crates.parseStr text = some uuid →
      text.toList.length = 32 → '-' ∉ text.toList

/-! ## The crates on one input -/

/-- A UUID is 16 bytes. -/
abbrev Bytes16 := { bytes : List UInt8 // bytes.length = 16 }

/-- The lengths of the groups of a hyphenated UUID. -/
def groupLengths : List Nat := [8, 4, 4, 4, 12]

/-- Digits in hyphenated groups. -/
def hyphenate (digits : List Char) : List Char :=
  List.intercalate ['-']
    [digits.take 8, (digits.drop 8).take 4, (digits.drop 12).take 4,
      (digits.drop 16).take 4, digits.drop 20]

/-- The digits of hyphenated groups. -/
def unhyphenate (text : List Char) : Option (List Char) :=
  let groups := text.splitOn '-'
  if groups.map List.length = groupLengths then some groups.flatten
  else none

def bytes16 (digits : List Char) : Option Bytes16 :=
  (Hex.decode digits).bind fun bytes =>
    if isWhole : bytes.length = 16 then some ⟨bytes, isWhole⟩ else none

/-- `Uuid::parse_str`, by the length of the text. -/
def parseUuid (signs : List Char) : Option Bytes16 :=
  if signs.length = 32 then bytes16 signs
  else if signs.length = 36 then (unhyphenate signs).bind bytes16
  else if signs.length = 38 ∧ signs.head? = some '{' ∧
      signs.getLast? = some '}' then
    (unhyphenate (signs.drop 1).dropLast).bind bytes16
  else if signs.length = 45 ∧ "urn:uuid:".toList.isPrefixOf signs then
    (unhyphenate (signs.drop 9)).bind bytes16
  else none

/-- A key whose public key is known. -/
def knownSeed : List UInt8 :=
  [0x9d, 0x61, 0xb1, 0x9d, 0xef, 0xfd, 0x5a, 0x60, 0xba, 0x84, 0x4a,
    0xf4, 0x92, 0xec, 0x2c, 0xc4, 0x44, 0x49, 0xc5, 0x69, 0x7b, 0x32,
    0x69, 0x19, 0x70, 0x3b, 0xac, 0x03, 0x1c, 0xae, 0x7f, 0x60]

def knownPublicKey : List UInt8 :=
  [0xd7, 0x5a, 0x98, 0x01, 0x82, 0xb1, 0x0a, 0xb7, 0xd5, 0x4b, 0xfe,
    0xd3, 0xc9, 0x64, 0x07, 0x3a, 0x0e, 0xe1, 0x72, 0xf3, 0xda, 0xa6,
    0x23, 0x25, 0xaf, 0x02, 0x1a, 0x68, 0xf7, 0x07, 0x51, 0x1a]

/-- The crates, as far as keys go on the known key alone. -/
def knownCrates : Crates Bytes16 where
  hexEncode bytes := String.ofList (Hex.encode false bytes)
  hexDecode text := Hex.decode text.toList
  uuidString uuid := String.ofList (hyphenate (Hex.encode false uuid.1))
  parseStr text := parseUuid text.toList
  verifyingKey seed :=
    if seed.1 = knownSeed then ⟨knownPublicKey, rfl⟩ else seed

theorem mem_lowerDigits :
    ∀ number < 16, Hex.digit false number ∈ lowerDigits := by
  decide

section Hyphens

variable
    {digits : List Char}
    (isHex : ∀ char ∈ digits, char ∈ lowerDigits)
    (isLength : digits.length = 32)

include isLength

theorem length_hyphenate : (hyphenate digits).length = 36 := by
  simp [hyphenate, List.intercalate, isLength]

theorem hyphenate_hyphen : (hyphenate digits)[8]? = some '-' := by
  have first : (digits.take 8).length = 8 := by simp [isLength]
  rw [hyphenate, List.intercalate_cons_cons, List.append_assoc,
    List.getElem?_append_right (by rw [first]), first]
  rfl

include isHex

omit isLength in
theorem mem_hyphenate :
    ∀ char ∈ hyphenate digits, char ∈ '-' :: lowerDigits := by
  intro char isChar
  simp only [hyphenate, List.intercalate, List.intersperse_cons_cons,
    List.intersperse_singleton, List.flatten_cons, List.flatten_nil,
    List.append_nil, List.mem_append, List.mem_singleton] at isChar
  rw [List.mem_cons]
  grind [List.mem_of_mem_take, List.mem_of_mem_drop]

theorem unhyphenate_hyphenate :
    unhyphenate (hyphenate digits) = some digits := by
  have noHyphen : '-' ∉ digits := by
    intro isHyphen
    exact absurd (isHex _ isHyphen) (by decide)
  have groups :
      (hyphenate digits).splitOn '-' =
        [digits.take 8, (digits.drop 8).take 4, (digits.drop 12).take 4,
          (digits.drop 16).take 4, digits.drop 20] := by
    apply List.splitOn_intercalate
    · intro group isGroup isHyphen
      apply noHyphen
      simp only [List.mem_cons, List.not_mem_nil, or_false] at isGroup
      grind [List.mem_of_mem_take, List.mem_of_mem_drop]
    · exact List.cons_ne_nil _ _
  rw [unhyphenate, groups, if_pos]
  · have joined (start count : Nat) :
        (digits.drop start).take count ++ digits.drop (start + count) =
          digits.drop start := by
      rw [← List.drop_drop, List.take_append_drop]
    simp only [List.flatten_cons, List.flatten_nil, List.append_nil]
    rw [joined 16 4, joined 12 4, joined 8 4, List.take_append_drop]
  · simp [groupLengths, isLength]

end Hyphens

theorem hex_lowerDigits
    {bytes : List UInt8} {char : Char}
    (isChar : char ∈ Hex.encode false bytes) :
    char ∈ lowerDigits := by
  rcases Hex.mem_encode isChar with ⟨number, small, rfl⟩
  exact mem_lowerDigits number small

theorem length_uuid (uuid : Bytes16) :
    (Hex.encode false uuid.1).length = 32 := by
  rw [Hex.length_encode, uuid.2]

theorem parseUuid_hyphenate (uuid : Bytes16) :
    parseUuid (hyphenate (Hex.encode false uuid.1)) = some uuid := by
  have isLength := length_hyphenate (length_uuid uuid)
  have simple : ¬(hyphenate (Hex.encode false uuid.1)).length = 32 := by
    rw [isLength]
    decide
  rw [parseUuid, if_neg simple, if_pos isLength,
    unhyphenate_hyphenate (fun _ => hex_lowerDigits) (length_uuid uuid),
    Option.bind_some, bytes16, Hex.decode_encode, Option.bind_some,
    dif_pos uuid.2]

theorem parseUuid_length
    {signs : List Char} {uuid : Bytes16}
    (parsed : parseUuid signs = some uuid) :
    signs.length ∈ [32, 36, 38, 45] := by
  rw [parseUuid] at parsed
  split_ifs at parsed with simple hyphenated braced urn
  · rw [simple]
    decide
  · rw [hyphenated]
    decide
  · rw [braced.1]
    decide
  · rw [urn.1]
    decide

theorem parseUuid_simple
    {signs : List Char} {uuid : Bytes16}
    (parsed : parseUuid signs = some uuid) (isLength : signs.length = 32) :
    '-' ∉ signs := by
  rw [parseUuid, if_pos isLength, bytes16, Option.bind_eq_some_iff]
    at parsed
  rcases parsed with ⟨bytes, decoded, _⟩
  intro isHyphen
  exact absurd (Hex.value_of_decode decoded _ isHyphen) (by decide)

theorem knownCrates_documented : knownCrates.Documented where
  hexEncode_digits bytes char isChar := by
    rw [knownCrates, String.toList_ofList] at isChar
    exact hex_lowerDigits isChar
  hexEncode_length bytes := by
    rw [knownCrates, String.toList_ofList]
    exact Hex.length_encode false bytes
  hexDecode_hexEncode bytes := by
    simp only [knownCrates, String.toList_ofList]
    exact Hex.decode_encode false bytes
  uuidString_digits uuid := by
    rw [knownCrates, String.toList_ofList]
    exact mem_hyphenate fun _ => hex_lowerDigits
  uuidString_length uuid := by
    rw [knownCrates, String.toList_ofList]
    exact length_hyphenate (length_uuid uuid)
  uuidString_hyphen uuid := by
    rw [knownCrates, String.toList_ofList]
    exact hyphenate_hyphen (length_uuid uuid)
  parseStr_uuidString uuid := by
    simp only [knownCrates, String.toList_ofList]
    exact parseUuid_hyphenate uuid
  parseStr_length _ _ parsed := parseUuid_length parsed
  parseStr_simple _ _ parsed := parseUuid_simple parsed

/-- An identity of the known key. -/
def knownIdentity : Identity Bytes16 where
  signingKey := ⟨knownSeed, rfl⟩
  pi := ⟨List.replicate 16 0x3c, rfl⟩

/-- What other starts would make up. -/
def otherIdentity : Identity Bytes16 where
  signingKey := ⟨knownPublicKey, rfl⟩
  pi := ⟨List.replicate 16 0xa5, rfl⟩

namespace Identity

variable (crates : Crates Uuid)

/-- `Identity::public_key`. -/
def publicKey (identity : Identity Uuid) : Bytes32 :=
  crates.verifyingKey identity.signingKey

def publicKeyHex (identity : Identity Uuid) : String :=
  crates.hexEncode (identity.publicKey crates).1

def piString (identity : Identity Uuid) : String :=
  crates.uuidString identity.pi

/-- The seed in hexadecimal, then the identifier, a line each. -/
def serialize (identity : Identity Uuid) : String :=
  crates.hexEncode identity.signingKey.1 ++ "\n" ++
    crates.uuidString identity.pi ++ "\n"

/-- `<[u8; 32]>::try_from`. -/
def bytes32 (bytes : List UInt8) : Option Bytes32 :=
  if isWhole : bytes.length = 32 then some ⟨bytes, isWhole⟩ else none

/-- The key is on the first line and the identifier on the second. -/
def parse (contents : String) : Option (Identity Uuid) :=
  match lines contents with
  | seedLine :: piLine :: _ =>
      (crates.hexDecode (trim seedLine)).bind fun bytes =>
        (bytes32 bytes).bind fun seed =>
          (crates.parseStr (trim piLine)).map fun pi => ⟨seed, pi⟩
  | _ => none

end Identity

/-! ## What is read back -/

/-- The digits and the hyphen are no white space. -/
theorem isWhitespace_digits :
    ∀ char ∈ '-' :: lowerDigits, isWhitespace char = false := by
  have solid :
      ('-' :: lowerDigits).all (fun char => !isWhitespace char) =
        true := by
    decide
  intro char isDigit
  simpa using List.all_eq_true.mp solid char isDigit

section Digits

variable
    {text : List Char}
    (digits : ∀ char ∈ text, char ∈ '-' :: lowerDigits)

include digits

theorem not_mem_feed : '\n' ∉ text := by
  intro isFeed
  exact absurd (isWhitespace_digits _ (digits _ isFeed)) (by decide)

theorem stripReturn_digits : stripReturn text = text := by
  rw [stripReturn, if_neg]
  intro isReturn
  have solid :=
    isWhitespace_digits _ (digits _ (List.mem_of_getLast? isReturn))
  exact absurd solid (by decide)

theorem trim_digits : trim (String.ofList text) = String.ofList text := by
  apply trim_of_solid
  intro char isChar
  rw [String.toList_ofList] at isChar
  exact isWhitespace_digits char (digits char isChar)

end Digits

namespace Identity

variable {crates : Crates Uuid}

/-- Without a second line there is no identity. -/
theorem parse_of_short
    {contents : String} (short : (lines contents).length ≤ 1) :
    parse crates contents = none := by
  rw [parse]
  cases isLines : lines contents with
  | nil => rfl
  | cons first rest =>
      cases rest with
      | nil => rfl
      | cons second others => simp [isLines] at short

section Documented

variable (documented : crates.Documented)

include documented

/-- The first line of a file that was cut off behind it is the key. -/
theorem parse_keyLine
    (identity : Identity Uuid) (rest : List Char) :
    parse crates
        (String.ofList
          ((crates.hexEncode identity.signingKey.1).toList ++
            '\n' :: rest)) =
      (lines (String.ofList rest)).head?.bind fun piLine =>
        (crates.parseStr (trim piLine)).map fun pi =>
          ⟨identity.signingKey, pi⟩ := by
  have digits :
      ∀ char ∈ (crates.hexEncode identity.signingKey.1).toList,
        char ∈ '-' :: lowerDigits :=
    fun char isChar =>
      List.mem_cons_of_mem _
        (documented.hexEncode_digits _ char isChar)
  have isSeed : bytes32 identity.signingKey.1 = some identity.signingKey :=
    dif_pos identity.signingKey.2
  rw [parse, lines_cons (not_mem_feed digits), stripReturn_digits digits]
  cases isLines : lines (String.ofList rest) with
  | nil => rfl
  | cons piLine others =>
      simp only [List.head?_cons, Option.bind_some]
      rw [trim_digits digits, String.ofList_toList,
        documented.hexDecode_hexEncode, Option.bind_some, isSeed,
        Option.bind_some]

/-- A beginning of an identifier is no identifier. -/
theorem parseStr_take
    (pi : Uuid) {length : Nat} (short : length < 36) :
    crates.parseStr
        (String.ofList ((crates.uuidString pi).toList.take length)) =
      none := by
  rw [Option.eq_none_iff_forall_ne_some]
  intro other parsed
  have isLength :=
    documented.parseStr_length _ other parsed
  rw [String.toList_ofList, List.length_take,
    documented.uuidString_length, min_eq_left short.le] at isLength
  have isSimple : length = 32 := by
    simp only [List.mem_cons, List.not_mem_nil, or_false] at isLength
    omega
  apply documented.parseStr_simple _ other parsed
  · rw [String.toList_ofList, List.length_take,
      documented.uuidString_length, isSimple]
    rfl
  · rw [String.toList_ofList, isSimple]
    apply List.mem_of_getElem? (i := 8)
    rw [List.getElem?_take_of_lt (by decide)]
    exact documented.uuidString_hyphen pi

/-- What is read of a beginning of an identifier's line. -/
theorem parse_piLine
    (identity : Identity Uuid) (length : Nat) :
    ((lines
        (String.ofList
          (((crates.uuidString identity.pi).toList ++ ['\n']).take
            length))).head?.bind fun piLine =>
        (crates.parseStr (trim piLine)).map fun pi =>
          (⟨identity.signingKey, pi⟩ : Identity Uuid)) =
      if 36 ≤ length then some identity else none := by
  have digits := documented.uuidString_digits identity.pi
  have isLength := documented.uuidString_length identity.pi
  by_cases whole : 36 ≤ length
  · rw [if_pos whole]
    have isLine :
        (lines
          (String.ofList
            (((crates.uuidString identity.pi).toList ++ ['\n']).take
              length))).head? =
          some (crates.uuidString identity.pi) := by
      by_cases ended : length = 36
      · rw [ended, ← isLength, List.take_left, lines_single
          (not_mem_feed digits), if_neg, String.ofList_toList]
        · rfl
        · rw [List.isEmpty_iff, ← List.length_eq_zero_iff, isLength]
          decide
      · rw [List.take_of_length_le, lines_cons (not_mem_feed digits),
          stripReturn_digits digits, String.ofList_toList]
        · rfl
        · rw [List.length_append, isLength]
          exact Nat.lt_of_le_of_ne whole (Ne.symm ended)
    have trimmed := trim_digits digits
    rw [String.ofList_toList] at trimmed
    rw [isLine, Option.bind_some, trimmed,
      documented.parseStr_uuidString]
    rfl
  · rw [if_neg whole]
    have short : length < 36 := Nat.lt_of_not_le whole
    have within :
        ∀ char ∈ (crates.uuidString identity.pi).toList.take length,
          char ∈ '-' :: lowerDigits :=
      fun char isChar => digits char (List.mem_of_mem_take isChar)
    rw [List.take_append_of_le_length (by omega),
      lines_single (not_mem_feed within)]
    split_ifs
    · rfl
    · rw [List.head?_cons, Option.bind_some, trim_digits within,
        parseStr_take documented identity.pi short]
      rfl

omit documented in
theorem toList_serialize (identity : Identity Uuid) :
    (identity.serialize crates).toList =
      (crates.hexEncode identity.signingKey.1).toList ++
        '\n' :: ((crates.uuidString identity.pi).toList ++ ['\n']) := by
  simp [serialize]

theorem length_seedText (identity : Identity Uuid) :
    (crates.hexEncode identity.signingKey.1).toList.length = 64 := by
  rw [documented.hexEncode_length, identity.signingKey.2]

theorem length_serialize (identity : Identity Uuid) :
    (identity.serialize crates).toList.length = 102 := by
  rw [toList_serialize, List.length_append, List.length_cons,
    List.length_append, length_seedText documented,
    documented.uuidString_length]
  rfl

/-- A beginning of the file reads as the identity once only the last line
feed is missing, and before that as none. -/
theorem parse_take (identity : Identity Uuid) (length : Nat) :
    parse crates
        (String.ofList ((identity.serialize crates).toList.take length)) =
      if 101 ≤ length then some identity else none := by
  have isSeed := length_seedText documented identity
  rw [toList_serialize]
  by_cases ended : length ≤ 64
  · rw [List.take_append_of_le_length (by rw [isSeed]; exact ended),
      if_neg (by omega)]
    have digits :
        ∀ char ∈
          (crates.hexEncode identity.signingKey.1).toList.take length,
          char ∈ '-' :: lowerDigits :=
      fun char isChar =>
        List.mem_cons_of_mem _
          (documented.hexEncode_digits _ char
            (List.mem_of_mem_take isChar))
    apply parse_of_short
    rw [lines_single (not_mem_feed digits)]
    split_ifs
    · exact Nat.zero_le 1
    · exact Nat.le_refl 1
  · rcases Nat.exists_eq_add_of_lt (Nat.lt_of_not_le ended) with
      ⟨more, rfl⟩
    have isTake :
        ((crates.hexEncode identity.signingKey.1).toList ++
            '\n' :: ((crates.uuidString identity.pi).toList ++
              ['\n'])).take (64 + more + 1) =
          (crates.hexEncode identity.signingKey.1).toList ++
            '\n' :: ((crates.uuidString identity.pi).toList ++
              ['\n']).take more := by
      rw [Nat.add_assoc, ← isSeed, List.take_length_add_append,
        List.take_succ_cons]
    rw [isTake, parse_keyLine documented, parse_piLine documented]
    by_cases whole : 36 ≤ more
    · rw [if_pos whole, if_pos (by omega)]
    · rw [if_neg whole, if_neg (by omega)]

/-- The whole file reads as the identity it was written for. -/
theorem parse_serialize (identity : Identity Uuid) :
    parse crates (identity.serialize crates) = some identity := by
  have whole := parse_take documented identity 102
  rw [List.take_of_length_le (length_serialize documented identity).le,
    String.ofList_toList] at whole
  exact whole

end Documented

end Identity

end OpenAirplay2.Control

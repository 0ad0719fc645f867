import OpenAirplay2.Control.Identity
import OpenAirplay2.Control.Responses
import OpenAirplay2.Lib.Counted

/-!
# What a receiver announces

The receiver announces itself by records over mDNS, and answers `GET /info`
with a property list that holds the same records once more, packed into
bytes.  Whoever reads either learns the same of the receiver.
-/

namespace OpenAirplay2.Control

open OpenAirplay2.Lib
open OpenAirplay2.Lib.Str
open OpenAirplay2.Lib.Transition
open OpenAirplay2.Pairing (Bytes)

variable {Uuid : Type}

/-! ## The configuration -/

abbrev Mac := { bytes : List UInt8 // bytes.length = 6 }

structure Config where
  name : String
  port : UInt16
  mac : Mac
  model : String
  sourceVersion : String
  features : UInt64
  statusFlags : UInt32
  password : Option String
deriving DecidableEq, Repr

namespace Config

/-- The MAC as colon-separated uppercase hexadecimal. -/
def deviceId (config : Config) : String :=
  String.ofList
    (List.intercalate [':'] (config.mac.1.map (Hex.pair true)))

/-- The low and the high half of the bitmask. -/
def featuresSplit (config : Config) : UInt32 × UInt32 :=
  (config.features.toUInt32, (config.features >>> 32).toUInt32)

end Config

/-- The format `0x{:X}`. -/
def hexNumber (number : Nat) : String :=
  "0x" ++ String.ofList (Hex.format true number)

/-! ## The records -/

/-- The `_airplay._tcp` records. -/
def txtRecords (crates : Crates Uuid) (config : Config)
    (identity : Identity Uuid) : List String :=
  let (lo, hi) := config.featuresSplit
  ["acl=0",
    "deviceid=" ++ config.deviceId,
    "features=" ++ (hexNumber lo.toNat ++ "," ++ hexNumber hi.toNat),
    "flags=" ++ hexNumber config.statusFlags.toNat,
    "gid=" ++ identity.piString crates,
    "gcgl=0",
    "igl=0",
    "model=" ++ config.model,
    "protovers=1.1",
    "pi=" ++ identity.piString crates,
    "pk=" ++ identity.publicKeyHex crates,
    "srcvers=" ++ config.sourceVersion,
    "vv=2"]

/-- Each record behind its length in bytes. -/
def packTxt (records : List String) : Bytes :=
  Counted.pack (records.map fun record => utf8 record.toList)

/-- What `GET /info` answers, before it is written. -/
def infoDictionary (crates : Crates Uuid) (config : Config)
    (identity : Identity Uuid) : Dictionary :=
  [("vv", .integer 2),
    ("protocolVersion", .string "1.1"),
    ("volumeControlType", .integer 3),
    ("canRecordScreenStream", .boolean false),
    ("keepAliveSendStatsAsBody", .boolean false),
    ("screenDemoMode", .boolean false),
    ("receiverHDRCapability", .string "4k60"),
    ("playbackCapabilities",
      .dictionary
        [("supportsInterstitials", .boolean false),
          ("supportsFPSSecureStop", .boolean false),
          ("supportsUIForAudioOnlyContent", .boolean false)]),
    ("deviceID", .string config.deviceId),
    ("name", .string config.name),
    ("model", .string config.model),
    ("sourceVersion", .string config.sourceVersion),
    ("features", .integer config.features.toNat),
    ("statusFlags", .integer config.statusFlags.toNat),
    ("pi", .string (identity.piString crates)),
    ("pk", .data (identity.publicKey crates).1),
    ("txtAirPlay", .data (packTxt (txtRecords crates config identity)))]

variable {Db : Type}

/-- The property list; `none` where the source would panic. -/
def infoPlist (platform : Platform Db) (crates : Crates Uuid)
    (config : Config) (identity : Identity Uuid) : Option Bytes :=
  platform.writePlist (.dictionary (infoDictionary crates config identity))

/-! ## Who reads it -/

/-- The bytes of a MAC of six parts; `mac::parse`. -/
def parseMac (text : String) : Option Mac :=
  let parts := split (trim text) ':'
  (parts.mapM Hex.fromStrRadix16).bind fun bytes =>
    if isWhole : bytes.length = 6 then some ⟨bytes, isWhole⟩ else none

def readNumber (text : String) : Option Nat :=
  match text.toList with
  | '0' :: 'x' :: digits => Hex.read digits
  | _ => none

def readFeatures (text : String) : Option Nat :=
  (splitOnce text ',').bind fun halves =>
    (readNumber halves.1).bind fun lo =>
      (readNumber halves.2).map fun hi => lo + 2 ^ 32 * hi

/-- What the records say of a receiver. -/
structure Announced (Uuid : Type) where
  mac : Mac
  features : Nat
  statusFlags : Nat
  model : String
  sourceVersion : String
  group : Uuid
  pi : Uuid
  publicKey : Bytes
deriving DecidableEq, Repr

/-- The value of a record, by its key. -/
def recordValue (records : List String) (key : String) : Option String :=
  (records.filterMap (splitOnce · '=')).lookup key

/-- Read the records of a receiver. -/
def learn (crates : Crates Uuid) (records : List String) :
    Option (Announced Uuid) := do
  let mac ← (recordValue records "deviceid").bind parseMac
  let features ← (recordValue records "features").bind readFeatures
  let statusFlags ← (recordValue records "flags").bind readNumber
  let model ← recordValue records "model"
  let sourceVersion ← recordValue records "srcvers"
  let group ← (recordValue records "gid").bind crates.parseStr
  let pi ← (recordValue records "pi").bind crates.parseStr
  let publicKey ← (recordValue records "pk").bind crates.hexDecode
  return ⟨mac, features, statusFlags, model, sourceVersion, group, pi,
    publicKey⟩

/-- Read records that were packed. -/
def unpackTxt (bytes : Bytes) : Option (List String) :=
  (Counted.unpack bytes).bind fun records => records.mapM fromUtf8

/-- What there is to be learned. -/
def announced (crates : Crates Uuid) (config : Config)
    (identity : Identity Uuid) : Announced Uuid where
  mac := config.mac
  features := config.features.toNat
  statusFlags := config.statusFlags.toNat
  model := config.model
  sourceVersion := config.sourceVersion
  group := identity.pi
  pi := identity.pi
  publicKey := (identity.publicKey crates).1

/-! ## Single values -/

theorem upper_digit :
    ∀ value < 16,
      isWhitespace (Hex.digit true value) = false ∧
        Hex.digit true value ≠ ':' ∧ Hex.digit true value ≠ ',' := by
  decide

/-- The parts of a MAC are read back. -/
theorem mapM_pairs (bytes : List UInt8) :
    (bytes.map fun byte => String.ofList (Hex.pair true byte)).mapM
        Hex.fromStrRadix16 =
      some bytes := by
  induction bytes with
  | nil => rfl
  | cons byte rest induction =>
      simp [Hex.fromStrRadix16_pair, induction]

theorem parseMac_deviceId (config : Config) :
    parseMac config.deviceId = some config.mac := by
  have solid :
      ∀ char ∈ config.deviceId.toList, isWhitespace char = false := by
    intro char isChar
    rw [Config.deviceId, String.toList_ofList] at isChar
    rcases mem_of_mem_intercalate isChar with
      isColon | ⟨pair, isPair, within⟩
    · rw [List.mem_singleton.mp isColon]
      decide
    · rcases List.mem_map.mp isPair with ⟨byte, _, rfl⟩
      rcases Hex.mem_pair within with ⟨value, small, rfl⟩
      exact (upper_digit value small).1
  have parts :
      split config.deviceId ':' =
        config.mac.1.map fun byte => String.ofList (Hex.pair true byte) := by
    rw [split, Config.deviceId, String.toList_ofList,
      List.splitOn_intercalate, List.map_map]
    · rfl
    · intro pair isPair isColon
      rcases List.mem_map.mp isPair with ⟨byte, _, rfl⟩
      rcases Hex.mem_pair isColon with ⟨value, small, isDigit⟩
      exact (upper_digit value small).2.1 isDigit.symm
    · rw [Ne, List.map_eq_nil_iff, ← List.length_eq_zero_iff, config.mac.2]
      decide
  rw [parseMac, trim_of_solid solid, parts, mapM_pairs, Option.bind_some,
    dif_pos config.mac.2]

theorem toList_hexNumber (number : Nat) :
    (hexNumber number).toList = '0' :: 'x' :: Hex.format true number := by
  simp [hexNumber]

theorem readNumber_hexNumber (number : Nat) :
    readNumber (hexNumber number) = some number := by
  simp [readNumber, hexNumber]

theorem readFeatures_split (config : Config) :
    readFeatures
        (hexNumber config.featuresSplit.1.toNat ++ "," ++
          hexNumber config.featuresSplit.2.toNat) =
      some config.features.toNat := by
  have noComma (number : Nat) : ',' ∉ (hexNumber number).toList := by
    rw [toList_hexNumber]
    intro isComma
    simp only [List.mem_cons, Char.reduceEq, false_or] at isComma
    rcases Hex.mem_format isComma with ⟨value, small, isDigit⟩
    exact (upper_digit value small).2.2 isDigit.symm
  have halves (low high : Nat) :
      splitOnce (hexNumber low ++ "," ++ hexNumber high) ',' =
        some (hexNumber low, hexNumber high) := by
    have isText :
        (hexNumber low ++ "," ++ hexNumber high).toList =
          (hexNumber low).toList ++ ',' :: (hexNumber high).toList := by
      simp
    rw [splitOnce_of_toList isText (noComma low), String.ofList_toList,
      String.ofList_toList]
  have whole :
      config.featuresSplit.1.toNat +
          2 ^ 32 * config.featuresSplit.2.toNat =
        config.features.toNat := by
    have bound := config.features.toNat_lt
    simp only [Config.featuresSplit, UInt64.toNat_toUInt32,
      UInt64.toNat_shiftRight]
    rw [Nat.shiftRight_eq_div_pow]
    simp
    omega
  rw [readFeatures, halves, Option.bind_some, readNumber_hexNumber,
    Option.bind_some, readNumber_hexNumber, Option.map_some, whole]

/-! ## Records -/

/-- The records by key and value. -/
def fields (crates : Crates Uuid) (config : Config)
    (identity : Identity Uuid) : List (String × String) :=
  [("acl", "0"),
    ("deviceid", config.deviceId),
    ("features",
      hexNumber config.featuresSplit.1.toNat ++ "," ++
        hexNumber config.featuresSplit.2.toNat),
    ("flags", hexNumber config.statusFlags.toNat),
    ("gid", identity.piString crates),
    ("gcgl", "0"),
    ("igl", "0"),
    ("model", config.model),
    ("protovers", "1.1"),
    ("pi", identity.piString crates),
    ("pk", identity.publicKeyHex crates),
    ("srcvers", config.sourceVersion),
    ("vv", "2")]

section Records

variable
    (crates : Crates Uuid)
    (config : Config)
    (identity : Identity Uuid)

theorem txtRecords_eq :
    txtRecords crates config identity =
      (fields crates config identity).map fun field =>
        field.1 ++ "=" ++ field.2 := by
  simp [txtRecords, fields]

theorem keys_plain :
    ∀ field ∈ fields crates config identity, '=' ∉ field.1.toList := by
  simp [fields]

/-- The records are read as their keys and values. -/
theorem filterMap_txtRecords :
    (txtRecords crates config identity).filterMap (splitOnce · '=') =
      fields crates config identity := by
  have isField (field : String × String) (plain : '=' ∉ field.1.toList) :
      splitOnce (field.1 ++ "=" ++ field.2) '=' = some field := by
    have isText :
        (field.1 ++ "=" ++ field.2).toList =
          field.1.toList ++ '=' :: field.2.toList := by
      simp
    rw [splitOnce_of_toList isText plain, String.ofList_toList,
      String.ofList_toList]
  rw [txtRecords_eq, List.filterMap_map]
  calc
    (fields crates config identity).filterMap _ =
        (fields crates config identity).filterMap some :=
      List.filterMap_congr fun field isIn =>
        isField field (keys_plain crates config identity field isIn)
    _ = _ := List.filterMap_some

theorem recordValue_txtRecords (key : String) :
    recordValue (txtRecords crates config identity) key =
      (fields crates config identity).lookup key := by
  rw [recordValue, filterMap_txtRecords]

variable {crates}

/-- The records say what there is to be learned. -/
theorem learn_txtRecords (documented : crates.Documented) :
    learn crates (txtRecords crates config identity) =
      some (announced crates config identity) := by
  have isPi := documented.parseStr_uuidString identity.pi
  have isKey :=
    documented.hexDecode_hexEncode (identity.publicKey crates).1
  simp [learn, recordValue_txtRecords, fields, List.lookup_cons,
    parseMac_deviceId, readFeatures_split, readNumber_hexNumber,
    Identity.piString, Identity.publicKeyHex, isPi, isKey, announced]

end Records

/-! ## Records in bytes -/

/-- The records of free text are no longer than a byte can count. -/
structure Config.Fits (config : Config) : Prop where
  model : (utf8 config.model.toList).length ≤ 249
  sourceVersion : (utf8 config.sourceVersion.toList).length ≤ 247

/-- ASCII text of at most so many characters. -/
def Short (count : Nat) (text : List Char) : Prop :=
  (∀ char ∈ text, isAscii char = true) ∧ text.length ≤ count

theorem Short.append
    {first second : Nat} {before after : List Char}
    (isBefore : Short first before) (isAfter : Short second after) :
    Short (first + second) (before ++ after) := by
  constructor
  · intro char isChar
    rcases List.mem_append.mp isChar with here | there
    · exact isBefore.1 char here
    · exact isAfter.1 char there
  · rw [List.length_append]
    exact Nat.add_le_add isBefore.2 isAfter.2

theorem Short.utf8
    {count : Nat} {text : List Char} (short : Short count text) :
    (utf8 text).length ≤ count := by
  rw [length_utf8_ascii short.1]
  exact short.2

theorem isAscii_upper :
    ∀ value < 16, isAscii (Hex.digit true value) = true := by
  decide

theorem isAscii_lower :
    ∀ char ∈ '-' :: lowerDigits, isAscii char = true := by
  simp [lowerDigits, isAscii]

theorem short_hexNumber
    {number count : Nat} (positive : 0 < count)
    (bound : number < 16 ^ count) :
    Short (2 + count) (hexNumber number).toList := by
  rw [toList_hexNumber]
  constructor
  · intro char isChar
    rcases List.mem_cons.mp isChar with rfl | later
    · decide
    · rcases List.mem_cons.mp later with rfl | isDigit
      · decide
      · rcases Hex.mem_format isDigit with ⟨value, small, rfl⟩
        exact isAscii_upper value small
  · have isLength := Hex.length_format true positive bound
    simp only [List.length_cons]
    omega

theorem short_deviceId (config : Config) :
    Short 18 config.deviceId.toList := by
  have isLength (bytes : List UInt8) :
      (List.intercalate [':'] (bytes.map (Hex.pair true))).length ≤
        3 * bytes.length := by
    induction bytes with
    | nil => exact Nat.le_refl 0
    | cons byte rest induction =>
        by_cases last : rest = []
        · rw [last, List.map_singleton, List.intercalate_singleton]
          exact (by decide : 2 ≤ 3)
        · rw [List.map_cons, List.intercalate_cons_of_ne_nil
            (by simpa using last)]
          simp only [List.length_append, List.length_cons]
          have two : (Hex.pair true byte).length = 2 := rfl
          simp only [List.length_nil]
          omega
  rw [Config.deviceId, String.toList_ofList]
  constructor
  · intro char isChar
    rcases mem_of_mem_intercalate isChar with
      isColon | ⟨pair, isPair, within⟩
    · rw [List.mem_singleton.mp isColon]
      decide
    · rcases List.mem_map.mp isPair with ⟨byte, _, rfl⟩
      rcases Hex.mem_pair within with ⟨value, small, rfl⟩
      exact isAscii_upper value small
  · have bound := isLength config.mac.1
    rw [config.mac.2] at bound
    exact bound

section Packed

variable
    {crates : Crates Uuid}
    {config : Config}
    {identity : Identity Uuid}

theorem short_pi (documented : crates.Documented) :
    Short 36 (identity.piString crates).toList where
  left char isChar :=
    isAscii_lower char (documented.uuidString_digits identity.pi char isChar)
  right := (documented.uuidString_length identity.pi).le

theorem short_publicKey (documented : crates.Documented) :
    Short 64 (identity.publicKeyHex crates).toList := by
  constructor
  · intro char isChar
    exact
      isAscii_lower char
        (List.mem_cons_of_mem _
          (documented.hexEncode_digits _ char isChar))
  · rw [Identity.publicKeyHex, documented.hexEncode_length,
      (identity.publicKey crates).2]

theorem short_of_all
    {count : Nat} {text : String}
    (short :
      (text.toList.all isAscii && text.toList.length ≤ count) = true) :
    Short count text.toList := by
  simpa [Short] using short

/-- A record of short text behind a short key. -/
theorem length_record
    (first second : Nat) {key value : String}
    (isKey :
      (key.toList.all isAscii && key.toList.length ≤ first) = true)
    (isValue : Short second value.toList)
    (bound : first + second ≤ Counted.limit) :
    (utf8 (key ++ value).toList).length ≤ Counted.limit := by
  rw [String.toList_append]
  exact ((short_of_all isKey).append isValue).utf8.trans bound

/-- A record is its key and its text. -/
theorem length_utf8_record
    {key : String} (ascii : key.toList.all isAscii = true)
    (value : String) :
    (utf8 (key ++ value).toList).length =
      key.toList.length + (utf8 value.toList).length := by
  rw [String.toList_append, utf8_append, List.length_append,
    length_utf8_ascii (List.all_eq_true.mp ascii)]

/-- Only the records of free text can be longer than a byte can count. -/
theorem length_txtRecords_iff (documented : crates.Documented) :
    (∀ record ∈ txtRecords crates config identity,
        (utf8 record.toList).length ≤ Counted.limit) ↔
      config.Fits := by
  have low := config.featuresSplit.1.toNat_lt
  have high := config.featuresSplit.2.toNat_lt
  have flags := config.statusFlags.toNat_lt
  have isModel :
      (utf8 ("model=" ++ config.model).toList).length =
        6 + (utf8 config.model.toList).length :=
    length_utf8_record (by decide) config.model
  have isVersion :
      (utf8 ("srcvers=" ++ config.sourceVersion).toList).length =
        8 + (utf8 config.sourceVersion.toList).length :=
    length_utf8_record (by decide) config.sourceVersion
  have isPi : Short 36 (identity.piString crates).toList :=
    short_pi documented
  constructor
  · intro fits
    have model := fits ("model=" ++ config.model) (by simp [txtRecords])
    have version :=
      fits ("srcvers=" ++ config.sourceVersion) (by simp [txtRecords])
    rw [isModel] at model
    rw [isVersion] at version
    exact
      ⟨Nat.le_of_add_le_add_left (a := 6) model,
        Nat.le_of_add_le_add_left (a := 8) version⟩
  · intro fits record isRecord
    have literal (text : String)
        (short :
          (text.toList.all isAscii && text.toList.length ≤ 13) = true) :
        (utf8 text.toList).length ≤ Counted.limit :=
      (short_of_all short).utf8.trans (by decide)
    simp only [txtRecords, List.mem_cons, List.not_mem_nil, or_false]
      at isRecord
    rcases isRecord with
      rfl | rfl | rfl | rfl | rfl | rfl | rfl | rfl | rfl | rfl | rfl |
        rfl | rfl
    · exact literal _ (by decide)
    · exact length_record 9 18 (by decide) (short_deviceId config) (by decide)
    · have comma : Short 1 ",".toList := short_of_all (by decide)
      have isLow : Short 10 _ := short_hexNumber (by decide : 0 < 8) low
      have isHigh : Short 10 _ := short_hexNumber (by decide : 0 < 8) high
      have halves := (isLow.append comma).append isHigh
      rw [← String.toList_append, ← String.toList_append] at halves
      exact length_record 9 21 (by decide) halves (by decide)
    · exact
        length_record 6 10 (by decide)
          (short_hexNumber (by decide : 0 < 8) flags) (by decide)
    · exact length_record 4 36 (by decide) isPi (by decide)
    · exact literal _ (by decide)
    · exact literal _ (by decide)
    · rw [isModel]
      exact Nat.add_le_add_left fits.model 6
    · exact literal _ (by decide)
    · exact length_record 3 36 (by decide) isPi (by decide)
    · exact
        length_record 3 64 (by decide) (short_publicKey documented)
          (by decide)
    · rw [isVersion]
      exact Nat.add_le_add_left fits.sourceVersion 8
    · exact literal _ (by decide)

/-- Packed records are read back exactly when no record is cut. -/
theorem unpackTxt_packTxt_iff (records : List String) :
    unpackTxt (packTxt records) = some records ↔
      ∀ record ∈ records, (utf8 record.toList).length ≤ Counted.limit := by
  have isRead (record : String) :
      fromUtf8 ((utf8 record.toList).take Counted.limit) = some record ↔
        (utf8 record.toList).length ≤ Counted.limit := by
    constructor
    · intro same
      have isWhole := utf8_of_fromUtf8 same
      rw [isWhole]
      exact List.length_take_le _ _
    · intro fits
      rw [List.take_of_length_le fits]
      exact fromUtf8_utf8 record
  rw [unpackTxt, packTxt, Counted.unpack_pack, Option.bind_some,
    List.map_map]
  induction records with
  | nil => simp
  | cons first rest induction =>
      rw [List.forall_mem_cons]
      refine Iff.trans ?_ (and_congr (isRead first) induction)
      simp [List.mapM_cons, Option.bind_eq_some_iff]

/-- Packed records say what the records say, but only if none was cut. -/
theorem learn_unpackTxt_iff
    (documented : crates.Documented) :
    unpackTxt (packTxt (txtRecords crates config identity)) =
        some (txtRecords crates config identity) ∧
      (unpackTxt (packTxt (txtRecords crates config identity))).bind
          (learn crates) =
        some (announced crates config identity) ↔
      config.Fits := by
  have isUnpacked :=
    (unpackTxt_packTxt_iff (txtRecords crates config identity)).trans
      (length_txtRecords_iff documented)
  constructor
  · exact fun both => isUnpacked.mp both.1
  · intro fits
    have whole := isUnpacked.mpr fits
    refine ⟨whole, ?_⟩
    rw [whole]
    exact learn_txtRecords config identity documented

end Packed

/-- A receiver of the known key. -/
def knownConfig : Config where
  name := "Kitchen"
  port := 7000
  mac := ⟨[0xaa, 0xbb, 0xcc, 0xdd, 0xee, 0xff], rfl⟩
  model := "OpenAirPlay2,1"
  sourceVersion := "366.0"
  features := 0x00018340405FCA00
  statusFlags := 0x84
  password := some "sekrit1"

theorem learn_unpackTxt_knownConfig :
    (unpackTxt
        (packTxt
          (txtRecords knownCrates knownConfig knownIdentity))).bind
        (learn knownCrates) =
      some (announced knownCrates knownConfig knownIdentity) := by
  have fits : knownConfig.Fits := by
    constructor <;> decide
  exact ((learn_unpackTxt_iff knownCrates_documented).mpr fits).2

/-! ## The request -/

/-- A request for the property list. -/
def Request.IsInfo (request : Request) : Prop :=
  request.method = "GET" ∧ request.target = "/info"

/-- An answer to such a request carries the property list. -/
def Informs (plist : Bytes) (answer : Request × Response) : Prop :=
  answer.1.IsInfo → answer.2.status = 200 ∧ answer.2.body = plist

theorem body_finalize (response : Response) (request : Request) :
    (finalize response request).body = response.body := by
  unfold finalize
  split <;> rfl

section Requests

variable (context : Context Db)

/-- The property list is handed out in the clear as well as encrypted. -/
theorem handle_isInfo
    (connection : Connection Db) (input : Input)
    (isInfo : input.request.IsInfo) :
    (connection.handle context input).answers =
      connection.answers ++
        [(input.request,
          finalize
            ((Response.ok input.request.protocol).withBody infoContentType
              context.infoPlist)
            input.request)] := by
  rcases isInfo with ⟨isGet, isTarget⟩
  have isRoute :
      route connection.conn.isEncrypted input.request = .dispatched := by
    simp [route, isGet, allowedInClear, isTarget]
  have noSession :
      dispatchSession context.platform (connection.claim input).session
          input.ports input.request =
        none := by
    rw [dispatchSession, isGet]
    rfl
  have isDispatch :
      dispatch context.infoPlist input.request =
        (Response.ok input.request.protocol).withBody infoContentType
          context.infoPlist := by
    rw [dispatch, isGet, isTarget]
    rfl
  simp only [Connection.handle, isRoute, Connection.handleDispatched,
    noSession, isDispatch]
  rw [← answers_claim connection input]
  rfl

theorem informs_handle
    (connection : Connection Db) (input : Input)
    (informs :
      ∀ answer ∈ connection.answers, Informs context.infoPlist answer) :
    ∀ answer ∈ (connection.handle context input).answers,
      Informs context.infoPlist answer := by
  intro answer isAnswer
  by_cases isInfo : input.request.IsInfo
  · rw [handle_isInfo context connection input isInfo] at isAnswer
    rcases List.mem_append.mp isAnswer with before | now
    · exact informs answer before
    · rw [List.mem_singleton.mp now]
      intro _
      rw [status_finalize, body_finalize]
      exact ⟨rfl, rfl⟩
  · rcases handle_made context connection input with
      ⟨response, _, isAnswers⟩
    rw [isAnswers] at isAnswer
    rcases List.mem_append.mp isAnswer with before | now
    · exact informs answer before
    · rw [List.mem_singleton.mp now]
      exact fun wanted => absurd wanted isInfo

/-- Whatever is asked before, `GET /info` gets the property list. -/
theorem informs_run
    {inputs : List Input} {final : Connection Db}
    (reached :
      (requestLoop context).exec (Connection.new context) inputs =
        some final) :
    ∀ answer ∈ final.answers, Informs context.infoPlist answer := by
  apply System.invariant_of_reached
    (fun connection : Connection Db =>
      ∀ answer ∈ connection.answers, Informs context.infoPlist answer)
    _ _ reached
  · intro connection input next informs stepped
    rw [← Option.some.inj stepped]
    exact informs_handle context connection input informs
  · intro answer isAnswer
    cases isAnswer

/-- In every run of a connection, an answer to `GET /info` reads as a
property list with the records that mDNS announces. -/
theorem info_reads_back
    {crates : Crates Uuid} (documented : crates.Documented)
    {config : Config} {identity : Identity Uuid}
    (fits : config.Fits)
    (isPlist :
      infoPlist context.platform crates config identity =
        some context.infoPlist)
    (readsBack :
      ∀ bytes,
        context.platform.writePlist
            (.dictionary (infoDictionary crates config identity)) =
          some bytes →
        context.platform.readPlist bytes =
          some (.dictionary (infoDictionary crates config identity)))
    {inputs : List Input} {final : Connection Db}
    (reached :
      (requestLoop context).exec (Connection.new context) inputs =
        some final)
    {request : Request} {response : Response}
    (answered : (request, response) ∈ final.answers)
    (isInfo : request.IsInfo) :
    response.status = 200 ∧
      ∃ dict : Dictionary,
        context.platform.readPlist response.body =
            some (.dictionary dict) ∧
          ((dict.get "txtAirPlay").bind Value.asData).bind unpackTxt =
            some (txtRecords crates config identity) := by
  rcases informs_run context reached _ answered isInfo with ⟨ok, isBody⟩
  have isUnpacked :
      unpackTxt (packTxt (txtRecords crates config identity)) =
        some (txtRecords crates config identity) :=
    (unpackTxt_packTxt_iff _).mpr
      ((length_txtRecords_iff documented).mpr fits)
  have found :
      (Dictionary.get (infoDictionary crates config identity)
          "txtAirPlay").bind Value.asData =
        some (packTxt (txtRecords crates config identity)) := by
    simp [Dictionary.get, infoDictionary, Value.asData]
  refine ⟨ok, infoDictionary crates config identity, ?_, ?_⟩
  · simp only at isBody
    rw [isBody]
    exact readsBack _ isPlist
  · rw [found, Option.bind_some, isUnpacked]

end Requests

end OpenAirplay2.Control

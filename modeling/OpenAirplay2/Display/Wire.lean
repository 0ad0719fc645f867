import OpenAirplay2.Display.NowPlaying
import OpenAirplay2.Display.Publisher
import OpenAirplay2.Lib.Json

/-!
# The messages as texts

A message travels as one JSON object, tagged with its type, and is read back
by rules that are more liberal: members in any order, members that nobody
knows, members left out where the value is optional, and the values of a
structure as an array.

How a float is written, what a number stands for as a float, and which
numbers a double can hold are parameters.
-/

namespace OpenAirplay2.Display

open OpenAirplay2.Control (Event)
open OpenAirplay2.Lib.Json (Numeral Value Within)
open OpenAirplay2.Lib.Transition
open OpenAirplay2.Pairing (Bytes)

/-- Floats as numbers of a text. -/
structure Floats (Db : Type) where
  /-- There is no number for an infinite value, nor for what is none. -/
  write : Db → Option Numeral
  read : Numeral → Db
  /-- A text with a number beyond the range of a double is refused. -/
  fits : Numeral → Bool

/-- What is documented of the library that writes and reads the numbers. -/
structure Floats.Lawful {Db : Type} (floats : Floats Db) : Prop where
  fits_ofNat :
    ∀ value < 2 ^ 64, floats.fits (.ofNat value) = true
  fits_write :
    ∀ db numeral, floats.write db = some numeral →
      floats.fits numeral = true
  read_write :
    ∀ db numeral, floats.write db = some numeral →
      floats.read numeral = db

variable {Db : Type}

/-! ## Writing -/

/-- An unsigned integer. -/
def natural (value : Nat) : Value :=
  .number (.ofNat value)

/-- An `Option`: nothing is `null`. -/
def optional {Item : Type} (write : Item → Value) : Option Item → Value
  | none => .null
  | some item => write item

/-- An `f32`: what is no number is `null`. -/
def Floats.toValue (floats : Floats Db) (db : Db) : Value :=
  optional .number (floats.write db)

def ReceiverInfo.toValue (info : ReceiverInfo) : Value :=
  .object
    [("name", .string info.name), ("version", .string info.version)]

def SessionInfo.toValue (info : SessionInfo) : Value :=
  .object
    [("rate", natural info.rate), ("channels", natural info.channels),
      ("peer", .string info.peer)]

def Track.toValue (track : Track) : Value :=
  .object
    [("title", optional .string track.title),
      ("artist", optional .string track.artist),
      ("album", optional .string track.album)]

def Progress.toValue (progress : Progress) : Value :=
  .object
    [("elapsed_ms", natural progress.elapsedMs),
      ("duration_ms", natural progress.durationMs)]

def Artwork.toValue (artwork : Artwork) : Value :=
  .object
    [("content_type", .string artwork.contentType),
      ("data_base64", .string artwork.dataBase64)]

/-- The members of a snapshot. -/
def Snapshot.members (floats : Floats Db) (snapshot : Snapshot Db) :
    List (String × Value) :=
  [("receiver", snapshot.receiver.toValue),
    ("session", optional SessionInfo.toValue snapshot.session),
    ("track", optional Track.toValue snapshot.track),
    ("volume_db", optional floats.toValue snapshot.volumeDb),
    ("progress", optional Progress.toValue snapshot.progress),
    ("artwork", optional Artwork.toValue snapshot.artwork),
    ("paused", .bool snapshot.paused)]

namespace Message

/-- The name of the variant, in snake case. -/
def tag : Message Db → String
  | .snapshot _ => "snapshot"
  | .sessionStarted _ _ _ => "session_started"
  | .metadata _ _ _ => "metadata"
  | .artwork _ _ => "artwork"
  | .volume _ => "volume"
  | .progress _ _ => "progress"
  | .paused _ => "paused"
  | .flushed => "flushed"
  | .sessionEnded => "session_ended"

/-- What stands beside the tag. -/
def members (floats : Floats Db) : Message Db → List (String × Value)
  | .snapshot known => known.members floats
  | .sessionStarted rate channels peer =>
      [("rate", natural rate), ("channels", natural channels),
        ("peer", .string peer)]
  | .metadata title artist album =>
      [("title", optional .string title),
        ("artist", optional .string artist),
        ("album", optional .string album)]
  | .artwork contentType dataBase64 =>
      [("content_type", .string contentType),
        ("data_base64", .string dataBase64)]
  | .volume db => [("db", floats.toValue db)]
  | .progress elapsedMs durationMs =>
      [("elapsed_ms", natural elapsedMs),
        ("duration_ms", natural durationMs)]
  | .paused isPaused => [("paused", .bool isPaused)]
  | .flushed => []
  | .sessionEnded => []

/-- `#[serde(tag = "type")]`: the tag comes first. -/
def toValue (floats : Floats Db) (message : Message Db) : Value :=
  .object (("type", .string message.tag) :: message.members floats)

end Message

/-- `encode`: the text frame of a message. -/
def encode (floats : Floats Db) (message : Message Db) : String :=
  String.ofList (message.toValue floats).print

/-! ## Reading -/

/-- A member by its name; a name that stands twice is an error. -/
def member (name : String) (members : List (String × Value)) :
    Option (Option Value) :=
  match members.filter fun member => member.1 == name with
  | [] => some none
  | [found] => some (some found.2)
  | _ => none

/--
The values of a structure: by name, where each may be missing, or in order,
where none may.
-/
def fields (names : List String) : Value → Option (List (Option Value))
  | .object members => names.mapM fun name => member name members
  | .array items =>
      if items.length = names.length then some (items.map some) else none
  | _ => none

/-- A field that has to be there. -/
def required {Item : Type} (read : Value → Option Item) :
    Option Value → Option Item
  | none => none
  | some value => read value

/-- A field of an `Option` type: what is missing or `null` is nothing. -/
def nullable {Item : Type} (read : Value → Option Item) :
    Option Value → Option (Option Item)
  | none => some none
  | some .null => some none
  | some value => (read value).map some

def readString : Value → Option String
  | .string text => some text
  | _ => none

def readBool : Value → Option Bool
  | .bool value => some value
  | _ => none

/-- An unsigned integer of so many bits. -/
def readUnsigned (bits : Nat) : Value → Option Nat
  | .number numeral =>
      numeral.toNat?.filter fun value => value < 2 ^ bits
  | _ => none

/-- An `f32`; an integer is one as well. -/
def Floats.ofValue (floats : Floats Db) : Value → Option Db
  | .number numeral => some (floats.read numeral)
  | _ => none

def ReceiverInfo.ofValue (value : Value) : Option ReceiverInfo :=
  match fields ["name", "version"] value with
  | some [name, version] => do
      let name ← required readString name
      let version ← required readString version
      return { name := name, version := version }
  | _ => none

def SessionInfo.ofValue (value : Value) : Option SessionInfo :=
  match fields ["rate", "channels", "peer"] value with
  | some [rate, channels, peer] => do
      let rate ← required (readUnsigned 32) rate
      let channels ← required (readUnsigned 8) channels
      let peer ← required readString peer
      return { rate := rate, channels := channels, peer := peer }
  | _ => none

def Track.ofValue (value : Value) : Option Track :=
  match fields ["title", "artist", "album"] value with
  | some [title, artist, album] => do
      let title ← nullable readString title
      let artist ← nullable readString artist
      let album ← nullable readString album
      return { title := title, artist := artist, album := album }
  | _ => none

def Progress.ofValue (value : Value) : Option Progress :=
  match fields ["elapsed_ms", "duration_ms"] value with
  | some [elapsed, duration] => do
      let elapsed ← required (readUnsigned 64) elapsed
      let duration ← required (readUnsigned 64) duration
      return { elapsedMs := elapsed, durationMs := duration }
  | _ => none

def Artwork.ofValue (value : Value) : Option Artwork :=
  match fields ["content_type", "data_base64"] value with
  | some [contentType, dataBase64] => do
      let contentType ← required readString contentType
      let dataBase64 ← required readString dataBase64
      return { contentType := contentType, dataBase64 := dataBase64 }
  | _ => none

def Snapshot.ofValue (floats : Floats Db) (value : Value) :
    Option (Snapshot Db) :=
  match
    fields
      ["receiver", "session", "track", "volume_db", "progress", "artwork",
        "paused"]
      value
  with
  | some
      [receiver, session, track, volumeDb, progress, artwork, paused] => do
      let receiver ← required ReceiverInfo.ofValue receiver
      let session ← nullable SessionInfo.ofValue session
      let track ← nullable Track.ofValue track
      let volumeDb ← nullable floats.ofValue volumeDb
      let progress ← nullable Progress.ofValue progress
      let artwork ← nullable Artwork.ofValue artwork
      let paused ← required readBool paused
      return {
        receiver := receiver
        session := session
        track := track
        volumeDb := volumeDb
        progress := progress
        artwork := artwork
        paused := paused }
  | _ => none

namespace Message

/--
The variant that a tag names, from the rest of the message; a structure's
fields are those of the variant.
-/
def ofContent (floats : Floats Db) (tag : String) (content : Value) :
    Option (Message Db) :=
  match tag with
  | "snapshot" => (Snapshot.ofValue floats content).map .snapshot
  | "session_started" =>
      (SessionInfo.ofValue content).map fun session =>
        .sessionStarted session.rate session.channels session.peer
  | "metadata" =>
      (Track.ofValue content).map fun track =>
        .metadata track.title track.artist track.album
  | "artwork" =>
      (Artwork.ofValue content).map fun artwork =>
        .artwork artwork.contentType artwork.dataBase64
  | "volume" =>
      match fields ["db"] content with
      | some [db] => (required floats.ofValue db).map .volume
      | _ => none
  | "progress" =>
      (Progress.ofValue content).map fun progress =>
        .progress progress.elapsedMs progress.durationMs
  | "paused" =>
      match fields ["paused"] content with
      | some [isPaused] => (required readBool isPaused).map .paused
      | _ => none
  | "flushed" => (fields [] content).map fun _ => .flushed
  | "session_ended" => (fields [] content).map fun _ => .sessionEnded
  | _ => none

/-- The tag is found among the members, or is the first of the items. -/
def ofValue (floats : Floats Db) : Value → Option (Message Db)
  | .object members =>
      match member "type" members with
      | some (some (.string tag)) =>
          ofContent floats tag
            (.object (members.filter fun member => member.1 != "type"))
      | _ => none
  | .array (.string tag :: rest) => ofContent floats tag (.array rest)
  | _ => none

end Message

/-- How deep a text may be nested. -/
def recursionLimit : Nat := 127

/-- `serde_json::from_str::<Message>`. -/
def parse (floats : Floats Db) (text : String) : Option (Message Db) :=
  match Lib.Json.read recursionLimit text.toList with
  | some value =>
      if value.numerals.all floats.fits then Message.ofValue floats value
      else none
  | none => none

/-! ## What a later version may write -/

/--
A value in the place of another: an object has each member once, anywhere,
beside members that the other does not have.
-/
inductive Extends : Value → Value → Prop
  | same (value : Value) : Extends value value
  | object
      {members older : List (String × Value)}
      (found : String → Value)
      (once :
        ∀ entry ∈ older,
          (members.filter fun member => member.1 == entry.1) =
            [(entry.1, found entry.1)])
      (each : ∀ entry ∈ older, Extends (found entry.1) entry.2) :
      Extends (.object members) (.object older)

theorem filter_of_nodup
    {members : List (String × Value)} {entry : String × Value}
    (nodup : (members.map Prod.fst).Nodup) (there : entry ∈ members) :
    (members.filter fun member => member.1 == entry.1) = [entry] := by
  induction members with
  | nil => cases there
  | cons first rest induction =>
      rw [List.map_cons, List.nodup_cons] at nodup
      rcases List.mem_cons.mp there with rfl | inRest
      · have others :
            (rest.filter fun member => member.1 == entry.1) = [] := by
          rw [List.filter_eq_nil_iff]
          intro member inRest same
          apply nodup.1
          rw [← beq_iff_eq.mp same]
          exact List.mem_map_of_mem inRest
        rw [List.filter_cons_of_pos (by exact beq_self_eq_true _), others]
      · have differ : first.1 ≠ entry.1 := by
          intro same
          apply nodup.1
          rw [same]
          exact List.mem_map_of_mem inRest
        rw [List.filter_cons_of_neg (by simpa using differ)]
        exact induction nodup.2 inRest

/-- An object that extends another has its members under their names. -/
theorem Extends.found
    {value : Value} {older : List (String × Value)}
    (grown : Extends value (.object older))
    (nodup : (older.map Prod.fst).Nodup) :
    ∃ (members : List (String × Value)) (found : String → Value),
      value = .object members ∧
        ∀ entry ∈ older,
          (members.filter fun member => member.1 == entry.1) =
              [(entry.1, found entry.1)] ∧
            Extends (found entry.1) entry.2 := by
  cases grown with
  | object found once each =>
      exact
        ⟨_, found, rfl, fun entry there =>
          ⟨once entry there, each entry there⟩⟩
  | same =>
      refine
        ⟨older,
          fun name =>
            ((older.find? fun member => member.1 == name).map
              Prod.snd).getD .null,
          rfl, ?_⟩
      intro entry there
      have only := filter_of_nodup nodup there
      have first :
          (older.find? fun member => member.1 == entry.1) =
            some entry := by
        rw [← List.head?_filter, only]
        rfl
      simp only [only, first, Option.map_some, Option.getD_some]
      exact ⟨trivial, Extends.same _⟩

theorem Extends.eq_string
    {value : Value} {text : String}
    (grown : Extends value (.string text)) : value = .string text := by
  cases grown
  rfl

theorem member_of_filter
    {members : List (String × Value)} {name : String} {value : Value}
    (once :
      (members.filter fun member => member.1 == name) =
        [(name, value)]) :
    member name members = some (some value) := by
  rw [member, once]

/-- The fields of what extends an object are those of the object. -/
theorem Extends.fields
    {value : Value} {older : List (String × Value)}
    (grown : Extends value (.object older))
    (nodup : (older.map Prod.fst).Nodup) :
    ∃ found : String → Value,
      fields (older.map Prod.fst) value =
          some (older.map fun entry => some (found entry.1)) ∧
        ∀ entry ∈ older, Extends (found entry.1) entry.2 := by
  rcases grown.found nodup with ⟨members, found, rfl, each⟩
  refine ⟨found, ?_, fun entry there => (each entry there).2⟩
  rw [Display.fields]
  clear grown nodup
  induction older with
  | nil => rfl
  | cons entry rest induction =>
      rw [List.map_cons, List.mapM_cons,
        member_of_filter (each entry List.mem_cons_self).1,
        induction fun other there =>
          each other (List.mem_cons_of_mem _ there)]
      rfl

/-- The tag of what extends a message, and what stands beside it. -/
theorem Extends.tagged
    {value : Value} {tag : String} {rest : List (String × Value)}
    (grown : Extends value (.object (("type", .string tag) :: rest)))
    (nodup : ("type" :: rest.map Prod.fst).Nodup) :
    ∃ members,
      value = .object members ∧
        member "type" members = some (some (.string tag)) ∧
          Extends
            (.object (members.filter fun member => member.1 != "type"))
            (.object rest) := by
  rcases grown.found nodup with ⟨members, found, rfl, each⟩
  refine ⟨members, rfl, ?_, ?_⟩
  · rcases each _ List.mem_cons_self with ⟨once, same⟩
    rw [member_of_filter once, same.eq_string]
  · refine Extends.object found ?_ ?_
    · intro entry there
      rw [← (each entry (List.mem_cons_of_mem _ there)).1,
        List.filter_filter]
      apply List.filter_congr
      intro member _
      rw [List.nodup_cons] at nodup
      have differ : entry.1 ≠ "type" := by
        intro same
        apply nodup.1
        rw [← same]
        exact List.mem_map_of_mem there
      by_cases same : member.1 = entry.1
      · simp [same, differ]
      · simp [same]
    · exact fun entry there =>
        (each entry (List.mem_cons_of_mem _ there)).2

/-! ## Fields that were extended -/

theorem readString_grown
    {value : Value} {text : String}
    (grown : Extends value (.string text)) :
    readString value = some text := by
  cases grown
  rfl

theorem readBool_grown
    {value : Value} {flag : Bool} (grown : Extends value (.bool flag)) :
    readBool value = some flag := by
  cases grown
  rfl

theorem readUnsigned_grown
    {value : Value} {bits number : Nat}
    (grown : Extends value (natural number))
    (small : number < 2 ^ bits) :
    readUnsigned bits value = some number := by
  cases grown
  rw [natural, readUnsigned, Numeral.toNat?_ofNat]
  rw [Option.filter_some, if_pos (decide_eq_true small)]

theorem nullable_of_read
    {Item : Type} {read : Value → Option Item} {value : Value}
    {item : Item}
    (nothing : read .null = none) (reads : read value = some item) :
    nullable read (some value) = some (some item) := by
  cases value with
  | null => cases nothing.symm.trans reads
  | _ => rw [nullable, reads] <;> simp

/-- An optional field, where what was written would be read. -/
theorem nullable_grown
    {Item : Type} {read : Value → Option Item} {write : Item → Value}
    {item : Option Item} {value : Value}
    (nothing : read .null = none)
    (reads :
      ∀ one, item = some one → ∀ value, Extends value (write one) →
        read value = some one)
    (grown : Extends value (optional write item)) :
    nullable read (some value) = some item := by
  cases item with
  | none =>
      cases grown
      rfl
  | some one =>
      exact nullable_of_read nothing (reads one rfl value grown)

theorem nullable_string
    {value : Value} {text : Option String}
    (grown : Extends value (optional .string text)) :
    nullable readString (some value) = some text :=
  nullable_grown rfl (fun _ _ _ grown => readString_grown grown) grown

/-! ## Structures that were extended -/

section Structures

variable {value : Value}

theorem ReceiverInfo.ofValue_grown
    {info : ReceiverInfo} (grown : Extends value info.toValue) :
    ReceiverInfo.ofValue value = some info := by
  rcases grown.fields (by simp) with ⟨found, names, each⟩
  have name :=
    readString_grown (each ("name", .string info.name) (by simp))
  have version :=
    readString_grown (each ("version", .string info.version) (by simp))
  simp only [List.map] at names
  simp [ofValue, names, required, name, version]

/-- A session within the types of its fields. -/
def SessionInfo.InRange (session : SessionInfo) : Prop :=
  session.rate < 2 ^ 32 ∧ session.channels < 2 ^ 8

theorem SessionInfo.ofValue_grown
    {session : SessionInfo} (inRange : session.InRange)
    (grown : Extends value session.toValue) :
    SessionInfo.ofValue value = some session := by
  rcases grown.fields (by simp) with ⟨found, names, each⟩
  have rate :=
    readUnsigned_grown (each ("rate", natural session.rate) (by simp))
      inRange.1
  have channels :=
    readUnsigned_grown
      (each ("channels", natural session.channels) (by simp)) inRange.2
  have peer :=
    readString_grown (each ("peer", .string session.peer) (by simp))
  simp only [List.map] at names
  simp [ofValue, names, required, rate, channels, peer]

theorem Track.ofValue_grown
    {track : Track} (grown : Extends value track.toValue) :
    Track.ofValue value = some track := by
  rcases grown.fields (by simp) with ⟨found, names, each⟩
  have title :=
    nullable_string
      (each ("title", optional .string track.title) (by simp))
  have artist :=
    nullable_string
      (each ("artist", optional .string track.artist) (by simp))
  have album :=
    nullable_string
      (each ("album", optional .string track.album) (by simp))
  simp only [List.map] at names
  simp [ofValue, names, title, artist, album]

/-- A position within the types of its fields. -/
def Progress.InRange (progress : Progress) : Prop :=
  progress.elapsedMs < 2 ^ 64 ∧ progress.durationMs < 2 ^ 64

theorem Progress.ofValue_grown
    {progress : Progress} (inRange : progress.InRange)
    (grown : Extends value progress.toValue) :
    Progress.ofValue value = some progress := by
  rcases grown.fields (by simp) with ⟨found, names, each⟩
  have elapsed :=
    readUnsigned_grown
      (each ("elapsed_ms", natural progress.elapsedMs) (by simp))
      inRange.1
  have duration :=
    readUnsigned_grown
      (each ("duration_ms", natural progress.durationMs) (by simp))
      inRange.2
  simp only [List.map] at names
  simp [ofValue, names, required, elapsed, duration]

theorem Artwork.ofValue_grown
    {artwork : Artwork} (grown : Extends value artwork.toValue) :
    Artwork.ofValue value = some artwork := by
  rcases grown.fields (by simp) with ⟨found, names, each⟩
  have contentType :=
    readString_grown
      (each ("content_type", .string artwork.contentType) (by simp))
  have dataBase64 :=
    readString_grown
      (each ("data_base64", .string artwork.dataBase64) (by simp))
  simp only [List.map] at names
  simp [ofValue, names, required, contentType, dataBase64]

/-- A snapshot within the types of its fields. -/
structure Snapshot.InRange (snapshot : Snapshot Db) : Prop where
  session :
    ∀ session, snapshot.session = some session → session.InRange
  progress :
    ∀ progress, snapshot.progress = some progress → progress.InRange

variable {floats : Floats Db}

/-- A volume that is no number is not in the text. -/
def Snapshot.received (floats : Floats Db) (snapshot : Snapshot Db) :
    Snapshot Db :=
  { snapshot with
    volumeDb :=
      snapshot.volumeDb.filter fun db => (floats.write db).isSome }

theorem Floats.ofValue_grown
    (lawful : floats.Lawful) {db : Db}
    (grown : Extends value (floats.toValue db)) :
    floats.ofValue value =
      if (floats.write db).isSome then some db else none := by
  rw [Floats.toValue] at grown
  cases written : floats.write db with
  | none =>
      rw [written] at grown
      cases grown
      rfl
  | some numeral =>
      rw [written] at grown
      cases grown
      show some (floats.read numeral) = _
      rw [lawful.read_write db numeral written]
      rfl

/-- A volume that is nothing and one that is no number are read alike. -/
theorem nullable_volume
    (lawful : floats.Lawful) {volumeDb : Option Db}
    (grown : Extends value (optional floats.toValue volumeDb)) :
    nullable floats.ofValue (some value) =
      some (volumeDb.filter fun db => (floats.write db).isSome) := by
  cases volumeDb with
  | none =>
      cases grown
      rfl
  | some db =>
      by_cases written : (floats.write db).isSome = true
      · rw [Option.filter_some, if_pos written]
        apply nullable_of_read rfl
        rw [Floats.ofValue_grown lawful grown, if_pos written]
      · rw [Option.filter_some, if_neg written]
        rw [optional, Floats.toValue,
          Option.not_isSome_iff_eq_none.mp written] at grown
        cases grown
        rfl

theorem Snapshot.ofValue_grown
    (lawful : floats.Lawful) {snapshot : Snapshot Db}
    (inRange : snapshot.InRange)
    (grown : Extends value (.object (snapshot.members floats))) :
    Snapshot.ofValue floats value = some (snapshot.received floats) := by
  rcases grown.fields (by simp [Snapshot.members]) with
    ⟨found, names, each⟩
  have receiver :=
    ReceiverInfo.ofValue_grown
      (each ("receiver", snapshot.receiver.toValue)
        (by simp [Snapshot.members]))
  have session :=
    nullable_grown rfl
      (fun session there _ grown =>
        SessionInfo.ofValue_grown (inRange.session session there) grown)
      (each ("session", optional SessionInfo.toValue snapshot.session)
        (by simp [Snapshot.members]))
  have track :=
    nullable_grown rfl
      (fun _ _ _ grown => Track.ofValue_grown grown)
      (each ("track", optional Track.toValue snapshot.track)
        (by simp [Snapshot.members]))
  have volumeDb :=
    nullable_volume lawful
      (each ("volume_db", optional floats.toValue snapshot.volumeDb)
        (by simp [Snapshot.members]))
  have progress :=
    nullable_grown rfl
      (fun progress there _ grown =>
        Progress.ofValue_grown (inRange.progress progress there) grown)
      (each ("progress", optional Progress.toValue snapshot.progress)
        (by simp [Snapshot.members]))
  have artwork :=
    nullable_grown rfl
      (fun _ _ _ grown => Artwork.ofValue_grown grown)
      (each ("artwork", optional Artwork.toValue snapshot.artwork)
        (by simp [Snapshot.members]))
  have paused :=
    readBool_grown
      (each ("paused", .bool snapshot.paused)
        (by simp [Snapshot.members]))
  simp only [Snapshot.members, List.map] at names
  simp [ofValue, names, required, receiver, session, track, volumeDb,
    progress, artwork, paused, received]

end Structures

/-! ## Messages that were extended -/

namespace Message

variable {floats : Floats Db}

/-- A message within the types of its fields. -/
def InRange : Message Db → Prop
  | .snapshot known => known.InRange
  | .sessionStarted rate channels _ => rate < 2 ^ 32 ∧ channels < 2 ^ 8
  | .progress elapsedMs durationMs =>
      elapsedMs < 2 ^ 64 ∧ durationMs < 2 ^ 64
  | _ => True

/--
What a display makes of a message: a volume that is no number is lost, and
so is the message that says nothing else.
-/
def received (floats : Floats Db) : Message Db → Option (Message Db)
  | .snapshot known => some (.snapshot (known.received floats))
  | .volume db =>
      if (floats.write db).isSome then some (.volume db) else none
  | message => some message

theorem ofContent_grown
    (lawful : floats.Lawful) {message : Message Db}
    (inRange : message.InRange) {content : Value}
    (grown : Extends content (.object (message.members floats))) :
    ofContent floats message.tag content = message.received floats := by
  cases message with
  | snapshot snapshot =>
      have reads := Snapshot.ofValue_grown lawful inRange grown
      simp [tag, ofContent, reads, received]
  | sessionStarted rate channels peer =>
      have reads :=
        @SessionInfo.ofValue_grown content ⟨rate, channels, peer⟩ inRange
          grown
      simp [tag, ofContent, reads, received]
  | metadata title artist album =>
      have reads :=
        @Track.ofValue_grown content ⟨title, artist, album⟩ grown
      simp [tag, ofContent, reads, received]
  | artwork contentType dataBase64 =>
      have reads :=
        @Artwork.ofValue_grown content ⟨contentType, dataBase64⟩ grown
      simp [tag, ofContent, reads, received]
  | volume db =>
      rcases grown.fields (by simp [members]) with ⟨found, names, each⟩
      have reads :=
        Floats.ofValue_grown lawful
          (each ("db", floats.toValue db) (by simp [members]))
      simp only [members, List.map] at names
      simp only [tag, ofContent, names, required, reads, received]
      split <;> rfl
  | progress elapsedMs durationMs =>
      have reads :=
        @Progress.ofValue_grown content ⟨elapsedMs, durationMs⟩ inRange
          grown
      simp [tag, ofContent, reads, received]
  | paused paused =>
      rcases grown.fields (by simp [members]) with ⟨found, names, each⟩
      have reads :=
        readBool_grown (each ("paused", .bool paused) (by simp [members]))
      simp only [members, List.map] at names
      simp [tag, ofContent, names, required, reads, received]
  | flushed =>
      rcases grown.fields (by simp [members]) with ⟨found, names, -⟩
      simp only [members, List.map] at names
      simp [tag, ofContent, names, received]
  | sessionEnded =>
      rcases grown.fields (by simp [members]) with ⟨found, names, -⟩
      simp only [members, List.map] at names
      simp [tag, ofContent, names, received]

theorem nodup_names (message : Message Db) :
    ("type" :: (message.members floats).map Prod.fst).Nodup := by
  cases message <;> simp [members, Snapshot.members]

/-- A message is read from whatever extends it. -/
theorem ofValue_grown
    (lawful : floats.Lawful) {message : Message Db}
    (inRange : message.InRange) {value : Value}
    (grown : Extends value (message.toValue floats)) :
    ofValue floats value = message.received floats := by
  rcases Extends.tagged grown message.nodup_names with
    ⟨members, rfl, tagged, rest⟩
  rw [ofValue, tagged]
  exact ofContent_grown lawful inRange rest

end Message

/-! ## Texts -/

/-- Nested so deep at most, with numbers that a reader takes. -/
structure Readable
    (floats : Floats Db) (depth : Nat) (value : Value) : Prop where
  within : Within depth value
  fits : value.numerals.all floats.fits = true

section Readable

variable
    {floats : Floats Db}
    {depth : Nat}

theorem readable_null : Readable floats depth .null :=
  ⟨by cases depth <;> trivial, rfl⟩

theorem readable_bool (value : Bool) :
    Readable floats depth (.bool value) :=
  ⟨by cases depth <;> trivial, rfl⟩

theorem readable_string (text : String) :
    Readable floats depth (.string text) :=
  ⟨by cases depth <;> trivial, rfl⟩

theorem readable_number
    {numeral : Numeral} (fits : floats.fits numeral = true) :
    Readable floats depth (.number numeral) := by
  constructor
  · cases depth <;> trivial
  · show (floats.fits numeral && true) = true
    rw [fits, Bool.true_and]

theorem readable_optional
    {Item : Type} {write : Item → Value} {item : Option Item}
    (each :
      ∀ one, item = some one → Readable floats depth (write one)) :
    Readable floats depth (optional write item) := by
  cases item with
  | none => exact readable_null
  | some one => exact each one rfl

theorem readable_object {members : List (String × Value)} :
    Readable floats (depth + 1) (.object members) ↔
      ∀ member ∈ members, Readable floats depth member.2 := by
  have numerals :
      (Value.object members).numerals.all floats.fits = true ↔
        ∀ member ∈ members,
          member.2.numerals.all floats.fits = true := by
    show (Value.numeralsMembers members).all floats.fits = true ↔ _
    rw [Value.numeralsMembers_eq, List.all_flatMap, List.all_eq_true]
  constructor
  · intro readable member there
    exact
      ⟨readable.within member there,
        numerals.mp readable.fits member there⟩
  · intro each
    exact
      ⟨fun member there => (each member there).within,
        numerals.mpr fun member there => (each member there).fits⟩

variable (lawful : floats.Lawful)

include lawful

theorem readable_natural {value : Nat} (small : value < 2 ^ 64) :
    Readable floats depth (natural value) :=
  readable_number (lawful.fits_ofNat value small)

theorem readable_float (db : Db) :
    Readable floats depth (floats.toValue db) :=
  readable_optional fun numeral written =>
    readable_number (lawful.fits_write db numeral written)

theorem readable_session
    {session : SessionInfo} (inRange : session.InRange) :
    Readable floats (depth + 1) session.toValue := by
  apply readable_object.mpr
  intro member there
  simp only [List.mem_cons, List.not_mem_nil, or_false] at there
  rcases there with rfl | rfl | rfl
  · exact readable_natural lawful (inRange.1.trans (by decide))
  · exact readable_natural lawful (inRange.2.trans (by decide))
  · exact readable_string _

theorem readable_progress
    {progress : Progress} (inRange : progress.InRange) :
    Readable floats (depth + 1) progress.toValue := by
  apply readable_object.mpr
  intro member there
  simp only [List.mem_cons, List.not_mem_nil, or_false] at there
  rcases there with rfl | rfl
  · exact readable_natural lawful inRange.1
  · exact readable_natural lawful inRange.2

omit lawful

theorem readable_track (track : Track) :
    Readable floats (depth + 1) track.toValue := by
  apply readable_object.mpr
  intro member there
  simp only [List.mem_cons, List.not_mem_nil, or_false] at there
  rcases there with rfl | rfl | rfl <;>
    exact readable_optional fun text _ => readable_string text

theorem readable_artwork (artwork : Artwork) :
    Readable floats (depth + 1) artwork.toValue := by
  apply readable_object.mpr
  intro member there
  simp only [List.mem_cons, List.not_mem_nil, or_false] at there
  rcases there with rfl | rfl <;> exact readable_string _

theorem readable_receiver (info : ReceiverInfo) :
    Readable floats (depth + 1) info.toValue := by
  apply readable_object.mpr
  intro member there
  simp only [List.mem_cons, List.not_mem_nil, or_false] at there
  rcases there with rfl | rfl <;> exact readable_string _

include lawful

theorem readable_snapshot
    {snapshot : Snapshot Db} (inRange : snapshot.InRange)
    {member : String × Value} (there : member ∈ snapshot.members floats) :
    Readable floats (depth + 1) member.2 := by
  simp only [Snapshot.members, List.mem_cons, List.not_mem_nil, or_false]
    at there
  rcases there with rfl | rfl | rfl | rfl | rfl | rfl | rfl
  · exact readable_receiver _
  · exact
      readable_optional fun session known =>
        readable_session lawful (inRange.session session known)
  · exact readable_optional fun track _ => readable_track track
  · exact readable_optional fun db _ => readable_float lawful db
  · exact
      readable_optional fun progress known =>
        readable_progress lawful (inRange.progress progress known)
  · exact readable_optional fun artwork _ => readable_artwork artwork
  · exact readable_bool _

/-- The members of a message beside its tag. -/
theorem readable_member
    {message : Message Db} (inRange : message.InRange)
    {member : String × Value} (there : member ∈ message.members floats) :
    Readable floats (depth + 1) member.2 := by
  cases message with
  | snapshot snapshot => exact readable_snapshot lawful inRange there
  | sessionStarted rate channels peer =>
      have readable :=
        @readable_session _ _ (depth + 1) lawful ⟨rate, channels, peer⟩
          inRange
      exact readable_object.mp readable member there
  | metadata title artist album =>
      have readable :=
        @readable_track _ floats (depth + 1) ⟨title, artist, album⟩
      exact readable_object.mp readable member there
  | artwork contentType dataBase64 =>
      have readable :=
        @readable_artwork _ floats (depth + 1) ⟨contentType, dataBase64⟩
      exact readable_object.mp readable member there
  | volume db =>
      cases List.mem_singleton.mp there
      exact readable_float lawful db
  | progress elapsedMs durationMs =>
      have readable :=
        @readable_progress _ _ (depth + 1) lawful ⟨elapsedMs, durationMs⟩
          inRange
      exact readable_object.mp readable member there
  | paused paused =>
      cases List.mem_singleton.mp there
      exact readable_bool paused
  | flushed => cases there
  | sessionEnded => cases there

theorem readable_message
    {message : Message Db} (inRange : message.InRange) :
    Readable floats recursionLimit (message.toValue floats) := by
  show Readable floats (126 + 1) _
  apply readable_object.mpr
  intro member there
  rcases List.mem_cons.mp there with rfl | there
  · exact readable_string _
  · exact readable_member lawful inRange there

end Readable

section Texts

variable
    {floats : Floats Db}
    (lawful : floats.Lawful)

include lawful

end Texts

/-! ## What is accepted -/

section Accepted

variable {floats : Floats Db}

theorem lt_of_readUnsigned
    {bits number : Nat} {value : Value}
    (reads : readUnsigned bits value = some number) :
    number < 2 ^ bits := by
  cases value with
  | number numeral =>
      exact of_decide_eq_true (Option.filter_eq_some_iff.mp reads).2
  | _ => cases reads

theorem exists_of_required
    {Item : Type} {read : Value → Option Item} {field : Option Value}
    {item : Item} (reads : required read field = some item) :
    ∃ value, read value = some item := by
  cases field with
  | none => cases reads
  | some value => exact ⟨value, reads⟩

theorem exists_of_nullable
    {Item : Type} {read : Value → Option Item} {field : Option Value}
    {item : Item} (reads : nullable read field = some (some item)) :
    ∃ value, read value = some item := by
  rw [nullable.eq_def] at reads
  split at reads
  · cases reads
  · cases reads
  · next value _ =>
      rcases Option.map_eq_some_iff.mp reads with ⟨_, reads, same⟩
      exact ⟨value, reads.trans same⟩

theorem SessionInfo.inRange_of_ofValue
    {value : Value} {session : SessionInfo}
    (reads : SessionInfo.ofValue value = some session) :
    session.InRange := by
  rw [SessionInfo.ofValue] at reads
  split at reads
  · next rate channels peer _ =>
      simp only [Option.bind_eq_bind, Option.bind_eq_some_iff] at reads
      rcases reads with ⟨_, isRate, _, isChannels, _, _, ⟨⟩⟩
      rcases exists_of_required isRate with ⟨_, isRate⟩
      rcases exists_of_required isChannels with ⟨_, isChannels⟩
      exact ⟨lt_of_readUnsigned isRate, lt_of_readUnsigned isChannels⟩
  · cases reads

theorem Progress.inRange_of_ofValue
    {value : Value} {progress : Progress}
    (reads : Progress.ofValue value = some progress) :
    progress.InRange := by
  rw [Progress.ofValue] at reads
  split at reads
  · simp only [Option.bind_eq_bind, Option.bind_eq_some_iff] at reads
    rcases reads with ⟨_, isElapsed, _, isDuration, ⟨⟩⟩
    rcases exists_of_required isElapsed with ⟨_, isElapsed⟩
    rcases exists_of_required isDuration with ⟨_, isDuration⟩
    exact ⟨lt_of_readUnsigned isElapsed, lt_of_readUnsigned isDuration⟩
  · cases reads

theorem Snapshot.inRange_of_ofValue
    {value : Value} {snapshot : Snapshot Db}
    (reads : Snapshot.ofValue floats value = some snapshot) :
    snapshot.InRange := by
  rw [Snapshot.ofValue] at reads
  split at reads
  · simp only [Option.bind_eq_bind, Option.bind_eq_some_iff] at reads
    rcases reads with
      ⟨_, -, _, isSession, _, -, _, -, _, isProgress, _, -, _, -, ⟨⟩⟩
    constructor
    · rintro session rfl
      rcases exists_of_nullable isSession with ⟨_, reads⟩
      exact SessionInfo.inRange_of_ofValue reads
    · rintro progress rfl
      rcases exists_of_nullable isProgress with ⟨_, reads⟩
      exact Progress.inRange_of_ofValue reads
  · cases reads

theorem Message.inRange_of_ofContent
    {tag : String} {content : Value} {message : Message Db}
    (reads : Message.ofContent floats tag content = some message) :
    message.InRange := by
  rw [Message.ofContent.eq_def] at reads
  split at reads
  · rcases Option.map_eq_some_iff.mp reads with ⟨_, isSnapshot, rfl⟩
    exact Snapshot.inRange_of_ofValue isSnapshot
  · rcases Option.map_eq_some_iff.mp reads with ⟨_, isSession, rfl⟩
    exact SessionInfo.inRange_of_ofValue isSession
  · rcases Option.map_eq_some_iff.mp reads with ⟨_, -, rfl⟩
    trivial
  · rcases Option.map_eq_some_iff.mp reads with ⟨_, -, rfl⟩
    trivial
  · split at reads
    · rcases Option.map_eq_some_iff.mp reads with ⟨_, -, rfl⟩
      trivial
    · cases reads
  · rcases Option.map_eq_some_iff.mp reads with ⟨_, isProgress, rfl⟩
    exact Progress.inRange_of_ofValue isProgress
  · split at reads
    · rcases Option.map_eq_some_iff.mp reads with ⟨_, -, rfl⟩
      trivial
    · cases reads
  · rcases Option.map_eq_some_iff.mp reads with ⟨_, -, rfl⟩
    trivial
  · rcases Option.map_eq_some_iff.mp reads with ⟨_, -, rfl⟩
    trivial
  · cases reads

theorem inRange_of_parse
    {text : String} {message : Message Db}
    (parses : parse floats text = some message) : message.InRange := by
  rw [parse] at parses
  split at parses
  · split at parses
    · rw [Message.ofValue.eq_def] at parses
      split at parses
      · split at parses
        · exact Message.inRange_of_ofContent parses
        · cases parses
      · exact Message.inRange_of_ofContent parses
      · cases parses
    · cases parses
  · cases parses

end Accepted

/-! ## Whole decibels -/

theorem zero_lt_ten : 0 < 10 :=
  Nat.zero_lt_succ 9

/-- Floats that are whole numbers, or none. -/
def wholeDecibels : Floats (Option Int) where
  write db :=
    db.map fun db : Int =>
      { negative := decide (db < 0)
        whole := db.natAbs
        fraction := [⟨0, zero_lt_ten⟩]
        exponent := none }
  read numeral :=
    some
      (if numeral.negative then -(numeral.whole : Int)
      else numeral.whole)
  fits _ := true

theorem wholeDecibels_lawful : wholeDecibels.Lawful where
  fits_ofNat _ _ := rfl
  fits_write _ _ _ := rfl
  read_write db numeral written := by
    rcases Option.map_eq_some_iff.mp written with ⟨whole, rfl, rfl⟩
    show
      some
          (if decide (whole < 0) then -(whole.natAbs : Int)
          else whole.natAbs) =
        some whole
    simp only [decide_eq_true_eq]
    congr 1
    split <;> omega

/-- What a receiver would know that was told a volume that is none. -/
def livingRoom : Snapshot (Option Int) where
  receiver := { name := "Living Room", version := "0.4.0" }
  session := some { rate := 44100, channels := 2, peer := "192.0.2.2" }
  track := none
  volumeDb := some none
  progress := none
  artwork := none
  paused := false

theorem livingRoom_inRange : livingRoom.InRange := by
  constructor
  · intro session known
    rw [← Option.some.inj known]
    exact ⟨by decide, by decide⟩
  · intro progress known
    have unknown : livingRoom.progress = none := rfl
    cases unknown.symm.trans known

/-- What a later version may send when playback pauses. -/
def pausedSince : String :=
  "\x7b\"paused\": true, \"since\": [1e3], \"type\": \"paused\"\x7d"

end OpenAirplay2.Display

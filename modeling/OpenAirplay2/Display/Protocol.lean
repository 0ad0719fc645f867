import OpenAirplay2.Control.Host
import OpenAirplay2.Lib.Overwrite

/-!
# What a display is sent

The messages between a receiver and a display, and the snapshot of everything
the receiver knows.  The type of a volume is a parameter, as it is for the
events of a session; so are the Base64 encoding and the IPv4 form of a mapped
address.
-/

namespace OpenAirplay2.Display

open OpenAirplay2.Control (Event IpAddr)
open OpenAirplay2.Lib.Overwrite
open OpenAirplay2.Pairing (Bytes)

/-- Which receiver a display is looking at. -/
structure ReceiverInfo where
  name : String
  version : String
deriving DecidableEq, Repr

/-- The stream's format and where it came from. -/
structure SessionInfo where
  rate : Nat
  channels : Nat
  peer : String
deriving DecidableEq, Repr

/-- Track metadata. -/
structure Track where
  title : Option String
  artist : Option String
  album : Option String
deriving DecidableEq, Repr

/-- Playback position within the current track. -/
structure Progress where
  elapsedMs : Nat
  durationMs : Nat
deriving DecidableEq, Repr

/-- Cover art as sent. -/
structure Artwork where
  contentType : String
  dataBase64 : String
deriving DecidableEq, Repr

/-- Everything the receiver currently knows. -/
@[ext]
structure Snapshot (Db : Type) where
  receiver : ReceiverInfo
  session : Option SessionInfo
  track : Option Track
  volumeDb : Option Db
  progress : Option Progress
  artwork : Option Artwork
  paused : Bool
deriving DecidableEq, Repr

/-- One message on the display socket. -/
inductive Message (Db : Type) where
  | snapshot (snapshot : Snapshot Db)
  | sessionStarted (rate channels : Nat) (peer : String)
  | metadata (title artist album : Option String)
  | artwork (contentType dataBase64 : String)
  | volume (db : Db)
  | progress (elapsedMs durationMs : Nat)
  | paused (paused : Bool)
  | flushed
  | sessionEnded
deriving DecidableEq, Repr

variable {Db : Type}

namespace Snapshot

/-- `Snapshot::default`, of a receiver. -/
def ofReceiver (receiver : ReceiverInfo) : Snapshot Db where
  receiver := receiver
  session := none
  track := none
  volumeDb := none
  progress := none
  artwork := none
  paused := false

/-- Fold a change message into this snapshot. -/
def apply (snapshot : Snapshot Db) : Message Db → Snapshot Db
  | .snapshot replacement => replacement
  | .sessionStarted rate channels peer =>
      { snapshot with
        session := some { rate := rate, channels := channels, peer := peer }
        paused := false }
  | .metadata title artist album =>
      { snapshot with
        track := some { title := title, artist := artist, album := album } }
  | .artwork contentType dataBase64 =>
      { snapshot with
        artwork :=
          if dataBase64.isEmpty then none
          else
            some { contentType := contentType, dataBase64 := dataBase64 } }
  | .volume db => { snapshot with volumeDb := some db }
  | .progress elapsedMs durationMs =>
      { snapshot with
        progress :=
          some { elapsedMs := elapsedMs, durationMs := durationMs } }
  | .paused paused => { snapshot with paused := paused }
  | .flushed => snapshot
  | .sessionEnded => ofReceiver snapshot.receiver

/-- Every message of a list, in order. -/
def applyAll (snapshot : Snapshot Db) (messages : List (Message Db)) :
    Snapshot Db :=
  messages.foldl apply snapshot

@[simp]
theorem applyAll_nil (snapshot : Snapshot Db) :
    snapshot.applyAll [] = snapshot :=
  rfl

@[simp]
theorem applyAll_cons
    (snapshot : Snapshot Db) (message : Message Db)
    (rest : List (Message Db)) :
    snapshot.applyAll (message :: rest) =
      (snapshot.apply message).applyAll rest :=
  rfl

theorem applyAll_append
    (snapshot : Snapshot Db) (first second : List (Message Db)) :
    snapshot.applyAll (first ++ second) =
      (snapshot.applyAll first).applyAll second :=
  List.foldl_append

theorem overwrites_snapshot
    {Field : Type} (field : Snapshot Db → Field)
    (replacement : Snapshot Db) :
    Overwrites field fun snapshot =>
      Snapshot.apply snapshot (.snapshot replacement) :=
  Or.inr ⟨field replacement, fun _ => rfl⟩

/-- Replaying the end of a history keeps a field that is overwritten. -/
theorem replay_field
    {Field : Type} (field : Snapshot Db → Field)
    (each :
      ∀ message,
        Overwrites field fun snapshot => Snapshot.apply snapshot message)
    (before after : List (Message Db)) (snapshot : Snapshot Db) :
    field ((snapshot.applyAll (before ++ after)).applyAll after) =
      field (snapshot.applyAll (before ++ after)) :=
  replay each before after snapshot

/--
Applying the last messages of a history again to the snapshot the history led
to changes nothing.
-/
theorem applyAll_replay
    (snapshot : Snapshot Db) (before after : List (Message Db)) :
    (snapshot.applyAll (before ++ after)).applyAll after =
      snapshot.applyAll (before ++ after) := by
  ext1
  all_goals
    apply replay_field
    intro message
    cases message with
    | snapshot replacement => exact overwrites_snapshot _ replacement
    | _ =>
        first
          | exact Or.inl fun _ => rfl
          | exact Or.inr ⟨_, fun _ => rfl⟩

end Snapshot

/-! ## Events as messages -/

/-- The crates and the library that the wire format rests on. -/
structure Wire where
  /-- `STANDARD.encode`. -/
  base64 : Bytes → String
  /-- `to_ipv4_mapped`; there is none for an IPv4 address. -/
  toIpv4Mapped : IpAddr → Option IpAddr

/-- `display_addr`: a mapped address without its prefix. -/
def displayAddr (wire : Wire) (addr : IpAddr) : String :=
  match wire.toIpv4Mapped addr with
  | some v4 => v4.display
  | none => addr.display

/-- `Duration::as_millis() as u64`. -/
def asMillis (duration : Player.Duration) : Nat :=
  duration / 1000000 % 2 ^ 64

/-- Translate a receiver event into its wire message. -/
def toMessage (wire : Wire) : Event Db → Option (Message Db)
  | .sessionStarted rate channels peer =>
      some (.sessionStarted rate channels (displayAddr wire peer))
  | .metadata title artist album => some (.metadata title artist album)
  | .artwork contentType data =>
      some (.artwork contentType (wire.base64 data))
  | .volume db => some (.volume db)
  | .progress elapsed duration =>
      some (.progress (asMillis elapsed) (asMillis duration))
  | .paused paused => some (.paused paused)
  | .flushed => some .flushed
  | .sessionEnded => some .sessionEnded

end OpenAirplay2.Display

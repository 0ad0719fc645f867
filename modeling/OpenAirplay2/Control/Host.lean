import OpenAirplay2.Lib.Str
import OpenAirplay2.Pairing.Tlv
import OpenAirplay2.Player.Position

/-!
# What a session is given and what it asks for

The crates behind a session are a parameter: the property list reader and
writer, the AAC codec and the arithmetic of `f32`.  The type of a volume is
a parameter with them.

Everything a session does outside its own state is an effect: it reports an
event to the host, calls the sink factory, drops a player, hands a request to
a player, starts or aborts a task, or gives its guard of the active slot back.
-/

namespace OpenAirplay2.Control

open OpenAirplay2.Pairing (Bytes)
open OpenAirplay2.Player (Duration Track)

/-- An address, by the text it is displayed with. -/
structure IpAddr where
  display : String
deriving DecidableEq, Repr

/-- `plist::Value`; a date, a real or a UID is never looked into. -/
inductive Value where
  | array (values : List Value)
  | dictionary (entries : List (String × Value))
  | boolean (value : Bool)
  | data (bytes : Bytes)
  | integer (value : Int)
  | string (text : String)
  | other

/-- `plist::Dictionary`. -/
abbrev Dictionary := List (String × Value)

namespace Value

def asDictionary : Value → Option Dictionary
  | .dictionary entries => some entries
  | _ => none

def asArray : Value → Option (List Value)
  | .array values => some values
  | _ => none

def asData : Value → Option Bytes
  | .data bytes => some bytes
  | _ => none

def asUnsignedInteger : Value → Option Nat
  | .integer value =>
      if 0 ≤ value ∧ value < 2 ^ 64 then some value.toNat else none
  | _ => none

def asSignedInteger : Value → Option Int
  | .integer value =>
      if -2 ^ 63 ≤ value ∧ value < 2 ^ 63 then some value else none
  | _ => none

end Value

/-- `Dictionary::get`. -/
def Dictionary.get (dict : Dictionary) (key : String) : Option Value :=
  (dict.find? fun entry => entry.1 == key).map Prod.snd

/-- The crates and the `f32` arithmetic a session rests on. -/
structure Platform (Db : Type) where
  /-- `Value::from_reader`. -/
  readPlist : Bytes → Option Value
  /-- `Value::to_writer_binary`. -/
  writePlist : Value → Option Bytes
  /-- Whether there is a codec for an AudioSpecificConfig. -/
  makesDecoder : Nat → Bytes → Bool
  ofInt : Int → Db
  /-- `str::parse::<f32>`. -/
  parseDb : String → Option Db
  isFinite : Db → Bool
  clamp : Db → Db → Db → Db
  /-- The format `{:.6}`. -/
  display : Db → String

/-- What the host is told about a session. -/
inductive Event (Db : Type) where
  | sessionStarted (rate channels : Nat) (peer : IpAddr)
  | volume (db : Db)
  | metadata (title artist album : Option String)
  | artwork (contentType : String) (data : Bytes)
  | progress (elapsed duration : Duration)
  | paused (paused : Bool)
  | flushed
  | sessionEnded
deriving DecidableEq, Repr

/-- What runs beside the requests, on a socket of its own. -/
inductive Task where
  | eventChannel (expected : IpAddr)
  | audioChannel (label : String)
  | bufferedAudio (expected : IpAddr) (key : Bytes) (stream : Nat)
      (maxQueued : Nat)
  | drainTcp (expected : IpAddr)
deriving DecidableEq, Repr

/-- Proof that claim `ticket` of connection `id` owns the active slot. -/
structure Guard where
  id : Nat
  ticket : Nat
deriving DecidableEq, Repr

/--
What a session does beside changing its state.  A sink, its player and the
handles on it go by the number of the stream they were made for.
-/
inductive Effect (Db : Type) where
  | event (event : Event Db)
  | openSink (stream rate channels : Nat)
  /-- The extent of the track is written, for the playback threads. -/
  | anchor (track : Option Track)
  /-- The playback thread starts, with its reports of the position. -/
  | startPlayer (stream rate : Nat)
  /-- The player is dropped: its thread is joined and the sink dropped. -/
  | closeSink (stream : Nat)
  | setPaused (stream : Nat) (paused : Bool)
  | flush (stream : Nat) (belowSeq : Option Nat)
  | spawn (task : Task)
  | abort (task : Task)
  | dropGuard (guard : Guard)
deriving DecidableEq, Repr

/-- The ports a request gets when it binds; `none` when a bind fails. -/
structure Ports where
  first : Option UInt16
  second : Option UInt16
deriving DecidableEq, Repr

end OpenAirplay2.Control

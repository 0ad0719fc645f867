import OpenAirplay2.Control.Dmap
import OpenAirplay2.Control.Host

/-!
# The session of a connection

The `SETUP` phases and the control verbs of one connection.  Every operation
maps the session to the one it leaves behind; what it does beside that is
appended to `effects`, in order.

`streams` counts the sinks the factory was asked for and numbers the streams.
It and `effects` are bookkeeping; the effects an operation has are those it
appends.
-/

namespace OpenAirplay2.Control

open OpenAirplay2.Lib.Str
open OpenAirplay2.Pairing (Bytes)
open OpenAirplay2.Player
  (Track framesToDuration maxQueuedSamples saturatingSub)

variable {Db : Type}

def typeRealtime : Nat := 96

def typeBuffered : Nat := 103

def dmapContentType : String := "application/x-dmap-tagged"

/-- Why a `SETUP` failed; the text only goes to the log. -/
inductive SetupError where
  | plist
  | notDictionary
  | emptyStreams
  | bind
  | encode
deriving DecidableEq, Repr

structure Session (Db : Type) where
  localIp : IpAddr
  peerIp : IpAddr
  tasks : List Task
  streamKey : Option Bytes
  audioFormat : Option Nat
  streamType : Option Nat
  volume : Db
  sessionActive : Bool
  pendingMetadata : Option (Event Db)
  pendingArtwork : Option (Event Db)
  player : Option Nat
  playerControl : Option Nat
  flushUntilSeq : Nat
  track : Option Track
  activeGuard : Option Guard
  streams : Nat
  effects : List (Effect Db)
deriving DecidableEq

/-- `encode_plist`. -/
def encodePlist (platform : Platform Db) (dict : Dictionary) :
    Except SetupError Bytes :=
  match platform.writePlist (.dictionary dict) with
  | some bytes => .ok bytes
  | none => .error .encode

/-- `aac_params`: the sample rate and the channel count of the stream. -/
def aacParams (_audioFormat : Option Nat) : Nat × Nat :=
  (44100, 2)

/-- `audio_specific_config`. -/
def audioSpecificConfig (sampleRate channels : Nat) : Option Bytes :=
  let freqIndex : Option Nat :=
    match sampleRate with
    | 96000 => some 0
    | 88200 => some 1
    | 64000 => some 2
    | 48000 => some 3
    | 44100 => some 4
    | 32000 => some 5
    | 24000 => some 6
    | 22050 => some 7
    | 16000 => some 8
    | _ => none
  match freqIndex with
  | none => none
  | some freqIndex =>
      if channels = 0 ∨ 7 < channels then
        none
      else
        some
          [UInt8.ofNat (2 * 8 + freqIndex / 2),
            UInt8.ofNat (freqIndex % 2 * 128 + channels * 8)]

/-- Whether `AacDecoder::new` succeeds. -/
def aacDecoder (platform : Platform Db) (params : Nat × Nat) : Bool :=
  (audioSpecificConfig params.1 params.2).any
    (platform.makesDecoder params.1)

/-- `AudioDecryptor::new`: a key of 32 bytes. -/
def audioDecryptor (shk : Bytes) : Option Bytes :=
  if shk.length = 32 then some shk else none

/-- `int_field`: an integer, encoded signed or unsigned. -/
def intField (value : Value) : Option Nat :=
  match value.asUnsignedInteger with
  | some unsigned => some unsigned
  | none => value.asSignedInteger.map fun signed => (signed % 2 ^ 64).toNat

/-- `sanitize_volume`: a finite volume, clamped into the AirPlay range. -/
def sanitizeVolume (platform : Platform Db) (db : Db) : Option Db :=
  if platform.isFinite db then
    some (platform.clamp db (platform.ofInt (-144)) (platform.ofInt 0))
  else
    none

/-- `parse_rate_anchor`. -/
def parseRateAnchor (platform : Platform Db) (body : Bytes) :
    Option (Nat × Nat) :=
  match (platform.readPlist body).bind Value.asDictionary with
  | none => none
  | some dict =>
      match (dict.get "rate").bind intField with
      | none => none
      | some rate =>
          some (rate, ((dict.get "rtpTime").bind intField).getD 0)

/-- `parse_flush_until_seq`. -/
def parseFlushUntilSeq (platform : Platform Db) (body : Bytes) :
    Option Nat :=
  match (platform.readPlist body).bind Value.asDictionary with
  | none => none
  | some dict => (dict.get "flushUntilSeq").bind intField

namespace Session

def new (platform : Platform Db) (localIp peerIp : IpAddr) :
    Session Db where
  localIp := localIp
  peerIp := peerIp
  tasks := []
  streamKey := none
  audioFormat := none
  streamType := none
  volume := platform.ofInt 0
  sessionActive := false
  pendingMetadata := none
  pendingArtwork := none
  player := none
  playerControl := none
  flushUntilSeq := 0
  track := none
  activeGuard := none
  streams := 0
  effects := []

/-- The session after one more effect. -/
def perform (session : Session Db) (effect : Effect Db) : Session Db :=
  { session with effects := session.effects ++ [effect] }

/-- Every effect of a list, in order. -/
def performAll (session : Session Db) (effects : List (Effect Db)) :
    Session Db :=
  { session with effects := session.effects ++ effects }

/-- Assigning the guard drops the one that was there. -/
def setActiveGuard (session : Session Db) (guard : Guard) : Session Db :=
  { session.performAll (session.activeGuard.toList.map .dropGuard) with
    activeGuard := some guard }

def sendEvent (session : Session Db) (event : Event Db) : Session Db :=
  session.perform (.event event)

/-- `tasks.push(tokio::spawn(..))`. -/
def spawn (session : Session Db) (task : Task) : Session Db :=
  { session.perform (.spawn task) with tasks := session.tasks ++ [task] }

/-! ## `SETUP` -/

/-- Phase 1: bind the event channel. -/
def setupTiming (platform : Platform Db) (session : Session Db)
    (ports : Ports) : Session Db × Except SetupError Bytes :=
  match ports.first with
  | none => (session, .error .bind)
  | some eventPort =>
      let selfIp := session.localIp.display
      let peerInfo : Dictionary :=
        [("Addresses", .array [.string selfIp]), ("ID", .string selfIp)]
      let response : Dictionary :=
        [("eventPort", .integer eventPort.toNat),
          ("timingPort", .integer 0),
          ("timingPeerInfo", .dictionary peerInfo)]
      (session.spawn (.eventChannel session.peerIp),
        encodePlist platform response)

/--
A new player takes the place of the one that was there.  The factory is asked
for the sink first; only the assignment drops the old player.
-/
def replacePlayer (session : Session Db) (rate channels : Nat) :
    Session Db :=
  let opened := session.perform (.openSink session.streams rate channels)
  let spawned :=
    { opened.performAll
        [.anchor none, .startPlayer session.streams rate] with
      track := none
      playerControl := some session.streams
      streams := session.streams + 1 }
  { spawned.performAll (session.player.toList.map .closeSink) with
    player := some session.streams }

/-- The stream of a buffered session begins. -/
def startStream (session : Session Db) (key : Bytes) : Session Db :=
  let params := aacParams session.audioFormat
  let started :=
    { session with sessionActive := true }.sendEvent
      (.sessionStarted params.1 params.2 session.peerIp)
  let latched :=
    session.pendingMetadata.toList ++ session.pendingArtwork.toList
  let replayed :=
    { started.performAll (latched.map .event) with
      pendingMetadata := none
      pendingArtwork := none }
  (replayed.replacePlayer params.1 params.2).spawn
    (.bufferedAudio session.peerIp key session.streams
      (maxQueuedSamples params.1 params.2))

/-- Bind the data channel of a buffered stream and start its pipeline. -/
def startBufferedAudio (platform : Platform Db) (session : Session Db)
    (port : Option UInt16) : Session Db × Except SetupError UInt16 :=
  match port with
  | none => (session, .error .bind)
  | some port =>
      let reset := { session with flushUntilSeq := 0 }
      match session.streamKey.bind audioDecryptor with
      | none => (reset.spawn (.drainTcp session.peerIp), .ok port)
      | some key =>
          if aacDecoder platform (aacParams session.audioFormat) then
            (reset.startStream key, .ok port)
          else
            (reset.spawn (.drainTcp session.peerIp), .ok port)

/-- The fields of the stream that phase 2 names. -/
def captureStream (session : Session Db) (stream : Dictionary) :
    Session Db :=
  { session with
    streamType := (stream.get "type").bind Value.asUnsignedInteger
    audioFormat := (stream.get "audioFormat").bind Value.asUnsignedInteger
    streamKey := (stream.get "shk").bind Value.asData }

/-- The data channel of phase 2: TCP if buffered, else UDP. -/
def setupData (platform : Platform Db) (session : Session Db)
    (port : Option UInt16) : Session Db × Except SetupError UInt16 :=
  if session.streamType = some typeBuffered then
    session.startBufferedAudio platform port
  else
    match port with
    | none => (session, .error .bind)
    | some port => (session.spawn (.audioChannel "audio"), .ok port)

/-- The ports phase 2 answers with. -/
def streamResponse (streamType : Option Nat)
    (dataPort controlPort : UInt16) : Dictionary :=
  let ports : Dictionary :=
    [("type", .integer (streamType.getD typeRealtime)),
      ("dataPort", .integer dataPort.toNat),
      ("controlPort", .integer controlPort.toNat)]
  let size : Dictionary :=
    if streamType = some typeBuffered then
      [("audioBufferSize", .integer 8388608)]
    else
      []
  [("streams", .array [.dictionary (ports ++ size)])]

/-- Phase 2: bind the control and data channels of the first stream. -/
def setupStreams (platform : Platform Db) (session : Session Db)
    (ports : Ports) (streams : List Value) :
    Session Db × Except SetupError Bytes :=
  match streams.head?.bind Value.asDictionary with
  | none => (session, .error .emptyStreams)
  | some stream =>
      let captured := session.captureStream stream
      match ports.first with
      | none => (captured, .error .bind)
      | some controlPort =>
          match
            (captured.spawn (.audioChannel "control")).setupData platform
              ports.second
          with
          | (final, .error error) => (final, .error error)
          | (final, .ok dataPort) =>
              (final,
                encodePlist platform
                  (streamResponse captured.streamType dataPort
                    controlPort))

/-- `handle_setup`: phase 2 if there is an array of streams, else phase 1. -/
def handleSetup (platform : Platform Db) (session : Session Db)
    (ports : Ports) (body : Bytes) :
    Session Db × Except SetupError Bytes :=
  match platform.readPlist body with
  | none => (session, .error .plist)
  | some request =>
      match request.asDictionary with
      | none => (session, .error .notDictionary)
      | some dict =>
          match (dict.get "streams").bind Value.asArray with
          | some streams => session.setupStreams platform ports streams
          | none => session.setupTiming platform ports

/-! ## Transport control -/

/-- `SETRATEANCHORTIME`: the pause gate. -/
def setRateAnchor (platform : Platform Db) (session : Session Db)
    (body : Bytes) : Session Db :=
  match parseRateAnchor platform body with
  | none => session
  | some (rate, _) =>
      (session.performAll
        (session.playerControl.toList.map
          fun stream => .setPaused stream (rate == 0))).sendEvent
        (.paused (rate == 0))

/-- `FLUSHBUFFERED`. -/
def flush (platform : Platform Db) (session : Session Db)
    (body : Bytes) : Session Db :=
  let boundary := parseFlushUntilSeq platform body
  let stored :=
    { session with
      flushUntilSeq := boundary.getD session.flushUntilSeq }
  (stored.performAll
    (stored.playerControl.toList.map
      fun stream => .flush stream boundary)).sendEvent .flushed

/-! ## Parameters -/

def getParameter (platform : Platform Db) (session : Session Db)
    (body : Bytes) : Bytes :=
  if trim (fromUtf8Lossy body) = "volume" then
    asciiBytes "volume: " ++ asciiBytes (platform.display session.volume) ++
      asciiBytes "\r\n"
  else
    []

/-- Deliver an event inside the session, or keep the latest for it. -/
def sendSessionEvent (session : Session Db) (event : Event Db) :
    Session Db :=
  if session.sessionActive then
    session.sendEvent event
  else
    match event with
    | .artwork _ _ => { session with pendingArtwork := some event }
    | _ => { session with pendingMetadata := some event }

/-- `progress:`, three RTP time stamps. -/
def setProgress (session : Session Db) (value : String) : Session Db :=
  match (split value '/').map (parseU32 ∘ trim) with
  | [some start, some current, some ends] =>
      let track : Track := { start := start, ends := ends }
      let anchored :=
        { session with track := some track }.perform (.anchor (some track))
      if session.sessionActive then
        let rate := (aacParams session.audioFormat).1
        anchored.sendEvent
          (.progress
            (framesToDuration (saturatingSub current start) rate)
            (framesToDuration (saturatingSub ends start) rate))
      else
        anchored
  | _ => session

/-- One line of a `text/parameters` body. -/
def setTextLine (platform : Platform Db) (session : Session Db)
    (line : String) : Session Db :=
  match stripPrefix (trim line) "volume:" with
  | some value =>
      match
        (platform.parseDb (trim value)).bind (sanitizeVolume platform)
      with
      | some db => { session with volume := db }.sendEvent (.volume db)
      | none => session
  | none =>
      match stripPrefix (trim line) "progress:" with
      | some value => session.setProgress (trim value)
      | none => session

def setTextParameters (platform : Platform Db) (session : Session Db)
    (body : Bytes) : Session Db :=
  (lines (fromUtf8Lossy body)).foldl (setTextLine platform) session

def setMetadata (session : Session Db) (body : Bytes) : Session Db :=
  match Dmap.parse body with
  | none => session
  | some track =>
      session.sendSessionEvent
        (.metadata track.title track.artist track.album)

def setArtwork (session : Session Db) (contentType : String)
    (body : Bytes) : Session Db :=
  session.sendSessionEvent (.artwork contentType body)

/-- The media type of a `Content-Type`, without its parameters. -/
def mediaType (contentType : String) : String :=
  trim ((split contentType ';').head?.getD contentType)

/-- `SET_PARAMETER`, by its content type. -/
def setParameter (platform : Platform Db) (session : Session Db)
    (contentType : Option String) (body : Bytes) : Session Db :=
  match contentType.map mediaType with
  | none => session.setTextParameters platform body
  | some media =>
      if eqIgnoreAsciiCase media dmapContentType then
        session.setMetadata body
      else if
          (getTo media 6).any fun start =>
            eqIgnoreAsciiCase start "image/" then
        session.setArtwork media body
      else
        session.setTextParameters platform body

/-! ## The end of a session -/

/-- Report `SessionEnded` once per started session. -/
def endSession (session : Session Db) : Session Db :=
  if session.sessionActive then
    { session with sessionActive := false }.sendEvent .sessionEnded
  else
    session

/-- `TEARDOWN`; the player stays. -/
def teardown (session : Session Db) : Session Db :=
  session.endSession

/-- `Drop for Session`. -/
def drop (session : Session Db) : Session Db :=
  let ended := session.endSession
  { ended.performAll
      (ended.tasks.map .abort ++ ended.player.toList.map .closeSink ++
        ended.activeGuard.toList.map .dropGuard) with
    tasks := []
    playerControl := none
    player := none
    activeGuard := none }

end Session

end OpenAirplay2.Control

import OpenAirplay2.Display.Protocol

/-!
# What a display shows

A display folds the messages into a state of its own.  It agrees with the
snapshot that the receiver folds from the same messages in everything but the
volume: the end of a session clears it in the snapshot and not on the
display.

The decoding of Base64 is a parameter.
-/

namespace OpenAirplay2.Display

open OpenAirplay2.Pairing (Bytes)
open OpenAirplay2.Player (Duration)

/-- The stream on display. -/
structure Session where
  rate : Nat
  channels : Nat
  peer : String
deriving DecidableEq, Repr

/-- Where playback is, as last reported. -/
structure Position where
  elapsed : Duration
  duration : Duration
deriving DecidableEq, Repr

/-- Cover art exactly as the sender delivered it. -/
structure Picture where
  contentType : String
  data : Bytes
deriving DecidableEq, Repr

/-- What the message stream decides of the screen. -/
@[ext]
structure NowPlaying (Db : Type) where
  name : String
  session : Option Session
  title : Option String
  artist : Option String
  album : Option String
  volumeDb : Option Db
  progress : Option Position
  artwork : Option Picture
  paused : Bool
deriving DecidableEq, Repr

/-- `Duration::from_millis`. -/
def fromMillis (ms : Nat) : Duration :=
  ms * 1000000

section Fold

variable
    {Db : Type}
    /- `STANDARD.decode`. -/
    (decode : String → Option Bytes)

/-- Decode artwork; empty data is the sender's clear. -/
def decodeArtwork (contentType dataBase64 : String) : Option Picture :=
  if dataBase64.isEmpty then
    none
  else
    (decode dataBase64).map fun data =>
      { contentType := contentType, data := data }

namespace NowPlaying

/-- Replace everything from a snapshot. -/
def applySnapshot (_display : NowPlaying Db) (snapshot : Snapshot Db) :
    NowPlaying Db :=
  let track := snapshot.track.getD ⟨none, none, none⟩
  { name := snapshot.receiver.name
    session :=
      snapshot.session.map fun session =>
        { rate := session.rate
          channels := session.channels
          peer := session.peer }
    title := track.title
    artist := track.artist
    album := track.album
    volumeDb := snapshot.volumeDb
    progress :=
      snapshot.progress.map fun progress =>
        { elapsed := fromMillis progress.elapsedMs
          duration := fromMillis progress.durationMs }
    artwork :=
      snapshot.artwork.bind fun artwork =>
        decodeArtwork decode artwork.contentType artwork.dataBase64
    paused := snapshot.paused }

def applyMessage (display : NowPlaying Db) : Message Db → NowPlaying Db
  | .snapshot snapshot => display.applySnapshot decode snapshot
  | .sessionStarted rate channels peer =>
      { display with
        session := some { rate := rate, channels := channels, peer := peer }
        paused := false }
  | .metadata title artist album =>
      { display with title := title, artist := artist, album := album }
  | .artwork contentType dataBase64 =>
      { display with artwork := decodeArtwork decode contentType dataBase64 }
  | .volume db => { display with volumeDb := some db }
  | .progress elapsedMs durationMs =>
      { display with
        progress :=
          some
            { elapsed := fromMillis elapsedMs
              duration := fromMillis durationMs } }
  | .paused paused => { display with paused := paused }
  | .flushed => display
  | .sessionEnded =>
      { display with
        session := none
        title := none
        artist := none
        album := none
        progress := none
        artwork := none
        paused := false }

/-- Every message of a list, in order. -/
def applyAll (display : NowPlaying Db) (messages : List (Message Db)) :
    NowPlaying Db :=
  messages.foldl (applyMessage decode) display

end NowPlaying

/-! ## The volume -/

/-- A message that says what the volume is. -/
def Message.StatesVolume : Message Db → Prop
  | .snapshot _ => True
  | .volume _ => True
  | _ => False

/-- The volume after a message, if nothing but another volume clears it. -/
def stated (volume : Option Db) : Message Db → Option Db
  | .snapshot snapshot => snapshot.volumeDb
  | .volume db => some db
  | _ => volume

/-- The volume that was stated last. -/
def lastStated (volume : Option Db) (messages : List (Message Db)) :
    Option Db :=
  messages.foldl stated volume

/-- A session that ends when the volume is known is followed by another
statement of it. -/
def Restated (volume : Option Db) (messages : List (Message Db)) : Prop :=
  ∀ before after,
    messages = before ++ .sessionEnded :: after →
      lastStated volume before ≠ none →
        ∃ message ∈ after, Message.StatesVolume message

/-! ## The two folds -/

/-- The display of a snapshot, with a volume of its own. -/
def shown (snapshot : Snapshot Db) (volume : Option Db) : NowPlaying Db :=
  { NowPlaying.applySnapshot decode
      ⟨"", none, none, none, none, none, none, none, false⟩ snapshot with
    volumeDb := volume }

/-- A message does the same to the display and to the snapshot. -/
theorem applyMessage_shown
    (snapshot : Snapshot Db) (volume : Option Db)
    (message : Message Db) :
    (shown decode snapshot volume).applyMessage decode message =
      shown decode (snapshot.apply message) (stated volume message) := by
  cases message with
  | artwork contentType dataBase64 =>
      ext1
      case artwork =>
        show decodeArtwork decode contentType dataBase64 =
          Option.bind (if dataBase64.isEmpty then none else some _) _
        split
        · next isEmpty => rw [decodeArtwork, if_pos isEmpty]; rfl
        · rfl
      all_goals rfl
  | _ => rfl

theorem applyAll_shown
    (messages : List (Message Db)) (snapshot : Snapshot Db)
    (volume : Option Db) :
    (shown decode snapshot volume).applyAll decode messages =
      shown decode (snapshot.applyAll messages)
        (lastStated volume messages) := by
  induction messages generalizing snapshot volume with
  | nil => rfl
  | cons message rest induction =>
      show ((shown decode snapshot volume).applyMessage decode
        message).applyAll decode rest = _
      rw [applyMessage_shown]
      exact induction (snapshot.apply message) (stated volume message)

theorem lastStated_append
    (volume : Option Db) (first second : List (Message Db)) :
    lastStated volume (first ++ second) =
      lastStated (lastStated volume first) second :=
  List.foldl_append

/-- The snapshot has the volume stated last, or it was cleared. -/
theorem volumeDb_applyAll
    {snapshot : Snapshot Db} {volume : Option Db}
    (messages : List (Message Db))
    (known : snapshot.volumeDb = none ∨ snapshot.volumeDb = volume) :
    (snapshot.applyAll messages).volumeDb = none ∨
      (snapshot.applyAll messages).volumeDb =
        lastStated volume messages := by
  induction messages generalizing snapshot volume with
  | nil => exact known
  | cons message rest induction =>
      apply induction
      cases message with
      | snapshot => exact Or.inr rfl
      | volume => exact Or.inr rfl
      | sessionEnded => exact Or.inl rfl
      | _ => exact known

/-- Where an element stands in a list with one more at its end. -/
theorem split_append_singleton
    {messages before after : List (Message Db)}
    {message found : Message Db}
    (split : messages ++ [message] = before ++ found :: after) :
    messages = before ∧ message = found ∧ after = [] ∨
      ∃ between, after = between ++ [message] ∧
        messages = before ++ found :: between := by
  rcases List.eq_nil_or_concat after with rfl | ⟨between, last, rfl⟩
  · left
    rcases List.append_inj' split rfl with ⟨same, ends⟩
    exact ⟨same, List.head_eq_of_cons_eq ends, rfl⟩
  · right
    rw [List.concat_eq_append, ← List.cons_append, ← List.append_assoc]
      at split
    rcases List.append_inj' split rfl with ⟨same, ends⟩
    rw [List.concat_eq_append, List.head_eq_of_cons_eq ends]
    exact ⟨between, rfl, same⟩

/-- What follows the last end of a session decides whether it is restated. -/
theorem restated_append_singleton
    {volume : Option Db} {messages : List (Message Db)}
    {message : Message Db} :
    Restated volume (messages ++ [message]) ↔
      message.StatesVolume ∨
        Restated volume messages ∧
          (message = .sessionEnded → lastStated volume messages = none) := by
  constructor
  · intro restated
    by_cases states : message.StatesVolume
    · exact Or.inl states
    · right
      constructor
      · rintro before after rfl known
        have longer :
            before ++ .sessionEnded :: after ++ [message] =
              before ++ .sessionEnded :: (after ++ [message]) := by
          simp
        rcases restated before (after ++ [message]) longer known with
          ⟨later, member, statesLater⟩
        rcases List.mem_append.mp member with inAfter | isLast
        · exact ⟨later, inAfter, statesLater⟩
        · rw [List.mem_singleton.mp isLast] at statesLater
          exact absurd statesLater states
      · rintro rfl
        by_contra known
        rcases restated messages [] rfl known with ⟨_, member, -⟩
        cases member
  · rintro (states | ⟨restated, cleared⟩) before after split known
    · rcases split_append_singleton split with
        ⟨-, rfl, -⟩ | ⟨between, rfl, -⟩
      · exact False.elim states
      · exact
          ⟨message, List.mem_append_right _ (List.mem_singleton.mpr rfl),
            states⟩
    · rcases split_append_singleton split with
        ⟨rfl, isEnd, -⟩ | ⟨between, rfl, rfl⟩
      · exact absurd (cleared isEnd) known
      · rcases restated before between rfl known with
          ⟨later, member, statesLater⟩
        exact ⟨later, List.mem_append_left _ member, statesLater⟩

/-- The volume of the snapshot is the one stated last, if it is restated. -/
theorem volume_applyAll_iff
    (snapshot : Snapshot Db) (messages : List (Message Db)) :
    lastStated snapshot.volumeDb messages =
        (snapshot.applyAll messages).volumeDb ↔
      Restated snapshot.volumeDb messages := by
  induction messages using List.reverseRecOn with
  | nil =>
      apply iff_of_true rfl
      intro before after split
      exact absurd split (by simp)
  | append_singleton messages message induction =>
      rw [restated_append_singleton, ← induction, lastStated_append,
        Snapshot.applyAll_append]
      cases message with
      | snapshot replacement => exact iff_of_true rfl (Or.inl trivial)
      | volume db => exact iff_of_true rfl (Or.inl trivial)
      | sessionEnded =>
          show lastStated snapshot.volumeDb messages = none ↔ _
          constructor
          · intro cleared
            refine Or.inr ⟨?_, fun _ => cleared⟩
            rcases volumeDb_applyAll messages (Or.inr rfl) with
              none | same
            · rw [none, cleared]
            · exact same.symm
          · rintro (states | ⟨-, cleared⟩)
            · exact False.elim states
            · exact cleared rfl
      | _ =>
          show lastStated snapshot.volumeDb messages =
            (snapshot.applyAll messages).volumeDb ↔ _
          simp [Message.StatesVolume]

theorem shown_inj
    {snapshot : Snapshot Db} {first second : Option Db} :
    shown decode snapshot first = shown decode snapshot second ↔
      first = second := by
  constructor
  · exact fun same => congrArg NowPlaying.volumeDb same
  · exact fun same => congrArg (shown decode snapshot) same

/-- A snapshot leaves nothing of what was on display. -/
theorem applyMessage_snapshot
    (display : NowPlaying Db) (snapshot : Snapshot Db) :
    display.applyMessage decode (.snapshot snapshot) =
      shown decode snapshot snapshot.volumeDb :=
  rfl

/--
A display that was connected all along shows the same as one that is sent the
resulting snapshot exactly when no known volume is left unsaid after the end
of a session.
-/
theorem displays_agree_iff
    (early late : NowPlaying Db) (snapshot : Snapshot Db)
    (messages : List (Message Db)) :
    (early.applyMessage decode (.snapshot snapshot)).applyAll decode
          messages =
        late.applyMessage decode (.snapshot (snapshot.applyAll messages)) ↔
      Restated snapshot.volumeDb messages := by
  rw [applyMessage_snapshot, applyMessage_snapshot, applyAll_shown,
    shown_inj, volume_applyAll_iff]

end Fold

/-- What a receiver knows while it plays at a known volume. -/
def playing : Snapshot Nat where
  receiver := { name := "Living Room", version := "0.4.0" }
  session := some { rate := 44100, channels := 2, peer := "192.0.2.2" }
  track := none
  volumeDb := some 12
  progress := none
  artwork := none
  paused := false

/--
The session ends and the next one begins: a display that stays connected
still shows the old volume, one that joins then shows none.
-/
theorem displays_differ :
    ¬ ∀ (decode : String → Option Bytes) (early late : NowPlaying Nat)
        (snapshot : Snapshot Nat) (messages : List (Message Nat)),
      (early.applyMessage decode (.snapshot snapshot)).applyAll decode
          messages =
        late.applyMessage decode
          (.snapshot (snapshot.applyAll messages)) := by
  intro claim
  have same :=
    claim (fun _ => none) (shown (fun _ => none) playing none)
      (shown (fun _ => none) playing none) playing
      [.sessionEnded, .sessionStarted 44100 2 "192.0.2.2"]
  have volumes := congrArg NowPlaying.volumeDb same
  cases volumes

end OpenAirplay2.Display

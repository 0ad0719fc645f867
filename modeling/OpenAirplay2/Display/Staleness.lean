import OpenAirplay2.Display.Screen
import OpenAirplay2.Lib.Transition

/-!
# Stale state on the screen

What a screen may show of a track is what the messages since the latest
connection say of it, and nothing while the connection is down or the picker
is up.  What is drawn is compared with what an honest screen draws, which
holds nothing else of the track.

The text looks at the connection and the picker; the box for the cover art
and the image do not, and a new connection leaves the track as it was.
-/

namespace OpenAirplay2.Display

open OpenAirplay2.Lib.Transition
open OpenAirplay2.Pairing (Bytes)
open OpenAirplay2.Player (Duration)

variable {Db : Type}

/-! ## Honest screens -/

/-- The connection is up, and the picker is not. -/
def Screen.live (screen : Screen Db) : Bool :=
  screen.connection == .connected && screen.picker.isNone

theorem Screen.live_iff {screen : Screen Db} :
    screen.live = true ↔
      screen.connection = .connected ∧ screen.picker = none := by
  simp [Screen.live]

/-- Track, position and cover art are those of the other display. -/
def NowPlaying.withTrack (nowPlaying other : NowPlaying Db) :
    NowPlaying Db :=
  { nowPlaying with
    title := other.title
    artist := other.artist
    album := other.album
    progress := other.progress
    artwork := other.artwork }

/-- What a live screen may show; a screen that is not live shows nothing. -/
def Screen.sayable (screen : Screen Db) (fresh : NowPlaying Db) :
    NowPlaying Db :=
  if screen.live then fresh else .blank

/-- The screen, if it held nothing else of track, position and cover art. -/
def Screen.honest (screen : Screen Db) (fresh : NowPlaying Db) :
    Screen Db :=
  { screen with
    nowPlaying :=
      screen.nowPlaying.withTrack (screen.sayable fresh) }

/-- The screen is drawn as the honest one. -/
structure Screen.Honest
    (screen : Screen Db) (fresh : NowPlaying Db) : Prop where
  render :
    ∀ display solver area,
      screen.render display solver area =
        (screen.honest fresh).render display solver area
  wanted :
    screen.images.draws = true →
      ∀ area,
        ArtworkOnScreen.wanted screen area =
          ArtworkOnScreen.wanted (screen.honest fresh) area

/-- The text says the same of track and position. -/
def NowPlaying.TextAgrees (nowPlaying other : NowPlaying Db) : Prop :=
  nowPlaying.title.getD "Unknown track" =
      other.title.getD "Unknown track" ∧
    nowPlaying.artist = other.artist ∧
      nowPlaying.album = other.album ∧
        nowPlaying.position = other.position

/-- No artwork is held that the terminal could draw. -/
def Screen.Bare (screen : Screen Db) : Prop :=
  screen.images.draws = true → screen.nowPlaying.artwork = none

/-- What an honest screen comes down to. -/
structure Screen.Agrees
    (screen : Screen Db) (fresh : NowPlaying Db) : Prop where
  text :
    screen.live = true → screen.nowPlaying.session ≠ none →
      screen.nowPlaying.TextAgrees fresh
  artwork :
    screen.images.draws = true →
      screen.nowPlaying.artwork = (screen.sayable fresh).artwork

/-! ## What is drawn -/

section Drawn

variable
    {screen : Screen Db}
    {fresh other : NowPlaying Db}

/-- The text of a plain line. -/
def Line.plain? : Line → Option String
  | .plain text => some text
  | _ => none

/-- The text of a dim line. -/
def Line.dim? : Line → Option String
  | .dim text => some text
  | _ => none

/-- The position a bar is drawn from. -/
def Line.position? : Line → Option (Duration × Duration)
  | .progressBar elapsed duration _ => some (elapsed, duration)
  | _ => none

/-- Title, artist and album can be read off their lines. -/
theorem trackLines_inj
    {now other : NowPlaying Db}
    (same : now.trackLines = other.trackLines) :
    now.title.getD "Unknown track" = other.title.getD "Unknown track" ∧
      now.artist = other.artist ∧ now.album = other.album := by
  have artists (nowPlaying : NowPlaying Db) :
      nowPlaying.trackLines.findSome? Line.plain? = nowPlaying.artist := by
    unfold NowPlaying.trackLines
    cases nowPlaying.artist <;> cases nowPlaying.album <;> rfl
  have albums (nowPlaying : NowPlaying Db) :
      nowPlaying.trackLines.findSome? Line.dim? = nowPlaying.album := by
    unfold NowPlaying.trackLines
    cases nowPlaying.artist <;> cases nowPlaying.album <;> rfl
  refine ⟨Line.bold.inj (List.head_eq_of_cons_eq same), ?_, ?_⟩
  · rw [← artists, ← artists, same]
  · rw [← albums, ← albums, same]

/-- The position can be read off the text. -/
theorem findSome_position
    (nowPlaying : NowPlaying Db) (width : Nat) (status : String) :
    List.findSome? Line.position?
        (nowPlaying.trackLines ++ nowPlaying.positionLines width ++
          [.plain "", .dim status]) =
      nowPlaying.position := by
  unfold NowPlaying.trackLines NowPlaying.positionLines
  cases nowPlaying.artist <;> cases nowPlaying.album <;>
    cases nowPlaying.position <;> cases nowPlaying.paused <;> rfl

/-- The text of a playing track says what it shows, and nothing else. -/
theorem text_eq_iff
    {now other : NowPlaying Db} {width : Nat} {status : String}
    (paused : now.paused = other.paused) :
    now.trackLines ++ now.positionLines width ++
          [.plain "", .dim status] =
        other.trackLines ++ other.positionLines width ++
          [.plain "", .dim status] ↔
      now.TextAgrees other := by
  constructor
  · intro same
    have position : now.position = other.position := by
      rw [← findSome_position now width status,
        ← findSome_position other width status, same]
    have positionLines :
        now.positionLines width = other.positionLines width := by
      simp only [NowPlaying.positionLines, position, paused]
    rw [List.append_cancel_right_eq, positionLines,
      List.append_cancel_right_eq] at same
    rcases trackLines_inj same with ⟨title, artist, album⟩
    exact ⟨title, artist, album, position⟩
  · rintro ⟨title, artist, album, position⟩
    simp only [NowPlaying.trackLines, NowPlaying.positionLines, title,
      artist, album, position, paused]

/-- A screen that is not live draws no text of the track. -/
theorem lines_of_not_live
    (live : screen.live = false)
    (display : Db → String) (width : Nat) :
    screen.lines display width =
      (screen.honest fresh).lines display width := by
  cases picker : screen.picker with
  | some cursor =>
      simp only [Screen.lines, Screen.honest, picker]
      rfl
  | none =>
      have down : screen.connection ≠ .connected := by
        intro connected
        rw [Screen.live_iff.mpr ⟨connected, picker⟩] at live
        cases live
      simp only [Screen.lines, Screen.honest, picker, if_pos down]

/-- A live screen draws the text of the track during a session. -/
theorem lines_of_live
    (live : screen.live = true)
    (display : Db → String) (width : Nat) :
    screen.lines display width =
      if screen.nowPlaying.session.isNone then
        [.bold screen.nowPlaying.name, .plain "",
          .dim "waiting for a sender…"]
      else
        screen.nowPlaying.trackLines ++
          screen.nowPlaying.positionLines width ++
          [.plain "", .dim (screen.nowPlaying.status display)] := by
  rcases Screen.live_iff.mp live with ⟨connected, picker⟩
  simp [Screen.lines, connected, picker]

/-- Only a live screen with a session shows a track. -/
theorem lines_eq_iff
    (screen : Screen Db) (fresh : NowPlaying Db)
    (display : Db → String) (width : Nat) :
    screen.lines display width =
        (screen.honest fresh).lines display width ↔
      (screen.live = true → screen.nowPlaying.session ≠ none →
        screen.nowPlaying.TextAgrees fresh) := by
  cases live : screen.live with
  | false =>
      apply iff_of_true (lines_of_not_live live display width)
      intro isLive
      cases isLive
  | true =>
      have honestLive : (screen.honest fresh).live = true := live
      have sayable : screen.sayable fresh = fresh := by
        rw [Screen.sayable, if_pos live]
      rw [lines_of_live live, lines_of_live honestLive]
      cases session : screen.nowPlaying.session with
      | none =>
          simp [Screen.honest, NowPlaying.withTrack, session]
      | some playing =>
          have same :=
            @text_eq_iff Db screen.nowPlaying
              (screen.nowPlaying.withTrack fresh) width
              (screen.nowPlaying.status display) rfl
          simp only [Screen.honest, sayable, forall_const,
            Option.isNone_some, Bool.false_eq_true, if_false, ne_eq,
            reduceCtorEq, not_false_eq_true]
          rw [show (screen.nowPlaying.withTrack fresh).session.isNone =
            false by simp [NowPlaying.withTrack, session]]
          exact same

/-- Wanted in a box of one cell is just the artwork. -/
theorem wanted_cell (screen : Screen Db) :
    (ArtworkOnScreen.wanted screen ⟨0, 0, 1, 1⟩).map
        DrawnArtwork.artwork =
      screen.nowPlaying.artwork := by
  unfold ArtworkOnScreen.wanted
  cases screen.nowPlaying.artwork <;> rfl

/-- Whether the screen is drawn as the honest one. -/
theorem honest_iff_agrees
    (screen : Screen Db) (fresh : NowPlaying Db) :
    screen.Honest fresh ↔ screen.Agrees fresh := by
  constructor
  · intro honest
    constructor
    · have frames :=
        honest.render (fun _ => "")
          { areas := fun area _ _ => (area, area), squareWidth := id }
          ⟨0, 0, 0, 0⟩
      exact
        (lines_eq_iff screen fresh (fun _ => "") 0).mp
          (congrArg Frame.text frames)
    · intro draws
      rw [← wanted_cell screen, honest.wanted draws, wanted_cell]
      rfl
  · intro agrees
    constructor
    · intro display solver area
      have lines :=
        (lines_eq_iff screen fresh display area.width).mpr agrees.text
      have box :
          screen.showsArtwork = (screen.honest fresh).showsArtwork := by
        show (_ && screen.images.draws) = (_ && screen.images.draws)
        cases draws : screen.images.draws with
        | false => rw [Bool.and_false, Bool.and_false]
        | true =>
            rw [agrees.artwork draws]
            rfl
      simp only [Screen.render, lines, box]
    · intro draws area
      unfold ArtworkOnScreen.wanted
      rw [agrees.artwork draws]
      rfl

end Drawn

/-! ## Steps -/

/-- The picture a message brings. -/
def Message.picture (decode : String → Option Bytes) :
    Message Db → Option Picture
  | .artwork contentType dataBase64 =>
      decodeArtwork decode contentType dataBase64
  | .snapshot current =>
      current.artwork.bind fun artwork =>
        decodeArtwork decode artwork.contentType artwork.dataBase64
  | _ => none

/-- The message is the start of a session. -/
def Message.startsSession : Message Db → Bool
  | .sessionStarted _ _ _ => true
  | _ => false

/-- What a message leaves of the artwork on display. -/
theorem artwork_applyMessage
    (decode : String → Option Bytes) (nowPlaying : NowPlaying Db)
    (message : Message Db) :
    (nowPlaying.applyMessage decode message).artwork =
        message.picture decode ∨
      (message.picture decode = none ∧
        (nowPlaying.applyMessage decode message).artwork =
          nowPlaying.artwork) := by
  cases message with
  | snapshot snapshot => exact Or.inl rfl
  | artwork contentType dataBase64 => exact Or.inl rfl
  | sessionEnded => exact Or.inl rfl
  | _ => exact Or.inr ⟨rfl, rfl⟩

section Steps

variable
    {screen : Screen Db}
    {fresh : NowPlaying Db}

/-- While it is not live a screen must not have artwork to show. -/
theorem agrees_of_not_live
    (live : screen.live = false) :
    screen.Agrees fresh ↔ screen.Bare := by
  have sayable : (screen.sayable fresh).artwork = none := by
    rw [Screen.sayable, if_neg (by simp [live])]
    rfl
  constructor
  · intro agrees draws
    rw [agrees.artwork draws, sayable]
  · intro bare
    constructor
    · intro isLive
      rw [live] at isLive
      cases isLive
    · intro draws
      rw [bare draws, sayable]

theorem agrees_of_live
    (live : screen.live = true) :
    screen.Agrees fresh ↔
      (screen.nowPlaying.session ≠ none →
        screen.nowPlaying.TextAgrees fresh) ∧
        (screen.images.draws = true →
          screen.nowPlaying.artwork = fresh.artwork) := by
  have sayable : screen.sayable fresh = fresh := by
    rw [Screen.sayable, if_pos live]
  constructor
  · intro agrees
    exact ⟨agrees.text live, fun draws => sayable ▸ agrees.artwork draws⟩
  · rintro ⟨text, artwork⟩
    exact ⟨fun _ => text, fun draws => sayable.symm ▸ artwork draws⟩

variable
    (decode : String → Option Bytes)

/-- On a live screen a message keeps the agreement, but for a start. -/
theorem agrees_message
    (live : screen.live = true)
    (agrees : screen.Agrees fresh)
    {message : Message Db}
    (noStart : message.startsSession = false) :
    (screen.apply decode (.message message)).Agrees
      (fresh.applyMessage decode message) := by
  rw [agrees_of_live live] at agrees
  rcases agrees with ⟨text, artwork⟩
  have nextLive :
      (screen.apply decode (.message message)).live = true := live
  rw [agrees_of_live nextLive]
  cases message with
  | sessionStarted rate channels peer => cases noStart
  | snapshot current =>
      exact ⟨fun _ => ⟨rfl, rfl, rfl, rfl⟩, fun _ => rfl⟩
  | metadata title artist album =>
      refine ⟨?_, artwork⟩
      intro session
      exact ⟨rfl, rfl, rfl, (text session).2.2.2⟩
  | artwork contentType dataBase64 => exact ⟨text, fun _ => rfl⟩
  | progress elapsedMs durationMs =>
      refine ⟨?_, artwork⟩
      intro session
      rcases text session with ⟨title, artist, album, -⟩
      exact ⟨title, artist, album, rfl⟩
  | sessionEnded =>
      exact ⟨fun session => (session rfl).elim, fun _ => rfl⟩
  | volume _ | paused _ | flushed => exact ⟨text, artwork⟩

/-- A start reveals what was held while the screen was idle. -/
theorem agrees_sessionStarted_iff
    (live : screen.live = true)
    (agrees : screen.Agrees fresh)
    {message : Message Db}
    (start : message.startsSession = true) :
    (screen.apply decode (.message message)).Agrees
        (fresh.applyMessage decode message) ↔
      (screen.nowPlaying.session = none →
        screen.nowPlaying.TextAgrees fresh) := by
  rw [agrees_of_live live] at agrees
  rcases agrees with ⟨text, artwork⟩
  have nextLive :
      (screen.apply decode (.message message)).live = true := live
  rw [agrees_of_live nextLive]
  cases message with
  | sessionStarted rate channels peer =>
      constructor
      · rintro ⟨nextText, -⟩ -
        exact nextText (by simp [Screen.apply, NowPlaying.applyMessage])
      · intro held
        refine ⟨?_, artwork⟩
        intro _
        by_cases idle : screen.nowPlaying.session = none
        · exact held idle
        · exact text idle
  | _ => cases start

/-- A message while the screen is not live must not bring a picture. -/
theorem bare_message_iff
    (bare : screen.Bare)
    (message : Message Db) :
    (screen.apply decode (.message message)).Bare ↔
      (screen.images.draws = true → message.picture decode = none) := by
  show (screen.images.draws = true →
      (screen.nowPlaying.applyMessage decode message).artwork = none) ↔ _
  rcases artwork_applyMessage decode screen.nowPlaying message with
    same | ⟨none, same⟩
  · rw [same]
  · rw [same, none]
    simp only [implies_true, iff_true]
    exact bare

/-- What looks neither at the connection nor at the track changes nothing. -/
theorem agrees_of_same
    {next : Screen Db}
    (agrees : screen.Agrees fresh)
    (live : next.live = screen.live)
    (nowPlaying : next.nowPlaying = screen.nowPlaying)
    (images : next.images = screen.images) :
    next.Agrees fresh := by
  constructor
  · rw [live, nowPlaying]
    exact agrees.text
  · rw [images, nowPlaying, Screen.sayable, live]
    exact agrees.artwork

theorem agrees_applyDiscovery
    (discovery : Discovery)
    (agrees : screen.Agrees fresh) :
    (screen.applyDiscovery discovery).Agrees fresh := by
  cases discovery with
  | receivers receivers =>
      refine agrees_of_same agrees ?_ rfl rfl
      simp only [Screen.live, Screen.applyDiscovery, Option.isNone_map]
  | unavailable message => exact agrees_of_same agrees rfl rfl rfl

theorem agrees_pickerMove
    (delta : Int)
    (agrees : screen.Agrees fresh) :
    (screen.pickerMove delta).Agrees fresh := by
  unfold Screen.pickerMove
  split
  · exact agrees
  · next cursor picker =>
      split
      · exact agrees
      · refine agrees_of_same agrees ?_ rfl rfl
        simp only [Screen.live, picker, Option.isNone_some]

theorem agrees_choose
    (agrees : screen.Agrees fresh) :
    screen.choose.1.Agrees fresh := by
  unfold Screen.choose
  split
  · exact agrees
  · next cursor picker =>
      split
      · exact agrees
      · refine agrees_of_same agrees ?_ rfl rfl
        simp [Screen.live, picker]

end Steps

/-! ## Runs -/

/-- What the client and the user do to a screen. -/
inductive Input (Db : Type) where
  | update (update : Update Db)
  | pickerMove (delta : Int)
  | choose
deriving DecidableEq, Repr

/-- A screen, and the messages it was given since the latest connection. -/
structure Viewing (Db : Type) where
  screen : Screen Db
  since : List (Message Db)

namespace Viewing

/-- The screen before the first update, with or without `--discover`. -/
def start (endpoint : String) (images : Graphics) (discover : Bool) :
    Viewing Db where
  screen :=
    if discover then (Screen.new endpoint images).forceDiscovery
    else Screen.new endpoint images
  since := []

/-- The messages since the latest connection, after an update. -/
def received (since : List (Message Db)) :
    Update Db → List (Message Db)
  | .connected _ => []
  | .message message => since ++ [message]
  | _ => since

def step
    (decode : String → Option Bytes) (viewing : Viewing Db) :
    Input Db → Option (Viewing Db)
  | .update update =>
      some
        { screen := viewing.screen.apply decode update
          since := received viewing.since update }
  | .pickerMove delta =>
      some { viewing with screen := viewing.screen.pickerMove delta }
  | .choose => some { viewing with screen := viewing.screen.choose.1 }

/-- What the messages since the latest connection say. -/
def fresh (decode : String → Option Bytes) (viewing : Viewing Db) :
    NowPlaying Db :=
  NowPlaying.blank.applyAll decode viewing.since

/-- The screen shows what these messages say, and nothing when not live. -/
def Honest (decode : String → Option Bytes) (viewing : Viewing Db) :
    Prop :=
  viewing.screen.Honest (viewing.fresh decode)

/--
The connection goes down or the picker comes up with no artwork to draw, and
no message brings any until the screen is live again.  A connection finds no
artwork to draw, and a session only if no text or position of a track is held.
A session that starts on an idle screen finds what the messages since the
connection said of the track.
-/
def Untroubled
    (decode : String → Option Bytes) (viewing : Viewing Db) :
    Input Db → Prop
  | .update (.connected _) =>
      viewing.screen.Bare ∧
        (viewing.screen.nowPlaying.session ≠ none →
          viewing.screen.nowPlaying.TextAgrees .blank)
  | .update .disconnected | .update .unauthorized =>
      viewing.screen.Bare
  | .update .noLocalReceiver =>
      viewing.screen.chosen = false → viewing.screen.Bare
  | .update (.message message) =>
      if viewing.screen.live then
        message.startsSession = true →
          viewing.screen.nowPlaying.session = none →
            viewing.screen.nowPlaying.TextAgrees (viewing.fresh decode)
      else
        viewing.screen.images.draws = true →
          message.picture decode = none
  | .update (.discovery _) | .pickerMove _ | .choose => True

/-- The screen of a terminal, from its start on. -/
def system
    (decode : String → Option Bytes) (endpoint : String)
    (images : Graphics) (discover : Bool) :
    System (Viewing Db) (Input Db) where
  initial := start endpoint images discover
  step := step decode

variable
    {decode : String → Option Bytes}
    {endpoint : String}
    {images : Graphics}
    {discover : Bool}

/-- A screen takes every input. -/
theorem enabled (viewing : Viewing Db) (schedule : List (Input Db)) :
    ∃ final,
      (system decode endpoint images discover).exec viewing schedule =
        some final := by
  induction schedule generalizing viewing with
  | nil => exact ⟨viewing, rfl⟩
  | cons input rest induction =>
      have stepped :
          ∃ next,
            (system decode endpoint images discover).step viewing input =
              some next := by
        cases input <;> exact ⟨_, rfl⟩
      rcases stepped with ⟨next, stepped⟩
      rcases induction next with ⟨final, ran⟩
      refine ⟨final, ?_⟩
      rw [System.exec_cons_iff]
      exact ⟨next, stepped, ran⟩

theorem honest_start :
    (start endpoint images discover : Viewing Db).Honest decode := by
  rw [Honest, honest_iff_agrees]
  have live :
      (start endpoint images discover : Viewing Db).screen.live = false := by
    cases discover <;> rfl
  rw [agrees_of_not_live live]
  intro _
  cases discover <;> rfl

theorem fresh_message
    (viewing : Viewing Db) (message : Message Db) (screen : Screen Db) :
    fresh decode
        { screen := screen, since := viewing.since ++ [message] } =
      (viewing.fresh decode).applyMessage decode message :=
  List.foldl_concat _ _ _ _

/-- An update keeps the screen honest exactly if it finds no such trouble. -/
theorem honest_update_iff
    {viewing : Viewing Db}
    (honest : viewing.Honest decode)
    (update : Update Db) :
    Honest decode
        { screen := viewing.screen.apply decode update
          since := received viewing.since update } ↔
      viewing.Untroubled decode (.update update) := by
  rw [Honest, honest_iff_agrees] at honest ⊢
  cases update with
  | connected endpoint =>
      have live :
          (viewing.screen.apply decode (.connected endpoint)).live =
            true :=
        rfl
      rw [agrees_of_live live, Untroubled]
      exact And.comm
  | disconnected =>
      have live :
          (viewing.screen.apply decode .disconnected).live = false :=
        rfl
      exact agrees_of_not_live live
  | unauthorized =>
      have live :
          (viewing.screen.apply decode .unauthorized).live = false :=
        rfl
      exact agrees_of_not_live live
  | noLocalReceiver =>
      cases chosen : viewing.screen.chosen with
      | true =>
          simp only [Screen.apply, chosen, if_true, Untroubled]
          apply iff_of_true honest
          intro notChosen
          cases notChosen
      | false =>
          have live :
              (viewing.screen.apply decode .noLocalReceiver).live =
                false := by
            simp [Screen.apply, Screen.live, chosen]
          rw [agrees_of_not_live live, Untroubled, chosen]
          simp [Screen.apply, Screen.Bare, chosen]
  | discovery discovery =>
      exact iff_of_true (agrees_applyDiscovery discovery honest) trivial
  | message message =>
      have said :=
        @fresh_message Db decode viewing message
          (viewing.screen.apply decode (.message message))
      rw [received, said, Untroubled]
      cases live : viewing.screen.live with
      | true =>
          rw [if_pos rfl]
          cases start : message.startsSession with
          | true =>
              simpa using
                agrees_sessionStarted_iff decode live honest start
          | false =>
              apply iff_of_true (agrees_message decode live honest start)
              intro starts
              cases starts
      | false =>
          have nextLive :
              (viewing.screen.apply decode (.message message)).live =
                false :=
            live
          rw [agrees_of_not_live live] at honest
          rw [agrees_of_not_live nextLive]
          exact bare_message_iff decode honest message

/-- Of all that is done to an honest screen, these inputs keep it honest. -/
theorem honest_step_iff
    {viewing next : Viewing Db} {input : Input Db}
    (honest : viewing.Honest decode)
    (stepped : viewing.step decode input = some next) :
    next.Honest decode ↔ viewing.Untroubled decode input := by
  cases input with
  | update update =>
      cases stepped
      exact honest_update_iff honest update
  | pickerMove delta =>
      cases stepped
      rw [Honest, honest_iff_agrees] at honest ⊢
      exact iff_of_true (agrees_pickerMove delta honest) trivial
  | choose =>
      cases stepped
      rw [Honest, honest_iff_agrees] at honest ⊢
      exact iff_of_true (agrees_choose honest) trivial

end Viewing

open Viewing

/--
Whatever the client and the user do, the screen shows of track, position and
cover art what the messages since the latest connection say, and nothing while
it is not live, exactly if no step of the run finds anything else in its way.
-/
theorem screen_honest_iff
    (decode : String → Option Bytes) (endpoint : String)
    (images : Graphics) (discover : Bool)
    (schedule : List (Input Db)) :
    (system decode endpoint images discover).Always (Honest decode)
        (Viewing.start endpoint images discover) schedule ↔
      (system decode endpoint images discover).Meets (Untroubled decode)
        (Viewing.start endpoint images discover) schedule := by
  apply
    @System.always_iff_meets _ _ _ (Untroubled decode)
      (fun _ _ => True) (Honest decode) (fun _ => True)
  · intros
    trivial
  · intro viewing input next _ honest _ stepped
    exact honest_step_iff honest stepped
  · exact enabled _ schedule
  · trivial
  · exact honest_start
  · exact System.meets_of_forall_mem (fun _ _ => trivial) _

/--
A receiver is lost while its cover art is shown: the image is still wanted on
the screen that says so.
-/
theorem artwork_outlives_connection :
    ¬ ∀ (decode : String → Option Bytes) (endpoint : String)
        (images : Graphics) (discover : Bool)
        (schedule : List (Input Nat)),
      (system decode endpoint images discover).Always (Honest decode)
        (Viewing.start endpoint images discover) schedule := by
  intro claim
  have lost :=
    claim (fun _ => some [1]) "ws://host:7392" ⟨.kitty, false⟩ false
      [.update (.connected "ws://host:7392"),
        .update (.message (.artwork "image/png" "AQ==")),
        .update .disconnected]
  have honest := ((lost.2 _ rfl).2 _ rfl).2 _ rfl
  simp only [System.Always, Honest, honest_iff_agrees] at honest
  have artwork := honest.artwork rfl
  cases artwork

end OpenAirplay2.Display

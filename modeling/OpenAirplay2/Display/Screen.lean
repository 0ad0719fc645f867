import OpenAirplay2.Display.NowPlaying
import OpenAirplay2.Lib.Str

/-!
# The screen of a display

Around what the messages decide, a screen has a connection, which may be down,
and a picker, which may be up in its place.  The text, the box reserved for
the cover art and the image sent to the terminal are each computed from the
state on their own.

The rows that the layout solver assigns, the width of a square box in cells,
the escape sequences of the terminal and the writing of a volume are
parameters.  How far a progress bar is filled is left in the line as the
position it is drawn from.
-/

namespace OpenAirplay2.Display

open OpenAirplay2.Lib.Str
open OpenAirplay2.Pairing (Bytes)
open OpenAirplay2.Player (Duration)

/-! ## Images -/

/-- Which terminal-graphics protocol to speak, if any. -/
inductive Protocol where
  | kitty
  | iTerm2
  | none
deriving DecidableEq, Repr

/-- What this terminal can draw, and whether tmux is in the way. -/
structure Graphics where
  protocol : Protocol
  tmux : Bool
deriving DecidableEq, Repr

/-- Where an image goes, in cells counted from 1; `wanted_fits` keeps the
numbers of a drawn image below sixteen bits. -/
structure Placement where
  col : Nat
  row : Nat
  cols : Nat
  rows : Nat
deriving DecidableEq, Repr

/-- The escape sequences, wrapped for tmux or not. -/
structure Escapes where
  kittyDraw : String → Bytes → Placement → Bool → Option Bytes
  iterm2Draw : Bytes → Placement → Bool → Bytes
  kittyClear : Bool → Bytes

namespace Graphics

variable (graphics : Graphics)

def draws : Bool :=
  graphics.protocol != .none

/-- The escape sequence that draws an image, if it can be drawn. -/
def draw
    (escapes : Escapes) (contentType : String) (image : Bytes)
    (placement : Placement) : Option Bytes :=
  if placement.cols = 0 || placement.rows = 0 || image.isEmpty then
    none
  else
    match graphics.protocol with
    | .kitty =>
        escapes.kittyDraw contentType image placement graphics.tmux
    | .iTerm2 => some (escapes.iterm2Draw image placement graphics.tmux)
    | .none => none

/-- The escape sequence that removes a drawn image. -/
def clear (escapes : Escapes) : Option Bytes :=
  match graphics.protocol with
  | .kitty => some (escapes.kittyClear graphics.tmux)
  | .iTerm2 | .none => none

end Graphics

/-! ## The state -/

/-- A receiver seen on the network. -/
structure Receiver where
  name : String
  url : String
  password : Bool
deriving DecidableEq, Repr

/-- What browsing reports to the display. -/
inductive Discovery where
  | receivers (receivers : List Receiver)
  | unavailable (message : String)
deriving DecidableEq, Repr

/-- What the client tells the display. -/
inductive Update (Db : Type) where
  | connected (endpoint : String)
  | message (message : Message Db)
  | disconnected
  | unauthorized
  | noLocalReceiver
  | discovery (discovery : Discovery)
deriving DecidableEq, Repr

/-- One way to reach a receiver. -/
inductive Endpoint where
  | url (url : String)
  | socket (path : String)
deriving DecidableEq, Repr

def Endpoint.parse (value : String) : Endpoint :=
  if startsWith value "ws://" || startsWith value "wss://" then
    .url value
  else
    .socket value

/-- Whether the receiver can be seen at all. -/
inductive Connection where
  | connecting
  | connected
  | lost
  | unauthorized
deriving DecidableEq, Repr

/-- Which discovered receiver is highlighted. -/
structure Picker where
  cursor : Nat
deriving DecidableEq, Repr

/-- Everything the screen shows. -/
structure Screen (Db : Type) where
  endpoint : String
  images : Graphics
  connection : Connection
  nowPlaying : NowPlaying Db
  picker : Option Picker
  discovered : List Receiver
  discoveryError : Option String
  chosen : Bool
  forcedDiscovery : Bool
deriving DecidableEq, Repr

namespace NowPlaying

variable {Db : Type}

/-- `NowPlaying::default`, as far as the messages decide it. -/
def blank : NowPlaying Db where
  name := ""
  session := none
  title := none
  artist := none
  album := none
  volumeDb := none
  progress := none
  artwork := none
  paused := false

/-- The position to show: exactly what the receiver last reported. -/
def position (nowPlaying : NowPlaying Db) :
    Option (Duration × Duration) :=
  match nowPlaying.progress with
  | none => none
  | some progress =>
      if progress.duration = 0 then none
      else
        some (min progress.elapsed progress.duration, progress.duration)

end NowPlaying

namespace Screen

variable {Db : Type}

def new (endpoint : String) (images : Graphics) : Screen Db where
  endpoint := endpoint
  images := images
  connection := .connecting
  nowPlaying := .blank
  picker := none
  discovered := []
  discoveryError := none
  chosen := false
  forcedDiscovery := false

variable (screen : Screen Db)

/-- There is artwork and a way to draw it. -/
def showsArtwork : Bool :=
  screen.nowPlaying.artwork.isSome && screen.images.draws

/-- `--discover`: straight to the picker. -/
def forceDiscovery : Screen Db :=
  { screen with
    picker := some { cursor := 0 }
    forcedDiscovery := true }

def applyDiscovery : Discovery → Screen Db
  | .receivers receivers =>
      { screen with
        picker :=
          screen.picker.map fun picker =>
            let position :=
              screen.discovered[picker.cursor]?.bind fun current =>
                receivers.findIdx? fun receiver =>
                  receiver.name == current.name
            { cursor := min (position.getD 0) (receivers.length - 1) }
        discovered := receivers }
  | .unavailable message =>
      { screen with discoveryError := some message }

/-- Fold one client update into the display state. -/
def apply (decode : String → Option Bytes) : Update Db → Screen Db
  | .connected endpoint =>
      { screen with
        connection := .connected
        endpoint := endpoint
        picker := none }
  | .disconnected => { screen with connection := .lost }
  | .unauthorized => { screen with connection := .unauthorized }
  | .message message =>
      { screen with
        nowPlaying := screen.nowPlaying.applyMessage decode message }
  | .noLocalReceiver =>
      if screen.chosen then screen
      else
        { screen with
          picker := some (screen.picker.getD { cursor := 0 }) }
  | .discovery discovery => screen.applyDiscovery discovery

/-- Move the picker highlight, clamped to the list. -/
def pickerMove (delta : Int) : Screen Db :=
  match screen.picker with
  | none => screen
  | some picker =>
      if screen.discovered.isEmpty then screen
      else
        let last : Int := screen.discovered.length - 1
        let cursor := max 0 (min last (picker.cursor + delta))
        { screen with picker := some { cursor := cursor.toNat } }

/-- Enter on the picker: the highlighted receiver becomes the endpoint. -/
def choose : Screen Db × Option Endpoint :=
  match screen.picker with
  | none => (screen, none)
  | some picker =>
      match screen.discovered[picker.cursor]? with
      | none => (screen, none)
      | some receiver =>
          ({ screen with
              endpoint := receiver.url
              connection := .connecting
              chosen := true
              picker := none },
            some (Endpoint.parse receiver.url))

end Screen

/-! ## Text -/

/-- A line of text, or the bar for a position. -/
inductive Line where
  | plain (text : String)
  | bold (text : String)
  | dim (text : String)
  | progressBar (elapsed duration : Duration) (width : Nat)
deriving DecidableEq, Repr

/-- `1:23`, or `1:02:03` once past an hour. -/
def clock (duration : Duration) : String :=
  let secs := duration / 1000000000
  let two (value : Nat) :=
    if value < 10 then "0" ++ toString value else toString value
  if 0 < secs / 3600 then
    toString (secs / 3600) ++ ":" ++ two (secs % 3600 / 60) ++ ":" ++
      two (secs % 60)
  else
    toString (secs % 3600 / 60) ++ ":" ++ two (secs % 60)

/-- Progress bar width: a fraction of the screen, within sane bounds. -/
def barWidth (screen : Nat) : Nat :=
  max 10 (min 40 (screen / 3))

namespace NowPlaying

variable
    {Db : Type}
    (nowPlaying : NowPlaying Db)

/-- Title, artist and album. -/
def trackLines : List Line :=
  .bold (nowPlaying.title.getD "Unknown track") ::
    (nowPlaying.artist.map Line.plain).toList ++
      (nowPlaying.album.map Line.dim).toList

/-- The progress clock, or that playback is paused without one. -/
def positionLines (width : Nat) : List Line :=
  match nowPlaying.position with
  | some (elapsed, duration) =>
      [.plain "", .progressBar elapsed duration (barWidth width),
        .dim
          (clock elapsed ++ " / " ++ clock duration ++
            if nowPlaying.paused then "  ⏸ paused" else "")]
  | none =>
      if nowPlaying.paused then [.plain "", .dim "⏸ paused"] else []

/-- `Living Room · 192.168.1.42 · 44100 Hz 2ch · -12.5 dB` -/
def status (display : Db → String) : String :=
  let session :=
    match nowPlaying.session with
    | some session =>
        [session.peer,
          toString session.rate ++ " Hz " ++ toString session.channels ++
            "ch"]
    | none => []
  let volume :=
    match nowPlaying.volumeDb with
    | some db => [display db ++ " dB"]
    | none => []
  " · ".intercalate (nowPlaying.name :: session ++ volume)

end NowPlaying

namespace Screen

variable
    {Db : Type}
    (screen : Screen Db)

/-- A receiver on offer. -/
def receiverText (receiver : Receiver) : String :=
  let address := (stripPrefix receiver.url "ws://").getD receiver.url
  receiver.name ++ " — " ++ address ++
    if receiver.password then " 🔒" else ""

/-- The picker screen: the discovered receivers, one row each. -/
def pickerLines (picker : Picker) : List Line :=
  let offers :=
    match screen.discoveryError with
    | some error => [.dim "cannot browse the network here", .dim error]
    | none =>
        if screen.discovered.isEmpty then
          [.dim "searching…"]
        else
          screen.discovered.mapIdx (fun index receiver =>
            if index = picker.cursor then
              .bold ("▸ " ++ receiverText receiver)
            else
              .plain (receiverText receiver)) ++
            [.plain "", .dim "↑/↓ choose · enter connects"]
  let framing :=
    if screen.forcedDiscovery then []
    else
      [.plain "",
        .dim
          "no receiver on this machine — a local one still connects on its own"]
  .bold "receivers on the network" :: .plain "" :: offers ++ framing

/-- The centered block of text. -/
def lines (display : Db → String) (width : Nat) : List Line :=
  match screen.picker with
  | some picker => screen.pickerLines picker
  | none =>
      if screen.connection ≠ .connected then
        [.bold screen.endpoint, .plain "",
          .dim
            (match screen.connection with
            | .lost => "connection lost, retrying…"
            | .unauthorized =>
                "the receiver wants a password — start with --password"
            | _ => "connecting…")]
      else if screen.nowPlaying.session.isNone then
        [.bold screen.nowPlaying.name, .plain "",
          .dim "waiting for a sender…"]
      else
        screen.nowPlaying.trackLines ++
          screen.nowPlaying.positionLines width ++
          [.plain "", .dim (screen.nowPlaying.status display)]

end Screen

/-! ## Layout -/

/-- A box of cells, which `Fits` keeps among sixteen-bit numbers. -/
structure Rect where
  x : Nat
  y : Nat
  width : Nat
  height : Nat
deriving DecidableEq, Repr

namespace Rect

/-- The box ends at a sixteen-bit column and row, as every terminal's does. -/
def Fits (area : Rect) : Prop :=
  area.x + area.width < 2 ^ 16 ∧ area.y + area.height < 2 ^ 16

/-- No cell of the box lies outside the other. -/
structure Inside (inner outer : Rect) : Prop where
  left : outer.x ≤ inner.x
  right : inner.x + inner.width ≤ outer.x + outer.width
  top : outer.y ≤ inner.y
  bottom : inner.y + inner.height ≤ outer.y + outer.height

theorem Inside.trans
    {inner middle outer : Rect}
    (first : inner.Inside middle)
    (second : middle.Inside outer) :
    inner.Inside outer where
  left := second.left.trans first.left
  right := first.right.trans second.right
  top := second.top.trans first.top
  bottom := first.bottom.trans second.bottom

theorem Inside.fits
    {inner outer : Rect}
    (inside : inner.Inside outer)
    (fits : outer.Fits) :
    inner.Fits :=
  ⟨inside.right.trans_lt fits.1, inside.bottom.trans_lt fits.2⟩

end Rect

/-- What the layout takes from its library and from the font. -/
structure Solver where
  /-- The two middle rows of `Layout::vertical`, of the given heights. -/
  areas : Rect → Nat → Nat → Rect × Rect
  /-- The width of a square box, in cells, for its height. -/
  squareWidth : Nat → Nat

/-- What the library promises of its rows: both lie inside the area, and the
first has the height asked for where there is room. -/
structure Solver.Lawful (solver : Solver) : Prop where
  inside : ∀ area first second,
    (solver.areas area first second).1.Inside area ∧
      (solver.areas area first second).2.Inside area
  height : ∀ area first second, first + second ≤ area.height →
    (solver.areas area first second).1.height = first

/-- Vertically center a block of the given height, or use all of the area. -/
def centerBlock (area : Rect) (height : Nat) : Rect :=
  if area.height ≤ height then area
  else
    { area with
      y := area.y + (area.height - height) / 2
      height := height }

/-- Split the screen into an (optional) artwork box and the text block. -/
def layout
    (solver : Solver) (area : Rect) (textLines : Nat)
    (withArtwork : Bool) : Rect × Rect :=
  let gap := if withArtwork then 1 else 0
  let artHeight :=
    if withArtwork then
      min (min (area.width / 2) 20) (area.height - (textLines + gap + 2))
    else
      0
  let block := artHeight + gap + textLines
  let (top, text) :=
    solver.areas (centerBlock area block) (artHeight + gap) textLines
  let artWidth := solver.squareWidth artHeight
  ({ x := top.x + (top.width - artWidth) / 2
     y := top.y
     width := min artWidth top.width
     height := artHeight },
    text)

theorem centerBlock_inside (area : Rect) (height : Nat) :
    (centerBlock area height).Inside area := by
  unfold centerBlock
  split
  · exact ⟨le_rfl, le_rfl, le_rfl, le_rfl⟩
  · constructor <;> dsimp only <;> omega

theorem height_centerBlock (area : Rect) (height : Nat) :
    (centerBlock area height).height = min height area.height := by
  unfold centerBlock
  split
  · next short => exact (Nat.min_eq_right short).symm
  · next tall => exact (Nat.min_eq_left (Nat.le_of_not_le tall)).symm

/-- A box in the middle of a row stays in the row. -/
theorem inside_row
    {row : Rect} {height : Nat}
    (low : height ≤ row.height)
    (width : Nat) :
    Rect.Inside
      { x := row.x + (row.width - width) / 2
        y := row.y
        width := min width row.width
        height := height }
      row := by
  constructor <;> dsimp only <;> omega

/-- Neither block of the layout leaves the screen, so no sum of a column or a
row with a size passes sixteen bits on a screen that fits. -/
theorem layout_inside
    {solver : Solver}
    (lawful : solver.Lawful)
    (area : Rect)
    (textLines : Nat)
    (withArtwork : Bool) :
    (layout solver area textLines withArtwork).1.Inside area ∧
      (layout solver area textLines withArtwork).2.Inside area := by
  simp only [layout]
  generalize (if withArtwork = true then 1 else 0) = gap
  generalize art :
    (if withArtwork = true then
      min (min (area.width / 2) 20) (area.height - (textLines + gap + 2))
    else
      0) = artHeight
  have centered := centerBlock_inside area (artHeight + gap + textLines)
  have rows :=
    lawful.inside (centerBlock area (artHeight + gap + textLines))
      (artHeight + gap) textLines
  -- A box of some height leaves room for the text and both blank rows.
  have low : artHeight ≤
      (solver.areas (centerBlock area (artHeight + gap + textLines))
        (artHeight + gap) textLines).1.height := by
    rcases Nat.eq_zero_or_pos artHeight with none | some
    · omega
    · have room : artHeight + gap + textLines ≤ area.height := by
        split at art <;> omega
      rw [lawful.height _ _ _ (by rw [height_centerBlock]; omega)]
      omega
  exact ⟨(inside_row low _).trans (rows.1.trans centered),
    rows.2.trans centered⟩

/-- A drawn frame: the text and its place, and the box for the image. -/
structure Frame where
  text : List Line
  textArea : Rect
  artworkArea : Rect
deriving DecidableEq, Repr

/-- Draw the whole screen. -/
def Screen.render
    {Db : Type} (display : Db → String) (solver : Solver)
    (area : Rect) (screen : Screen Db) : Frame :=
  let lines := screen.lines display area.width
  let (artworkArea, textArea) :=
    layout solver area lines.length screen.showsArtwork
  { text := lines, textArea := textArea, artworkArea := artworkArea }

/-! ## The image on the terminal -/

/-- An image, and where it is. -/
structure DrawnArtwork where
  artwork : Picture
  area : Rect
deriving DecidableEq, Repr

/-- The artwork as the terminal currently has it. -/
structure ArtworkOnScreen where
  images : Graphics
  drawn : Option DrawnArtwork
  focused : Bool
deriving DecidableEq, Repr

namespace ArtworkOnScreen

variable {Db : Type}

/-- What `sync` wants on screen. -/
def wanted (screen : Screen Db) (area : Rect) : Option DrawnArtwork :=
  match screen.nowPlaying.artwork with
  | none => none
  | some artwork =>
      if 0 < area.width && 0 < area.height then
        some { artwork := artwork, area := area }
      else
        none

/-- On a screen that fits, the image's cells can be counted from 1. -/
theorem wanted_fits
    {screen : Screen Db} {area : Rect} {image : DrawnArtwork}
    (wants : wanted screen area = some image)
    (fits : area.Fits) :
    image.area.x + 1 < 2 ^ 16 ∧ image.area.y + 1 < 2 ^ 16 ∧
      image.area.width < 2 ^ 16 ∧ image.area.height < 2 ^ 16 := by
  unfold wanted at wants
  split at wants
  · contradiction
  · split at wants
    · next cells =>
        simp only [Bool.and_eq_true, decide_eq_true_eq] at cells
        cases wants
        have wide := fits.1
        have high := fits.2
        dsimp only
        omega
    · contradiction

/-- Send (or remove) the artwork escape; what is written comes second. -/
def sync
    (escapes : Escapes) (onScreen : ArtworkOnScreen)
    (screen : Screen Db) (area : Rect) : ArtworkOnScreen × Bytes :=
  if !onScreen.images.draws || !onScreen.focused then
    (onScreen, [])
  else if wanted screen area = onScreen.drawn then
    (onScreen, [])
  else
    let cleared :=
      if onScreen.drawn.isSome then
        (onScreen.images.clear escapes).getD []
      else
        []
    match wanted screen area with
    | none => ({ onScreen with drawn := none }, cleared)
    | some image =>
        let placement : Placement :=
          { col := image.area.x + 1
            row := image.area.y + 1
            cols := image.area.width
            rows := image.area.height }
        match
          onScreen.images.draw escapes image.artwork.contentType
            image.artwork.data placement with
        | some escape =>
            ({ onScreen with drawn := some image }, cleared ++ escape)
        | none => ({ onScreen with drawn := none }, cleared)

def new (images : Graphics) : ArtworkOnScreen where
  images := images
  drawn := none
  focused := true

/-- The pane stopped being the visible one; what is written comes second. -/
def focusLost
    (escapes : Escapes) (onScreen : ArtworkOnScreen) :
    ArtworkOnScreen × Bytes :=
  ({ onScreen with focused := false, drawn := none },
    if onScreen.drawn.isNone then []
    else (onScreen.images.clear escapes).getD [])

/-- Being looked at again; the next redraw transmits. -/
def focusGained (onScreen : ArtworkOnScreen) : ArtworkOnScreen :=
  { onScreen with focused := true }

/-- On a terminal that is looked at, an image stays only if it is wanted. -/
theorem drawn_sync
    (escapes : Escapes) {onScreen : ArtworkOnScreen}
    (visible : onScreen.images.draws = true ∧ onScreen.focused = true)
    (screen : Screen Db) (area : Rect) :
    (onScreen.sync escapes screen area).1.drawn = none ∨
      (onScreen.sync escapes screen area).1.drawn =
        wanted screen area := by
  simp only [sync, visible, Bool.not_true, Bool.or_self,
    Bool.false_eq_true, if_false]
  split
  · next same => exact Or.inr same.symm
  · split
    · exact Or.inl rfl
    · next image wants =>
        split
        · exact Or.inr wants.symm
        · exact Or.inl rfl

end ArtworkOnScreen

end OpenAirplay2.Display

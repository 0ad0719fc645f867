import OpenAirplay2.Display.Arrival

/-!
# The image on the terminal

The display keeps a record of what it has drawn and writes only where that
differs from what it wants, so the record has to be right.  It is: whatever
the display is told, in whatever order, the terminal shows the image that is
on record and no other.
-/

namespace OpenAirplay2.Display.Images

open OpenAirplay2.Control (chunks)
open OpenAirplay2.Lib
open OpenAirplay2.Lib.Str
open OpenAirplay2.Pairing (Bytes)

/-! ## What is written, and what is seen -/

/-- What reaches the terminal of what is written. -/
def Seen : Bool → Bytes → Bytes → Prop
  | true, written, plain => tmuxEnvelope.Reads written plain
  | false, written, plain => written = plain

namespace Seen

variable {tmux : Bool}

theorem nil : Seen tmux [] [] := by
  cases tmux with
  | true => exact Envelope.Reads.nil
  | false => rfl

theorem append
    {first second plainFirst plainSecond : Bytes}
    (seenFirst : Seen tmux first plainFirst)
    (seenSecond : Seen tmux second plainSecond) :
    Seen tmux (first ++ second) (plainFirst ++ plainSecond) := by
  cases tmux with
  | true => exact Envelope.Reads.append seenFirst seenSecond
  | false => exact congrArg₂ (· ++ ·) seenFirst seenSecond

theorem clear : Seen tmux (kittyClear tmux) (kittyClear false) := by
  cases tmux with
  | true => exact reads_escape _
  | false => rfl

theorem drawing
    (format : String) (placement : Placement) (pieces : List Bytes) :
    Seen tmux
      (cursorTo placement ++ kittyUnits format placement tmux true pieces)
      (cursorTo placement ++
        kittyUnits format placement false true pieces) := by
  cases tmux with
  | true =>
      exact
        (reads_cursorTo placement).append
          (reads_kittyUnits format placement true pieces)
  | false => rfl

end Seen

/-- The artwork is the only image there can be. -/
def artworkOnly (picture : Option PlacedImage) : Nat → Option PlacedImage :=
  fun id => if id = artworkId then picture else none

theorem update_artworkOnly (before after : Option PlacedImage) :
    Function.update (artworkOnly before) artworkId after =
      artworkOnly after := by
  funext id
  by_cases same : id = artworkId
  · rw [same, Function.update_self]
    exact (if_pos rfl).symm
  · rw [Function.update_of_ne same]
    exact (if_neg same).trans (if_neg same).symm

/-- Nothing is under way, and the terminal shows this and no other image. -/
structure Terminal.Shows
    (terminal : Terminal)
    (picture : Option PlacedImage) : Prop where
  ready : terminal.scan = .ground
  idle : terminal.pending = none
  images : terminal.images = artworkOnly picture

/-- What is written turns one image on the terminal into another. -/
def Turns
    (tmux : Bool) (written : Bytes) (before after : Option PlacedImage) :
    Prop :=
  ∃ plain,
    Seen tmux written plain ∧
      ∀ terminal : Terminal, terminal.Shows before →
        (terminal.receive plain).Shows after

namespace Turns

variable {tmux : Bool}

theorem refl (picture : Option PlacedImage) :
    Turns tmux [] picture picture :=
  ⟨[], .nil, fun _ shows => shows⟩

theorem trans
    {first second : Bytes} {before middle after : Option PlacedImage}
    (turnsFirst : Turns tmux first before middle)
    (turnsSecond : Turns tmux second middle after) :
    Turns tmux (first ++ second) before after := by
  rcases turnsFirst with ⟨plainFirst, seenFirst, showsFirst⟩
  rcases turnsSecond with ⟨plainSecond, seenSecond, showsSecond⟩
  refine ⟨_, seenFirst.append seenSecond, ?_⟩
  intro terminal shows
  rw [Terminal.receive_append]
  exact showsSecond _ (showsFirst terminal shows)

theorem clear (before : Option PlacedImage) :
    Turns tmux (kittyClear tmux) before none := by
  refine ⟨_, Seen.clear, ?_⟩
  intro terminal shows
  rw [receive_clear shows.ready shows.idle]
  exact
    ⟨shows.ready, shows.idle, by rw [shows.images, update_artworkOnly]⟩

theorem drawing
    {jpeg : JpegDecoder} {contentType format : String}
    {image payload : Bytes}
    (usable :
      formatted jpeg contentType image = some (format, payload))
    (nonempty : payload ≠ [])
    (placement : Placement)
    (before : Option PlacedImage) :
    Turns tmux
      (cursorTo placement ++
        kittyUnits format placement tmux true
          (chunks chunkMax (Base64.encode payload).length
            (Base64.encode payload)))
      before (pictureOf jpeg contentType image placement) := by
  refine ⟨_, Seen.drawing format placement _, ?_⟩
  intro terminal shows
  rw [receive_drawing usable nonempty shows.ready shows.idle]
  exact
    ⟨shows.ready, shows.idle, by
      show Function.update terminal.images _ _ = _
      rw [shows.images, update_artworkOnly]⟩

end Turns

/-! ## Drawing an artwork -/

/-- Where an artwork is drawn: escape sequences count from 1. -/
def placementOf (drawn : DrawnArtwork) : Placement where
  col := drawn.area.x + 1
  row := drawn.area.y + 1
  cols := drawn.area.width
  rows := drawn.area.height

/-- What an artwork looks like on the terminal, if it can be drawn. -/
def picture (jpeg : JpegDecoder) (drawn : DrawnArtwork) : Option PlacedImage :=
  if drawn.artwork.data.isEmpty then none
  else
    pictureOf jpeg drawn.artwork.contentType drawn.artwork.data
      (placementOf drawn)

/-- The artwork that is wanted and can be drawn. -/
def drawable (jpeg : JpegDecoder) (wanted : Option DrawnArtwork) :
    Option DrawnArtwork :=
  wanted.filter fun drawn => (picture jpeg drawn).isSome

section Artwork

variable {jpeg : JpegDecoder}

theorem payload_ne_nil
    (sound : jpeg.Sound)
    {contentType format : String} {image payload : Bytes}
    (someImage : image ≠ [])
    (usable :
      formatted jpeg contentType image = some (format, payload)) :
    payload ≠ [] := by
  rcases formatted_cases usable with
    ⟨png, rfl⟩ | ⟨other, rgb, decoded, rfl⟩
  · exact someImage
  · unfold decodeJpeg at decoded
    simp only [Option.bind_eq_bind, Option.bind_eq_some_iff] at decoded
    rcases decoded with ⟨pixels, found, info, _, laidOut⟩
    have somePixels := sound image pixels found
    cases pixels with
    | nil => exact absurd rfl somePixels
    | cons level rest =>
        split at laidOut
        · cases laidOut
          exact List.cons_ne_nil _ _
        · cases laidOut
          exact List.cons_ne_nil _ _
        · cases laidOut
        · cases laidOut

theorem pictureOf_eq_none_iff
    {contentType : String} {image : Bytes} {placement : Placement} :
    pictureOf jpeg contentType image placement = none ↔
      formatted jpeg contentType image = none := by
  unfold pictureOf formatted
  split
  · simp
  · cases decodeJpeg jpeg image <;> simp

/-- An artwork is drawn if it can be, and then it is what is seen. -/
theorem draw_cases
    (sound : jpeg.Sound)
    (tmux : Bool)
    {drawn : DrawnArtwork}
    (wide : drawn.area.width ≠ 0)
    (high : drawn.area.height ≠ 0) :
    (Graphics.draw ⟨.kitty, tmux⟩ (escapes jpeg)
            drawn.artwork.contentType drawn.artwork.data
            (placementOf drawn) = none ∧
        picture jpeg drawn = none) ∨
      ∃ written,
        Graphics.draw ⟨.kitty, tmux⟩ (escapes jpeg)
            drawn.artwork.contentType drawn.artwork.data
            (placementOf drawn) = some written ∧
          (picture jpeg drawn).isSome ∧
            ∀ before, Turns tmux written before (picture jpeg drawn) := by
  unfold Graphics.draw picture
  have box :
      ((placementOf drawn).cols = 0 || (placementOf drawn).rows = 0 ||
          drawn.artwork.data.isEmpty) =
        drawn.artwork.data.isEmpty := by
    simp [placementOf, wide, high]
  rw [box]
  cases empty : drawn.artwork.data.isEmpty with
  | true => exact Or.inl ⟨rfl, rfl⟩
  | false =>
      simp only [Bool.false_eq_true, if_false]
      have someImage : drawn.artwork.data ≠ [] := by
        intro none
        rw [none] at empty
        cases empty
      cases usable :
          formatted jpeg drawn.artwork.contentType drawn.artwork.data with
      | none =>
          refine Or.inl ⟨?_, pictureOf_eq_none_iff.mpr usable⟩
          show kittyDraw jpeg _ _ _ tmux = none
          rw [kittyDraw, usable]
          rfl
      | some result =>
          refine Or.inr ⟨_, ?_, ?_, fun before =>
            Turns.drawing usable (payload_ne_nil sound someImage usable)
              (placementOf drawn) before⟩
          · show kittyDraw jpeg _ _ _ tmux = _
            rw [kittyDraw, usable]
            rfl
          · rw [Option.isSome_iff_ne_none, ne_eq, pictureOf_eq_none_iff,
              usable]
            exact Option.some_ne_none _

end Artwork

/-! ## One call -/

/-- What the record says is on the terminal. -/
def shown (jpeg : JpegDecoder) (drawn : Option DrawnArtwork) :
    Option PlacedImage :=
  drawn.bind (picture jpeg)

/-- The record is of something that could be drawn. -/
def Drawable (jpeg : JpegDecoder) (drawn : Option DrawnArtwork) : Prop :=
  drawable jpeg drawn = drawn

theorem shown_drawable (jpeg : JpegDecoder) (wanted : Option DrawnArtwork) :
    shown jpeg (drawable jpeg wanted) = shown jpeg wanted := by
  cases wanted with
  | none => rfl
  | some drawn =>
      cases seen : picture jpeg drawn with
      | none => simp [shown, drawable, Option.filter, seen]
      | some _ => simp [shown, drawable, Option.filter, seen]

theorem drawable_drawable
    (jpeg : JpegDecoder) (wanted : Option DrawnArtwork) :
    Drawable jpeg (drawable jpeg wanted) := by
  cases wanted with
  | none => rfl
  | some drawn =>
      cases seen : picture jpeg drawn with
      | none => simp [Drawable, drawable, Option.filter, seen]
      | some _ => simp [Drawable, drawable, Option.filter, seen]

section Sync

variable
    {Db : Type}
    {jpeg : JpegDecoder}
    {tmux : Bool}
    {onScreen : ArtworkOnScreen}

theorem area_of_wanted
    {screen : Screen Db} {area : Rect} {drawn : DrawnArtwork}
    (wants : ArtworkOnScreen.wanted screen area = some drawn) :
    drawn.area.width ≠ 0 ∧ drawn.area.height ≠ 0 := by
  unfold ArtworkOnScreen.wanted at wants
  split at wants
  · cases wants
  · split at wants
    · next inside =>
        cases wants
        rw [Bool.and_eq_true, decide_eq_true_eq,
          decide_eq_true_eq] at inside
        exact ⟨inside.1.ne', inside.2.ne'⟩
    · cases wants

/-- What was drawn is deleted, if anything was. -/
theorem turns_cleared
    (kitty : onScreen.images = ⟨.kitty, tmux⟩) :
    Turns tmux
      (if onScreen.drawn.isSome then
        (onScreen.images.clear (escapes jpeg)).getD []
      else
        [])
      (shown jpeg onScreen.drawn) none := by
  cases drawn : onScreen.drawn with
  | none => exact .refl none
  | some _ =>
      rw [kitty]
      exact .clear _

theorem looked_at
    (kitty : onScreen.images = ⟨.kitty, tmux⟩)
    (focused : onScreen.focused = true) :
    (!onScreen.images.draws || !onScreen.focused) = false := by
  rw [kitty, focused]
  rfl

/-- What a redraw leaves on record is what was wanted and can be drawn. -/
theorem sync_spec
    (sound : jpeg.Sound)
    (kitty : onScreen.images = ⟨.kitty, tmux⟩)
    (focused : onScreen.focused = true)
    (recorded : Drawable jpeg onScreen.drawn)
    (screen : Screen Db)
    (area : Rect) :
    (onScreen.sync (escapes jpeg) screen area).1 =
        { onScreen with
          drawn :=
            drawable jpeg (ArtworkOnScreen.wanted screen area) } ∧
      Turns tmux (onScreen.sync (escapes jpeg) screen area).2
        (shown jpeg onScreen.drawn)
        (shown jpeg (ArtworkOnScreen.wanted screen area)) := by
  have looked := looked_at kitty focused
  unfold ArtworkOnScreen.sync
  simp only [looked, Bool.false_eq_true, if_false]
  split
  · next same =>
      rw [same, recorded]
      exact ⟨rfl, .refl _⟩
  · split
    · next wants =>
        rw [wants]
        exact ⟨rfl, turns_cleared kitty⟩
    · next image wants =>
        have box := area_of_wanted wants
        rw [wants]
        rcases draw_cases sound tmux box.1 box.2 with
          ⟨failed, unseen⟩ | ⟨written, drew, seen, turns⟩
        · rw [← kitty] at failed
          have nothing : drawable jpeg (some image) = none := by
            simp [drawable, Option.filter, unseen]
          have hidden : shown jpeg (some image) = none := unseen
          simp only [placementOf] at failed
          rw [nothing, hidden, failed]
          exact ⟨rfl, turns_cleared kitty⟩
        · rw [← kitty] at drew
          have stays : drawable jpeg (some image) = some image := by
            simp [drawable, Option.filter, seen]
          simp only [placementOf] at drew
          rw [stays, drew]
          exact ⟨rfl, (turns_cleared kitty).trans (turns none)⟩

/-- Once that is on record, the same redraw writes nothing. -/
theorem sync_again
    (sound : jpeg.Sound)
    (kitty : onScreen.images = ⟨.kitty, tmux⟩)
    (focused : onScreen.focused = true)
    {screen : Screen Db} {area : Rect}
    (recorded :
      onScreen.drawn =
        drawable jpeg (ArtworkOnScreen.wanted screen area)) :
    onScreen.sync (escapes jpeg) screen area = (onScreen, []) := by
  have looked := looked_at kitty focused
  unfold ArtworkOnScreen.sync
  simp only [looked, Bool.false_eq_true, if_false]
  split
  · rfl
  · next differs =>
      cases wants : ArtworkOnScreen.wanted screen area with
      | none =>
          rw [wants] at recorded differs
          exact absurd recorded.symm differs
      | some image =>
          have box := area_of_wanted wants
          rw [wants] at recorded differs
          rcases draw_cases sound tmux box.1 box.2 with
            ⟨failed, unseen⟩ | ⟨written, drew, seen, turns⟩
          · have nothing : onScreen.drawn = none := by
              rw [recorded]
              simp [drawable, Option.filter, unseen]
            rw [← kitty] at failed
            simp only [placementOf] at failed
            simp only [failed, nothing, Option.isSome_none,
              Bool.false_eq_true, if_false]
            rw [← nothing]
          · have stays : onScreen.drawn = some image := by
              rw [recorded]
              simp [drawable, Option.filter, seen]
            exact absurd stays.symm differs

end Sync

/-! ## Any number of calls -/

/-- What the display is told about the screen. -/
inductive Call (Db : Type) where
  | sync (screen : Screen Db) (area : Rect)
  | focusLost
  | focusGained

/-- The record, and everything that has been written. -/
structure Wire where
  onScreen : ArtworkOnScreen
  written : Bytes
deriving DecidableEq, Repr

namespace Wire

variable {Db : Type}

/-- A display on a terminal that speaks the Kitty protocol. -/
def start (tmux : Bool) : Wire where
  onScreen := .new ⟨.kitty, tmux⟩
  written := []

def call (jpeg : JpegDecoder) (wire : Wire) : Call Db → Wire
  | .sync screen area =>
      let synced := wire.onScreen.sync (escapes jpeg) screen area
      ⟨synced.1, wire.written ++ synced.2⟩
  | .focusLost =>
      let lost := wire.onScreen.focusLost (escapes jpeg)
      ⟨lost.1, wire.written ++ lost.2⟩
  | .focusGained => ⟨wire.onScreen.focusGained, wire.written⟩

def run (jpeg : JpegDecoder) (wire : Wire) (calls : List (Call Db)) :
    Wire :=
  calls.foldl (call jpeg) wire

/--
The images on the terminal that has read everything, from behind tmux if the
display is inside one.
-/
def images (wire : Wire) : Option (Nat → Option PlacedImage) :=
  let plain :=
    if wire.onScreen.images.tmux then unwrapPassthrough wire.written
    else some wire.written
  plain.map fun bytes => (Terminal.fresh.receive bytes).images

/-- The record is in step with the terminal. -/
structure InStep (jpeg : JpegDecoder) (tmux : Bool) (wire : Wire) :
    Prop where
  kitty : wire.onScreen.images = ⟨.kitty, tmux⟩
  recorded : Drawable jpeg wire.onScreen.drawn
  hidden : wire.onScreen.focused = false → wire.onScreen.drawn = none
  turns : Turns tmux wire.written none (shown jpeg wire.onScreen.drawn)

section Run

variable
    {jpeg : JpegDecoder}
    {tmux : Bool}
    {wire : Wire}

theorem inStep_start : InStep jpeg tmux (start tmux) where
  kitty := rfl
  recorded := rfl
  hidden := fun _ => rfl
  turns := .refl none

/-- Where nobody looks, a redraw writes nothing. -/
theorem call_sync_unfocused
    (unfocused : wire.onScreen.focused = false)
    (screen : Screen Db)
    (area : Rect) :
    wire.call jpeg (.sync screen area) = wire := by
  have quiet :
      wire.onScreen.sync (escapes jpeg) screen area =
        (wire.onScreen, []) := by
    rw [ArtworkOnScreen.sync, unfocused, Bool.not_false, Bool.or_true,
      if_pos rfl]
  rw [Wire.call, quiet, List.append_nil]

theorem InStep.sync
    (sound : jpeg.Sound)
    (inStep : InStep jpeg tmux wire)
    (focused : wire.onScreen.focused = true)
    (screen : Screen Db)
    (area : Rect) :
    InStep jpeg tmux (wire.call jpeg (.sync screen area)) ∧
      (wire.call jpeg (.sync screen area)).onScreen =
        { wire.onScreen with
          drawn :=
            drawable jpeg (ArtworkOnScreen.wanted screen area) } := by
  have synced :=
    sync_spec sound inStep.kitty focused inStep.recorded screen area
  refine ⟨?_, synced.1⟩
  constructor
  case kitty =>
    rw [Wire.call, synced.1]
    exact inStep.kitty
  case recorded =>
    rw [Wire.call, synced.1]
    exact drawable_drawable _ _
  case hidden =>
    rw [Wire.call, synced.1]
    intro unfocused
    rw [show wire.onScreen.focused = false from unfocused] at focused
    cases focused
  case turns =>
    rw [Wire.call, synced.1]
    show Turns tmux _ none (shown jpeg (drawable jpeg _))
    rw [shown_drawable]
    exact inStep.turns.trans synced.2

theorem InStep.focusLost (inStep : InStep jpeg tmux wire) :
    InStep jpeg tmux (wire.call jpeg (Call.focusLost : Call Db)) where
  kitty := inStep.kitty
  recorded := rfl
  hidden := fun _ => rfl
  turns := by
    refine inStep.turns.trans ?_
    show Turns tmux (if wire.onScreen.drawn.isNone then _ else _) _ none
    cases wire.onScreen.drawn with
    | none => exact .refl none
    | some _ =>
        rw [inStep.kitty]
        exact .clear _

theorem InStep.focusGained (inStep : InStep jpeg tmux wire) :
    InStep jpeg tmux (wire.call jpeg (Call.focusGained : Call Db)) where
  kitty := inStep.kitty
  recorded := inStep.recorded
  hidden := by
    intro unfocused
    cases unfocused
  turns := inStep.turns

theorem InStep.call
    (sound : jpeg.Sound)
    (inStep : InStep jpeg tmux wire)
    (call : Call Db) :
    InStep jpeg tmux (wire.call jpeg call) := by
  cases call with
  | sync screen area =>
      cases focused : wire.onScreen.focused with
      | false =>
          rw [call_sync_unfocused focused]
          exact inStep
      | true => exact (inStep.sync sound focused screen area).1
  | focusLost => exact inStep.focusLost
  | focusGained => exact inStep.focusGained

theorem InStep.run
    (sound : jpeg.Sound)
    (inStep : InStep jpeg tmux wire)
    (calls : List (Call Db)) :
    InStep jpeg tmux (wire.run jpeg calls) := by
  induction calls generalizing wire with
  | nil => exact inStep
  | cons call rest induction => exact induction (inStep.call sound call)

/-- The terminal shows the image on record and no other. -/
theorem InStep.images (inStep : InStep jpeg tmux wire) :
    wire.images =
      some (artworkOnly (shown jpeg wire.onScreen.drawn)) := by
  rcases inStep.turns with ⟨plain, seen, shows⟩
  have fresh : Terminal.fresh.Shows none :=
    ⟨rfl, rfl, funext fun _ => (ite_self none).symm⟩
  have after := (shows Terminal.fresh fresh).images
  have reached :
      (if wire.onScreen.images.tmux then unwrapPassthrough wire.written
        else some wire.written) = some plain := by
    rw [inStep.kitty]
    cases tmux with
    | true => exact Envelope.Reads.unwrap seen
    | false => exact congrArg some seen
  rw [Wire.images, reached, ← after]
  rfl

end Run

end Wire

/-- The terminal shows what is on record, and that is what should be seen. -/
structure Faithful (Db : Type) (jpeg : JpegDecoder) (wire : Wire) : Prop
    where
  images :
    wire.images = some (artworkOnly (shown jpeg wire.onScreen.drawn))
  /-- Only what can be drawn is on record. -/
  recorded :
    ∀ drawn, wire.onScreen.drawn = some drawn →
      (picture jpeg drawn).isSome
  /-- A redraw leaves the wanted artwork, or nothing if it is not drawable. -/
  redrawn :
    wire.onScreen.focused = true →
      ∀ (screen : Screen Db) (area : Rect),
        (wire.call jpeg (.sync screen area)).images =
          some
            (artworkOnly
              (shown jpeg (ArtworkOnScreen.wanted screen area)))
  /-- The same redraw again writes nothing. -/
  settled :
    wire.onScreen.focused = true →
      ∀ (screen : Screen Db) (area : Rect),
        (wire.call jpeg (.sync screen area)).call jpeg
            (.sync screen area) =
          wire.call jpeg (.sync screen area)
  /-- Where nobody looks there is no image, and none is drawn. -/
  hidden :
    wire.onScreen.focused = false →
      wire.images = some (artworkOnly none) ∧
        ∀ (screen : Screen Db) (area : Rect),
          wire.call jpeg (.sync screen area) = wire

/-- Whatever the display is told, what it has on record is on the terminal. -/
theorem terminal_shows_record
    {Db : Type}
    (jpeg : JpegDecoder)
    (sound : jpeg.Sound)
    (tmux : Bool)
    (calls : List (Call Db)) :
    Faithful Db jpeg ((Wire.start tmux).run jpeg calls) := by
  have start : Wire.InStep jpeg tmux (Wire.start tmux) :=
    Wire.inStep_start
  have inStep := start.run sound calls
  generalize (Wire.start tmux).run jpeg calls = wire at inStep
  constructor
  case images => exact inStep.images
  case recorded =>
    intro drawn isDrawn
    have recorded := inStep.recorded
    rw [isDrawn] at recorded
    exact Option.filter_eq_some_iff.mp recorded |>.2
  case redrawn =>
    intro focused screen area
    have synced := inStep.sync sound focused screen area
    rw [synced.1.images, synced.2]
    show some (artworkOnly (shown jpeg (drawable jpeg _))) = _
    rw [shown_drawable]
  case settled =>
    intro focused screen area
    have synced := inStep.sync sound focused screen area
    generalize next : wire.call jpeg (.sync screen area) = redrawn at synced
    have again :
        redrawn.onScreen.sync (escapes jpeg) screen area =
          (redrawn.onScreen, []) := by
      apply sync_again sound synced.1.kitty
      · rw [synced.2]
        exact focused
      · rw [synced.2]
    rw [Wire.call, again, List.append_nil]
  case hidden =>
    intro unfocused
    refine ⟨?_, fun screen area =>
      Wire.call_sync_unfocused unfocused screen area⟩
    rw [inStep.images, inStep.hidden unfocused]
    rfl

/-- The bytes of a PNG of eight by eight pixels. -/
def tinyPng : Bytes :=
  [0x89, 0x50, 0x4e, 0x47, 0xd, 0xa, 0x1a, 0xa, 0x0, 0x0, 0x0, 0xd, 0x49,
    0x48, 0x44, 0x52, 0x0, 0x0, 0x0, 0x8, 0x0, 0x0, 0x0, 0x8, 0x8, 0x2, 0x0,
    0x0, 0x0, 0x4b, 0x6d, 0x29, 0xdc, 0x0, 0x0, 0x0, 0x19, 0x49, 0x44, 0x41,
    0x54, 0x78, 0x9c, 0x63, 0x64, 0x60, 0x68, 0x50, 0x60, 0x60, 0xc0, 0x44,
    0x2c, 0xc, 0xa, 0xc, 0x58, 0xc1, 0xe0, 0x94, 0x0, 0x0, 0x68, 0x6f, 0x2,
    0x5e, 0xe0, 0x9d, 0xcb, 0x72, 0x0, 0x0, 0x0, 0x0, 0x49, 0x45, 0x4e,
    0x44, 0xae, 0x42, 0x60, 0x82]

/-- A decoder that is given no JPEG, and so decodes nothing. -/
def refusing : JpegDecoder where
  decode := fun _ => none
  info := fun _ => none

/-- A screen with an artwork. -/
def artworkScreen (contentType : String) (image : Bytes) : Screen Nat :=
  { (Screen.new "" ⟨.kitty, true⟩ : Screen Nat) with
    nowPlaying :=
      { NowPlaying.blank with artwork := some ⟨contentType, image⟩ } }

/--
The image is drawn under tmux, left behind and come back to; then comes one
that claims to be a JPEG and cannot be decoded.
-/
theorem terminal_shows_record_tiny :
    Faithful Nat refusing
      ((Wire.start true).run refusing
        [.sync (artworkScreen "image/png" tinyPng) ⟨2, 1, 10, 5⟩,
          .focusLost, .focusGained,
          .sync
            (artworkScreen "image/jpeg"
              (asciiBytes "pretend jpeg"))
            ⟨2, 1, 10, 5⟩]) := by
  apply terminal_shows_record
  intro image pixels found
  cases found

end OpenAirplay2.Display.Images

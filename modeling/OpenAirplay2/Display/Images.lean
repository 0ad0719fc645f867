import OpenAirplay2.Control.Blocks
import OpenAirplay2.Display.Screen
import OpenAirplay2.Lib.Base64
import OpenAirplay2.Lib.Envelope

/-!
# The escape sequences of an image

A terminal that speaks the Kitty protocol gets a PNG as it is and anything
else decoded to pixels, as Base64 in chunks with an escape sequence each.  One
that speaks the protocol of iTerm2 gets the file in a single sequence.  Under
tmux every sequence goes into an envelope of its own; the cursor move in front
of them does not.

The JPEG decoder is a parameter.
-/

namespace OpenAirplay2.Display.Images

open OpenAirplay2.Control (chunks)
open OpenAirplay2.Lib
open OpenAirplay2.Lib.Str
open OpenAirplay2.Pairing (Bytes)

/-- The most Base64 that one escape sequence carries. -/
def chunkMax : Nat := 4096

/-- The image id of the artwork. -/
def artworkId : Nat := 7332

/-! ## Envelopes -/

/-- Wrap one escape sequence in tmux's passthrough envelope. -/
def passthrough (inner : Bytes) : Bytes :=
  asciiBytes "\x1bPtmux;" ++
    inner.flatMap (fun byte =>
      if byte = 0x1b then [0x1b, byte] else [byte]) ++
    asciiBytes "\x1b\\"

/-- One escape sequence, wrapped for tmux when we are inside one. -/
def escape (bytes : Bytes) (tmux : Bool) : Bytes :=
  if tmux then passthrough bytes else bytes

/-- tmux's envelope: `ESC P tmux ;`, and `ESC \` at the end. -/
def tmuxEnvelope : Envelope UInt8 where
  mark := 0x1b
  kind := 0x50
  label := asciiBytes "tmux;"
  close := 0x5c
  distinct := by decide

theorem passthrough_eq (inner : Bytes) :
    passthrough inner = tmuxEnvelope.wrap inner :=
  rfl

/-- Undo `passthrough` wherever it appears in a byte stream. -/
def unwrapPassthrough (bytes : Bytes) : Option Bytes :=
  tmuxEnvelope.unwrap bytes

/-- The content of the envelope at the front, and what follows it. -/
def parseEnvelope (bytes : Bytes) : Option (Bytes × Bytes) :=
  tmuxEnvelope.next bytes

/-! ## JPEG -/

/-- How the decoder lays out its pixels. -/
inductive PixelFormat where
  | l8
  | l16
  | rgb24
  | cmyk32
deriving DecidableEq, Repr

structure ImageInfo where
  width : Nat
  height : Nat
  pixelFormat : PixelFormat
deriving DecidableEq, Repr

/-- `jpeg_decoder::Decoder`: the pixels of an image, and what they are. -/
structure JpegDecoder where
  decode : Bytes → Option Bytes
  info : Bytes → Option ImageInfo

/-- A decoded image is not empty. -/
def JpegDecoder.Sound (jpeg : JpegDecoder) : Prop :=
  ∀ image pixels, jpeg.decode image = some pixels → pixels ≠ []

/-- Decoded pixels, three bytes per pixel. -/
structure Rgb where
  width : Nat
  height : Nat
  pixels : Bytes
deriving DecidableEq, Repr

/-- Decode a JPEG to RGB; grayscale is expanded. -/
def decodeJpeg (jpeg : JpegDecoder) (image : Bytes) : Option Rgb := do
  let pixels ← jpeg.decode image
  let info ← jpeg.info image
  let pixels ←
    match info.pixelFormat with
    | .rgb24 => some pixels
    | .l8 => some (pixels.flatMap fun level => [level, level, level])
    | .l16 | .cmyk32 => none
  some { width := info.width, height := info.height, pixels := pixels }

def isPng (contentType : String) (image : Bytes) : Bool :=
  eqIgnoreAsciiCase contentType "image/png" ||
    [0x89, 0x50, 0x4e, 0x47, 0x0d, 0x0a, 0x1a, 0x0a].isPrefixOf image

/-! ## Drawing -/

/-- Park the cursor at the top-left of the box before drawing. -/
def cursorTo (placement : Placement) : Bytes :=
  asciiBytes
    ("\x1b[" ++ toString placement.row ++ ";" ++ toString placement.col ++
      "H")

/-- The keys that declare the format, and the payload in that format. -/
def formatted
    (jpeg : JpegDecoder) (contentType : String) (image : Bytes) :
    Option (String × Bytes) :=
  if isPng contentType image then
    some ("f=100", image)
  else do
    let rgb ← decodeJpeg jpeg image
    some
      ("f=24,s=" ++ toString rgb.width ++ ",v=" ++ toString rgb.height,
        rgb.pixels)

/-- The loop over the chunks; the first one declares the image. -/
def kittyUnits
    (formatKeys : String) (placement : Placement) (tmux : Bool) :
    Bool → List Bytes → Bytes
  | _, [] => []
  | first, chunk :: rest =>
      let more := toString (if rest.isEmpty then 0 else 1)
      let head :=
        if first then
          asciiBytes
            ("\x1b_Ga=T,i=" ++ toString artworkId ++ "," ++ formatKeys ++
              ",c=" ++ toString placement.cols ++ ",r=" ++
              toString placement.rows ++ ",C=1,q=2,m=" ++ more ++ ";")
        else
          asciiBytes ("\x1b_Gm=" ++ more ++ ";")
      escape (head ++ chunk ++ asciiBytes "\x1b\\") tmux ++
        kittyUnits formatKeys placement tmux false rest

/-- Kitty: PNG goes over as-is, anything else is decoded to RGB. -/
def kittyDraw
    (jpeg : JpegDecoder) (contentType : String) (image : Bytes)
    (placement : Placement) (tmux : Bool) : Option Bytes := do
  let (formatKeys, payload) ← formatted jpeg contentType image
  let encoded := Base64.encode payload
  some
    (cursorTo placement ++
      kittyUnits formatKeys placement tmux true
        (chunks chunkMax encoded.length encoded))

/-- iTerm2: the file bytes as-is, whatever the format. -/
def iterm2Draw
    (image : Bytes) (placement : Placement) (tmux : Bool) : Bytes :=
  let unit :=
    asciiBytes
      ("\x1b]1337;File=inline=1;size=" ++ toString image.length ++
        ";width=" ++ toString placement.cols ++ ";height=" ++
        toString placement.rows ++
        ";preserveAspectRatio=1;doNotMoveCursor=1:")
  cursorTo placement ++
    escape (unit ++ Base64.encode image ++ [0x07]) tmux

/-- The escape sequence that deletes the artwork. -/
def kittyClear (tmux : Bool) : Bytes :=
  escape
    (asciiBytes
      ("\x1b_Ga=d,d=I,i=" ++ toString artworkId ++ "\x1b\\"))
    tmux

/-- The escape sequences of the protocols. -/
def escapes (jpeg : JpegDecoder) : Escapes where
  kittyDraw := kittyDraw jpeg
  iterm2Draw := iterm2Draw
  kittyClear := kittyClear

end OpenAirplay2.Display.Images

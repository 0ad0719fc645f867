import OpenAirplay2.Control.Responses
import OpenAirplay2.Display.Transmissions

/-!
# Drawing under tmux

What is drawn under tmux is what is drawn without it, in envelopes: one around
each escape sequence, and none around the cursor move.  An envelope is read as
ending at its own end, whatever it holds and whatever follows it, so taking
the envelopes off gives the plain bytes back.
-/

namespace OpenAirplay2.Display.Images

open OpenAirplay2.Control (isDigit_of_mem_toString)
open OpenAirplay2.Lib
open OpenAirplay2.Lib.Str
open OpenAirplay2.Pairing (Bytes)

/-! ## Printable text -/

/-- The printable characters of ASCII. -/
def Printable (text : String) : Prop :=
  ∀ char ∈ text.toList, 0x20 ≤ char.toNat ∧ char.toNat < 0x7f

theorem Printable.append
    {first second : String}
    (printableFirst : Printable first)
    (printableSecond : Printable second) :
    Printable (first ++ second) := by
  intro char member
  rw [String.toList_append, List.mem_append] at member
  rcases member with inFirst | inSecond
  · exact printableFirst char inFirst
  · exact printableSecond char inSecond

theorem range_of_mem_toString
    {number : Nat} {char : Char}
    (member : char ∈ (toString number).toList) :
    48 ≤ char.toNat ∧ char.toNat ≤ 57 :=
  Char.isDigit_iff_toNat.mp (isDigit_of_mem_toString member)

theorem printable_toString (number : Nat) :
    Printable (toString number) := by
  intro char member
  have range := range_of_mem_toString member
  omega

/-- Nothing printable is written as a control byte. -/
theorem not_mem_asciiBytes
    {text : String} {byte : UInt8}
    (printable : Printable text)
    (control : byte < 0x20) :
    byte ∉ asciiBytes text := by
  intro member
  rcases List.mem_map.mp member with ⟨char, inText, rfl⟩
  have range := printable char inText
  have low : (UInt8.ofNat char.toNat).toNat < 32 := control
  rw [UInt8.toNat_ofNat', Nat.mod_eq_of_lt (by omega)] at low
  omega

/-! ## What stays outside, and what goes inside -/

theorem cursorTo_eq (placement : Placement) :
    cursorTo placement =
      0x1b :: 0x5b ::
        asciiBytes
          (toString placement.row ++ ";" ++ toString placement.col ++
            "H") := by
  rw [cursorTo, String.append_assoc, String.append_assoc,
    String.append_assoc, asciiBytes_append, String.append_assoc,
    String.append_assoc]
  rfl

/-- tmux leaves the cursor move to itself. -/
theorem reads_cursorTo (placement : Placement) :
    tmuxEnvelope.Reads (cursorTo placement) (cursorTo placement) := by
  have separator : Printable ";" := by simp [Printable]
  have final : Printable "H" := by simp [Printable]
  have printable :
      Printable
        (toString placement.row ++ ";" ++ toString placement.col ++
          "H") :=
    (((printable_toString _).append separator).append
      (printable_toString _)).append final
  rw [cursorTo_eq]
  apply Envelope.reads_mark (by decide)
  rw [List.mem_cons, not_or]
  exact ⟨by decide, not_mem_asciiBytes printable (by decide)⟩

/-- A wrapped sequence is read as the sequence. -/
theorem reads_escape (bytes : Bytes) :
    tmuxEnvelope.Reads (escape bytes true) (escape bytes false) :=
  Envelope.reads_wrap bytes

/-- One envelope per chunk. -/
theorem reads_kittyUnits
    (format : String)
    (placement : Placement)
    (first : Bool)
    (pieces : List Bytes) :
    tmuxEnvelope.Reads
      (kittyUnits format placement true first pieces)
      (kittyUnits format placement false first pieces) := by
  induction pieces generalizing first with
  | nil => exact .nil
  | cons piece rest induction =>
      rw [kittyUnits, kittyUnits]
      exact (reads_escape _).append (induction false)

section Draw

variable
    (jpeg : JpegDecoder)
    (contentType : String)
    (image : Bytes)
    (placement : Placement)

/-- With tmux, the drawing is `none` where it is without, and else reads so. -/
theorem unwrap_kittyDraw :
    (kittyDraw jpeg contentType image placement true).map
        unwrapPassthrough =
      (kittyDraw jpeg contentType image placement false).map some := by
  cases usable : formatted jpeg contentType image with
  | none =>
      rw [kittyDraw, kittyDraw, usable]
      rfl
  | some result =>
      rw [kittyDraw, kittyDraw, usable]
      show some (unwrapPassthrough _) = some (some _)
      rw [Option.some.injEq]
      apply Envelope.Reads.unwrap
      exact
        (reads_cursorTo placement).append
          (reads_kittyUnits result.1 placement true _)

theorem unwrap_iterm2Draw :
    unwrapPassthrough (iterm2Draw image placement true) =
      some (iterm2Draw image placement false) := by
  apply Envelope.Reads.unwrap
  exact (reads_cursorTo placement).append (reads_escape _)

end Draw

/--
Under tmux every drawing is the plain one in envelopes, and every envelope is
read as its content, up to its own end.
-/
theorem tmux_draws_in_envelopes (jpeg : JpegDecoder) :
    (∀ protocol contentType image placement,
      (Graphics.draw ⟨protocol, true⟩ (escapes jpeg) contentType image
            placement).map
          unwrapPassthrough =
        (Graphics.draw ⟨protocol, false⟩ (escapes jpeg) contentType image
            placement).map
          some) ∧
      ∀ content rest,
        parseEnvelope (passthrough content ++ rest) =
          some (content, rest) := by
  constructor
  · intro protocol contentType image placement
    unfold Graphics.draw
    split
    · rfl
    · cases protocol with
      | kitty => exact unwrap_kittyDraw jpeg contentType image placement
      | iTerm2 =>
          exact congrArg some (unwrap_iterm2Draw image placement)
      | none => rfl
  · intro content rest
    rw [passthrough_eq]
    exact tmuxEnvelope.next_wrap content rest

end OpenAirplay2.Display.Images

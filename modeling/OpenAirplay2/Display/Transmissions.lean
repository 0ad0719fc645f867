import OpenAirplay2.Display.Images

/-!
# Kitty transmissions

An image is transmitted as a row of graphics commands, each a list of keys and
a piece of data.  The first declares the image and where it goes; the others
only continue it.  Each says whether more follows, and together their data is
the Base64 of the payload.
-/

namespace OpenAirplay2.Display.Images

open OpenAirplay2.Control (chunks flatten_chunks length_le_of_mem_chunks)
open OpenAirplay2.Lib
open OpenAirplay2.Lib.Str
open OpenAirplay2.Pairing (Bytes)

/-! ## Commands -/

/-- A key and its value. -/
abbrev Key := String × String

/-- The keys as they are written, with commas between. -/
def keysText (keys : List Key) : String :=
  ",".intercalate (keys.map fun key => key.1 ++ "=" ++ key.2)

/-- A graphics command. -/
structure Command where
  keys : List Key
  data : Bytes
deriving DecidableEq, Repr

/-- `ESC _ G keys ; data ESC \`. -/
def Command.render (command : Command) : Bytes :=
  asciiBytes ("\x1b_G" ++ keysText command.keys ++ ";") ++
    command.data ++ asciiBytes "\x1b\\"

theorem asciiBytes_append (first second : String) :
    asciiBytes (first ++ second) =
      asciiBytes first ++ asciiBytes second := by
  rw [asciiBytes, String.toList_append, List.map_append]
  rfl

theorem keysText_append
    {first second : List Key}
    (someFirst : first ≠ [])
    (someSecond : second ≠ []) :
    keysText (first ++ second) =
      keysText first ++ "," ++ keysText second := by
  rw [keysText, List.map_append,
    String.intercalate_append_of_ne_nil
      (mt List.map_eq_nil_iff.mp someFirst)
      (mt List.map_eq_nil_iff.mp someSecond)]
  rfl

/-! ## The commands of an image -/

/-- What declares the format, as keys. -/
def formatKeys (jpeg : JpegDecoder) (contentType : String) (image : Bytes) :
    List Key :=
  if isPng contentType image then [("f", "100")]
  else
    match decodeJpeg jpeg image with
    | none => []
    | some rgb =>
        [("f", "24"), ("s", toString rgb.width), ("v", toString rgb.height)]

/-- The keys of the first command, but for `m`. -/
def declaration (format : List Key) (placement : Placement) : List Key :=
  [("a", "T"), ("i", toString artworkId)] ++ format ++
    [("c", toString placement.cols), ("r", toString placement.rows),
      ("C", "1"), ("q", "2")]

/-- One command per chunk; the last says that no more follows. -/
def commands (declared : List Key) : List Bytes → List Command
  | [] => []
  | chunk :: rest =>
      { keys := declared ++ [("m", if rest.isEmpty then "0" else "1")]
        data := chunk } ::
        commands [] rest

theorem formatted_keys
    {jpeg : JpegDecoder} {contentType : String} {image payload : Bytes}
    {format : String}
    (usable :
      formatted jpeg contentType image = some (format, payload)) :
    format = keysText (formatKeys jpeg contentType image) ∧
      formatKeys jpeg contentType image ≠ [] := by
  unfold formatted at usable
  unfold formatKeys
  split at usable
  · next png =>
      cases usable
      rw [if_pos png]
      exact ⟨rfl, List.cons_ne_nil _ _⟩
  · next other =>
      rw [if_neg other]
      cases decoded : decodeJpeg jpeg image with
      | none => simp [decoded] at usable
      | some rgb =>
          rw [decoded] at usable
          cases usable
          refine ⟨?_, List.cons_ne_nil _ _⟩
          apply String.toList_inj.mp
          simp [keysText]

/-- What the first command begins with, before its data. -/
theorem declaration_text
    {format : List Key}
    (formatted : format ≠ [])
    (placement : Placement)
    (more : String) :
    "\x1b_Ga=T,i=" ++ toString artworkId ++ "," ++ keysText format ++
          ",c=" ++ toString placement.cols ++ ",r=" ++
        toString placement.rows ++ ",C=1,q=2,m=" ++ more ++ ";" =
      "\x1b_G" ++
        keysText (declaration format placement ++ [("m", more)]) ++ ";" := by
  have whole :
      declaration format placement ++ [("m", more)] =
        [("a", "T"), ("i", toString artworkId)] ++
          (format ++
            [("c", toString placement.cols),
              ("r", toString placement.rows), ("C", "1"), ("q", "2"),
              ("m", more)]) := by
    simp only [declaration, List.append_assoc, List.cons_append,
      List.nil_append]
  rw [whole, keysText_append (List.cons_ne_nil _ _) (by simp),
    keysText_append formatted (List.cons_ne_nil _ _)]
  apply String.toList_inj.mp
  simp [keysText]

/-- The loop over the chunks writes their commands. -/
theorem kittyUnits_eq
    {format : List Key}
    (formatted : format ≠ [])
    (placement : Placement)
    (tmux first : Bool)
    (pieces : List Bytes) :
    kittyUnits (keysText format) placement tmux first pieces =
      (commands (if first then declaration format placement else [])
        pieces).flatMap (fun command => escape command.render tmux) := by
  induction pieces generalizing first with
  | nil => rfl
  | cons piece rest induction =>
      have more :
          toString (if rest.isEmpty then 0 else 1) =
            if rest.isEmpty then "0" else "1" := by
        cases rest with
        | nil => rfl
        | cons =>
            show toString 1 = "1"
            decide
      rw [kittyUnits, commands, List.flatMap_cons, induction false, more]
      congr 1
      congr 1
      cases first with
      | false => rfl
      | true =>
          show asciiBytes _ ++ piece ++ _ = _
          rw [declaration_text formatted]
          rfl

/-! ## Well formed transmissions -/

/-- What the commands of a payload have to be. -/
structure Transmission
    (declared : List Key)
    (payload : Bytes)
    (commands : List Command) : Prop where
  nonempty : commands ≠ []
  /-- The first command declares the image. -/
  declares :
    ∀ command ∈ commands.head?,
      ∃ more, command.keys = declared ++ [("m", more)]
  /-- The others have no other key than `m`. -/
  continues :
    ∀ command ∈ commands.tail, ∃ more, command.keys = [("m", more)]
  more :
    ∀ command ∈ commands.dropLast,
      command.keys.getLast? = some ("m", "1")
  ends :
    ∀ command ∈ commands.getLast?,
      command.keys.getLast? = some ("m", "0")
  small : ∀ command ∈ commands, command.data.length ≤ chunkMax
  signs :
    ∀ command ∈ commands,
      ∀ sign ∈ command.data,
        sign = Base64.pad ∨ (Base64.value sign).isSome
  whole : Base64.decode (commands.flatMap Command.data) = some payload

section Commands

variable (declared : List Key)

@[simp]
theorem flatMap_data (pieces : List Bytes) :
    (commands declared pieces).flatMap Command.data = pieces.flatten := by
  induction pieces generalizing declared with
  | nil => rfl
  | cons piece rest induction =>
      rw [commands, List.flatMap_cons, induction []]
      rfl

theorem data_mem_of_mem_commands
    {pieces : List Bytes} {command : Command}
    (member : command ∈ commands declared pieces) :
    command.data ∈ pieces := by
  induction pieces generalizing declared with
  | nil => cases member
  | cons piece rest induction =>
      rcases List.mem_cons.mp member with rfl | later
      · exact List.mem_cons_self
      · exact List.mem_cons_of_mem piece (induction [] later)

theorem keys_of_mem_continued
    {pieces : List Bytes} {command : Command}
    (member : command ∈ commands [] pieces) :
    ∃ more, command.keys = [("m", more)] := by
  induction pieces with
  | nil => cases member
  | cons piece rest induction =>
      rcases List.mem_cons.mp member with rfl | later
      · exact ⟨_, rfl⟩
      · exact induction later

theorem more_of_mem_dropLast
    {pieces : List Bytes} {command : Command}
    (member : command ∈ (commands declared pieces).dropLast) :
    command.keys.getLast? = some ("m", "1") := by
  induction pieces generalizing declared with
  | nil => cases member
  | cons piece rest induction =>
      cases rest with
      | nil => cases member
      | cons second rest =>
          rw [commands, List.dropLast_cons_of_ne_nil] at member
          · rcases List.mem_cons.mp member with rfl | later
            · exact List.getLast?_concat
            · exact induction [] later
          · exact List.cons_ne_nil _ _

theorem ends_of_mem_getLast?
    {pieces : List Bytes} {command : Command}
    (member : command ∈ (commands declared pieces).getLast?) :
    command.keys.getLast? = some ("m", "0") := by
  induction pieces generalizing declared with
  | nil => cases member
  | cons piece rest induction =>
      cases rest with
      | nil =>
          cases member
          exact List.getLast?_concat
      | cons second rest =>
          rw [commands] at member
          exact induction [] member

end Commands

/-- The chunks of an encoded payload make a transmission of it. -/
theorem transmission_commands
    (declared : List Key)
    {payload : Bytes}
    (nonempty : payload ≠ []) :
    Transmission declared payload
      (commands declared
        (chunks chunkMax (Base64.encode payload).length
          (Base64.encode payload))) := by
  have flat :
      (chunks chunkMax (Base64.encode payload).length
          (Base64.encode payload)).flatten =
        Base64.encode payload :=
    flatten_chunks (by decide) _ _ (Nat.le_refl _)
  generalize pieces :
    chunks chunkMax (Base64.encode payload).length
      (Base64.encode payload) = cut at flat
  have someChunk : cut ≠ [] := by
    rintro rfl
    exact nonempty (Base64.encode_eq_nil_iff.mp flat.symm)
  cases cut with
  | nil => exact absurd rfl someChunk
  | cons piece rest =>
      constructor
      case nonempty => exact List.cons_ne_nil _ _
      case declares =>
        rintro command ⟨⟩
        exact ⟨_, rfl⟩
      case continues =>
        intro command member
        exact keys_of_mem_continued member
      case more =>
        intro command member
        exact more_of_mem_dropLast declared member
      case ends =>
        intro command member
        exact ends_of_mem_getLast? declared member
      case small =>
        intro command member
        have isPiece := data_mem_of_mem_commands declared member
        rw [← pieces] at isPiece
        exact length_le_of_mem_chunks isPiece
      case signs =>
        intro command member sign isSign
        have written : sign ∈ Base64.encode payload := by
          rw [← flat]
          exact
            List.mem_flatten.mpr
              ⟨command.data, data_mem_of_mem_commands declared member,
                isSign⟩
        exact Base64.mem_encode written
      case whole =>
        rw [flatMap_data, flat, Base64.decode_encode]

/--
Whatever the size of the payload, the cursor move is followed by the commands
of a transmission, each in an escape sequence of its own.
-/
theorem kitty_draw_transmits
    (jpeg : JpegDecoder)
    (contentType : String)
    (image : Bytes)
    (placement : Placement)
    (tmux : Bool)
    (format : String)
    (payload : Bytes)
    (usable :
      formatted jpeg contentType image = some (format, payload))
    (nonempty : payload ≠ []) :
    ∃ commands,
      kittyDraw jpeg contentType image placement tmux =
          some
            (cursorTo placement ++
              commands.flatMap fun command =>
                escape command.render tmux) ∧
        Transmission
          (declaration (formatKeys jpeg contentType image) placement)
          payload commands := by
  have keys := formatted_keys usable
  refine ⟨_, ?_, transmission_commands _ nonempty⟩
  rw [kittyDraw, usable, keys.1]
  show some (_ ++ kittyUnits _ _ _ _ _) = _
  rw [kittyUnits_eq keys.2]
  rfl

/-- A PNG of its signature alone, labelled as something else. -/
theorem kitty_draw_transmits_signature :
    ∃ commands,
      kittyDraw ⟨fun _ => none, fun _ => none⟩ "image/jpeg"
            [0x89, 0x50, 0x4e, 0x47, 0x0d, 0x0a, 0x1a, 0x0a]
            ⟨5, 3, 20, 10⟩ true =
          some
            (cursorTo ⟨5, 3, 20, 10⟩ ++
              commands.flatMap fun command =>
                escape command.render true) ∧
        Transmission
          (declaration
            (formatKeys ⟨fun _ => none, fun _ => none⟩ "image/jpeg"
              [0x89, 0x50, 0x4e, 0x47, 0x0d, 0x0a, 0x1a, 0x0a])
            ⟨5, 3, 20, 10⟩)
          [0x89, 0x50, 0x4e, 0x47, 0x0d, 0x0a, 0x1a, 0x0a] commands :=
  kitty_draw_transmits _ _ _ _ _ "f=100" _ (by decide) (by decide)

end OpenAirplay2.Display.Images

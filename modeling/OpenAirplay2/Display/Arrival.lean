import OpenAirplay2.Display.Terminal

/-!
# A drawing arrives at the terminal

The terminal puts the data of the commands together again, finds the image
the first of them declared, and places it where the cursor was moved.
-/

namespace OpenAirplay2.Display.Images

open OpenAirplay2.Control (chunks flatten_chunks)
open OpenAirplay2.Lib
open OpenAirplay2.Lib.Str
open OpenAirplay2.Pairing (Bytes)

/-! ## A transmission arrives -/

/-- What the terminal makes of an image, if the image can be transmitted. -/
def pictureOf
    (jpeg : JpegDecoder) (contentType : String) (image : Bytes)
    (placement : Placement) : Option PlacedImage :=
  let picture (format width height : Nat) (data : Bytes) : PlacedImage :=
    { format := format
      width := width
      height := height
      data := data
      row := placement.row
      col := placement.col
      cols := placement.cols
      rows := placement.rows }
  if isPng contentType image then some (picture 100 0 0 image)
  else
    (decodeJpeg jpeg image).map fun rgb =>
      picture 24 rgb.width rgb.height rgb.pixels

section Receive

variable {terminal : Terminal}

/-- The last key says whether more follows. -/
theorem more_mk
    {declared : List Key}
    (free : declared.lookup "m" = none)
    (text : String)
    (data : Bytes) :
    (Command.mk (declared ++ [("m", text)]) data).more =
      (text == "1") := by
  rw [Command.more, Command.value, List.lookup_append, free]
  rfl

theorem words_nil : Words [] := by
  intro key member
  cases member

theorem words_more
    {declared : List Key}
    (words : Words declared)
    (last : Bool) :
    Words (declared ++ [("m", if last then "0" else "1")]) := by
  intro key member
  rcases List.mem_append.mp member with isDeclared | isMore
  · exact words key isDeclared
  · rw [List.mem_singleton.mp isMore]
    cases last <;> simp [Word]

/-- Commands that continue add up to the data of the first. -/
theorem receive_continued
    (ready : terminal.scan = .ground)
    (first : Command)
    {pieces : List Bytes}
    (nonempty : pieces ≠ [])
    (plain : ∀ piece ∈ pieces, 0x1b ∉ piece) :
    { terminal with pending := some first }.receive
        ((commands [] pieces).flatMap Command.render) =
      { terminal with pending := none }.place
        { first with data := first.data ++ pieces.flatten } := by
  induction pieces generalizing first with
  | nil => exact absurd rfl nonempty
  | cons piece rest induction =>
      rw [List.forall_mem_cons] at plain
      have words := words_more words_nil rest.isEmpty
      rw [commands, List.flatMap_cons, Terminal.receive_append,
        Terminal.receive_render (by exact ready) words (by simp) plain.1]
      show Terminal.receive (Terminal.transmit _ _ _) _ = _
      rw [more_mk rfl]
      cases rest with
      | nil =>
          rw [List.flatten_singleton]
          rfl
      | cons second rest =>
          rw [List.flatten_cons, ← List.append_assoc]
          exact
            induction { first with data := first.data ++ piece }
              (List.cons_ne_nil _ _) plain.2

/-- An image is placed when its last command has arrived. -/
theorem receive_commands
    {declared : List Key} {pieces : List Bytes}
    (ready : terminal.scan = .ground)
    (idle : terminal.pending = none)
    (words : Words declared)
    (transmits : declared.lookup "a" = some "T")
    (free : declared.lookup "m" = none)
    (nonempty : pieces ≠ [])
    (plain : ∀ piece ∈ pieces, 0x1b ∉ piece) :
    ∃ more,
      terminal.receive
          ((commands declared pieces).flatMap Command.render) =
        terminal.place ⟨declared ++ [("m", more)], pieces.flatten⟩ := by
  cases pieces with
  | nil => exact absurd rfl nonempty
  | cons piece rest =>
      rw [List.forall_mem_cons] at plain
      have whole := words_more words rest.isEmpty
      have action (text : String) :
          (Command.mk (declared ++ [("m", text)]) piece).value "a" =
            some "T" := by
        rw [Command.value, List.lookup_append, transmits]
        rfl
      refine ⟨if rest.isEmpty then "0" else "1", ?_⟩
      rw [commands, List.flatMap_cons, Terminal.receive_append,
        Terminal.receive_render ready whole (by simp) plain.1,
        Terminal.execute, idle]
      show
        Terminal.receive
          (if _ = some "T" then terminal.transmit _ _ else _) _ = _
      rw [if_pos (action _), more_mk free]
      have quiet : { terminal with pending := none } = terminal := by
        rw [← idle]
      cases rest with
      | nil =>
          show Terminal.place { terminal with pending := none } _ = _
          rw [quiet, List.flatten_singleton]
      | cons second rest =>
          refine
            (receive_continued ready _ (List.cons_ne_nil _ _)
              plain.2).trans ?_
          show Terminal.place { terminal with pending := none } _ = _
          rw [quiet]
          rfl

end Receive

/-! ## A drawing arrives -/

theorem number_of_value
    {command : Command} {name : String} {number : Nat}
    (found : command.value name = some (toString number)) :
    command.number name = number := by
  rw [Command.number, found, Option.bind_some, Nat.toString_eq_repr,
    Nat.toNat?_repr]
  rfl

theorem number_of_none
    {command : Command} {name : String}
    (missing : command.value name = none) :
    command.number name = 0 := by
  rw [Command.number, missing]
  rfl

/-- The picture that a command declares is placed. -/
theorem place_eq
    {terminal : Terminal} {command : Command} {picture : PlacedImage}
    (isData : Base64.decode command.data = some picture.data)
    (isId : command.number "i" = artworkId)
    (isFormat : command.number "f" = picture.format)
    (isWidth : command.number "s" = picture.width)
    (isHeight : command.number "v" = picture.height)
    (isCols : command.number "c" = picture.cols)
    (isRows : command.number "r" = picture.rows)
    (isRow : terminal.row = picture.row)
    (isCol : terminal.col = picture.col) :
    terminal.place command =
      { terminal with
        images :=
          Function.update terminal.images artworkId (some picture) } := by
  rw [Terminal.place, isData]
  simp only [isId, isFormat, isWidth, isHeight, isCols, isRows, isRow,
    isCol]

section Draw

variable
    {jpeg : JpegDecoder}
    {contentType format : String}
    {image payload : Bytes}

/-- The two formats that an image is transmitted in. -/
theorem formatted_cases
    (usable :
      formatted jpeg contentType image = some (format, payload)) :
    isPng contentType image = true ∧ payload = image ∨
      isPng contentType image = false ∧
        ∃ rgb, decodeJpeg jpeg image = some rgb ∧ payload = rgb.pixels := by
  unfold formatted at usable
  split at usable
  · next png =>
      cases usable
      exact Or.inl ⟨png, rfl⟩
  · next other =>
      rw [Option.bind_eq_bind, Option.bind_eq_some_iff] at usable
      rcases usable with ⟨rgb, decoded, same⟩
      cases same
      exact Or.inr ⟨Bool.not_eq_true _ ▸ other, rgb, decoded, rfl⟩

theorem words_formatKeys :
    Words (formatKeys jpeg contentType image) := by
  intro key member
  unfold formatKeys at member
  split at member
  · rw [List.mem_singleton.mp member]
    exact ⟨by simp [Word], by simp [Word]⟩
  · split at member
    · cases member
    · simp only [List.mem_cons, List.not_mem_nil, or_false] at member
      rcases member with rfl | rfl | rfl
      · exact ⟨by simp [Word], by simp [Word]⟩
      · exact ⟨by simp [Word], word_toString _⟩
      · exact ⟨by simp [Word], word_toString _⟩

theorem words_declaration
    {keys : List Key}
    (words : Words keys)
    (placement : Placement) :
    Words (declaration keys placement) := by
  intro key member
  simp only [declaration, List.append_assoc, List.mem_append,
    List.mem_cons, List.not_mem_nil, or_false] at member
  rcases member with (rfl | rfl) | isFormat | rfl | rfl | rfl | rfl
  · exact ⟨by simp [Word], by simp [Word]⟩
  · exact ⟨by simp [Word], word_toString _⟩
  · exact words key isFormat
  · exact ⟨by simp [Word], word_toString _⟩
  · exact ⟨by simp [Word], word_toString _⟩
  · exact ⟨by simp [Word], by simp [Word]⟩
  · exact ⟨by simp [Word], by simp [Word]⟩

theorem free_declaration (placement : Placement) :
    (declaration (formatKeys jpeg contentType image) placement).lookup
        "m" = none := by
  unfold formatKeys
  split
  · rfl
  · split <;> rfl

/-- The terminal places the image that was declared. -/
theorem place_declared
    (usable :
      formatted jpeg contentType image = some (format, payload))
    {placement : Placement} {terminal : Terminal}
    (row : terminal.row = placement.row)
    (col : terminal.col = placement.col)
    (more : String) :
    terminal.place
        ⟨declaration (formatKeys jpeg contentType image) placement ++
            [("m", more)], Base64.encode payload⟩ =
      { terminal with
        images :=
          Function.update terminal.images artworkId
            (pictureOf jpeg contentType image placement) } := by
  rcases formatted_cases usable with
    ⟨png, same⟩ | ⟨other, rgb, decoded, same⟩
  · have keys :
        formatKeys jpeg contentType image = [("f", toString 100)] := by
      rw [formatKeys, if_pos png]
      decide
    have made :
        pictureOf jpeg contentType image placement =
          some ⟨100, 0, 0, payload, placement.row, placement.col,
            placement.cols, placement.rows⟩ := by
      rw [pictureOf, if_pos png, same]
    rw [keys, made]
    apply place_eq _ _ _ _ _ _ _ row col
    · exact Base64.decode_encode payload
    · exact number_of_value rfl
    · exact number_of_value rfl
    · exact number_of_none rfl
    · exact number_of_none rfl
    · exact number_of_value rfl
    · exact number_of_value rfl
  · have keys :
        formatKeys jpeg contentType image =
          [("f", toString 24), ("s", toString rgb.width),
            ("v", toString rgb.height)] := by
      rw [formatKeys, if_neg (Bool.eq_false_iff.mp other), decoded]
      rfl
    have made :
        pictureOf jpeg contentType image placement =
          some ⟨24, rgb.width, rgb.height, payload, placement.row,
            placement.col, placement.cols, placement.rows⟩ := by
      rw [pictureOf, if_neg (Bool.eq_false_iff.mp other), decoded, same]
      rfl
    rw [keys, made]
    apply place_eq _ _ _ _ _ _ _ row col
    · exact Base64.decode_encode payload
    · exact number_of_value rfl
    · exact number_of_value rfl
    · exact number_of_value rfl
    · exact number_of_value rfl
    · exact number_of_value rfl
    · exact number_of_value rfl

/-- Base64 does not end the command it is carried in. -/
theorem escape_not_mem_encode : 0x1b ∉ Base64.encode payload := by
  intro member
  rcases Base64.mem_encode member with isPad | isDigit
  · exact absurd isPad (by decide)
  · exact absurd isDigit (by decide)

/-- A drawing that has been written is on the terminal. -/
theorem receive_drawing
    (usable :
      formatted jpeg contentType image = some (format, payload))
    (nonempty : payload ≠ [])
    {terminal : Terminal}
    (ready : terminal.scan = .ground)
    (idle : terminal.pending = none)
    (placement : Placement) :
    terminal.receive
        (cursorTo placement ++
          kittyUnits format placement false true
            (chunks chunkMax (Base64.encode payload).length
              (Base64.encode payload))) =
      { terminal with
        row := placement.row
        col := placement.col
        images :=
          Function.update terminal.images artworkId
            (pictureOf jpeg contentType image placement) } := by
  have keys := formatted_keys usable
  have flat :
      (chunks chunkMax (Base64.encode payload).length
          (Base64.encode payload)).flatten =
        Base64.encode payload :=
    flatten_chunks (by decide) _ _ (Nat.le_refl _)
  generalize
    chunks chunkMax (Base64.encode payload).length
      (Base64.encode payload) = pieces at flat
  have someChunk : pieces ≠ [] := by
    rintro rfl
    exact nonempty (Base64.encode_eq_nil_iff.mp flat.symm)
  have plain : ∀ piece ∈ pieces, 0x1b ∉ piece := by
    intro piece isPiece member
    have notEncoded : 0x1b ∉ Base64.encode payload :=
      escape_not_mem_encode
    rw [← flat] at notEncoded
    exact notEncoded (List.mem_flatten.mpr ⟨piece, isPiece, member⟩)
  rw [Terminal.receive_append, Terminal.receive_cursorTo ready, keys.1,
    kittyUnits_eq keys.2]
  have arrived (moved : Terminal)
      (ready : moved.scan = .ground)
      (idle : moved.pending = none) :
      ∃ more,
        moved.receive
            ((commands
              (declaration (formatKeys jpeg contentType image) placement)
              pieces).flatMap Command.render) =
          moved.place
            ⟨declaration (formatKeys jpeg contentType image) placement ++
              [("m", more)], pieces.flatten⟩ :=
    receive_commands ready idle
      (words_declaration words_formatKeys placement) rfl
      (free_declaration placement) someChunk plain
  rcases arrived
      { terminal with row := placement.row, col := placement.col }
      ready idle with ⟨more, placed⟩
  refine placed.trans ?_
  rw [flat, place_declared usable rfl rfl]

/-- A deleted image is gone. -/
theorem receive_clear
    {terminal : Terminal}
    (ready : terminal.scan = .ground)
    (idle : terminal.pending = none) :
    terminal.receive (kittyClear false) =
      { terminal with
        images := Function.update terminal.images artworkId none } := by
  have words :
      Words [("a", "d"), ("d", "I"), ("i", toString artworkId)] := by
    intro key member
    simp only [List.mem_cons, List.not_mem_nil, or_false] at member
    rcases member with rfl | rfl | rfl
    · exact ⟨by simp [Word], by simp [Word]⟩
    · exact ⟨by simp [Word], by simp [Word]⟩
    · exact ⟨by simp [Word], word_toString _⟩
  have written :
      kittyClear false =
        0x1b :: 0x5f ::
          (0x47 ::
            asciiBytes
              (keysText
                [("a", "d"), ("d", "I"), ("i", toString artworkId)]) ++
            [0x1b, 0x5c]) := by
    decide
  rw [written, Terminal.receive_command ready]
  · rw [Terminal.apply, parseCommand_keys words (List.cons_ne_nil _ _),
      Terminal.execute, idle]
    show (if _ = some "T" then _ else if _ then _ else _) = _
    rw [if_neg (by decide), if_pos (by decide), number_of_value rfl]
  · rw [List.mem_cons, not_or]
    exact ⟨by decide, not_mem_keysText words (Or.inl (by decide))⟩

end Draw

end OpenAirplay2.Display.Images

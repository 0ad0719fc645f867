import OpenAirplay2.Display.Envelopes

/-!
# A terminal that draws images

What is written to the terminal is read byte by byte.  Of the control
sequences only the cursor move matters, and of the commands only those of the
graphics protocol: an image is put together from the data of its commands and
placed at the cursor under its id, in place of the one that had the id, and
is there until it is deleted.

This is the other end of the line, not the code of the display.
-/

namespace OpenAirplay2.Display.Images

open OpenAirplay2.Lib
open OpenAirplay2.Lib.Str
open OpenAirplay2.Pairing (Bytes)

/-! ## Reading commands -/

/-- Bytes as the characters of ASCII. -/
def textOf (bytes : Bytes) : String :=
  String.ofList (bytes.map fun byte => Char.ofNat byte.toNat)

def parseKey (key : String) : Key :=
  (splitOnce key '=').getD (key, "")

/-- Keys up to the first semicolon, and data behind it. -/
def parseCommand (content : Bytes) : Command where
  keys := (split (textOf (content.takeWhile (· ≠ 0x3b))) ',').map parseKey
  data := (content.dropWhile (· ≠ 0x3b)).drop 1

namespace Command

variable (command : Command)

def value (name : String) : Option String :=
  command.keys.lookup name

def number (name : String) : Nat :=
  ((command.value name).bind String.toNat?).getD 0

/-- More of the image follows. -/
def more : Bool :=
  command.value "m" == some "1"

end Command

/-! ## The terminal -/

/-- An image on the terminal, where it is, and the box it is scaled into. -/
structure PlacedImage where
  format : Nat
  width : Nat
  height : Nat
  data : Bytes
  row : Nat
  col : Nat
  cols : Nat
  rows : Nat
deriving DecidableEq, Repr

/-- What the next byte belongs to. -/
inductive Scan where
  | ground
  | escape
  | control (params : Bytes)
  | command (content : Bytes)
  | commandEscape (content : Bytes)
deriving DecidableEq, Repr

structure Terminal where
  scan : Scan
  row : Nat
  col : Nat
  /-- The first command of an image, with the data so far. -/
  pending : Option Command
  images : Nat → Option PlacedImage

namespace Terminal

variable (terminal : Terminal)

def fresh : Terminal where
  scan := .ground
  row := 1
  col := 1
  pending := none
  images := fun _ => none

/-- Place the image of a complete command at the cursor. -/
def place (command : Command) : Terminal :=
  match Base64.decode command.data with
  | none => terminal
  | some payload =>
      { terminal with
        images :=
          Function.update terminal.images (command.number "i")
            (some
              { format := command.number "f"
                width := command.number "s"
                height := command.number "v"
                data := payload
                row := terminal.row
                col := terminal.col
                cols := command.number "c"
                rows := command.number "r" }) }

/-- Wait for the rest of an image, or place it. -/
def transmit (whole : Command) (more : Bool) : Terminal :=
  if more then
    { terminal with pending := some whole }
  else
    { terminal with pending := none }.place whole

/-- Execute a graphics command; one that comes while waiting continues. -/
def execute (command : Command) : Terminal :=
  match terminal.pending with
  | some first =>
      terminal.transmit { first with data := first.data ++ command.data }
        command.more
  | none =>
      if command.value "a" = some "T" then
        terminal.transmit command command.more
      else if command.value "a" = some "d" ∧
          command.value "d" = some "I" then
        { terminal with
          images :=
            Function.update terminal.images (command.number "i") none }
      else
        terminal

/-- An application program command; those of graphics begin with a `G`. -/
def apply : Bytes → Terminal
  | 0x47 :: content => terminal.execute (parseCommand content)
  | _ => terminal

/-- The cursor move, to a row and a column. -/
def moveTo (params : Bytes) : Terminal :=
  match (split (textOf params) ';').map String.toNat? with
  | [some row, some col] => { terminal with row := row, col := col }
  | _ => terminal

/-- Read one byte. -/
def read (byte : UInt8) : Terminal :=
  match terminal.scan with
  | .ground =>
      if byte = 0x1b then { terminal with scan := .escape } else terminal
  | .escape =>
      { terminal with
        scan :=
          if byte = 0x5b then .control []
          else if byte = 0x5f then .command []
          else if byte = 0x1b then .escape
          else .ground }
  | .control params =>
      if byte = 0x48 then
        { terminal with scan := .ground }.moveTo params
      else if 0x40 ≤ byte && byte ≤ 0x7e then
        { terminal with scan := .ground }
      else
        { terminal with scan := .control (params ++ [byte]) }
  | .command content =>
      { terminal with
        scan :=
          if byte = 0x1b then .commandEscape content
          else .command (content ++ [byte]) }
  | .commandEscape content =>
      if byte = 0x5c then
        { terminal with scan := .ground }.apply content
      else
        { terminal with scan := .ground }

/-- Read what is written, in order. -/
def receive (bytes : Bytes) : Terminal :=
  bytes.foldl read terminal

variable {terminal}

@[simp]
theorem receive_nil : terminal.receive [] = terminal :=
  rfl

theorem receive_append (first second : Bytes) :
    terminal.receive (first ++ second) =
      (terminal.receive first).receive second :=
  List.foldl_append

theorem read_escape (ready : terminal.scan = .ground) :
    terminal.read 0x1b = { terminal with scan := .escape } := by
  rw [read, ready]
  rfl

/-! ### Control sequences -/

/-- Parameters are collected up to the final byte. -/
theorem receive_params
    {before params : Bytes}
    (collecting : terminal.scan = .control before)
    (low : ∀ byte ∈ params, byte < 0x40) :
    terminal.receive params =
      { terminal with scan := .control (before ++ params) } := by
  induction params generalizing terminal before with
  | nil =>
      rw [List.append_nil, ← collecting]
      rfl
  | cons byte params induction =>
      rw [List.forall_mem_cons] at low
      have notMove : byte ≠ 0x48 := by
        rintro rfl
        exact absurd low.1 (by decide)
      have notFinal : (0x40 ≤ byte && byte ≤ 0x7e) = false := by
        rw [decide_eq_false (UInt8.not_le.mpr low.1), Bool.false_and]
      have one :
          terminal.read byte =
            { terminal with scan := .control (before ++ [byte]) } := by
        rw [read, collecting]
        simp only [if_neg notMove, notFinal, Bool.false_eq_true, if_false]
      show (terminal.read byte).receive params = _
      rw [one, induction rfl low.2, List.append_assoc]
      rfl

theorem receive_move
    {params : Bytes}
    (ready : terminal.scan = .ground)
    (low : ∀ byte ∈ params, byte < 0x40) :
    terminal.receive (0x1b :: 0x5b :: (params ++ [0x48])) =
      terminal.moveTo params := by
  have opened :
      (terminal.read 0x1b).read 0x5b =
        { terminal with scan := .control [] } := by
    rw [read_escape ready]
    rfl
  show ((terminal.read 0x1b).read 0x5b).receive (params ++ [0x48]) = _
  rw [opened, receive_append, receive_params rfl low, List.nil_append]
  show { terminal with scan := .ground }.moveTo params = _
  rw [← ready]

/-! ### Commands -/

/-- A command is collected up to an escape. -/
theorem receive_content
    {before content : Bytes}
    (collecting : terminal.scan = .command before)
    (plain : 0x1b ∉ content) :
    terminal.receive content =
      { terminal with scan := .command (before ++ content) } := by
  induction content generalizing terminal before with
  | nil =>
      rw [List.append_nil, ← collecting]
      rfl
  | cons byte content induction =>
      rw [List.mem_cons, not_or] at plain
      have one :
          terminal.read byte =
            { terminal with scan := .command (before ++ [byte]) } := by
        rw [read, collecting]
        simp only [if_neg (Ne.symm plain.1)]
      show (terminal.read byte).receive content = _
      rw [one, induction rfl plain.2, List.append_assoc]
      rfl

theorem receive_command
    {content : Bytes}
    (ready : terminal.scan = .ground)
    (plain : 0x1b ∉ content) :
    terminal.receive (0x1b :: 0x5f :: (content ++ [0x1b, 0x5c])) =
      terminal.apply content := by
  have opened :
      (terminal.read 0x1b).read 0x5f =
        { terminal with scan := .command [] } := by
    rw [read_escape ready]
    rfl
  show
    ((terminal.read 0x1b).read 0x5f).receive
      (content ++ [0x1b, 0x5c]) = _
  rw [opened, receive_append, receive_content rfl plain, List.nil_append]
  show { terminal with scan := .ground }.apply content = _
  rw [← ready]

end Terminal

/-! ## What is written is read back -/

theorem textOf_asciiBytes
    {text : String}
    (ascii : ∀ char ∈ text.toList, char.toNat < 128) :
    textOf (asciiBytes text) = text := by
  have same :
      (asciiBytes text).map (fun byte => Char.ofNat byte.toNat) =
        text.toList := by
    rw [asciiBytes, List.map_map]
    refine (List.map_congr_left ?_).trans (List.map_id _)
    intro char member
    have bound := ascii char member
    show Char.ofNat (UInt8.ofNat char.toNat).toNat = char
    rw [UInt8.toNat_ofNat', Nat.mod_eq_of_lt (by omega),
      Char.ofNat_toNat]
  rw [textOf, same, String.ofList_toList]

/-- Splitting gives back what was joined. -/
theorem split_intercalate
    {separator : String} {char : Char} {parts : List String}
    (single : separator.toList = [char])
    (apart : ∀ part ∈ parts, char ∉ part.toList)
    (nonempty : parts ≠ []) :
    split (separator.intercalate parts) char = parts := by
  rw [split, String.toList_intercalate, single,
    List.splitOn_intercalate char, List.map_map]
  · exact List.map_id'' (fun part => String.ofList_toList) parts
  · intro part member
    rcases List.mem_map.mp member with ⟨text, isPart, rfl⟩
    exact apart text isPart
  · exact mt List.map_eq_nil_iff.mp nonempty

/-- Letters and digits. -/
def Word (text : String) : Prop :=
  ∀ char ∈ text.toList,
    48 ≤ char.toNat ∧ char.toNat ≤ 57 ∨
      65 ≤ char.toNat ∧ char.toNat ≤ 90 ∨
        97 ≤ char.toNat ∧ char.toNat ≤ 122

theorem word_toString (number : Nat) : Word (toString number) := by
  intro char member
  exact Or.inl (range_of_mem_toString member)

theorem Word.not_mem
    {text : String} {char : Char}
    (word : Word text)
    (sign : char.toNat < 48 ∨ 57 < char.toNat ∧ char.toNat < 65) :
    char ∉ text.toList := by
  intro member
  have range := word char member
  omega

/-- The keys a command may have. -/
def Words (keys : List Key) : Prop :=
  ∀ key ∈ keys, Word key.1 ∧ Word key.2

/-- What the keys are written with. -/
theorem mem_keysText
    {keys : List Key} {char : Char}
    (words : Words keys)
    (member : char ∈ (keysText keys).toList) :
    0x20 ≤ char.toNat ∧ char.toNat < 0x7f ∧ char.toNat ≠ 0x3b := by
  have ofWord {text : String} (word : Word text)
      (inText : char ∈ text.toList) :
      0x20 ≤ char.toNat ∧ char.toNat < 0x7f ∧ char.toNat ≠ 0x3b := by
    have range := word char inText
    omega
  have ofSign {other : Char} (isSign : char ∈ [other])
      (range :
        0x20 ≤ other.toNat ∧ other.toNat < 0x7f ∧ other.toNat ≠ 0x3b) :
      0x20 ≤ char.toNat ∧ char.toNat < 0x7f ∧ char.toNat ≠ 0x3b :=
    List.mem_singleton.mp isSign ▸ range
  rw [keysText, String.toList_intercalate, List.map_map] at member
  rcases mem_of_mem_intercalate member with comma | ⟨part, isPart, inPart⟩
  · exact ofSign comma (by decide)
  · rcases List.mem_map.mp isPart with ⟨key, isKey, rfl⟩
    have word := words key isKey
    simp only [Function.comp_apply, String.toList_append,
      List.mem_append] at inPart
    rcases inPart with (inName | equals) | inValue
    · exact ofWord word.1 inName
    · exact ofSign equals (by decide)
    · exact ofWord word.2 inValue

theorem parseKey_write
    {key : Key}
    (word : Word key.1) :
    parseKey (key.1 ++ "=" ++ key.2) = key := by
  have joined :
      (key.1 ++ "=" ++ key.2).toList =
        key.1.toList ++ '=' :: key.2.toList := by
    simp
  rw [parseKey,
    splitOnce_of_toList joined (word.not_mem (Or.inr (by decide))),
    String.ofList_toList, String.ofList_toList]
  rfl

/-- Keys are read as they are written. -/
theorem parse_keysText
    {keys : List Key}
    (words : Words keys)
    (nonempty : keys ≠ []) :
    (split (textOf (asciiBytes (keysText keys))) ',').map parseKey =
      keys := by
  rw [textOf_asciiBytes, keysText, split_intercalate rfl, List.map_map]
  · refine (List.map_congr_left ?_).trans (List.map_id _)
    intro key member
    exact parseKey_write (words key member).1
  · intro part member
    rcases List.mem_map.mp member with ⟨key, isKey, rfl⟩
    have comma : (','.toNat : Nat) < 48 := by decide
    simp only [String.toList_append, List.mem_append, not_or]
    exact
      ⟨⟨(words key isKey).1.not_mem (Or.inl comma), by decide⟩,
        (words key isKey).2.not_mem (Or.inl comma)⟩
  · exact mt List.map_eq_nil_iff.mp nonempty
  · intro char member
    have range := mem_keysText words member
    omega

theorem not_mem_keysText
    {keys : List Key} {byte : UInt8}
    (words : Words keys)
    (sign : byte < 0x20 ∨ byte = 0x3b) :
    byte ∉ asciiBytes (keysText keys) := by
  intro member
  rcases List.mem_map.mp member with ⟨char, inText, rfl⟩
  have range := mem_keysText words inText
  have same : (UInt8.ofNat char.toNat).toNat = char.toNat := by
    rw [UInt8.toNat_ofNat', Nat.mod_eq_of_lt (by omega)]
  rcases sign with low | semicolon
  · have low : (UInt8.ofNat char.toNat).toNat < 32 := low
    omega
  · have semicolon := congrArg UInt8.toNat semicolon
    rw [same] at semicolon
    exact range.2.2 semicolon

theorem keys_before_semicolon {keys : List Key} (words : Words keys) :
    ∀ byte ∈ asciiBytes (keysText keys),
      decide (byte ≠ 0x3b) = true := by
  intro byte member
  apply decide_eq_true
  rintro rfl
  exact not_mem_keysText words (Or.inr rfl) member

/-- Keys and data are told apart by the semicolon. -/
theorem parseCommand_write
    {keys : List Key}
    (words : Words keys)
    (nonempty : keys ≠ [])
    (data : Bytes) :
    parseCommand (asciiBytes (keysText keys) ++ 0x3b :: data) =
      ⟨keys, data⟩ := by
  have inside := keys_before_semicolon words
  rw [parseCommand, List.takeWhile_append_of_pos inside,
    List.dropWhile_append_of_pos inside]
  show Command.mk _ _ = _
  simp only [List.takeWhile_cons, List.dropWhile_cons, ne_eq,
    not_true_eq_false, decide_false, Bool.false_eq_true, if_false,
    List.append_nil, parse_keysText words nonempty]
  rfl

/-- A command may also end behind its keys. -/
theorem parseCommand_keys
    {keys : List Key}
    (words : Words keys)
    (nonempty : keys ≠ []) :
    parseCommand (asciiBytes (keysText keys)) = ⟨keys, []⟩ := by
  have inside := keys_before_semicolon words
  rw [parseCommand, List.takeWhile_eq_self_iff.mpr inside,
    List.dropWhile_eq_nil_iff.mpr inside, parse_keysText words nonempty]
  rfl

namespace Terminal

variable {terminal : Terminal}

/-- A command that is written is executed. -/
theorem receive_render
    {command : Command}
    (ready : terminal.scan = .ground)
    (words : Words command.keys)
    (nonempty : command.keys ≠ [])
    (plain : 0x1b ∉ command.data) :
    terminal.receive command.render = terminal.execute command := by
  have written :
      command.render =
        0x1b :: 0x5f ::
          (0x47 :: (asciiBytes (keysText command.keys) ++
            0x3b :: command.data) ++ [0x1b, 0x5c]) := by
    rw [Command.render, asciiBytes_append, asciiBytes_append]
    simp only [List.append_assoc, List.cons_append]
    rfl
  rw [written, receive_command ready]
  · rw [apply, parseCommand_write words nonempty]
  · simp only [List.mem_cons, List.mem_append, not_or]
    exact
      ⟨by decide, not_mem_keysText words (Or.inl (by decide)), by decide,
        plain⟩

/-- The parameters of a cursor move are digits and a semicolon. -/
theorem range_of_mem_move
    {row col : Nat} {char : Char}
    (member : char ∈ (toString row ++ ";" ++ toString col).toList) :
    48 ≤ char.toNat ∧ char.toNat ≤ 59 := by
  simp only [String.toList_append, List.mem_append] at member
  rcases member with (inRow | inSign) | inCol
  · have range := range_of_mem_toString inRow
    omega
  · rw [List.mem_singleton.mp inSign]
    decide
  · have range := range_of_mem_toString inCol
    omega

theorem moveTo_numbers (row col : Nat) :
    terminal.moveTo
        (asciiBytes (toString row ++ ";" ++ toString col)) =
      { terminal with row := row, col := col } := by
  have number (value : Nat) :
      (toString value).toNat? = some value := by
    rw [Nat.toString_eq_repr, Nat.toNat?_repr]
  have joined :
      toString row ++ ";" ++ toString col =
        ";".intercalate [toString row, toString col] := by
    rw [String.intercalate_cons_cons, String.intercalate_singleton]
  have ascii :
      ∀ char ∈ (toString row ++ ";" ++ toString col).toList,
        char.toNat < 128 := by
    intro char member
    have range := range_of_mem_move member
    omega
  rw [moveTo, textOf_asciiBytes ascii, joined, split_intercalate rfl]
  · simp only [List.map_cons, List.map_nil, number]
  · intro part member
    have digits : ∀ value : Nat, ';' ∉ (toString value).toList :=
      fun value => (word_toString value).not_mem (Or.inr (by decide))
    rcases List.mem_cons.mp member with rfl | later
    · exact digits row
    · rw [List.mem_singleton.mp later]
      exact digits col
  · exact List.cons_ne_nil _ _

/-- The cursor moves to where the display parks it. -/
theorem receive_cursorTo
    (ready : terminal.scan = .ground)
    (placement : Placement) :
    terminal.receive (cursorTo placement) =
      { terminal with row := placement.row, col := placement.col } := by
  have written :
      cursorTo placement =
        0x1b :: 0x5b ::
          (asciiBytes
            (toString placement.row ++ ";" ++ toString placement.col) ++
              [0x48]) := by
    rw [cursorTo_eq, asciiBytes_append]
    rfl
  rw [written, receive_move ready, moveTo_numbers]
  intro byte member
  rcases List.mem_map.mp member with ⟨char, inText, rfl⟩
  have range := range_of_mem_move inText
  show (UInt8.ofNat char.toNat).toNat < 64
  rw [UInt8.toNat_ofNat', Nat.mod_eq_of_lt (by omega)]
  omega

end Terminal

end OpenAirplay2.Display.Images

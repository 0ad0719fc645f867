import Mathlib

/-!
# Strings and bytes

The operations of `str` and `String` that a text protocol needs, with the
names and the corner cases they have in the Rust standard library.  A string
is taken as its characters; byte positions only matter to `getTo`.
-/

namespace OpenAirplay2.Lib.Str

/-- `char::is_whitespace`: the Unicode property `White_Space`. -/
def isWhitespace (char : Char) : Bool :=
  let code := char.toNat
  (9 ≤ code && code ≤ 13) || code == 0x20 || code == 0x85 ||
    code == 0xa0 || code == 0x1680 ||
    (0x2000 ≤ code && code ≤ 0x200a) || code == 0x2028 ||
    code == 0x2029 || code == 0x202f || code == 0x205f ||
    code == 0x3000

/-- `str::trim`. -/
def trim (text : String) : String :=
  String.ofList
    ((text.toList.dropWhile isWhitespace).reverse.dropWhile
      isWhitespace).reverse

/-- `str::starts_with`. -/
def startsWith (text start : String) : Bool :=
  start.toList.isPrefixOf text.toList

/-- `str::strip_prefix`. -/
def stripPrefix (text start : String) : Option String :=
  if startsWith text start then
    some (String.ofList (text.toList.drop start.toList.length))
  else
    none

/-- `str::split` at a character. -/
def split (text : String) (separator : Char) : List String :=
  (text.toList.splitOn separator).map String.ofList

/-- A line without its carriage return. -/
def stripReturn (line : List Char) : List Char :=
  if line.getLast? = some '\r' then line.dropLast else line

/-- `str::lines`: what follows the last line feed is a line if not empty. -/
def lines (text : String) : List String :=
  let parts := text.toList.splitOn '\n'
  let last := parts.getLast?.getD []
  (parts.dropLast.map stripReturn ++
    if last.isEmpty then [] else [last]).map String.ofList

/-- `str::eq_ignore_ascii_case`. -/
def eqIgnoreAsciiCase (left right : String) : Bool :=
  left.toList.map Char.toLower == right.toList.map Char.toLower

/-- The characters of the first `count` bytes, if these end at a boundary. -/
def takeBytes : List Char → Nat → Option (List Char)
  | _, 0 => some []
  | [], _ + 1 => none
  | char :: rest, count =>
      if char.utf8Size ≤ count then
        (takeBytes rest (count - char.utf8Size)).map (char :: ·)
      else
        none

/-- `str::get(..count)`. -/
def getTo (text : String) (count : Nat) : Option String :=
  (takeBytes text.toList count).map String.ofList

/-- `str::parse::<u32>`. -/
def parseU32 (text : String) : Option UInt32 :=
  let digits :=
    match text.toList with
    | '+' :: rest => rest
    | all => all
  if digits.isEmpty || !digits.all Char.isDigit then
    none
  else
    let value :=
      digits.foldl
        (fun value digit => value * 10 + (digit.toNat - '0'.toNat)) 0
    if value < 2 ^ 32 then some (UInt32.ofNat value) else none

/-- `str::as_bytes` of a text of ASCII characters. -/
def asciiBytes (text : String) : List UInt8 :=
  text.toList.map fun char => UInt8.ofNat char.toNat

/-- What is joined is in a part or in the separator. -/
theorem mem_of_mem_intercalate
    {α : Type*} {separator : List α} {parts : List (List α)} {item : α}
    (member : item ∈ separator.intercalate parts) :
    item ∈ separator ∨ ∃ part ∈ parts, item ∈ part := by
  induction parts with
  | nil => cases member
  | cons part parts induction =>
      by_cases last : parts = []
      · rw [last, List.intercalate_singleton] at member
        exact Or.inr ⟨part, List.mem_cons_self, member⟩
      · rw [List.intercalate_cons_of_ne_nil last, List.mem_append,
          List.mem_append] at member
        rcases member with (inPart | inSeparator) | inRest
        · exact Or.inr ⟨part, List.mem_cons_self, inPart⟩
        · exact Or.inl inSeparator
        · rcases induction inRest with inSeparator | ⟨other, isPart, inOther⟩
          · exact Or.inl inSeparator
          · exact Or.inr ⟨other, List.mem_cons_of_mem part isPart, inOther⟩

/-! ## Lossy decoding -/

/-- U+FFFD. -/
def replacement : Char :=
  Char.ofNat 0xfffd

/-- A byte that continues a character. -/
def continues (byte : UInt8) : Bool :=
  0x80 ≤ byte && byte ≤ 0xbf

/-- The second bytes that may follow a leading byte of three or four. -/
def seconds (lead byte : UInt8) : Bool :=
  if lead == 0xe0 then 0xa0 ≤ byte && byte ≤ 0xbf
  else if lead == 0xed then 0x80 ≤ byte && byte ≤ 0x9f
  else if lead == 0xf0 then 0x90 ≤ byte && byte ≤ 0xbf
  else if lead == 0xf4 then 0x80 ≤ byte && byte ≤ 0x8f
  else continues byte

/-- The six low bits of a continuation byte. -/
def low (byte : UInt8) : Nat :=
  byte.toNat % 64

/--
The first character of a byte string and the bytes it takes.  A sequence that
breaks off is replaced as far as it could have gone on.
-/
def nextChar (lead : UInt8) (rest : List UInt8) : Char × Nat :=
  if lead < 0x80 then
    (Char.ofNat lead.toNat, 1)
  else if 0xc2 ≤ lead && lead ≤ 0xdf then
    match rest with
    | second :: _ =>
        if continues second then
          (Char.ofNat (lead.toNat % 32 * 64 + low second), 2)
        else
          (replacement, 1)
    | [] => (replacement, 1)
  else if 0xe0 ≤ lead && lead ≤ 0xef then
    match rest with
    | second :: third :: _ =>
        if !seconds lead second then
          (replacement, 1)
        else if continues third then
          (Char.ofNat
            ((lead.toNat % 16 * 64 + low second) * 64 + low third), 3)
        else
          (replacement, 2)
    | [second] => (replacement, if seconds lead second then 2 else 1)
    | [] => (replacement, 1)
  else if 0xf0 ≤ lead && lead ≤ 0xf4 then
    match rest with
    | second :: third :: fourth :: _ =>
        if !seconds lead second then
          (replacement, 1)
        else if !continues third then
          (replacement, 2)
        else if continues fourth then
          (Char.ofNat
            (((lead.toNat % 8 * 64 + low second) * 64 + low third) * 64 +
              low fourth), 4)
        else
          (replacement, 3)
    | [second, third] =>
        (replacement,
          if !seconds lead second then 1
          else if continues third then 3 else 2)
    | [second] => (replacement, if seconds lead second then 2 else 1)
    | [] => (replacement, 1)
  else
    (replacement, 1)

/-- The characters of a byte string; every round takes a byte or more. -/
def lossyChars : Nat → List UInt8 → List Char
  | _, [] => []
  | 0, _ :: _ => []
  | fuel + 1, lead :: rest =>
      let next := nextChar lead rest
      next.1 :: lossyChars fuel (rest.drop (next.2 - 1))

/-- `String::from_utf8_lossy`. -/
def fromUtf8Lossy (bytes : List UInt8) : String :=
  String.ofList (lossyChars bytes.length bytes)

/-- The loop never runs out of the rounds it is granted. -/
theorem lossyChars_fuel
    (fuel extra : Nat) (bytes : List UInt8)
    (enough : bytes.length ≤ fuel) :
    lossyChars (fuel + extra) bytes = lossyChars fuel bytes := by
  induction fuel generalizing bytes with
  | zero =>
      have empty : bytes = [] := List.length_eq_zero_iff.mp (by omega)
      simp [empty, lossyChars]
  | succ fuel induction =>
      rw [Nat.succ_add]
      cases bytes with
      | nil => rfl
      | cons lead rest =>
          simp only [lossyChars]
          rw [induction]
          simp only [List.length_cons, List.length_drop] at enough ⊢
          omega

example :
    fromUtf8Lossy [0xff, 0x41, 0xe2, 0x82, 0x42, 0xc3, 0xa9] =
      "\uFFFDA\uFFFDBé" := by
  decide

end OpenAirplay2.Lib.Str

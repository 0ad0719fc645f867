import OpenAirplay2.Lib.Str

/-!
# UTF-8 and lines

A text protocol sends lines, each ended by a carriage return and a line feed,
as UTF-8.  The bytes of these two characters are found in a text only where
the characters are, so what a reader of bytes takes for the end of a line is
one, and splitting the text there gives the lines back.
-/

namespace OpenAirplay2.Lib.Str

/-! ## UTF-8 -/

/-- The bytes of the characters. -/
def utf8 (chars : List Char) : List UInt8 :=
  chars.flatMap String.utf8EncodeChar

/-- `str::from_utf8`. -/
def fromUtf8 (bytes : List UInt8) : Option String :=
  String.fromUTF8? bytes.toByteArray

@[simp]
theorem utf8_append (first second : List Char) :
    utf8 (first ++ second) = utf8 first ++ utf8 second :=
  List.flatMap_append

theorem utf8_eq_nil_iff {chars : List Char} :
    utf8 chars = [] ↔ chars = [] := by
  cases chars with
  | nil => exact iff_of_true rfl rfl
  | cons char rest =>
      have size := String.length_utf8EncodeChar char
      have pos := Char.utf8Size_pos char
      simp only [utf8, List.flatMap_cons, List.append_eq_nil_iff,
        reduceCtorEq, iff_false, not_and]
      intro none
      rw [none, List.length_nil] at size
      omega

theorem fromUtf8_utf8 (text : String) :
    fromUtf8 (utf8 text.toList) = some text := by
  have bytes : (utf8 text.toList).toByteArray = text.toByteArray :=
    String.utf8Encode_toList
  rw [fromUtf8, bytes, String.fromUTF8?, dif_pos text.isValidUTF8]
  rfl

theorem fromUtf8_utf8_ofList (chars : List Char) :
    fromUtf8 (utf8 chars) = some (String.ofList chars) := by
  have decoded := fromUtf8_utf8 (String.ofList chars)
  rw [String.toList_ofList] at decoded
  exact decoded

/-- Bytes that are UTF-8 are those of their text. -/
theorem utf8_of_fromUtf8
    {bytes : List UInt8} {text : String}
    (isText : fromUtf8 bytes = some text) :
    utf8 text.toList = bytes := by
  rw [fromUtf8, String.fromUTF8?] at isText
  split_ifs at isText with valid
  rw [← Option.some.inj isText]
  have encoded :
      (utf8 (String.fromUTF8 bytes.toByteArray valid).toList).toByteArray =
        bytes.toByteArray :=
    String.utf8Encode_toList
  exact List.toByteArray_inj.mp encoded

/-- Every byte of a character that takes several is high. -/
theorem utf8EncodeChar_low
    {char : Char} {byte : UInt8}
    (member : byte ∈ String.utf8EncodeChar char) (isLow : byte < 0x80) :
    String.utf8EncodeChar char = [byte] := by
  have high :
      ∀ value bound : Nat, 128 ≤ bound → value + bound < 256 →
        ¬ UInt8.ofNat (value + bound) < 0x80 := by
    intro value bound isHigh fits low
    have low : (UInt8.ofNat (value + bound)).toNat < 128 := low
    rw [UInt8.toNat_ofNat', Nat.mod_eq_of_lt fits] at low
    omega
  unfold String.utf8EncodeChar at member ⊢
  generalize char.val.toNat = code at member ⊢
  simp only at member ⊢
  split at member
  · next ascii => rw [if_pos ascii, List.mem_singleton.mp member]
  · split at member
    · simp only [List.mem_cons, List.not_mem_nil, or_false] at member
      rcases member with rfl | rfl <;>
        exact absurd isLow (high _ _ (by omega) (by omega))
    · split at member
      · simp only [List.mem_cons, List.not_mem_nil, or_false] at member
        rcases member with rfl | rfl | rfl <;>
          exact absurd isLow (high _ _ (by omega) (by omega))
      · simp only [List.mem_cons, List.not_mem_nil, or_false] at member
        rcases member with rfl | rfl | rfl | rfl <;>
          exact absurd isLow (high _ _ (by omega) (by omega))

/-- A low byte is a character, and the bytes before it are characters. -/
theorem utf8_boundary
    {chars : List Char} {bytes : List UInt8} {byte : UInt8}
    (isLow : byte < 0x80) (isPrefix : bytes ++ [byte] <+: utf8 chars) :
    ∃ before char,
      before ++ [char] <+: chars ∧ utf8 before = bytes ∧
        String.utf8EncodeChar char = [byte] := by
  induction chars generalizing bytes with
  | nil =>
      rw [utf8, List.flatMap_nil, List.prefix_nil] at isPrefix
      simp at isPrefix
  | cons char rest induction =>
      have encoding :
          utf8 (char :: rest) = String.utf8EncodeChar char ++ utf8 rest :=
        List.flatMap_cons
      rw [encoding] at isPrefix
      rcases Nat.lt_or_ge bytes.length
          (String.utf8EncodeChar char).length with inside | beyond
      · have inChar :
            bytes ++ [byte] <+: String.utf8EncodeChar char := by
          apply List.prefix_of_prefix_length_le isPrefix
            (List.prefix_append _ _)
          rw [List.length_append, List.length_singleton]
          exact inside
        have single :=
          utf8EncodeChar_low
            (inChar.subset (List.mem_append_right _ List.mem_cons_self))
            isLow
        refine ⟨[], char, ?_, ?_, single⟩
        · exact List.prefix_append [char] rest
        · rw [single, List.length_singleton, Nat.lt_one_iff] at inside
          exact (List.length_eq_zero_iff.mp inside).symm
      · have starts : String.utf8EncodeChar char <+: bytes := by
          apply List.prefix_of_prefix_length_le _ _ beyond
          · exact String.utf8EncodeChar char ++ utf8 rest
          · exact List.prefix_append _ _
          · exact (List.prefix_append bytes [byte]).trans isPrefix
        rcases starts with ⟨later, rfl⟩
        rw [List.append_assoc, List.prefix_append_right_inj] at isPrefix
        rcases induction isPrefix with
          ⟨before, last, within, isBefore, isLast⟩
        refine ⟨char :: before, last, ?_, ?_, isLast⟩
        · exact List.cons_prefix_cons.mpr ⟨rfl, within⟩
        · rw [← isBefore]
          exact List.flatMap_cons

theorem utf8_injective : Function.Injective utf8 := by
  intro first second same
  have decoded := fromUtf8_utf8_ofList first
  rw [same, fromUtf8_utf8_ofList, Option.some.injEq] at decoded
  exact String.ofList_injective decoded.symm

/-- The ASCII characters. -/
def isAscii (char : Char) : Bool :=
  char.toNat < 0x80

theorem utf8_ascii
    {char : Char} (ascii : isAscii char = true) :
    utf8 [char] = [UInt8.ofNat char.toNat] := by
  have bound : char.toNat < 0x80 := of_decide_eq_true ascii
  rw [utf8, List.flatMap_singleton, String.utf8EncodeChar]
  exact if_pos (Nat.le_of_lt_succ bound)

theorem length_utf8_ascii
    {chars : List Char} (ascii : ∀ char ∈ chars, isAscii char = true) :
    (utf8 chars).length = chars.length := by
  induction chars with
  | nil => rfl
  | cons char rest induction =>
      rw [List.forall_mem_cons] at ascii
      have split : utf8 (char :: rest) = utf8 [char] ++ utf8 rest :=
        utf8_append [char] rest
      rw [split, utf8_ascii ascii.1, List.length_append,
        induction ascii.2, List.length_singleton, List.length_cons,
        Nat.add_comm]

/-- An ASCII character that ends the bytes ends the characters. -/
theorem utf8_prefix_concat
    {chars : List Char} {bytes : List UInt8} {char : Char}
    (ascii : isAscii char = true)
    (isPrefix : bytes ++ utf8 [char] <+: utf8 chars) :
    ∃ before, before ++ [char] <+: chars ∧ utf8 before = bytes := by
  have bound : char.toNat < 0x80 := of_decide_eq_true ascii
  have isLow : UInt8.ofNat char.toNat < 0x80 := by
    show (UInt8.ofNat char.toNat).toNat < 128
    rw [UInt8.toNat_ofNat', Nat.mod_eq_of_lt (by omega)]
    exact bound
  rw [utf8_ascii ascii] at isPrefix
  rcases utf8_boundary isLow isPrefix with
    ⟨before, last, within, isBefore, isLast⟩
  have same : [last] = [char] := by
    apply utf8_injective
    rw [utf8_ascii ascii, utf8, List.flatMap_singleton]
    exact isLast
  rw [same] at within
  exact ⟨before, within, isBefore⟩

/-- So do several. -/
theorem utf8_ends
    {chars ending : List Char} {bytes : List UInt8}
    (ascii : ∀ char ∈ ending, isAscii char = true)
    (ends : utf8 chars = bytes ++ utf8 ending) :
    ∃ before, chars = before ++ ending ∧ utf8 before = bytes := by
  induction ending using List.reverseRecOn generalizing chars with
  | nil =>
      refine ⟨chars, (List.append_nil chars).symm, ?_⟩
      exact ends.trans (List.append_nil bytes)
  | append_singleton ending last induction =>
      rw [utf8_append, ← List.append_assoc] at ends
      have whole :
          bytes ++ utf8 ending ++ utf8 [last] <+: utf8 chars := by
        rw [ends]
      rcases utf8_prefix_concat (ascii last (by simp)) whole with
        ⟨before, ⟨later, rfl⟩, isBefore⟩
      have nothing : later = [] := by
        rw [utf8_append, utf8_append, isBefore] at ends
        exact utf8_eq_nil_iff.mp (List.append_right_eq_self.mp ends)
      rcases induction
          (fun char member =>
            ascii char (List.mem_append_left _ member)) isBefore with
        ⟨start, rfl, isStart⟩
      refine ⟨start, ?_, isStart⟩
      rw [nothing, List.append_nil, List.append_assoc]

/-- Where ASCII characters are found among the bytes, they are characters. -/
theorem utf8_prefix_ends
    {chars ending : List Char} {bytes : List UInt8} {last : Char}
    (ascii : ∀ char ∈ ending ++ [last], isAscii char = true)
    (isPrefix : bytes ++ utf8 (ending ++ [last]) <+: utf8 chars) :
    ∃ before, before ++ (ending ++ [last]) <+: chars ∧
      utf8 before = bytes := by
  rw [utf8_append, ← List.append_assoc] at isPrefix
  rcases utf8_prefix_concat (ascii last (by simp)) isPrefix with
    ⟨before, within, isBefore⟩
  rcases utf8_ends
      (fun char member => ascii char (List.mem_append_left _ member))
      isBefore with
    ⟨start, rfl, isStart⟩
  rw [List.append_assoc] at within
  exact ⟨start, within, isStart⟩

/-! ## Lines -/

def crlf : List Char :=
  ['\r', '\n']

/-- The parts between the ends of lines. -/
def crlfParts : List Char → List (List Char)
  | [] => [[]]
  | '\r' :: '\n' :: rest => [] :: crlfParts rest
  | char :: rest =>
      match crlfParts rest with
      | [] => [[char]]
      | line :: later => (char :: line) :: later

/-- `str::split` at the ends of lines. -/
def splitCrlf (text : String) : List String :=
  (crlfParts text.toList).map String.ofList

/-- Nothing in the line ends it. -/
def IsLine (line : List Char) : Prop :=
  ¬ crlf <:+: line

theorem isLine_of_not_mem
    {line : List Char} (outside : '\r' ∉ line) : IsLine line :=
  fun within => outside (within.subset List.mem_cons_self)

/-- The lines, with an end of line between each two. -/
def joinCrlf (first : List Char) (rest : List (List Char)) : List Char :=
  first ++ rest.flatMap (crlf ++ ·)

theorem crlfParts_ne_nil (chars : List Char) : crlfParts chars ≠ [] := by
  fun_cases crlfParts chars <;> simp [*]

theorem eq_nil_of_crlfParts
    {chars : List Char} (parts : crlfParts chars = [[]]) : chars = [] := by
  fun_cases crlfParts chars with
  | case1 => rfl
  | case2 rest =>
      rw [crlfParts.eq_2, List.cons.injEq] at parts
      exact absurd parts.2 (crlfParts_ne_nil rest)
  | _ => simp_all [crlfParts]

/-- A character that does not begin the end of a line goes to the first. -/
theorem crlfParts_cons
    {char : Char} {chars : List Char}
    (free : ¬ crlf <+: char :: chars)
    {line : List Char} {later : List (List Char)}
    (parts : crlfParts chars = line :: later) :
    crlfParts (char :: chars) = (char :: line) :: later := by
  rw [crlfParts.eq_3]
  · rw [parts]
  · rintro rest rfl rfl
    exact free (List.prefix_append crlf rest)

theorem crlfParts_crlf (chars : List Char) :
    crlfParts (crlf ++ chars) = [] :: crlfParts chars :=
  rfl

/-- Every end of a line splits, wherever it is found. -/
theorem crlfParts_append (before after : List Char) :
    crlfParts (before ++ (crlf ++ after)) =
      crlfParts before ++ crlfParts after := by
  fun_induction crlfParts before with
  | case1 => rfl
  | case2 rest induction =>
      show [] :: crlfParts (rest ++ (crlf ++ after)) = _
      rw [induction]
      rfl
  | case3 char rest free parts =>
      exact absurd parts (crlfParts_ne_nil rest)
  | case4 char rest free line later parts induction =>
      rw [parts] at induction
      apply crlfParts_cons _ induction
      rintro ⟨ending, split⟩
      cases rest with
      | nil => cases split
      | cons second rest =>
          cases split
          exact free rest rfl rfl

/-- A line is not split. -/
theorem crlfParts_line
    {line : List Char} (isLine : IsLine line) :
    crlfParts line = [line] := by
  induction line with
  | nil => rfl
  | cons char rest induction =>
      apply crlfParts_cons
      · exact fun starts => isLine starts.isInfix
      · apply induction
        exact fun within => isLine (within.trans (List.suffix_cons _ _).isInfix)

/-- Splitting gives the lines back. -/
theorem crlfParts_joinCrlf
    {first : List Char} {rest : List (List Char)}
    (isFirst : IsLine first) (areLines : ∀ line ∈ rest, IsLine line) :
    crlfParts (joinCrlf first rest) = first :: rest := by
  induction rest generalizing first with
  | nil =>
      rw [joinCrlf, List.flatMap_nil, List.append_nil]
      exact crlfParts_line isFirst
  | cons line rest induction =>
      rw [List.forall_mem_cons] at areLines
      have joined :
          joinCrlf first (line :: rest) =
            first ++ (crlf ++ joinCrlf line rest) := by
        rw [joinCrlf, List.flatMap_cons, List.append_assoc]
        rfl
      rw [joined, crlfParts_append, crlfParts_line isFirst,
        induction areLines.1 areLines.2]
      rfl

/-- So does joining the parts. -/
theorem joinCrlf_crlfParts
    {chars line : List Char} {later : List (List Char)}
    (parts : crlfParts chars = line :: later) :
    joinCrlf line later = chars := by
  fun_induction crlfParts chars generalizing line later with
  | case1 =>
      cases parts
      rfl
  | case2 rest induction =>
      cases parts
      rcases split : crlfParts rest with _ | ⟨first, others⟩
      · exact absurd split (crlfParts_ne_nil rest)
      · have whole := induction split
        rw [← whole, joinCrlf, joinCrlf, List.flatMap_cons]
        rfl
  | case3 char rest free none =>
      exact absurd none (crlfParts_ne_nil rest)
  | case4 char rest free first others split induction =>
      cases parts
      rw [← induction split]
      rfl

theorem IsLine.part
    {part line : List Char}
    (isLine : IsLine line) (within : part <:+: line) :
    IsLine part :=
  fun inside => isLine (inside.trans within)

/-- No line ends between two that do not meet there. -/
theorem IsLine.append
    {left right : List Char}
    (isLeft : IsLine left) (isRight : IsLine right)
    (apart : '\r' ∉ left ∨ right.head? ≠ some '\n') :
    IsLine (left ++ right) := by
  rintro ⟨before, after, whole⟩
  rw [List.append_assoc] at whole
  rcases List.append_eq_append_iff.mp whole with
    ⟨between, rfl, ending⟩ | ⟨between, rfl, rfl⟩
  · rcases between with _ | ⟨first, _ | ⟨second, between⟩⟩
    · exact isRight ⟨[], after, ending⟩
    · cases ending
      rcases apart with outside | other
      · exact outside (List.mem_append_right _ List.mem_cons_self)
      · exact other rfl
    · cases ending
      refine isLeft ⟨before, between, ?_⟩
      exact List.append_assoc before crlf between
  · refine isRight ⟨between, after, ?_⟩
    exact List.append_assoc between crlf after

/-- The parts are lines. -/
theorem isLine_of_mem_crlfParts
    {chars line : List Char} (member : line ∈ crlfParts chars) :
    IsLine line := by
  fun_induction crlfParts chars generalizing line with
  | case1 =>
      rw [List.mem_singleton.mp member]
      exact isLine_of_not_mem List.not_mem_nil
  | case2 rest induction =>
      rcases List.mem_cons.mp member with rfl | later
      · exact isLine_of_not_mem List.not_mem_nil
      · exact induction later
  | case3 char rest free none =>
      exact absurd none (crlfParts_ne_nil rest)
  | case4 char rest free first others split induction =>
      rcases List.mem_cons.mp member with rfl | later
      · have isFirst := induction (split ▸ List.mem_cons_self)
        intro within
        rcases List.infix_cons_iff.mp within with starts | inside
        · rcases starts with ⟨after, starts⟩
          cases starts
          exact free _ rfl (joinCrlf_crlfParts split).symm
        · exact isFirst inside
      · exact induction (split ▸ List.mem_cons_of_mem _ later)

/-- The first blank line is the one after lines that are not blank. -/
theorem blank_line_ends
    {first : List Char} {rest : List (List Char)}
    (areLines : ∀ line ∈ first :: rest, IsLine line ∧ line ≠ [])
    {before : List Char}
    (blank :
      before ++ (crlf ++ crlf) <+: joinCrlf first rest ++ (crlf ++ crlf)) :
    before = joinCrlf first rest := by
  rcases blank with ⟨after, split⟩
  have parts :
      crlfParts before ++ [] :: crlfParts after =
        (first :: rest) ++ [[], []] := by
    have whole := congrArg crlfParts split
    have lines :=
      crlfParts_joinCrlf (areLines first List.mem_cons_self).1
        fun line member =>
          (areLines line (List.mem_cons_of_mem _ member)).1
    rw [crlfParts_append (joinCrlf first rest) crlf, lines,
      List.append_assoc, List.append_assoc, crlfParts_append,
      crlfParts_crlf] at whole
    exact whole
  have nothing : after = [] := by
    rcases List.append_eq_append_iff.mp parts with
      ⟨between, isLines, isRest⟩ | ⟨between, -, isRest⟩
    · cases between with
      | nil =>
          rw [List.nil_append, List.cons.injEq] at isRest
          exact eq_nil_of_crlfParts isRest.2
      | cons line between =>
          rw [List.cons_append, List.cons.injEq] at isRest
          have member : line ∈ first :: rest := by
            rw [isLines]
            exact List.mem_append_right _ List.mem_cons_self
          exact absurd isRest.1.symm (areLines line member).2
    · cases between with
      | nil =>
          rw [List.nil_append, List.cons.injEq] at isRest
          exact eq_nil_of_crlfParts isRest.2.symm
      | cons line between =>
          rw [List.cons_append, List.cons.injEq] at isRest
          have lengths := congrArg List.length isRest.2
          rw [List.length_append, List.length_cons] at lengths
          have short : (crlfParts after).length = 0 := by
            simp only [List.length_cons, List.length_nil] at lengths
            omega
          exact
            absurd (List.length_eq_zero_iff.mp short)
              (crlfParts_ne_nil after)
  rw [nothing, List.append_nil] at split
  exact List.append_cancel_right split

/-- So it is among the bytes. -/
theorem blank_bytes_end
    {first : List Char} {rest : List (List Char)}
    (areLines : ∀ line ∈ first :: rest, IsLine line ∧ line ≠ [])
    {bytes : List UInt8}
    (blank :
      bytes ++ utf8 (crlf ++ crlf) <+:
        utf8 (joinCrlf first rest ++ (crlf ++ crlf))) :
    bytes = utf8 (joinCrlf first rest) := by
  have ascii :
      ∀ char ∈ ['\r', '\n', '\r'] ++ ['\n'], isAscii char = true := by
    simp [isAscii]
  rcases utf8_prefix_ends ascii blank with ⟨before, within, isBefore⟩
  rw [← isBefore, blank_line_ends areLines within]

/-! ## Fields -/

/-- `str::split_once` at a character. -/
def splitOnce (text : String) (separator : Char) :
    Option (String × String) :=
  match text.toList.dropWhile (· ≠ separator) with
  | [] => none
  | _ :: after =>
      some
        (String.ofList (text.toList.takeWhile (· ≠ separator)),
          String.ofList after)

theorem splitOnce_of_toList
    {text : String} {separator : Char} {before after : List Char}
    (split : text.toList = before ++ separator :: after)
    (outside : separator ∉ before) :
    splitOnce text separator =
      some (String.ofList before, String.ofList after) := by
  have differ : ∀ char ∈ before, decide (char ≠ separator) = true := by
    intro char member
    exact decide_eq_true fun same => outside (same ▸ member)
  rw [splitOnce, split, List.dropWhile_append_of_pos differ,
    List.takeWhile_append_of_pos differ]
  simp

/-- What it gives makes up the text, with the separator between. -/
theorem toList_of_splitOnce
    {text before after : String} {separator : Char}
    (split : splitOnce text separator = some (before, after)) :
    text.toList = before.toList ++ separator :: after.toList := by
  unfold splitOnce at split
  split at split
  · cases split
  · next found rest ends =>
      cases split
      have isSeparator : found = separator := by
        have stops := List.head?_dropWhile_not (· ≠ separator) text.toList
        rw [ends] at stops
        simpa using stops
      rw [String.toList_ofList, String.toList_ofList]
      calc
        text.toList =
            text.toList.takeWhile (· ≠ separator) ++
              text.toList.dropWhile (· ≠ separator) :=
          List.takeWhile_append_dropWhile.symm
        _ = _ := by rw [ends, isSeparator]

theorem suffix_of_splitOnce
    {text before after : String} {separator : Char}
    (split : splitOnce text separator = some (before, after)) :
    after.toList <:+ text.toList := by
  rw [toList_of_splitOnce split]
  exact (List.suffix_cons _ _).trans (List.suffix_append _ _)

/-- `str::parse::<usize>`. -/
def parseUsize (text : String) : Option Nat :=
  let digits :=
    match text.toList with
    | '+' :: rest => rest
    | all => all
  if digits.isEmpty || !digits.all Char.isDigit then
    none
  else
    let value :=
      digits.foldl
        (fun value digit => value * 10 + (digit.toNat - '0'.toNat)) 0
    if value < 2 ^ 64 then some value else none

theorem toList_trim (text : String) :
    (trim text).toList =
      (text.toList.dropWhile isWhitespace).rdropWhile isWhitespace :=
  String.toList_ofList

/-- Trimming cuts a text at both ends. -/
theorem trim_within (text : String) :
    (trim text).toList <:+: text.toList := by
  rw [toList_trim]
  exact
    (List.rdropWhile_prefix isWhitespace _).isInfix.trans
      (List.dropWhile_suffix isWhitespace).isInfix

theorem trim_trim (text : String) : trim (trim text) = trim text := by
  have front :
      (trim text).toList.dropWhile isWhitespace =
        (trim text).toList := by
    rw [toList_trim, List.dropWhile_eq_self_iff]
    intro some
    have starts :=
      List.rdropWhile_prefix isWhitespace
        (text.toList.dropWhile isWhitespace)
    rw [starts.getElem some]
    exact
      List.dropWhile_get_zero_not isWhitespace text.toList
        (Nat.lt_of_lt_of_le some starts.length_le)
  apply String.toList_injective
  rw [toList_trim, front, toList_trim, List.rdropWhile_idempotent]

/-- Without white space there is nothing to trim. -/
theorem trim_of_solid
    {text : String}
    (solid : ∀ char ∈ text.toList, isWhitespace char = false) :
    trim text = text := by
  have front : text.toList.dropWhile isWhitespace = text.toList := by
    rw [List.dropWhile_eq_self_iff]
    intro some
    rw [solid _ (List.getElem_mem some)]
    exact Bool.false_ne_true
  apply String.toList_injective
  rw [toList_trim, front, List.rdropWhile_eq_self_iff]
  intro some
  rw [solid _ (List.getLast_mem some)]
  exact Bool.false_ne_true

/-- A space in front is trimmed. -/
theorem trim_space
    {text : String} (trimmed : trim text = text) :
    trim (String.ofList (' ' :: text.toList)) = text := by
  rw [trim, String.toList_ofList,
    List.dropWhile_cons_of_pos (by decide : isWhitespace ' ' = true)]
  exact trimmed

/-! ## `str::lines` -/

/-- A line that ends, in front of other lines. -/
theorem lines_cons
    {line : List Char} (noFeed : '\n' ∉ line) (rest : List Char) :
    lines (String.ofList (line ++ '\n' :: rest)) =
      String.ofList (stripReturn line) :: lines (String.ofList rest) := by
  have isSplit :
      (line ++ '\n' :: rest).splitOn '\n' =
        line :: rest.splitOn '\n' :=
    List.splitOn_append_cons_self_of_not_mem noFeed rest
  have some : rest.splitOn '\n' ≠ [] := List.splitOn_ne_nil _ _
  simp only [lines, String.toList_ofList, isSplit]
  rw [List.getLast?_cons_of_ne_nil some, List.dropLast_cons_of_ne_nil some]
  rfl

/-- Text without a line feed is one line, or none when it is empty. -/
theorem lines_single {line : List Char} (noFeed : '\n' ∉ line) :
    lines (String.ofList line) =
      if line.isEmpty then [] else [String.ofList line] := by
  have isSplit : line.splitOn '\n' = [line] :=
    List.splitOn_eq_singleton noFeed
  simp only [lines, String.toList_ofList, isSplit, List.getLast?_singleton,
    Option.getD_some, List.dropLast_singleton, List.map_nil,
    List.nil_append]
  split_ifs <;> rfl

end OpenAirplay2.Lib.Str

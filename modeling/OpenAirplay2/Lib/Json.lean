import Mathlib

/-!
# JSON texts

Values, the compact text of a value, and a reader of texts.  The reader
skips white space, resolves escapes, and refuses what is nested deeper than
a bound.  A number is its sign, whole part, fraction and exponent; what it
stands for is left to whoever reads it.

Whatever fits the bound is read back from its own text.
-/

namespace OpenAirplay2.Lib.Json

/-- A number as it is written, but for the spelling of its exponent. -/
structure Numeral where
  negative : Bool
  whole : Nat
  /-- The digits after the point; there is no point without them. -/
  fraction : List (Fin 10)
  exponent : Option Int
deriving DecidableEq, Repr

namespace Numeral

/-- A natural number. -/
def ofNat (value : Nat) : Numeral where
  negative := false
  whole := value
  fraction := []
  exponent := none

/-- The natural number that is written, if the text is one. -/
def toNat? (numeral : Numeral) : Option Nat :=
  if numeral.negative || !numeral.fraction.isEmpty ||
      numeral.exponent.isSome then
    none
  else some numeral.whole

@[simp]
theorem toNat?_ofNat (value : Nat) : (ofNat value).toNat? = some value :=
  rfl

end Numeral

/-- A value; the members of an object in the order of the text. -/
inductive Value where
  | null
  | bool (value : Bool)
  | number (value : Numeral)
  | string (text : String)
  | array (items : List Value)
  | object (members : List (String × Value))

/-! ## Writing -/

/-- A digit of a `\u` escape. -/
def hexDigit (value : Nat) : Char :=
  if value < 10 then Char.ofNat (48 + value) else Char.ofNat (87 + value)

/-- A character in a text, escaped where it has to be. -/
def escape (sign : Char) : List Char :=
  if sign = '"' then ['\\', '"']
  else if sign = '\\' then ['\\', '\\']
  else if sign = '\n' then ['\\', 'n']
  else if sign = '\r' then ['\\', 'r']
  else if sign = '\t' then ['\\', 't']
  else if sign.toNat = 8 then ['\\', 'b']
  else if sign.toNat = 12 then ['\\', 'f']
  else if sign.toNat < 32 then
    ['\\', 'u', '0', '0', hexDigit (sign.toNat / 16),
      hexDigit (sign.toNat % 16)]
  else [sign]

/-- A text in quotes. -/
def quoted (text : String) : List Char :=
  '"' :: (text.toList.flatMap escape ++ ['"'])

namespace Numeral

/-- The exponent's sign and digits. -/
def printExponent : Option Int → List Char
  | none => []
  | some (.ofNat value) => 'e' :: Nat.toDigits 10 value
  | some (.negSucc value) => 'e' :: '-' :: Nat.toDigits 10 (value + 1)

def printFraction : List (Fin 10) → List Char
  | [] => []
  | digits => '.' :: digits.map fun digit : Fin 10 => digit.val.digitChar

def print (numeral : Numeral) : List Char :=
  (if numeral.negative then ['-'] else []) ++
    (Nat.toDigits 10 numeral.whole ++
      (printFraction numeral.fraction ++ printExponent numeral.exponent))

end Numeral

/-- Texts with commas between them. -/
def separated : List (List Char) → List Char
  | [] => []
  | [text] => text
  | text :: rest => text ++ ',' :: separated rest

namespace Value

mutual

/-- The compact text of a value. -/
def print : Value → List Char
  | null => ['n', 'u', 'l', 'l']
  | bool true => ['t', 'r', 'u', 'e']
  | bool false => ['f', 'a', 'l', 's', 'e']
  | number value => value.print
  | string text => quoted text
  | array items =>
      '[' :: (separated (printItems items) ++ [']'])
  | object members =>
      '{' :: (separated (printMembers members) ++ ['}'])
termination_by structural value => value

def printItems : List Value → List (List Char)
  | [] => []
  | item :: rest => print item :: printItems rest
termination_by structural items => items

def printMember : String × Value → List Char
  | (key, item) => quoted key ++ ':' :: print item
termination_by structural member => member

def printMembers : List (String × Value) → List (List Char)
  | [] => []
  | member :: rest => printMember member :: printMembers rest
termination_by structural members => members

end

theorem printItems_eq (items : List Value) :
    printItems items = items.map print := by
  induction items with
  | nil => rfl
  | cons item rest induction => rw [printItems, induction, List.map_cons]

theorem printMembers_eq (members : List (String × Value)) :
    printMembers members = members.map printMember := by
  induction members with
  | nil => rfl
  | cons member rest induction =>
      rw [printMembers, induction, List.map_cons]

mutual

/-- Every number in a value. -/
def numerals : Value → List Numeral
  | null => []
  | bool _ => []
  | number value => [value]
  | string _ => []
  | array items => numeralsItems items
  | object members => numeralsMembers members
termination_by structural value => value

def numeralsItems : List Value → List Numeral
  | [] => []
  | item :: rest => numerals item ++ numeralsItems rest
termination_by structural items => items

def numeralsMember : String × Value → List Numeral
  | (_, item) => numerals item
termination_by structural member => member

def numeralsMembers : List (String × Value) → List Numeral
  | [] => []
  | member :: rest => numeralsMember member ++ numeralsMembers rest
termination_by structural members => members

end

theorem numeralsMembers_eq (members : List (String × Value)) :
    numeralsMembers members =
      members.flatMap fun member => numerals member.2 := by
  induction members with
  | nil => rfl
  | cons member rest induction =>
      rcases member with ⟨_, item⟩
      rw [numeralsMembers, induction, List.flatMap_cons]
      rfl

end Value

/-! ## Reading -/

/-- White space between the parts of a text. -/
def isBlank (sign : Char) : Bool :=
  sign = ' ' || sign = '\n' || sign = '\t' || sign = '\r'

def skip (text : List Char) : List Char :=
  text.dropWhile isBlank

/-- The value of a digit of a `\u` escape. -/
def hexValue (sign : Char) : Option Nat :=
  if sign.isDigit then some (sign.toNat - 48)
  else if 'a' ≤ sign ∧ sign ≤ 'f' then some (sign.toNat - 87)
  else if 'A' ≤ sign ∧ sign ≤ 'F' then some (sign.toNat - 55)
  else none

/-- Four such digits. -/
def unit (first second third fourth : Char) : Option Nat := do
  let first ← hexValue first
  let second ← hexValue second
  let third ← hexValue third
  let fourth ← hexValue fourth
  some (((first * 16 + second) * 16 + third) * 16 + fourth)

/-- What an escape of one sign stands for. -/
def unescape (sign : Char) : Option Char :=
  if sign = '"' then some '"'
  else if sign = '\\' then some '\\'
  else if sign = '/' then some '/'
  else if sign = 'n' then some '\n'
  else if sign = 'r' then some '\r'
  else if sign = 't' then some '\t'
  else if sign = 'b' then some (Char.ofNat 8)
  else if sign = 'f' then some (Char.ofNat 12)
  else none

/-- A character before what was read after it. -/
def before (sign : Char) :
    Option (List Char × List Char) → Option (List Char × List Char) :=
  Option.map fun read => (sign :: read.1, read.2)

/-- The text up to its closing quote, and what follows. -/
def quotedRest : List Char → Option (List Char × List Char)
  | [] => none
  | '"' :: text => some ([], text)
  | '\\' :: 'u' :: a :: b :: c :: d :: text =>
      match unit a b c d with
      | none => none
      | some high =>
          if 0xD800 ≤ high ∧ high < 0xDC00 then
            match text with
            | '\\' :: 'u' :: e :: f :: g :: h :: text =>
                match unit e f g h with
                | none => none
                | some low =>
                    if 0xDC00 ≤ low ∧ low < 0xE000 then
                      before
                        (Char.ofNat
                          (0x10000 + (high - 0xD800) * 0x400 +
                            (low - 0xDC00)))
                        (quotedRest text)
                    else none
            | _ => none
          else if 0xDC00 ≤ high ∧ high < 0xE000 then none
          else before (Char.ofNat high) (quotedRest text)
  | '\\' :: sign :: text =>
      match unescape sign with
      | none => none
      | some meant => before meant (quotedRest text)
  | sign :: text =>
      if sign.toNat < 32 || sign = '\\' then none
      else before sign (quotedRest text)

/-- At least one digit. -/
def digitsRest (text : List Char) : Option (List Char × List Char) :=
  match text.span Char.isDigit with
  | ([], _) => none
  | (digits, rest) => some (digits, rest)

/-- The fraction of a number, if there is a point. -/
def fractionRest : List Char → Option (List (Fin 10) × List Char)
  | '.' :: text =>
      (digitsRest text).map fun read =>
        (read.1.map fun digit => Fin.ofNat 10 (digit.toNat - 48), read.2)
  | text => some ([], text)

/-- The digits of an exponent, with or without a sign. -/
def signedRest : List Char → Option (Int × List Char)
  | '-' :: text =>
      (digitsRest text).map fun read =>
        (-(Nat.ofDigitChars 10 read.1 0 : Int), read.2)
  | '+' :: text =>
      (digitsRest text).map fun read =>
        ((Nat.ofDigitChars 10 read.1 0 : Int), read.2)
  | text =>
      (digitsRest text).map fun read =>
        ((Nat.ofDigitChars 10 read.1 0 : Int), read.2)

/-- The exponent of a number, if there is a mark of one. -/
def exponentRest : List Char → Option (Option Int × List Char)
  | [] => some (none, [])
  | mark :: text =>
      if mark = 'e' ∨ mark = 'E' then
        (signedRest text).map fun read => (some read.1, read.2)
      else some (none, mark :: text)

/-- A number without its sign: no whole part begins with a needless zero. -/
def unsignedRest
    (negative : Bool) (text : List Char) :
    Option (Numeral × List Char) :=
  match digitsRest text with
  | none => none
  | some (whole, text) =>
      if whole.head? = some '0' ∧ 1 < whole.length then none
      else
        match fractionRest text with
        | none => none
        | some (fraction, text) =>
            (exponentRest text).map fun read =>
              ({ negative := negative
                 whole := Nat.ofDigitChars 10 whole 0
                 fraction := fraction
                 exponent := read.1 },
                read.2)

def numeralRest : List Char → Option (Numeral × List Char)
  | '-' :: text => unsignedRest true text
  | text => unsignedRest false text

/-- A value that is not nested, and what follows. -/
def scalarRest : List Char → Option (Value × List Char)
  | '"' :: text =>
      (quotedRest text).map fun read =>
        (.string (String.ofList read.1), read.2)
  | 'n' :: 'u' :: 'l' :: 'l' :: text => some (.null, text)
  | 't' :: 'r' :: 'u' :: 'e' :: text => some (.bool true, text)
  | 'f' :: 'a' :: 'l' :: 's' :: 'e' :: text => some (.bool false, text)
  | text =>
      (numeralRest text).map fun read => (.number read.1, read.2)

/-- Elements with commas between them, from one on, up to the end. -/
def listRest
    {Element : Type}
    (elementRest : List Char → Option (Element × List Char))
    (close : Char) :
    Nat → List Char → Option (List Element × List Char)
  | 0, _ => none
  | fuel + 1, text =>
      match elementRest text with
      | none => none
      | some (element, text) =>
          match skip text with
          | [] => none
          | sign :: text =>
              if sign = ',' then
                (listRest elementRest close fuel text).map fun read =>
                  (element :: read.1, read.2)
              else if sign = close then some ([element], text)
              else none

/-- No element, or some. -/
def elementsRest
    {Element : Type}
    (elementRest : List Char → Option (Element × List Char))
    (close : Char) (text : List Char) :
    Option (List Element × List Char) :=
  match skip text with
  | [] => none
  | sign :: text =>
      if sign = close then some ([], text)
      else listRest elementRest close (text.length + 1) (sign :: text)

/-- A member of an object, and what follows. -/
def memberRest
    (valueRest : List Char → Option (Value × List Char))
    (text : List Char) :
    Option ((String × Value) × List Char) :=
  match skip text with
  | '"' :: text =>
      match quotedRest text with
      | none => none
      | some (key, text) =>
          match skip text with
          | ':' :: text =>
              (valueRest text).map fun read =>
                ((String.ofList key, read.1), read.2)
          | _ => none
  | _ => none

/-- A value that is nested at most so deep, and what follows. -/
def valueRest : Nat → List Char → Option (Value × List Char)
  | 0, text => scalarRest (skip text)
  | depth + 1, text =>
      match skip text with
      | '[' :: text =>
          (elementsRest (valueRest depth) ']' text).map fun read =>
            (.array read.1, read.2)
      | '{' :: text =>
          (elementsRest (memberRest (valueRest depth)) '}' text).map
            fun read => (.object read.1, read.2)
      | text => scalarRest text

/-- A text that is one value, nested at most so deep. -/
def read (depth : Nat) (text : List Char) : Option Value :=
  match valueRest depth text with
  | some (value, rest) => if skip rest = [] then some value else none
  | none => none

/-! ## Texts are read back: strings -/

@[simp]
theorem hexValue_hexDigit :
    ∀ value < 16, hexValue (hexDigit value) = some value := by
  decide

@[simp]
theorem before_some (sign : Char) (read : List Char × List Char) :
    before sign (some read) = some (sign :: read.1, read.2) :=
  rfl

theorem quotedRest_quote (text : List Char) :
    quotedRest ('"' :: text) = some ([], text) := by
  rw [quotedRest]

/-- An escape of one sign that is not a `u`. -/
theorem quotedRest_escape
    {sign meant : Char}
    (notUnit : sign ≠ 'u')
    (stands : unescape sign = some meant)
    (text : List Char) :
    quotedRest ('\\' :: sign :: text) = before meant (quotedRest text) := by
  rw [quotedRest.eq_def]
  split
  · next h => cases h
  · next h =>
      rw [List.cons.injEq] at h
      exact absurd h.1 (by decide)
  · next h =>
      rw [List.cons.injEq, List.cons.injEq] at h
      exact absurd h.2.1 notUnit
  · next h =>
      rw [List.cons.injEq, List.cons.injEq] at h
      rcases h with ⟨_, rfl, rfl⟩
      rw [stands]
  · next _ _ other h =>
      rw [List.cons.injEq] at h
      exact (other _ _ h.1.symm h.2.symm).elim

theorem quotedRest_plain
    {sign : Char}
    (printable : ¬sign.toNat < 32)
    (notQuote : sign ≠ '"') (notBackslash : sign ≠ '\\')
    (text : List Char) :
    quotedRest (sign :: text) = before sign (quotedRest text) := by
  rw [quotedRest.eq_def]
  split
  · next h => cases h
  · next h =>
      rw [List.cons.injEq] at h
      exact absurd h.1 notQuote
  · next h =>
      rw [List.cons.injEq] at h
      exact absurd h.1 notBackslash
  · next h =>
      rw [List.cons.injEq] at h
      exact absurd h.1 notBackslash
  · next h =>
      rw [List.cons.injEq] at h
      rcases h with ⟨rfl, rfl⟩
      rw [decide_eq_false printable, decide_eq_false notBackslash]
      rfl

theorem quotedRest_unit
    {a b c d : Char} {value : Nat}
    (digits : unit a b c d = some value)
    (basic : value < 0xD800)
    (text : List Char) :
    quotedRest ('\\' :: 'u' :: a :: b :: c :: d :: text) =
      before (Char.ofNat value) (quotedRest text) := by
  have notHigh : ¬(0xD800 ≤ value ∧ value < 0xDC00) := by omega
  have notLow : ¬(0xDC00 ≤ value ∧ value < 0xE000) := by omega
  rw [quotedRest, digits]
  simp only [if_neg notHigh, if_neg notLow]

theorem unit_control :
    ∀ value < 32,
      unit '0' '0' (hexDigit (value / 16)) (hexDigit (value % 16)) =
        some value := by
  decide

/-- An escaped character is read back. -/
theorem quotedRest_escape_append (sign : Char) (text : List Char) :
    quotedRest (escape sign ++ text) = before sign (quotedRest text) := by
  have same : Char.ofNat sign.toNat = sign := Char.ofNat_toNat sign
  rw [escape]
  split
  · next quote =>
      rw [quote]
      exact quotedRest_escape (by decide) (by decide) text
  · next notQuote =>
    split
    · next backslash =>
        rw [backslash]
        exact quotedRest_escape (by decide) (by decide) text
    · next notBackslash =>
      split
      · next newline =>
          rw [newline]
          exact quotedRest_escape (by decide) (by decide) text
      · split
        · next carriage =>
            rw [carriage]
            exact quotedRest_escape (by decide) (by decide) text
        · split
          · next tab =>
              rw [tab]
              exact quotedRest_escape (by decide) (by decide) text
          · split
            · next backspace =>
                rw [← same, backspace]
                exact quotedRest_escape (by decide) (by decide) text
            · split
              · next feed =>
                  rw [← same, feed]
                  exact quotedRest_escape (by decide) (by decide) text
              · split
                · next control =>
                    have basic : sign.toNat < 0xD800 := by omega
                    have read :=
                      quotedRest_unit (unit_control sign.toNat control)
                        basic text
                    rwa [same] at read
                · next printable =>
                    exact
                      quotedRest_plain printable notQuote notBackslash text

/-- A text in quotes is read back, whatever follows it. -/
theorem quotedRest_quoted (text : String) (rest : List Char) :
    quotedRest (text.toList.flatMap escape ++ '"' :: rest) =
      some (text.toList, rest) := by
  induction text.toList with
  | nil => exact quotedRest_quote rest
  | cons sign signs induction =>
      rw [List.flatMap_cons, List.append_assoc, quotedRest_escape_append,
        induction, before_some]

/-! ## Texts are read back: numbers -/

/-- What follows cannot be part of a number. -/
def Stops (rest : List Char) : Prop :=
  ∀ sign ∈ rest.head?,
    sign.isDigit = false ∧ sign ≠ '.' ∧ sign ≠ 'e' ∧ sign ≠ 'E'

theorem stops_nil : Stops [] := by
  intro sign member
  cases member

theorem stops_cons
    {sign : Char}
    (digit : sign.isDigit = false) (point : sign ≠ '.')
    (small : sign ≠ 'e') (big : sign ≠ 'E')
    (rest : List Char) :
    Stops (sign :: rest) := by
  intro other member
  rw [List.head?_cons, Option.mem_def, Option.some.injEq] at member
  rw [← member]
  exact ⟨digit, point, small, big⟩

/-- Digits, followed by something else. -/
theorem digitsRest_append
    {digits : List Char}
    (all : ∀ sign ∈ digits, sign.isDigit = true)
    (nonempty : digits ≠ [])
    {rest : List Char}
    (stops : ∀ sign ∈ rest.head?, sign.isDigit = false) :
    digitsRest (digits ++ rest) = some (digits, rest) := by
  have none : rest.takeWhile Char.isDigit = [] ∧
      rest.dropWhile Char.isDigit = rest := by
    cases rest with
    | nil => exact ⟨rfl, rfl⟩
    | cons sign rest =>
        have ends : sign.isDigit = false := stops sign rfl
        constructor
        · rw [List.takeWhile_cons, ends]
          rfl
        · rw [List.dropWhile_cons, ends]
          rfl
  rw [digitsRest, List.span_eq_takeWhile_dropWhile,
    List.takeWhile_append_of_pos all, List.dropWhile_append_of_pos all,
    none.1, none.2, List.append_nil]
  cases digits with
  | nil => exact absurd rfl nonempty
  | cons sign signs => rfl

theorem isDigit_of_mem_toDigits {sign : Char} {value : Nat} :
    sign ∈ Nat.toDigits 10 value → sign.isDigit = true :=
  Nat.isDigit_of_mem_toDigits (by decide) (by decide)

theorem digitsRest_toDigits
    (value : Nat) {rest : List Char}
    (stops : ∀ sign ∈ rest.head?, sign.isDigit = false) :
    digitsRest (Nat.toDigits 10 value ++ rest) =
      some (Nat.toDigits 10 value, rest) :=
  digitsRest_append (fun _ => isDigit_of_mem_toDigits)
    Nat.toDigits_ne_nil stops

theorem head_toDigits_ne
    {value : Nat} (positive : 0 < value) :
    (Nat.toDigits 10 value).head? ≠ some '0' := by
  induction value using Nat.strong_induction_on with
  | _ value induction =>
      rw [Nat.toDigits_eq_if (by decide)]
      split
      · next small =>
          have digit :
              ∀ digit < 10, 0 < digit → Nat.digitChar digit ≠ '0' := by
            decide
          rw [List.head?_cons, Ne, Option.some.injEq]
          exact digit value small positive
      · next large =>
          rw [List.head?_append_of_ne_nil _ Nat.toDigits_ne_nil]
          exact
            induction (value / 10)
              (Nat.div_lt_self positive (by decide))
              (Nat.div_pos (Nat.not_lt.mp large) (by decide))

/-- A whole part is written without a needless zero. -/
theorem toDigits_no_zero (value : Nat) :
    ¬((Nat.toDigits 10 value).head? = some '0' ∧
        1 < (Nat.toDigits 10 value).length) := by
  rintro ⟨zero, long⟩
  rcases Nat.eq_zero_or_pos value with none | positive
  · rw [none, Nat.toDigits_zero] at long
    exact absurd long (by decide)
  · exact head_toDigits_ne positive zero

namespace Numeral

theorem digits_read (digits : List (Fin 10)) :
    ((digits.map fun digit : Fin 10 => digit.val.digitChar).map
        fun sign => Fin.ofNat 10 (sign.toNat - 48)) = digits := by
  have each :
      ∀ digit : Fin 10,
        Fin.ofNat 10 (digit.val.digitChar.toNat - 48) = digit := by
    decide
  rw [List.map_map]
  exact (List.map_congr_left fun digit _ => each digit).trans
    (List.map_id digits)

theorem isDigit_digitChar (digit : Fin 10) :
    digit.val.digitChar.isDigit = true := by
  rw [Nat.isDigit_digitChar]
  exact decide_eq_true digit.isLt

/-- What follows the whole part is not a digit. -/
theorem exponent_stops
    (exponent : Option Int) {rest : List Char} (stops : Stops rest) :
    ∀ sign ∈ (printExponent exponent ++ rest).head?,
      sign.isDigit = false ∧ sign ≠ '.' := by
  intro sign member
  cases exponent with
  | none => exact ⟨(stops sign member).1, (stops sign member).2.1⟩
  | some value =>
      cases value with
      | ofNat value =>
          rw [printExponent, List.cons_append, List.head?_cons,
            Option.mem_def, Option.some.injEq] at member
          rw [← member]
          decide
      | negSucc value =>
          rw [printExponent, List.cons_append, List.head?_cons,
            Option.mem_def, Option.some.injEq] at member
          rw [← member]
          decide

theorem fraction_stops
    (fraction : List (Fin 10)) (exponent : Option Int)
    {rest : List Char} (stops : Stops rest) :
    ∀ sign ∈
        (printFraction fraction ++ (printExponent exponent ++ rest)).head?,
      sign.isDigit = false := by
  intro sign member
  cases fraction with
  | nil => exact (exponent_stops exponent stops sign member).1
  | cons digit digits =>
      change sign ∈ ('.' :: _ : List Char).head? at member
      rw [List.head?_cons, Option.mem_def, Option.some.injEq] at member
      rw [← member]
      decide

/-- A fraction is read back, and an exponent may follow. -/
theorem fractionRest_print
    (fraction : List (Fin 10)) (exponent : Option Int)
    {rest : List Char} (stops : Stops rest) :
    fractionRest
        (printFraction fraction ++ (printExponent exponent ++ rest)) =
      some (fraction, printExponent exponent ++ rest) := by
  have ends := exponent_stops exponent stops
  cases fraction with
  | nil =>
      show fractionRest (printExponent exponent ++ rest) = _
      rw [fractionRest.eq_def]
      split
      · next followed =>
          rw [followed] at ends
          exact absurd rfl (ends '.' rfl).2
      · rfl
  | cons digit digits =>
      show (digitsRest
          ((digit :: digits).map
              (fun digit : Fin 10 => digit.val.digitChar) ++
            (printExponent exponent ++ rest))).map _ = _
      rw [digitsRest_append _ _ fun sign member => (ends sign member).1]
      · rw [Option.map_some, digits_read]
      · intro sign member
        rcases List.mem_map.mp member with ⟨value, _, rfl⟩
        exact isDigit_digitChar value
      · exact List.cons_ne_nil _ _

theorem stops_digit
    {rest : List Char} (stops : Stops rest) :
    ∀ sign ∈ rest.head?, sign.isDigit = false :=
  fun sign member => (stops sign member).1

/-- A sign is no digit. -/
theorem toDigits_append_ne
    {mark : Char} (notDigit : mark.isDigit = false)
    (value : Nat) (rest text : List Char) :
    Nat.toDigits 10 value ++ rest ≠ mark :: text := by
  cases digits : Nat.toDigits 10 value with
  | nil => exact absurd digits Nat.toDigits_ne_nil
  | cons sign signs =>
      have digit : sign.isDigit = true :=
        isDigit_of_mem_toDigits (digits ▸ List.mem_cons_self)
      rintro same
      rw [List.cons_append, List.cons.injEq] at same
      rw [same.1, notDigit] at digit
      cases digit

theorem signedRest_toDigits
    (value : Nat) {rest : List Char} (stops : Stops rest) :
    signedRest (Nat.toDigits 10 value ++ rest) =
      some ((value : Int), rest) := by
  rw [signedRest.eq_def]
  split
  · next same => exact absurd same (toDigits_append_ne (by decide) _ _ _)
  · next same => exact absurd same (toDigits_append_ne (by decide) _ _ _)
  · rw [digitsRest_toDigits value (stops_digit stops), Option.map_some,
      Nat.ofDigitChars_ten_toDigits]

/-- An exponent is read back. -/
theorem exponentRest_print
    (exponent : Option Int) {rest : List Char} (stops : Stops rest) :
    exponentRest (printExponent exponent ++ rest) =
      some (exponent, rest) := by
  cases exponent with
  | none =>
      rw [printExponent, List.nil_append]
      cases rest with
      | nil => rfl
      | cons sign rest =>
          exact
            if_neg
              (not_or_intro (stops sign rfl).2.2.1 (stops sign rfl).2.2.2)
  | some value =>
      cases value with
      | ofNat value =>
          rw [printExponent, List.cons_append, exponentRest,
            if_pos (Or.inl rfl), signedRest_toDigits value stops]
          rfl
      | negSucc value =>
          rw [printExponent, List.cons_append, exponentRest,
            if_pos (Or.inl rfl), List.cons_append, signedRest,
            digitsRest_toDigits _ (stops_digit stops), Option.map_some,
            Nat.ofDigitChars_ten_toDigits]
          rfl

theorem unsignedRest_print
    (numeral : Numeral) {rest : List Char} (stops : Stops rest) :
    unsignedRest numeral.negative
        (Nat.toDigits 10 numeral.whole ++
          (printFraction numeral.fraction ++
            (printExponent numeral.exponent ++ rest))) =
      some (numeral, rest) := by
  rw [unsignedRest,
    digitsRest_toDigits _
      (fraction_stops numeral.fraction numeral.exponent stops)]
  simp only [if_neg (toDigits_no_zero numeral.whole),
    fractionRest_print numeral.fraction numeral.exponent stops,
    exponentRest_print numeral.exponent stops, Option.map_some,
    Nat.ofDigitChars_ten_toDigits]

/-- A number is read back, if what follows is no part of it. -/
theorem numeralRest_print
    (numeral : Numeral) {rest : List Char} (stops : Stops rest) :
    numeralRest (numeral.print ++ rest) = some (numeral, rest) := by
  have read := numeral.unsignedRest_print stops
  cases sign : numeral.negative with
  | true =>
      rw [sign] at read
      rw [print, sign, if_pos rfl, List.append_assoc, List.append_assoc,
        List.append_assoc]
      exact read
  | false =>
      rw [sign] at read
      rw [print, sign, if_neg Bool.false_ne_true, List.nil_append,
        List.append_assoc, List.append_assoc, numeralRest.eq_def]
      split
      · next minus =>
          exact absurd minus (toDigits_append_ne (by decide) _ _ _)
      · exact read

end Numeral

/-! ## Texts are read back: values -/

theorem skip_cons
    {sign : Char} (notBlank : isBlank sign = false) (text : List Char) :
    skip (sign :: text) = sign :: text := by
  rw [skip, List.dropWhile_cons, notBlank]
  rfl

/-- The first sign of a value. -/
structure Opens (sign : Char) : Prop where
  notBlank : isBlank sign = false
  notItemsEnd : sign ≠ ']'
  notMembersEnd : sign ≠ '}'

theorem opens_of_isDigit {sign : Char} (digit : sign.isDigit = true) :
    Opens sign := by
  refine ⟨?_, ?_, ?_⟩
  · rw [isBlank]
    simp only [Bool.or_eq_false_iff, decide_eq_false_iff_not]
    refine ⟨⟨⟨?_, ?_⟩, ?_⟩, ?_⟩
    all_goals
      rintro rfl
      exact absurd digit (by decide)
  · rintro rfl
    exact absurd digit (by decide)
  · rintro rfl
    exact absurd digit (by decide)

theorem Numeral.print_head (numeral : Numeral) :
    ∃ sign text,
      numeral.print = sign :: text ∧
        (sign = '-' ∨ sign.isDigit = true) := by
  cases minus : numeral.negative with
  | true =>
      rw [print, minus, if_pos rfl]
      exact ⟨'-', _, rfl, Or.inl rfl⟩
  | false =>
      rw [print, minus, if_neg Bool.false_ne_true, List.nil_append]
      cases digits : Nat.toDigits 10 numeral.whole with
      | nil => exact absurd digits Nat.toDigits_ne_nil
      | cons sign signs =>
          exact
            ⟨sign, _, rfl,
              Or.inr (isDigit_of_mem_toDigits (digits ▸ List.mem_cons_self))⟩

theorem Value.print_head (value : Value) :
    ∃ sign text, value.print = sign :: text ∧ Opens sign := by
  cases value with
  | null => exact ⟨'n', _, rfl, by decide, by decide, by decide⟩
  | bool value =>
      cases value with
      | true => exact ⟨'t', _, rfl, by decide, by decide, by decide⟩
      | false => exact ⟨'f', _, rfl, by decide, by decide, by decide⟩
  | number value =>
      rcases value.print_head with ⟨sign, text, printed, rfl | digit⟩
      · exact ⟨'-', text, printed, by decide, by decide, by decide⟩
      · exact ⟨sign, text, printed, opens_of_isDigit digit⟩
  | string text => exact ⟨'"', _, rfl, by decide, by decide, by decide⟩
  | array items => exact ⟨'[', _, rfl, by decide, by decide, by decide⟩
  | object members =>
      exact ⟨'{', _, rfl, by decide, by decide, by decide⟩

/-- Nested at most so deep. -/
def Within : Nat → Value → Prop
  | 0, .array _ => False
  | 0, .object _ => False
  | 0, _ => True
  | depth + 1, .array items => ∀ item ∈ items, Within depth item
  | depth + 1, .object members =>
      ∀ member ∈ members, Within depth member.2
  | _ + 1, _ => True

theorem stops_comma (rest : List Char) : Stops (',' :: rest) :=
  stops_cons (by decide) (by decide) (by decide) (by decide) rest

/-- An element that is read back from its text, whatever follows it. -/
def ReadsBack
    {Element : Type}
    (elementRest : List Char → Option (Element × List Char))
    (element : Element) (text : List Char) : Prop :=
  ∀ rest, Stops rest → elementRest (text ++ rest) = some (element, rest)

theorem length_le_separated
    {texts : List (List Char)} (each : ∀ text ∈ texts, text ≠ []) :
    texts.length ≤ (separated texts).length := by
  induction texts with
  | nil => exact le_rfl
  | cons text rest induction =>
      have first := List.length_pos_iff.mpr (each text List.mem_cons_self)
      have others :=
        induction fun other member =>
          each other (List.mem_cons_of_mem _ member)
      cases rest with
      | nil => exact first
      | cons other rest =>
          show (other :: rest).length + 1 ≤
            (text ++ ',' :: separated (other :: rest)).length
          simp only [List.length_append, List.length_cons] at others ⊢
          omega

/-- Elements that are read back each are read back together. -/
theorem listRest_separated
    {Element : Type}
    {elementRest : List Char → Option (Element × List Char)}
    {close : Char} (notBlank : isBlank close = false)
    (notComma : close ≠ ',')
    (stops : ∀ rest, Stops (close :: rest))
    {print : Element → List Char}
    {element : Element} {elements : List Element}
    (each :
      ∀ other ∈ element :: elements,
        ReadsBack elementRest other (print other))
    {fuel : Nat} (enough : elements.length < fuel)
    (rest : List Char) :
    listRest elementRest close fuel
        (separated ((element :: elements).map print) ++ close :: rest) =
      some (element :: elements, rest) := by
  induction elements generalizing element fuel with
  | nil =>
      cases fuel with
      | zero => exact absurd enough (Nat.not_lt_zero _)
      | succ fuel =>
          have first :=
            each element List.mem_cons_self (close :: rest) (stops rest)
          show listRest elementRest close (fuel + 1)
            (print element ++ close :: rest) = _
          rw [listRest, first]
          simp only [skip_cons notBlank, if_neg notComma, if_true]
  | cons other others induction =>
      cases fuel with
      | zero => exact absurd enough (Nat.not_lt_zero _)
      | succ fuel =>
          have first :=
            each element List.mem_cons_self
              (',' ::
                (separated ((other :: others).map print) ++ close :: rest))
              (stops_comma _)
          have next :=
            induction
              (fun more member =>
                each more (List.mem_cons_of_mem _ member))
              (Nat.lt_of_succ_lt_succ enough)
          have split :
              separated ((element :: other :: others).map print) ++
                  close :: rest =
                print element ++
                  ',' ::
                    (separated ((other :: others).map print) ++
                      close :: rest) :=
            List.append_assoc _ _ _
          rw [split, listRest, first]
          simp only [skip_cons (by decide : isBlank ',' = false), if_true,
            next, Option.map_some]

/-- No element, or some, up to the end. -/
theorem elementsRest_separated
    {Element : Type}
    {elementRest : List Char → Option (Element × List Char)}
    {close : Char} (notBlank : isBlank close = false)
    (notComma : close ≠ ',')
    (stops : ∀ rest, Stops (close :: rest))
    {print : Element → List Char}
    {elements : List Element}
    (opens :
      ∀ element ∈ elements, ∃ sign text,
        print element = sign :: text ∧
          isBlank sign = false ∧ sign ≠ close)
    (each :
      ∀ element ∈ elements,
        ReadsBack elementRest element (print element))
    (rest : List Char) :
    elementsRest elementRest close
        (separated (elements.map print) ++ close :: rest) =
      some (elements, rest) := by
  cases elements with
  | nil =>
      show elementsRest elementRest close (close :: rest) = _
      rw [elementsRest, skip_cons notBlank]
      exact if_pos rfl
  | cons element others =>
      rcases opens element List.mem_cons_self with
        ⟨sign, text, printed, signBlank, signClose⟩
      have long :
          others.length <
            (separated ((element :: others).map print) ++
              close :: rest).length := by
        have bound :=
          @length_le_separated ((element :: others).map print) <| by
            intro text member
            rcases List.mem_map.mp member with ⟨other, found, rfl⟩
            rcases opens other found with ⟨_, _, same, _, _⟩
            rw [same]
            exact List.cons_ne_nil _ _
        rw [List.length_map, List.length_cons] at bound
        rw [List.length_append, List.length_cons]
        omega
      have read :=
        listRest_separated notBlank notComma stops each long rest
      have begins :
          ∃ more,
            separated ((element :: others).map print) ++ close :: rest =
              sign :: more := by
        cases others with
        | nil =>
            refine ⟨text ++ close :: rest, ?_⟩
            show print element ++ _ = _
            rw [printed, List.cons_append]
        | cons other others =>
            refine
              ⟨text ++
                ',' :: separated ((other :: others).map print) ++
                  close :: rest, ?_⟩
            show (print element ++ ',' :: _) ++ _ = _
            rw [printed, List.cons_append, List.cons_append]
      rcases begins with ⟨more, begins⟩
      rw [begins, List.length_cons] at read
      rw [begins, elementsRest, skip_cons signBlank]
      exact (if_neg signClose).trans read

/-- A member is read back when its value is. -/
theorem memberRest_print
    {valueRest : List Char → Option (Value × List Char)}
    {member : String × Value}
    (reads : ReadsBack valueRest member.2 member.2.print) :
    ReadsBack (memberRest valueRest) member
      (Value.printMember member) := by
  intro rest stops
  rcases member with ⟨key, value⟩
  have text :
      Value.printMember (key, value) ++ rest =
        '"' ::
          (key.toList.flatMap escape ++
            '"' :: ':' :: (value.print ++ rest)) := by
    rw [Value.printMember, quoted]
    simp only [List.cons_append, List.append_assoc, List.nil_append]
  rw [text, memberRest, skip_cons (by decide)]
  simp only [quotedRest_quoted, skip_cons (by decide : isBlank ':' = false),
    reads rest stops, Option.map_some, String.ofList_toList]

theorem scalarRest_number
    (numeral : Numeral) {rest : List Char} (stops : Stops rest) :
    scalarRest (numeral.print ++ rest) = some (.number numeral, rest) := by
  rcases numeral.print_head with ⟨sign, text, printed, first⟩
  have read := numeral.numeralRest_print stops
  rw [printed, List.cons_append] at read ⊢
  have differs :
      ∀ other : Char, other ≠ '-' → other.isDigit = false →
        sign ≠ other := by
    rintro other notMinus notDigit rfl
    rcases first with minus | digit
    · exact notMinus minus
    · rw [digit] at notDigit
      cases notDigit
  rw [scalarRest.eq_def]
  split
  · next same =>
      rw [List.cons.injEq] at same
      exact absurd same.1 (differs '"' (by decide) (by decide))
  · next same =>
      rw [List.cons.injEq] at same
      exact absurd same.1 (differs 'n' (by decide) (by decide))
  · next same =>
      rw [List.cons.injEq] at same
      exact absurd same.1 (differs 't' (by decide) (by decide))
  · next same =>
      rw [List.cons.injEq] at same
      exact absurd same.1 (differs 'f' (by decide) (by decide))
  · rw [read, Option.map_some]

theorem valueRest_scalar
    {sign : Char} {text : List Char}
    (opens : Opens sign) (notArray : sign ≠ '[') (notObject : sign ≠ '{')
    (depth : Nat) :
    valueRest depth (sign :: text) = scalarRest (sign :: text) := by
  cases depth with
  | zero => rw [valueRest, skip_cons opens.notBlank]
  | succ depth =>
      rw [valueRest, skip_cons opens.notBlank]
      split
      · next same =>
          rw [List.cons.injEq] at same
          exact absurd same.1 notArray
      · next same =>
          rw [List.cons.injEq] at same
          exact absurd same.1 notObject
      · rfl

/-- A value that is not nested is read back at any depth. -/
theorem valueRest_number
    (depth : Nat) (numeral : Numeral) {rest : List Char}
    (stops : Stops rest) :
    valueRest depth (numeral.print ++ rest) =
      some (.number numeral, rest) := by
  have read := scalarRest_number numeral stops
  rcases numeral.print_head with ⟨sign, text, printed, first⟩
  rw [printed, List.cons_append] at read ⊢
  rw [← read]
  rcases first with rfl | digit
  · exact
      valueRest_scalar ⟨by decide, by decide, by decide⟩ (by decide)
        (by decide) depth
  · have opens := opens_of_isDigit digit
    apply valueRest_scalar opens
    · rintro rfl
      exact absurd digit (by decide)
    · rintro rfl
      exact absurd digit (by decide)

theorem valueRest_string
    (depth : Nat) (text : String) (rest : List Char) :
    valueRest depth (quoted text ++ rest) = some (.string text, rest) := by
  have same :
      quoted text ++ rest =
        '"' :: (text.toList.flatMap escape ++ '"' :: rest) := by
    rw [quoted]
    simp only [List.cons_append, List.append_assoc, List.nil_append]
  rw [same,
    valueRest_scalar ⟨by decide, by decide, by decide⟩ (by decide)
      (by decide) depth,
    scalarRest, quotedRest_quoted, Option.map_some, String.ofList_toList]

/-- A value that is nested at most so deep is read back from its text. -/
theorem readsBack_print
    {depth : Nat} {value : Value} (within : Within depth value) :
    ReadsBack (valueRest depth) value value.print := by
  induction depth generalizing value with
  | zero =>
      intro rest stops
      cases value with
      | null => rfl
      | bool value => cases value <;> rfl
      | number numeral => exact valueRest_number 0 numeral stops
      | string text => exact valueRest_string 0 text rest
      | array items => cases within
      | object members => cases within
  | succ depth induction =>
      intro rest stops
      cases value with
      | null => rfl
      | bool value => cases value <;> rfl
      | number numeral => exact valueRest_number _ numeral stops
      | string text => exact valueRest_string _ text rest
      | array items =>
          have read :=
            @elementsRest_separated _ (valueRest depth) ']' (by decide)
              (by decide)
              (stops_cons (by decide) (by decide) (by decide) (by decide))
              Value.print items
              (fun item _ => by
                rcases item.print_head with ⟨sign, text, printed, opens⟩
                exact
                  ⟨sign, text, printed, opens.notBlank, opens.notItemsEnd⟩)
              (fun item member => induction (within item member)) rest
          have text :
              (Value.array items).print ++ rest =
                '[' ::
                  (separated (items.map Value.print) ++ ']' :: rest) := by
            rw [Value.print, Value.printItems_eq]
            simp only [List.cons_append, List.append_assoc,
              List.nil_append]
          rw [text, valueRest, skip_cons (by decide)]
          simp only [read, Option.map_some]
      | object members =>
          have read :=
            @elementsRest_separated _ (memberRest (valueRest depth)) '}'
              (by decide) (by decide)
              (stops_cons (by decide) (by decide) (by decide) (by decide))
              Value.printMember members
              (fun member _ => by
                rcases member with ⟨key, value⟩
                exact ⟨'"', _, rfl, by decide, by decide⟩)
              (fun member found =>
                memberRest_print (induction (within member found)))
              rest
          have text :
              (Value.object members).print ++ rest =
                '{' ::
                  (separated (members.map Value.printMember) ++
                    '}' :: rest) := by
            rw [Value.print, Value.printMembers_eq]
            simp only [List.cons_append, List.append_assoc,
              List.nil_append]
          rw [text, valueRest, skip_cons (by decide)]
          simp only [read, Option.map_some]

/-- The text of a value is read as that value. -/
theorem read_print
    {depth : Nat} {value : Value} (within : Within depth value) :
    read depth value.print = some value := by
  have reads := readsBack_print within [] stops_nil
  rw [List.append_nil] at reads
  rw [read, reads]
  rfl

end OpenAirplay2.Lib.Json

import OpenAirplay2.Lib.Marks
import OpenAirplay2.Lib.Str

/-!
# ASCII in lossily decoded text

Decoding replaces what is not UTF-8, but it never touches an ASCII byte and
never makes an ASCII character of anything else.  An ASCII text therefore
occurs in the characters exactly where its bytes occur in the bytes.
-/

namespace OpenAirplay2.Lib.Str

/-- The characters of a byte string. -/
def lossy (bytes : List UInt8) : List Char :=
  lossyChars bytes.length bytes

theorem toList_fromUtf8Lossy (bytes : List UInt8) :
    (fromUtf8Lossy bytes).toList = lossy bytes :=
  String.toList_ofList

@[simp]
theorem lossy_nil : lossy [] = [] :=
  rfl

theorem lossy_cons (lead : UInt8) (rest : List UInt8) :
    lossy (lead :: rest) =
      (nextChar lead rest).1 ::
        lossy (rest.drop ((nextChar lead rest).2 - 1)) := by
  have shorter :
      (rest.drop ((nextChar lead rest).2 - 1)).length ≤ rest.length := by
    rw [List.length_drop]
    exact Nat.sub_le _ _
  rcases Nat.exists_eq_add_of_le shorter with ⟨extra, same⟩
  rw [lossy, List.length_cons, lossyChars]
  show _ :: lossyChars rest.length _ = _
  rw [same, lossyChars_fuel _ _ _ (Nat.le_refl _)]
  rfl

theorem lossy_eq_nil {bytes : List UInt8} :
    lossy bytes = [] ↔ bytes = [] := by
  cases bytes with
  | nil => simp
  | cons lead rest => simp [lossy_cons]

/-! ## One character -/

theorem nextChar_ascii
    {lead : UInt8} (ascii : lead < 0x80) (rest : List UInt8) :
    nextChar lead rest = (Char.ofNat lead.toNat, 1) := by
  unfold nextChar
  rw [if_pos ascii]

/-- No ASCII byte continues a character. -/
theorem continues_ascii {byte : UInt8} (ascii : byte < 0x80) :
    continues byte = false := by
  rw [continues, decide_eq_false (UInt8.not_le.mpr ascii), Bool.false_and]

theorem continues_iff {byte : UInt8} :
    continues byte = true ↔ 0x80 ≤ byte.toNat ∧ byte.toNat ≤ 0xbf := by
  simp only [continues, Bool.and_eq_true, decide_eq_true_eq]
  exact Iff.rfl

/-- Where the second byte of a character may lie. -/
theorem seconds_iff {lead byte : UInt8} :
    seconds lead byte = true ↔
      (0x80 ≤ byte.toNat ∧ byte.toNat ≤ 0xbf) ∧
        (lead.toNat = 0xe0 → 0xa0 ≤ byte.toNat) ∧
        (lead.toNat = 0xed → byte.toNat ≤ 0x9f) ∧
        (lead.toNat = 0xf0 → 0x90 ≤ byte.toNat) ∧
        (lead.toNat = 0xf4 → byte.toNat ≤ 0x8f) := by
  simp only [seconds, continues, beq_iff_eq, ← UInt8.toNat_inj,
    UInt8.reduceToNat]
  split_ifs <;>
    simp only [Bool.and_eq_true, decide_eq_true_eq,
      UInt8.le_iff_toNat_le, UInt8.reduceToNat] <;>
    omega

theorem continues_of_seconds
    {lead byte : UInt8}
    (follows : seconds lead byte = true) :
    continues byte = true := by
  exact continues_iff.mpr (seconds_iff.mp follows).1

theorem seconds_ascii
    {lead byte : UInt8} (ascii : byte < 0x80) :
    seconds lead byte = false := by
  cases follows : seconds lead byte with
  | false => rfl
  | true =>
      have high := continues_of_seconds follows
      rw [continues_ascii ascii] at high
      cases high

/-- An ASCII byte ends a character like the end of the bytes. -/
theorem nextChar_append
    {byte : UInt8} (ascii : byte < 0x80)
    (lead : UInt8) (front rest : List UInt8) :
    nextChar lead (front ++ byte :: rest) = nextChar lead front := by
  have ends := continues_ascii ascii
  have starts : seconds lead byte = false := seconds_ascii ascii
  rcases front with _ | ⟨second, _ | ⟨third, _ | ⟨fourth, front⟩⟩⟩
  · rcases rest with _ | ⟨next, _ | ⟨other, rest⟩⟩ <;>
      simp [nextChar, ends, starts]
  · cases follows : seconds lead second <;>
      rcases rest with _ | ⟨next, rest⟩ <;>
        simp [nextChar, ends, follows]
  · cases follows : seconds lead second <;>
      cases goes : continues third <;>
        simp [nextChar, ends, follows, goes]
  · rfl

/-- The bytes taken are there. -/
theorem nextChar_taken (lead : UInt8) (rest : List UInt8) :
    (nextChar lead rest).2 - 1 ≤ rest.length := by
  rcases rest with _ | ⟨second, _ | ⟨third, _ | ⟨fourth, rest⟩⟩⟩ <;>
    simp only [nextChar] <;> split_ifs <;> simp

/-- A character that is not an ASCII byte is not an ASCII character. -/
theorem nextChar_high
    {lead : UInt8} (high : ¬ lead < 0x80) (rest : List UInt8) :
    0x80 ≤ (nextChar lead rest).1.toNat := by
  have replaced : 0x80 ≤ replacement.toNat := by decide
  have made {code : Nat} (large : 0x80 ≤ code)
      (valid : code < 0xd800 ∨ 0xdfff < code ∧ code < 0x110000) :
      0x80 ≤ (Char.ofNat code).toNat := by
    rwa [Char.toNat_ofNat, if_pos valid]
  unfold nextChar
  rw [if_neg high]
  split
  · next two =>
      simp only [Bool.and_eq_true, decide_eq_true_eq,
        UInt8.le_iff_toNat_le, UInt8.reduceToNat] at two
      split
      · next second rest =>
          split
          · apply made <;> unfold low <;> omega
          · exact replaced
      · exact replaced
  · split
    · next three =>
        simp only [Bool.and_eq_true, decide_eq_true_eq,
          UInt8.le_iff_toNat_le, UInt8.reduceToNat] at three
        split
        · next second third rest =>
            split
            · exact replaced
            · next follows =>
                split
                · rw [Bool.not_eq_true', Bool.not_eq_false,
                    seconds_iff] at follows
                  -- No surrogate: after `ed` the second byte is low.
                  apply made <;> unfold low <;> omega
                · exact replaced
        · exact replaced
        · exact replaced
    · split
      · next four =>
          simp only [Bool.and_eq_true, decide_eq_true_eq,
            UInt8.le_iff_toNat_le, UInt8.reduceToNat] at four
          split
          · next second third fourth rest =>
              split
              · exact replaced
              · next follows =>
                  split
                  · exact replaced
                  · split
                    · rw [Bool.not_eq_true', Bool.not_eq_false,
                        seconds_iff] at follows
                      apply made <;> unfold low <;> omega
                    · exact replaced
          · exact replaced
          · exact replaced
          · exact replaced
      · exact replaced

/-! ## An ASCII text -/

/-- Every character is an ASCII character. -/
def Ascii (text : List Char) : Prop :=
  ∀ char ∈ text, char.toNat < 0x80

instance (text : List Char) : Decidable (Ascii text) :=
  inferInstanceAs (Decidable (∀ char ∈ text, char.toNat < 0x80))

/-- The bytes of an ASCII text. -/
def codes (text : List Char) : List UInt8 :=
  text.map fun char => UInt8.ofNat char.toNat

theorem toNat_code {char : Char} (ascii : char.toNat < 0x80) :
    (UInt8.ofNat char.toNat).toNat = char.toNat := by
  rw [UInt8.toNat_ofNat']
  exact Nat.mod_eq_of_lt (by omega)

theorem code_ascii {char : Char} (ascii : char.toNat < 0x80) :
    UInt8.ofNat char.toNat < 0x80 := by
  rw [UInt8.lt_iff_toNat_lt, toNat_code ascii]
  exact ascii

/-- An ASCII byte is decoded by itself, whatever stands in front of it. -/
theorem lossy_code
    {char : Char} (ascii : char.toNat < 0x80)
    (front rest : List UInt8) :
    lossy (front ++ UInt8.ofNat char.toNat :: rest) =
      lossy front ++ char :: lossy rest := by
  -- Every character takes at least its first byte.
  induction length : front.length using Nat.strong_induction_on
    generalizing front with
  | _ length induction =>
      cases front with
      | nil =>
          rw [List.nil_append, lossy_cons,
            nextChar_ascii (code_ascii ascii), toNat_code ascii,
            Char.ofNat_toNat]
          rfl
      | cons lead front =>
          have taken := nextChar_taken lead front
          rw [List.cons_append, lossy_cons, lossy_cons,
            nextChar_append (code_ascii ascii),
            List.drop_append_of_le_length taken,
            induction _ _ _ rfl]
          · rfl
          · rw [← length, List.length_drop, List.length_cons]
            omega

/-- An ASCII character was an ASCII byte. -/
theorem code_of_lossy
    {char : Char} (ascii : char.toNat < 0x80)
    {bytes : List UInt8} {front behind : List Char}
    (same : lossy bytes = front ++ char :: behind) :
    ∃ start rest,
      bytes = start ++ UInt8.ofNat char.toNat :: rest ∧
        lossy start = front ∧ lossy rest = behind := by
  induction front generalizing bytes with
  | nil =>
      cases bytes with
      | nil => cases same
      | cons lead rest =>
          rw [lossy_cons, List.nil_append, List.cons.injEq] at same
          by_cases low : lead < 0x80
          · rw [nextChar_ascii low] at same
            refine ⟨[], rest, ?_, rfl, same.2⟩
            rw [← same.1, List.nil_append, Char.toNat_ofNat, if_pos,
              UInt8.ofNat_toNat]
            rw [UInt8.lt_iff_toNat_lt] at low
            exact Or.inl (Nat.lt_trans low (by decide))
          · have high := nextChar_high low rest
            rw [same.1] at high
            omega
  | cons other front induction =>
      cases bytes with
      | nil => cases same
      | cons lead rest =>
          rw [lossy_cons, List.cons_append, List.cons.injEq] at same
          rcases induction same.2 with ⟨start, rest', cut, decoded, ends⟩
          have whole :
              rest =
                rest.take ((nextChar lead rest).2 - 1) ++ start ++
                  UInt8.ofNat char.toNat :: rest' := by
            rw [List.append_assoc, ← cut, List.take_append_drop]
          have next :
              nextChar lead
                  (rest.take ((nextChar lead rest).2 - 1) ++ start) =
                nextChar lead rest := by
            rw [← nextChar_append (code_ascii ascii) lead _ rest', ← whole]
          have taken := nextChar_taken lead rest
          refine ⟨lead :: (rest.take ((nextChar lead rest).2 - 1) ++ start),
            rest', congrArg (lead :: ·) whole, ?_, ends⟩
          rw [lossy_cons, next, same.1, List.drop_append_of_le_length
              (by rw [List.length_take, Nat.min_eq_left taken]),
            List.drop_take_self, List.nil_append, decoded]

theorem lossy_codes_append
    {text : List Char} (ascii : Ascii text)
    (rest : List UInt8) :
    lossy (codes text ++ rest) = text ++ lossy rest := by
  induction text with
  | nil => rfl
  | cons char text induction =>
      rcases List.forall_mem_cons.mp ascii with ⟨head, tail⟩
      have one := lossy_code head [] (codes text ++ rest)
      rw [induction tail] at one
      exact one

theorem codes_of_lossy_append
    {text : List Char} (ascii : Ascii text)
    {bytes : List UInt8} {behind : List Char}
    (same : lossy bytes = text ++ behind) :
    ∃ rest, bytes = codes text ++ rest ∧ lossy rest = behind := by
  induction text generalizing bytes with
  | nil => exact ⟨bytes, rfl, same⟩
  | cons char text induction =>
      rcases List.forall_mem_cons.mp ascii with ⟨head, tail⟩
      have atFront : lossy bytes = [] ++ char :: (text ++ behind) := same
      rcases code_of_lossy head atFront with
        ⟨start, rest, rfl, decoded, follows⟩
      rcases induction tail follows with ⟨rest, rfl, ends⟩
      rw [lossy_eq_nil.mp decoded]
      exact ⟨rest, rfl, ends⟩

/-- Decoding an ASCII text, and what stands in front of it and behind it. -/
theorem lossy_codes
    {first : Char} {text : List Char}
    (ascii : Ascii (first :: text))
    (front rest : List UInt8) :
    lossy (front ++ (codes (first :: text) ++ rest)) =
      lossy front ++ (first :: text ++ lossy rest) := by
  rcases List.forall_mem_cons.mp ascii with ⟨head, tail⟩
  have one := lossy_code head front (codes text ++ rest)
  rw [lossy_codes_append tail] at one
  exact one

/-- Where an ASCII text was decoded, its bytes are. -/
theorem codes_of_lossy
    {first : Char} {text : List Char}
    (ascii : Ascii (first :: text))
    {bytes : List UInt8} {front behind : List Char}
    (same : lossy bytes = front ++ (first :: text ++ behind)) :
    ∃ start rest,
      bytes = start ++ (codes (first :: text) ++ rest) ∧
        lossy start = front ∧ lossy rest = behind := by
  rcases List.forall_mem_cons.mp ascii with ⟨head, tail⟩
  rcases code_of_lossy head same with ⟨start, rest, cut, decoded, follows⟩
  rcases codes_of_lossy_append tail follows with ⟨rest, rfl, ends⟩
  exact ⟨start, rest, cut, decoded, ends⟩

/-- An ASCII text occurs where its bytes occur. -/
theorem infix_lossy
    {first : Char} {text : List Char}
    (ascii : Ascii (first :: text))
    (bytes : List UInt8) :
    first :: text <:+: lossy bytes ↔ codes (first :: text) <:+: bytes := by
  constructor
  · rintro ⟨front, behind, same⟩
    rw [List.append_assoc] at same
    rcases codes_of_lossy ascii same.symm with ⟨start, rest, rfl, _⟩
    exact ⟨start, rest, List.append_assoc _ _ _⟩
  · rintro ⟨start, rest, rfl⟩
    rw [List.append_assoc, lossy_codes ascii]
    exact ⟨lossy start, lossy rest, List.append_assoc _ _ _⟩

open Marks in
/-- What stands in front of a mark, decoded. -/
theorem front_lossy
    {first : Char} {text : List Char}
    (ascii : Ascii (first :: text))
    (bytes : List UInt8) (stretch : List Char) :
    Front (first :: text) (lossy bytes) stretch ↔
      ∃ start,
        Front (codes (first :: text)) bytes start ∧
          lossy start = stretch := by
  constructor
  · rintro ⟨after, same, unmarked, ends⟩
    rcases ends with rfl | ⟨behind, rfl⟩
    · rw [List.append_nil] at same
      rw [← same, infix_lossy ascii] at unmarked
      exact ⟨bytes, ⟨[], (List.append_nil _).symm, unmarked, Or.inl rfl⟩,
        same⟩
    · rcases codes_of_lossy ascii same with ⟨start, rest, cut, rfl, _⟩
      rw [infix_lossy ascii] at unmarked
      exact ⟨start,
        ⟨_, cut, unmarked, Or.inr (List.prefix_append _ _)⟩, rfl⟩
  · rintro ⟨start, ⟨after, rfl, unmarked, ends⟩, rfl⟩
    rw [← infix_lossy ascii] at unmarked
    rcases ends with rfl | ⟨behind, rfl⟩
    · rw [List.append_nil]
      exact ⟨[], (List.append_nil _).symm, unmarked, Or.inl rfl⟩
    · rw [lossy_codes ascii]
      exact ⟨_, rfl, unmarked, Or.inr (List.prefix_append _ _)⟩

open Marks in
/-- What stands between two marks, decoded. -/
theorem stretch_lossy
    {first : Char} {text : List Char}
    (ascii : Ascii (first :: text))
    (bytes : List UInt8) (stretch : List Char) :
    Stretch (first :: text) (lossy bytes) stretch ↔
      ∃ start,
        Stretch (codes (first :: text)) bytes start ∧
          lossy start = stretch := by
  constructor
  · rintro ⟨before, behind, same, front⟩
    rcases codes_of_lossy ascii same with ⟨start, rest, cut, _, rfl⟩
    rcases (front_lossy ascii _ _).mp front with ⟨piece, front, decoded⟩
    exact ⟨piece, ⟨start, rest, cut, front⟩, decoded⟩
  · rintro ⟨piece, ⟨before, behind, rfl, front⟩, decoded⟩
    refine ⟨lossy before, lossy behind, lossy_codes ascii _ _, ?_⟩
    exact (front_lossy ascii _ _).mpr ⟨piece, front, decoded⟩

end OpenAirplay2.Lib.Str

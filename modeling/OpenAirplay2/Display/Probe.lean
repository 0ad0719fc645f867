import OpenAirplay2.Display.Images
import OpenAirplay2.Lib.Lossy
import OpenAirplay2.Lib.Marks

/-!
# The answer to the graphics query

The terminal is asked whether it speaks the Kitty protocol, and what it sends
back is searched for the answer: behind any `ESC _G`, the query's id and `OK`
anywhere before the next one.  An answer with that id and that message has
both.  So have other texts, and they are taken for it.
-/

namespace OpenAirplay2.Display.Probe

open OpenAirplay2.Display.Images
  (escape parseEnvelope tmuxEnvelope)
open OpenAirplay2.Lib
open OpenAirplay2.Lib.Marks
open OpenAirplay2.Lib.Str
open OpenAirplay2.Pairing (Bytes)

/-- The image id of the query, not the one of the artwork. -/
def probeId : Nat := 7331

/-- What the probe writes: the query, then a request every terminal answers. -/
def probeQuery (tmux : Bool) : Bytes :=
  escape
    (asciiBytes
        ("\x1b_Gi=" ++ toString probeId ++ ",s=1,v=1,a=q,t=d,f=24;") ++
      Base64.encode [0, 0, 0] ++ asciiBytes "\x1b\\\x1b[c")
    tmux

/-- Under tmux, one envelope holds both questions and nothing else. -/
theorem parseEnvelope_probeQuery :
    parseEnvelope (probeQuery true) = some (probeQuery false, []) := by
  have read := tmuxEnvelope.next_wrap (probeQuery false) []
  rw [List.append_nil] at read
  exact read

/-- `str::contains`. -/
def contains (text pattern : List Char) : Bool :=
  decide (pattern <:+: text)

/-- `str::rfind`, with the slice from there on. -/
def rfind (text pattern : List Char) : Option (List Char) :=
  (text.tails.filter fun tail => pattern.isPrefixOf tail).getLast?

/-- Does this reply contain the protocol's `OK` for our query? -/
def kittySupported (reply : Bytes) : Bool :=
  let reply := (fromUtf8Lossy reply).toList
  ((cut '\x1b' ['_', 'G'] reply).drop 1).any fun answer =>
    contains answer ("i=" ++ toString probeId).toList &&
      contains answer "OK".toList

/-- Has the Device Attributes answer (`ESC [ ? … c`) arrived? -/
def endsWithDeviceAttributes (reply : Bytes) : Bool :=
  if reply.getLast? ≠ some 0x63 then
    false
  else
    match rfind (fromUtf8Lossy reply).toList "\x1b[?".toList with
    | some tail => !contains tail "\x1b\\".toList
    | none => false

/-- The bytes that are read, until the deadline or the last answer. -/
def readReply (reply : Bytes) : Bytes → Bytes
  | [] => reply
  | byte :: arriving =>
      if endsWithDeviceAttributes (reply ++ [byte]) then
        reply ++ [byte]
      else
        readReply (reply ++ [byte]) arriving

/-- What the probe finds; a terminal that says nothing leaves it open. -/
def probeKitty (arriving : Bytes) : Option Bool :=
  let reply := readReply [] arriving
  if reply.isEmpty then none else some (kittySupported reply)

/-! ## Graphics answers -/

/-- A graphics answer: `ESC _G keys ; message ESC \`. -/
structure Answer where
  keys : List Bytes
  message : Bytes
  apart : ∀ key ∈ keys, 0x1b ∉ key ∧ 0x2c ∉ key ∧ 0x3b ∉ key
  plain : 0x1b ∉ message

namespace Answer

/-- What stands between `ESC _G` and `ESC \`. -/
def inner (answer : Answer) : Bytes :=
  List.intercalate [0x2c] answer.keys ++ 0x3b :: answer.message

def bytes (answer : Answer) : Bytes :=
  asciiBytes "\x1b_G" ++ (answer.inner ++ asciiBytes "\x1b\\")

/-- The id is exactly the query's, and the message is exactly `OK`. -/
def Ours (answer : Answer) : Prop :=
  asciiBytes "i=7331" ∈ answer.keys ∧ answer.message = asciiBytes "OK"

end Answer

/-- The reply contains an answer with our id and the message `OK`. -/
def Answered (reply : Bytes) : Prop :=
  ∃ answer : Answer, answer.Ours ∧ answer.bytes <:+: reply

/-- What stands between an `ESC _G` and the next one, or the end. -/
def Behind (reply stretch : Bytes) : Prop :=
  Stretch (asciiBytes "\x1b_G") reply stretch

/-- The id and `OK` both occur, wherever it is. -/
def Mentions (stretch : Bytes) : Prop :=
  asciiBytes "i=7331" <:+: stretch ∧ asciiBytes "OK" <:+: stretch

/-- An answer with our id and the message `OK` is at the front. -/
def Begins (stretch : Bytes) : Prop :=
  ∃ answer : Answer,
    answer.Ours ∧ answer.inner ++ asciiBytes "\x1b\\" <+: stretch

theorem contains_iff {text pattern : List Char} :
    contains text pattern = true ↔ pattern <:+: text :=
  decide_eq_true_iff

/-- The search finds the bytes of the id and of `OK` behind an `ESC _G`. -/
theorem kittySupported_iff (reply : Bytes) :
    kittySupported reply = true ↔
      ∃ stretch, Behind reply stretch ∧ Mentions stretch := by
  have opening : Ascii ['\x1b', '_', 'G'] := by simp [Ascii]
  have id : Ascii ['i', '=', '7', '3', '3', '1'] := by simp [Ascii]
  have ok : Ascii ['O', 'K'] := by simp [Ascii]
  simp only [kittySupported, toList_fromUtf8Lossy, List.drop_one,
    List.any_eq_true, Bool.and_eq_true, contains_iff]
  constructor
  · rintro ⟨text, member, hasId, hasOk⟩
    rw [mem_tail_cut (by decide), stretch_lossy opening] at member
    rcases member with ⟨stretch, behind, rfl⟩
    exact ⟨stretch, behind, (infix_lossy id _).mp hasId,
      (infix_lossy ok _).mp hasOk⟩
  · rintro ⟨stretch, behind, hasId, hasOk⟩
    refine ⟨lossy stretch, ?_, (infix_lossy id _).mpr hasId,
      (infix_lossy ok _).mpr hasOk⟩
    rw [mem_tail_cut (by decide), stretch_lossy opening]
    exact ⟨stretch, behind, rfl⟩

/-! ## What the search takes for an answer -/

/-- A key is somewhere in the keys, and a separator follows. -/
theorem key_infix
    {key : Bytes} {keys : List Bytes}
    (member : key ∈ keys)
    (message : Bytes) :
    key ++ [0x2c] <:+: List.intercalate [0x2c] keys ++ 0x3b :: message ∨
      key ++ [0x3b] <:+:
        List.intercalate [0x2c] keys ++ 0x3b :: message := by
  induction keys with
  | nil => cases member
  | cons first keys induction =>
      cases keys with
      | nil =>
          rw [List.mem_singleton] at member
          right
          rw [member, List.intercalate_singleton]
          exact ⟨[], message, by simp⟩
      | cons second keys =>
          rw [List.intercalate_cons_cons]
          rcases List.mem_cons.mp member with rfl | later
          · left
            exact ⟨[], _, by rw [List.nil_append, ← List.append_assoc]⟩
          · have inRest :
                List.intercalate [0x2c] (second :: keys) ++
                    0x3b :: message <:+:
                  first ++ [0x2c] ++
                    List.intercalate [0x2c] (second :: keys) ++
                      0x3b :: message :=
              ⟨first ++ [0x2c], [], by simp⟩
            exact (induction later).imp (·.trans inRest) (·.trans inRest)

namespace Answer

/-- There is no `ESC` inside an answer. -/
theorem escape_not_mem_inner (answer : Answer) :
    0x1b ∉ answer.inner := by
  intro member
  rw [inner, List.mem_append, List.mem_cons] at member
  rcases member with inKeys | isSemicolon | inMessage
  · rcases mem_of_mem_intercalate inKeys with comma | ⟨key, isKey, inKey⟩
    · simp at comma
    · exact (answer.apart key isKey).1 inKey
  · cases isSemicolon
  · exact answer.plain inMessage

/-- No `ESC _G` starts inside an answer. -/
theorem unmarked
    (answer : Answer) (more : Bytes) (start : Nat)
    (inside : start < (answer.inner ++ asciiBytes "\x1b\\").length) :
    ¬ asciiBytes "\x1b_G" <+:
      (answer.inner ++ asciiBytes "\x1b\\" ++ more).drop start := by
  intro marked
  rw [List.append_assoc] at marked
  rcases Nat.lt_or_ge start answer.inner.length with early | late
  · rw [List.drop_append_of_le_length early.le,
      List.drop_eq_getElem_cons early, List.cons_append] at marked
    apply answer.escape_not_mem_inner
    rw [show (0x1b : UInt8) = answer.inner[start] from
      (List.cons_prefix_cons.mp marked).1]
    exact List.getElem_mem early
  · rcases Nat.exists_eq_add_of_le late with ⟨closing, rfl⟩
    rw [List.drop_length_add_append] at marked
    have two : closing = 0 ∨ closing = 1 := by
      rw [List.length_append] at inside
      have length : (asciiBytes "\x1b\\").length = 2 := rfl
      omega
    rcases two with rfl | rfl
    · have second := (List.cons_prefix_cons.mp
        (List.cons_prefix_cons.mp marked).2).1
      cases second
    · have first := (List.cons_prefix_cons.mp marked).1
      cases first

/-- The id of our answer is followed by a separator. -/
theorem Ours.id_ends
    {answer : Answer} (ours : answer.Ours) :
    asciiBytes "i=7331," <:+: answer.inner ∨
      asciiBytes "i=7331;" <:+: answer.inner :=
  key_infix ours.1 answer.message

end Answer

/-- An answer with our id and the message `OK` has both. -/
theorem Begins.mentions
    {stretch : Bytes} (begins : Begins stretch) :
    Mentions stretch := by
  rcases begins with ⟨answer, ours, atFront⟩
  have inside : answer.inner <:+: stretch :=
    (List.prefix_append _ _).isInfix.trans atFront.isInfix
  constructor
  · have shorter
        (text ending : Bytes)
        (longer : text ++ ending <:+: answer.inner) :
        text <:+: stretch :=
      ((List.prefix_append _ _).isInfix.trans longer).trans inside
    exact ours.id_ends.elim (shorter (asciiBytes "i=7331") [0x2c])
      (shorter (asciiBytes "i=7331") [0x3b])
  · refine List.IsInfix.trans ?_ inside
    rw [Answer.inner, ours.2]
    exact ⟨List.intercalate [0x2c] answer.keys ++ [0x3b], [], by simp⟩

/-- An answer is at the front of what stands behind its `ESC _G`. -/
theorem answered_iff (reply : Bytes) :
    Answered reply ↔
      ∃ stretch, Behind reply stretch ∧ Begins stretch := by
  constructor
  · rintro ⟨answer, ours, before, more, isReply⟩
    have fronts :
        ∃ stretch,
          Front (asciiBytes "\x1b_G")
            (answer.inner ++ asciiBytes "\x1b\\" ++ more) stretch :=
      exists_front (by decide) _
    rcases fronts with ⟨stretch, front⟩
    refine ⟨stretch, ⟨before, _, ?_, front⟩, answer, ours, ?_⟩
    · rw [← isReply, Answer.bytes]
      simp only [List.append_assoc]
    · exact front.keeps (List.prefix_append _ _) (answer.unmarked more)
  · rintro ⟨stretch, ⟨before, behind, rfl, after, rfl, _⟩,
      answer, ours, more, rfl⟩
    refine ⟨answer, ours, before, more ++ after, ?_⟩
    rw [Answer.bytes]
    simp only [List.append_assoc]

/-- Every answer is found. -/
theorem supported_of_answered
    {reply : Bytes} (answered : Answered reply) :
    kittySupported reply = true := by
  rcases (answered_iff reply).mp answered with ⟨stretch, behind, begins⟩
  exact (kittySupported_iff reply).mpr ⟨stretch, behind, begins.mentions⟩

/-- The id and `OK` occur, but not as an answer at the front. -/
def LooksAlike (stretch : Bytes) : Prop :=
  Mentions stretch ∧ ¬ Begins stretch

/-- Where nothing only looks like an answer, what is found is one. -/
theorem answered_of_clear
    {reply : Bytes}
    (supported : kittySupported reply = true)
    (clear : ∀ stretch, Behind reply stretch → ¬ LooksAlike stretch) :
    Answered reply := by
  rcases (kittySupported_iff reply).mp supported with
    ⟨stretch, behind, mentions⟩
  have begins : Begins stretch := by
    by_contra other
    exact clear stretch behind ⟨mentions, other⟩
  exact (answered_iff reply).mpr ⟨stretch, behind, begins⟩

/--
The search finds the answers and nothing else unless something behind an
`ESC _G` only looks like an answer and there is none.
-/
theorem kitty_supported_exactly (reply : Bytes) :
    (kittySupported reply = true ↔ Answered reply) ↔
      ((∀ stretch, Behind reply stretch → ¬ LooksAlike stretch) ∨
        ∃ stretch, Behind reply stretch ∧ Begins stretch) := by
  rw [← answered_iff]
  constructor
  · intro exactly
    by_cases answered : Answered reply
    · exact Or.inr answered
    · left
      rintro stretch behind ⟨mentions, _⟩
      apply answered
      exact exactly.mp
        ((kittySupported_iff reply).mpr ⟨stretch, behind, mentions⟩)
  · intro clear
    refine ⟨?_, supported_of_answered⟩
    intro supported
    rcases clear with clear | answered
    · exact answered_of_clear supported clear
    · exact answered

/-- An answer for a longer id, and the Device Attributes. -/
def longerId : Bytes :=
  asciiBytes "\x1b_Gi=73310;OK\x1b\\\x1b[?62;c"

/-- It is read to its end and taken for our answer. -/
theorem longer_id_supported :
    readReply [] longerId = longerId ∧
      ¬ (kittySupported longerId = true ↔ Answered longerId) := by
  refine ⟨by decide, ?_⟩
  intro exactly
  have supported : kittySupported longerId = true := by
    refine (kittySupported_iff longerId).mpr
      ⟨asciiBytes "i=73310;OK\x1b\\\x1b[?62;c",
        ⟨[], _, rfl, [], rfl, by decide, Or.inl rfl⟩, by decide, by decide⟩
  rcases exactly.mp supported with ⟨answer, ours, inReply⟩
  have inside : answer.inner <:+: longerId := by
    refine List.IsInfix.trans ?_ inReply
    exact ⟨asciiBytes "\x1b_G", asciiBytes "\x1b\\",
      List.append_assoc _ _ _⟩
  rcases ours.id_ends with comma | semicolon
  · exact absurd (comma.trans inside) (by decide)
  · exact absurd (semicolon.trans inside) (by decide)

/-! ## The probe -/

theorem readReply_isPrefix (reply arriving : Bytes) :
    readReply reply arriving <+: reply ++ arriving := by
  induction arriving generalizing reply with
  | nil =>
      rw [List.append_nil]
      exact List.prefix_refl reply
  | cons byte arriving induction =>
      rw [readReply, List.append_cons reply byte arriving]
      split
      · exact List.prefix_append _ _
      · exact induction (reply ++ [byte])

/-- Where nothing only looks like an answer, the probe has seen one. -/
theorem answered_of_probe
    {arriving : Bytes}
    (found : probeKitty arriving = some true)
    (clear :
      ∀ stretch,
        Behind (readReply [] arriving) stretch → ¬ LooksAlike stretch) :
    Answered arriving := by
  have supported : kittySupported (readReply [] arriving) = true := by
    rw [probeKitty] at found
    split at found
    · cases found
    · exact Option.some.inj found
  rcases answered_of_clear supported clear with ⟨answer, ours, inReply⟩
  exact ⟨answer, ours,
    inReply.trans (readReply_isPrefix [] arriving).isInfix⟩

end OpenAirplay2.Display.Probe

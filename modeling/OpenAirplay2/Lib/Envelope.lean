import Mathlib

/-!
# Envelopes in a stream

A sequence is carried inside another one in an envelope: an opening, the
sequence with each mark in it doubled, and a mark followed by a closing sign.
Whatever the content, its doubled marks cannot be taken for the end, so an
envelope is read back as ending where it was ended.

What stands between envelopes is left alone when they are taken off.  It must
not contain the opening, and for a piece that begins with a mark this is
decided by the sign behind it.
-/

namespace OpenAirplay2.Lib

universe u

/-- The signs of an envelope; the opening is mark, kind and label. -/
structure Envelope (α : Type u) where
  mark : α
  kind : α
  label : List α
  close : α
  distinct : close ≠ mark

namespace Envelope

variable
    {α : Type u}
    [DecidableEq α]
    (envelope : Envelope α)

def opening : List α :=
  envelope.mark :: envelope.kind :: envelope.label

/-- Every mark doubled. -/
def double (inner : List α) : List α :=
  inner.flatMap fun sign =>
    if sign = envelope.mark then [envelope.mark, sign] else [sign]

def wrap (inner : List α) : List α :=
  envelope.opening ++ envelope.double inner ++
    [envelope.mark, envelope.close]

/--
The content of an envelope behind its opening, and what follows it: a doubled
mark is one mark of the content, and the first mark that is not doubled ends
it, if the closing sign comes next.
-/
def content : List α → Option (List α × List α)
  | first :: second :: rest =>
      if first = envelope.mark then
        if second = envelope.mark then
          (content rest).map fun found => (first :: found.1, found.2)
        else if second = envelope.close then
          some ([], rest)
        else
          none
      else
        (content (second :: rest)).map fun found =>
          (first :: found.1, found.2)
  | _ => none

/-- The content of the envelope at the front, and what follows it. -/
def next (input : List α) : Option (List α × List α) :=
  if envelope.opening <+: input then
    envelope.content (input.drop envelope.opening.length)
  else
    none

theorem length_content
    {input inner rest : List α}
    (found : envelope.content input = some (inner, rest)) :
    rest.length < input.length := by
  fun_induction envelope.content input generalizing inner with
  | case1 rest' induction =>
      rcases Option.map_eq_some_iff.mp found with ⟨⟨_, behind⟩, read, same⟩
      cases same
      have shorter : behind.length < rest'.length := induction read
      simp only [List.length_cons]
      omega
  | case2 rest' _ =>
      cases found
      simp only [List.length_cons]
      omega
  | case3 => cases found
  | case4 first second rest' differs induction =>
      rcases Option.map_eq_some_iff.mp found with ⟨⟨_, behind⟩, read, same⟩
      cases same
      exact (induction read).trans (Nat.lt_succ_self _)
  | case5 => cases found

/--
Replace each envelope by its content; `none` if an envelope does not end, or
holds a mark that is neither doubled nor its end.
-/
def unwrap (input : List α) : Option (List α) :=
  match input with
  | [] => some []
  | first :: rest =>
      if envelope.opening <+: first :: rest then
        match found :
            envelope.content
              ((first :: rest).drop envelope.opening.length) with
        | none => none
        | some (inner, after) =>
            have : after.length ≤ rest.length :=
              Nat.le_of_lt_succ
                ((envelope.length_content found).trans_le
                  (List.length_drop ▸ Nat.sub_le _ _))
            (unwrap after).map (inner ++ ·)
      else
        (unwrap rest).map (first :: ·)
termination_by input.length

/-! ## What an envelope holds -/

@[simp]
theorem double_nil : envelope.double [] = [] :=
  rfl

theorem double_cons_mark (rest : List α) :
    envelope.double (envelope.mark :: rest) =
      envelope.mark :: envelope.mark :: envelope.double rest := by
  rw [double, List.flatMap_cons, if_pos rfl]
  rfl

theorem double_cons
    {first : α}
    (differs : first ≠ envelope.mark)
    (rest : List α) :
    envelope.double (first :: rest) = first :: envelope.double rest := by
  rw [double, List.flatMap_cons, if_neg differs]
  rfl

/-- Doubled marks are read as content, and only the end as the end. -/
theorem content_double (inner rest : List α) :
    envelope.content
        (envelope.double inner ++ envelope.mark :: envelope.close :: rest) =
      some (inner, rest) := by
  induction inner with
  | nil =>
      rw [double_nil, List.nil_append, content, if_pos rfl,
        if_neg envelope.distinct, if_pos rfl]
  | cons first inner induction =>
      by_cases same : first = envelope.mark
      · rw [same, double_cons_mark, List.cons_append, List.cons_append,
          content, if_pos rfl, if_pos rfl, induction]
        rfl
      · rw [envelope.double_cons same, List.cons_append]
        -- Whatever comes next, one sign is taken.
        cases next :
            envelope.double inner ++
              envelope.mark :: envelope.close :: rest with
        | nil => simp at next
        | cons second more =>
            rw [content, if_neg same, ← next, induction]
            rfl

theorem opening_prefix_wrap (inner rest : List α) :
    envelope.opening <+: envelope.wrap inner ++ rest := by
  rw [wrap, List.append_assoc, List.append_assoc]
  exact List.prefix_append _ _

/-- An envelope is content from its opening to its own end. -/
theorem content_wrap (inner rest : List α) :
    envelope.content
        ((envelope.wrap inner ++ rest).drop envelope.opening.length) =
      some (inner, rest) := by
  rw [wrap, List.append_assoc, List.append_assoc, List.drop_left]
  exact envelope.content_double inner rest

theorem next_wrap (inner rest : List α) :
    envelope.next (envelope.wrap inner ++ rest) = some (inner, rest) := by
  rw [next, if_pos (envelope.opening_prefix_wrap inner rest),
    content_wrap]

/-! ## Taking envelopes off -/

@[simp]
theorem unwrap_nil : envelope.unwrap [] = some [] := by
  rw [unwrap]

theorem unwrap_outside
    {first : α} {rest : List α}
    (outside : ¬ envelope.opening <+: first :: rest) :
    envelope.unwrap (first :: rest) =
      (envelope.unwrap rest).map (first :: ·) := by
  rw [unwrap, if_neg outside]

/-- These signs are read as the given ones, whatever follows them. -/
def Reads (written plain : List α) : Prop :=
  ∀ rest,
    envelope.unwrap (written ++ rest) =
      (envelope.unwrap rest).map (plain ++ ·)

variable {envelope}

theorem Reads.nil : envelope.Reads [] [] := by
  intro rest
  cases unwrapped : envelope.unwrap rest <;> simp [unwrapped]

theorem Reads.append
    {first second plainFirst plainSecond : List α}
    (readsFirst : envelope.Reads first plainFirst)
    (readsSecond : envelope.Reads second plainSecond) :
    envelope.Reads (first ++ second) (plainFirst ++ plainSecond) := by
  intro rest
  rw [List.append_assoc, readsFirst, readsSecond, Option.map_map]
  congr 1
  funext more
  exact (List.append_assoc plainFirst plainSecond more).symm

theorem Reads.cons
    {first : α} {written plain : List α}
    (outside : ∀ rest, ¬ envelope.opening <+: first :: (written ++ rest))
    (reads : envelope.Reads written plain) :
    envelope.Reads (first :: written) (first :: plain) := by
  intro rest
  rw [List.cons_append, unwrap_outside _ (outside rest), reads,
    Option.map_map]
  rfl

/-- Signs without a mark are left alone. -/
theorem reads_of_not_mem
    {written : List α}
    (unmarked : envelope.mark ∉ written) :
    envelope.Reads written written := by
  induction written with
  | nil => exact .nil
  | cons first written induction =>
      rw [List.mem_cons, not_or] at unmarked
      refine .cons ?_ (induction unmarked.2)
      intro rest opens
      exact unmarked.1 (List.cons_prefix_cons.mp opens).1

/-- A mark is left alone if another kind of sign follows it. -/
theorem reads_mark
    {second : α} {written : List α}
    (kind : second ≠ envelope.kind)
    (unmarked : envelope.mark ∉ second :: written) :
    envelope.Reads (envelope.mark :: second :: written)
      (envelope.mark :: second :: written) := by
  refine .cons ?_ (reads_of_not_mem unmarked)
  intro rest opens
  have behind := (List.cons_prefix_cons.mp opens).2
  exact kind (List.cons_prefix_cons.mp behind).1.symm

/-- An envelope is read as its content. -/
theorem reads_wrap (inner : List α) :
    envelope.Reads (envelope.wrap inner) inner := by
  intro rest
  have opens := envelope.opening_prefix_wrap inner rest
  have found := envelope.content_wrap inner rest
  have nonempty : envelope.wrap inner ++ rest ≠ [] := by
    simp [wrap, opening]
  generalize envelope.wrap inner ++ rest = input at opens found nonempty
  cases input with
  | nil => exact absurd rfl nonempty
  | cons first behind =>
      rw [unwrap, if_pos opens]
      split
      · next other =>
          rw [found] at other
          cases other
      · next other =>
          rw [found] at other
          cases other
          rfl

theorem Reads.unwrap
    {written plain : List α}
    (reads : envelope.Reads written plain) :
    envelope.unwrap written = some plain := by
  have whole := reads []
  rw [List.append_nil, unwrap_nil, Option.map_some,
    List.append_nil] at whole
  exact whole

/-- Pieces read one by one are read in a row. -/
theorem Reads.flatMap
    {Piece : Type*} {written plain : Piece → List α} {pieces : List Piece}
    (reads : ∀ piece ∈ pieces, envelope.Reads (written piece) (plain piece)) :
    envelope.Reads (pieces.flatMap written) (pieces.flatMap plain) := by
  induction pieces with
  | nil => exact .nil
  | cons piece pieces induction =>
      rw [List.forall_mem_cons] at reads
      rw [List.flatMap_cons, List.flatMap_cons]
      exact reads.1.append (induction reads.2)

end Envelope

end OpenAirplay2.Lib

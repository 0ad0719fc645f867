import OpenAirplay2.Lib.Framer

/-!
# Cutting at a mark

A sequence is cut wherever a mark occurs, from the left.  If the first sign of
the mark occurs nowhere else in it, marks cannot overlap, and every occurrence
is a cut: the pieces behind the first are the stretches between a mark and
the next, or the end.
-/

namespace OpenAirplay2.Lib.Marks

universe u

variable {α : Type u}

/-- What stands in front, up to the first mark or the end. -/
def Front (mark input stretch : List α) : Prop :=
  ∃ after,
    input = stretch ++ after ∧
      ¬ mark <:+: stretch ∧ (after = [] ∨ mark <+: after)

/-- What stands behind a mark, up to the next one or the end. -/
def Stretch (mark input stretch : List α) : Prop :=
  ∃ before behind,
    input = before ++ (mark ++ behind) ∧ Front mark behind stretch

/-- A text in front that no mark starts in is not cut. -/
theorem Front.keeps
    {mark input stretch text : List α}
    (front : Front mark input stretch)
    (starts : text <+: input)
    (unmarked : ∀ start < text.length, ¬ mark <+: input.drop start) :
    text <+: stretch := by
  rcases front with ⟨after, rfl, _, ends⟩
  rcases Nat.lt_or_ge stretch.length text.length with shorter | enough
  · have marked := unmarked stretch.length shorter
    rw [List.drop_left] at marked
    rcases ends with rfl | starts'
    · have bound := starts.length_le
      rw [List.append_nil] at bound
      omega
    · exact absurd starts' marked
  · exact List.prefix_of_prefix_length_le starts
      (List.prefix_append _ _) enough

/-- Of two marks in a sequence, the later one is behind the earlier one. -/
theorem behind_of_longer
    {first : α} {rest before other behind more : List α}
    (apart : first ∉ rest)
    (same :
      before ++ (first :: rest ++ behind) =
        other ++ (first :: rest ++ more))
    (longer : before.length < other.length) :
    ∃ between,
      other = before ++ (first :: rest ++ between) ∧
        behind = between ++ (first :: rest ++ more) := by
  rcases List.append_eq_append_iff.mp same with
    ⟨between, isOther, inside⟩ | ⟨between, isBefore, _⟩
  · rcases List.append_eq_append_iff.mp inside with
      ⟨between', isBetween, isBehind⟩ | ⟨shared, isMark, isMore⟩
    · exact ⟨between', by rw [isOther, isBetween], isBehind⟩
    · cases between with
      | nil =>
          rw [List.append_nil] at isOther
          rw [isOther] at longer
          exact absurd longer (Nat.lt_irrefl _)
      | cons sign between =>
          rw [List.cons_append, List.cons.injEq] at isMark
          cases shared with
          | nil =>
              refine ⟨[], ?_, isMore.symm⟩
              rw [isOther, isMark.1, isMark.2, List.append_nil,
                List.append_nil]
          | cons sign' shared =>
              -- The marks would overlap.
              rw [List.cons_append, List.cons_append,
                List.cons.injEq] at isMore
              apply absurd _ apart
              rw [isMark.2, isMore.1]
              exact List.mem_append_right _ List.mem_cons_self
  · rw [isBefore, List.length_append] at longer
    omega

section Cut

variable
    [BEq α]
    [LawfulBEq α]

theorem length_of_dropInfix?
    {first : α} {rest input front behind : List α}
    (found : input.dropInfix? (first :: rest) = some (front, behind)) :
    behind.length < input.length := by
  rw [(dropInfix?_iff.mp found).1]
  simp only [List.length_append, List.length_cons]
  omega

/-- The pieces that end at a mark. -/
def framer (first : α) (rest : List α) : Framer α (List α) where
  next := fun input => input.dropInfix? (first :: rest)
  shorter := length_of_dropInfix?
  stable := dropInfix?_append

/-- `str::split` at a text, given by its first sign and the others. -/
def cut (first : α) (rest input : List α) : List (List α) :=
  ((framer first rest).split input).1 ++
    [((framer first rest).split input).2]

variable {first : α} {rest input : List α}

theorem cut_none (none : input.dropInfix? (first :: rest) = none) :
    cut first rest input = [input] := by
  rw [cut, (framer first rest).split_none none]
  rfl

theorem cut_some
    {front behind : List α}
    (found : input.dropInfix? (first :: rest) = some (front, behind)) :
    cut first rest input = front :: cut first rest behind := by
  rw [cut, (framer first rest).split_some found]
  rfl

theorem not_infix_of_none
    (none : input.dropInfix? (first :: rest) = none) :
    ¬ first :: rest <:+: input := by
  rintro ⟨before, after, inside⟩
  have occurs :
      ∃ length, ∃ front : List α,
        front.length = length ∧ front ++ first :: rest <+: input :=
    ⟨_, before, rfl, after, inside⟩
  -- The first occurrence would have been found.
  classical
  rcases Nat.find_spec occurs with ⟨front, isLeast, behind, isInput⟩
  have found :
      input.dropInfix? (first :: rest) = some (front, behind) := by
    rw [dropInfix?_iff]
    refine ⟨by rw [← isInput, List.append_assoc], ?_⟩
    intro shorter starts
    rw [isLeast]
    exact Nat.find_min' occurs ⟨shorter, rfl, starts⟩
  rw [none] at found
  cases found

/-- The first piece is what stands in front. -/
theorem head?_cut
    (apart : first ∉ rest)
    (stretch : List α) :
    (cut first rest input).head? = some stretch ↔
      Front (first :: rest) input stretch := by
  cases found : input.dropInfix? (first :: rest) with
  | none =>
      have unmarked := not_infix_of_none found
      rw [cut_none found, List.head?_cons, Option.some.injEq]
      constructor
      · rintro rfl
        exact ⟨[], (List.append_nil _).symm, unmarked, Or.inl rfl⟩
      · rintro ⟨after, rfl, _, rfl | starts⟩
        · exact List.append_nil _
        · exact absurd (starts.isInfix.trans
            (List.suffix_append _ _).isInfix) unmarked
  | some found' =>
      rcases found' with ⟨front, behind⟩
      rcases dropInfix?_iff.mp found with ⟨whole, least⟩
      rw [cut_some found, List.head?_cons, Option.some.injEq]
      constructor
      · rintro rfl
        refine ⟨_, whole, ?_, Or.inr (List.prefix_append _ _)⟩
        rintro ⟨before, after, inside⟩
        have shorter := least before (by
          rw [whole, ← inside, List.append_assoc _ after]
          exact List.prefix_append _ _)
        rw [← inside] at shorter
        simp only [List.length_append, List.length_cons] at shorter
        omega
      · rintro ⟨after, isInput, unmarked, rfl | ⟨more, rfl⟩⟩
        · rw [List.append_nil] at isInput
          refine absurd ?_ unmarked
          rw [← isInput, whole]
          exact ⟨front, behind, List.append_assoc _ _ _⟩
        · have bound := least stretch (by
            rw [isInput, ← List.append_assoc]
            exact List.prefix_append _ _)
          rcases Nat.lt_or_eq_of_le bound with longer | same
          · rcases behind_of_longer apart (whole.symm.trans isInput)
                longer with ⟨between, rfl, _⟩
            refine absurd ?_ unmarked
            exact ⟨front, between, List.append_assoc _ _ _⟩
          · exact (List.append_inj (whole.symm.trans isInput) same).1

theorem exists_front
    (apart : first ∉ rest)
    (input : List α) :
    ∃ stretch, Front (first :: rest) input stretch := by
  have pieces : cut first rest input ≠ [] := by
    rw [cut]
    exact List.append_ne_nil_of_right_ne_nil _ (List.cons_ne_nil _ _)
  rcases List.exists_cons_of_ne_nil pieces with ⟨stretch, more, isCut⟩
  refine ⟨stretch, (head?_cut apart stretch).mp ?_⟩
  rw [isCut, List.head?_cons]

/-- The pieces behind the first are the stretches behind the marks. -/
theorem mem_tail_cut
    (apart : first ∉ rest)
    (stretch : List α) :
    stretch ∈ (cut first rest input).tail ↔
      Stretch (first :: rest) input stretch := by
  induction input using (framer first rest).split_induction with
  | ends input none =>
      have unmarked := not_infix_of_none none
      rw [cut_none none]
      constructor
      · intro member
        cases member
      · rintro ⟨before, behind, rfl, _⟩
        exact absurd ⟨before, behind, List.append_assoc _ _ _⟩ unmarked
  | item input front behind found induction =>
      rcases dropInfix?_iff.mp found with ⟨whole, least⟩
      rw [cut_some found, List.tail_cons]
      have pieces :
          stretch ∈ cut first rest behind ↔
            Front (first :: rest) behind stretch ∨
              Stretch (first :: rest) behind stretch := by
        rw [← head?_cut apart, ← induction]
        cases cut first rest behind with
        | nil => simp
        | cons piece pieces => simp [eq_comm]
      rw [pieces]
      constructor
      · rintro (inFront | ⟨before, more, isBehind, inFront⟩)
        · exact ⟨front, behind, whole, inFront⟩
        · refine ⟨front ++ (first :: rest ++ before), more, ?_, inFront⟩
          rw [whole, isBehind]
          simp only [List.append_assoc]
      · rintro ⟨before, more, isInput, inFront⟩
        have bound := least before (by
          rw [isInput, ← List.append_assoc]
          exact List.prefix_append _ _)
        rcases Nat.lt_or_eq_of_le bound with longer | same
        · rcases behind_of_longer apart (whole.symm.trans isInput) longer
            with ⟨between, rfl, isBehind⟩
          exact Or.inr ⟨between, more, isBehind, inFront⟩
        · have parts := List.append_inj (whole.symm.trans isInput) same
          rw [List.append_cancel_left parts.2]
          exact Or.inl inFront

end Cut

end OpenAirplay2.Lib.Marks

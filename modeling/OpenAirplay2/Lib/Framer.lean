import Mathlib

/-!
# Reading items off a stream

A framer reads one item off the front of its input, or finds that it cannot.
Where an item was read, more input behind it changes nothing.  From this law
alone it follows that reading a stream piece by piece, with what is left of
one round kept for the next, finds the items of the whole stream.
-/

namespace OpenAirplay2.Lib

universe u v w

/-- One item at a time, decided by what has arrived of it. -/
structure Framer (α : Type u) (Item : Type v) where
  next : List α → Option (Item × List α)
  shorter :
    ∀ {input item rest},
      next input = some (item, rest) → rest.length < input.length
  stable :
    ∀ {input item rest},
      next input = some (item, rest) →
        ∀ more, next (input ++ more) = some (item, rest ++ more)

namespace Framer

variable
    {α : Type u}
    {Item : Type v}
    (framer : Framer α Item)

/-- All items that can be read, and what is left behind them. -/
def split (input : List α) : List Item × List α :=
  match found : framer.next input with
  | none => ([], input)
  | some (item, rest) =>
      have := framer.shorter found
      (item :: (split rest).1, (split rest).2)
termination_by input.length

theorem split_none
    {input : List α}
    (ends : framer.next input = none) :
    framer.split input = ([], input) := by
  rw [split]
  split
  · rfl
  · next found =>
      rw [ends] at found
      cases found

theorem split_some
    {input rest : List α}
    {item : Item}
    (found : framer.next input = some (item, rest)) :
    framer.split input =
      (item :: (framer.split rest).1, (framer.split rest).2) := by
  rw [split]
  split
  · next ends =>
      rw [ends] at found
      cases found
  · next other =>
      rw [found] at other
      cases other
      rfl

/-- Induction along the items that are read. -/
theorem split_induction
    {motive : List α → Prop}
    (ends : ∀ input, framer.next input = none → motive input)
    (item :
      ∀ input item rest,
        framer.next input = some (item, rest) →
          motive rest →
            motive input)
    (input : List α) :
    motive input := by
  induction length : input.length using Nat.strong_induction_on
    generalizing input with
  | h length induction =>
      cases found : framer.next input with
      | none => exact ends input found
      | some read =>
          have shorter := framer.shorter found
          exact item input read.1 read.2 found
            (induction read.2.length (by omega) read.2 rfl)

/-- Nothing more can be read off what is left. -/
theorem next_left (input : List α) :
    framer.next (framer.split input).2 = none := by
  induction input using framer.split_induction with
  | ends input ends => rwa [framer.split_none ends]
  | item input item rest found induction =>
      rwa [framer.split_some found]

/-- More input behind the items is split after them. -/
theorem split_append (input more : List α) :
    framer.split (input ++ more) =
      ((framer.split input).1 ++
          (framer.split ((framer.split input).2 ++ more)).1,
        (framer.split ((framer.split input).2 ++ more)).2) := by
  induction input using framer.split_induction with
  | ends input ends =>
      rw [framer.split_none ends]
      rfl
  | item input item rest found induction =>
      rw [framer.split_some (framer.stable found more),
        framer.split_some found, induction]
      rfl

/-- What is read back one by one is read back in a row. -/
theorem split_written
    {Written : Type w}
    (encode : Written → List α)
    (item : Written → Item)
    (written : List Written)
    (tail : List α)
    (reads :
      ∀ one ∈ written,
        ∀ rest, framer.next (encode one ++ rest) = some (item one, rest)) :
    framer.split (written.flatMap encode ++ tail) =
      (written.map item ++ (framer.split tail).1,
        (framer.split tail).2) := by
  induction written with
  | nil => rfl
  | cons one written induction =>
      rw [List.flatMap_cons, List.append_assoc,
        framer.split_some (reads one List.mem_cons_self _),
        induction fun other member =>
          reads other (List.mem_cons_of_mem one member)]
      rfl

theorem split_encoded
    (encode : Item → List α)
    (items : List Item)
    (tail : List α)
    (reads :
      ∀ item ∈ items,
        ∀ rest, framer.next (encode item ++ rest) = some (item, rest)) :
    framer.split (items.flatMap encode ++ tail) =
      (items ++ (framer.split tail).1, (framer.split tail).2) := by
  rw [framer.split_written encode id items tail reads, List.map_id]

/-- The input is what the items are encoded to, and what is left. -/
theorem encoded_split
    (encode : Item → List α)
    (reads :
      ∀ input item rest,
        framer.next input = some (item, rest) →
          encode item ++ rest = input)
    (input : List α) :
    (framer.split input).1.flatMap encode ++ (framer.split input).2 =
      input := by
  induction input using framer.split_induction with
  | ends input ends =>
      rw [framer.split_none ends]
      rfl
  | item input item rest found induction =>
      rw [framer.split_some found, List.flatMap_cons, List.append_assoc,
        induction, reads input item rest found]

/-- What every item that is read meets, the items that are split meet. -/
theorem forall_split
    (holds : Item → Prop)
    (reads :
      ∀ input item rest,
        framer.next input = some (item, rest) → holds item)
    (input : List α) :
    ∀ item ∈ (framer.split input).1, holds item := by
  induction input using framer.split_induction with
  | ends input ends =>
      rw [framer.split_none ends]
      intro item member
      cases member
  | item input item rest found induction =>
      rw [framer.split_some found]
      intro other member
      rcases List.mem_cons.mp member with rfl | later
      · exact reads input _ rest found
      · exact induction other later

/-! ## Piece by piece -/

/-- The items read so far, and what is left for the next piece. -/
def feed (state : List Item × List α) (piece : List α) :
    List Item × List α :=
  (state.1 ++ (framer.split (state.2 ++ piece)).1,
    (framer.split (state.2 ++ piece)).2)

theorem feed_split (input piece : List α) :
    framer.feed (framer.split input) piece =
      framer.split (input ++ piece) := by
  rw [feed, framer.split_append input piece]

/-- The pieces do not matter, only what they add up to. -/
theorem foldl_feed (pieces : List (List α)) (input : List α) :
    pieces.foldl framer.feed (framer.split input) =
      framer.split (input ++ pieces.flatten) := by
  induction pieces generalizing input with
  | nil => rw [List.flatten_nil, List.append_nil]; rfl
  | cons piece pieces induction =>
      rw [List.foldl_cons, framer.feed_split, induction,
        List.flatten_cons, List.append_assoc]

end Framer

/-! ## Up to a mark -/

section Mark

variable
    {α : Type u}
    [BEq α]
    [LawfulBEq α]

/-- What is in front of a mark, found where it is for the first time. -/
theorem dropInfix?_iff {input mark front rest : List α} :
    input.dropInfix? mark = some (front, rest) ↔
      input = front ++ (mark ++ rest) ∧
        ∀ shorter, shorter ++ mark <+: input →
          front.length ≤ shorter.length := by
  rw [List.dropInfix?_eq_some_iff]
  constructor
  · rintro ⟨⟨found, rfl, same⟩, first⟩
    rw [beq_iff_eq.mp same] at first ⊢
    refine ⟨List.append_assoc front mark rest, ?_⟩
    rintro shorter ⟨ending, whole⟩
    exact first shorter mark ending whole.symm (beq_self_eq_true mark)
  · rintro ⟨rfl, first⟩
    refine ⟨⟨mark, (List.append_assoc front mark rest).symm, ?_⟩, ?_⟩
    · exact beq_self_eq_true mark
    · intro shorter found ending whole same
      rw [beq_iff_eq.mp same] at whole
      exact first shorter ⟨ending, whole.symm⟩

/-- Found once, it is found there however the input goes on. -/
theorem dropInfix?_append
    {input mark front rest : List α}
    (found : input.dropInfix? mark = some (front, rest))
    (more : List α) :
    (input ++ more).dropInfix? mark = some (front, rest ++ more) := by
  rw [dropInfix?_iff] at found ⊢
  rcases found with ⟨rfl, first⟩
  refine ⟨by simp only [List.append_assoc], ?_⟩
  intro shorter starts
  by_contra below
  apply below
  apply first
  apply List.prefix_of_prefix_length_le starts (List.prefix_append _ _)
  simp only [List.length_append]
  omega

end Mark

end OpenAirplay2.Lib

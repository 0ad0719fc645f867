import Mathlib

/-!
# Values carried in fragments

A value longer than a fragment may be is sent as several fragments under one
key, and the receiver joins them again.  The receiver here joins a fragment
to the item before it when the keys agree and what that item holds so far is
a whole number of fragments; the rule of the format instead looks at the
fragment before.
-/

namespace OpenAirplay2.Lib.Fragments

variable
    {Key : Type*}
    {α : Type*}
    (size : Nat)

/-- A whole number of fragments, and at least one. -/
def Full (value : List α) : Prop :=
  value.length % size = 0 ∧ value ≠ []

instance (value : List α) : Decidable (Full size value) :=
  inferInstanceAs (Decidable (_ ∧ _))

/-- The item takes in a fragment under the key. -/
def Continues (item : Key × List α) (key : Key) : Prop :=
  item.1 = key ∧ Full size item.2

instance [DecidableEq Key] (item : Key × List α) (key : Key) :
    Decidable (Continues size item key) :=
  inferInstanceAs (Decidable (_ ∧ _))

/-- No item takes in the first fragment of the next. -/
def Separated (items : List (Key × List α)) : Prop :=
  items.IsChain fun item next => ¬ Continues size item next.1

section

variable {size}

/-- What follows a whole number of fragments decides about the sum. -/
theorem Full.append_iff
    {value : List α}
    (full : Full size value)
    (more : List α) :
    Full size (value ++ more) ↔ more.length % size = 0 := by
  have sum : (value ++ more).length % size = more.length % size := by
    rw [List.length_append, Nat.add_mod, full.1, Nat.zero_add,
      Nat.mod_mod]
  constructor
  · intro both
    rw [← sum]
    exact both.1
  · intro whole
    exact ⟨sum.trans whole, List.append_ne_nil_of_left_ne_nil full.2 more⟩

/-- Among values that fit into one fragment, one length is full. -/
theorem full_iff
    {value : List α}
    (positive : 0 < size)
    (fits : value.length ≤ size) :
    Full size value ↔ value.length = size := by
  constructor
  · rintro ⟨whole, nonempty⟩
    have some_length : value.length ≠ 0 := by
      intro empty
      exact nonempty (List.length_eq_zero_iff.mp empty)
    by_contra short
    have below : value.length < size := by omega
    rw [Nat.mod_eq_of_lt below] at whole
    exact some_length whole
  · intro exact_size
    refine ⟨by rw [exact_size, Nat.mod_self], ?_⟩
    rintro rfl
    rw [List.length_nil] at exact_size
    omega

end

/-! ## Joining -/

section Joining

variable [DecidableEq Key]

/-- Append a fragment, or join it to the item before. -/
def join
    (items : List (Key × List α)) (fragment : Key × List α) :
    List (Key × List α) :=
  match items.getLast? with
  | some last =>
      if Continues size last fragment.1 then
        items.dropLast ++ [(last.1, last.2 ++ fragment.2)]
      else
        items ++ [fragment]
  | none => items ++ [fragment]

/-- The items that a sequence of fragments is joined to. -/
def joined (fragments : List (Key × List α)) : List (Key × List α) :=
  fragments.foldl (join size) []

theorem join_continues
    (earlier : List (Key × List α))
    (last fragment : Key × List α)
    (continues : Continues size last fragment.1) :
    join size (earlier ++ [last]) fragment =
      earlier ++ [(last.1, last.2 ++ fragment.2)] := by
  rw [join, List.getLast?_concat]
  simp only [continues, if_true, List.dropLast_concat]

theorem join_starts
    (earlier : List (Key × List α))
    (last fragment : Key × List α)
    (starts : ¬ Continues size last fragment.1) :
    join size (earlier ++ [last]) fragment =
      earlier ++ [last] ++ [fragment] := by
  rw [join, List.getLast?_concat]
  simp only [starts, if_false]

theorem joined_concat
    (fragments : List (Key × List α)) (fragment : Key × List α) :
    joined size (fragments ++ [fragment]) =
      join size (joined size fragments) fragment :=
  List.foldl_concat ..

/-- The item built last is under the key of the last fragment. -/
theorem joined_last
    (fragments : List (Key × List α)) (fragment : Key × List α) :
    ∃ earlier value,
      joined size (fragments ++ [fragment]) =
        earlier ++ [(fragment.1, value)] := by
  rw [joined_concat]
  rcases List.eq_nil_or_concat (joined size fragments) with
    nothing | ⟨earlier, last, ends⟩
  · exact ⟨[], fragment.2, by rw [nothing]; rfl⟩
  · rw [List.concat_eq_append] at ends
    rw [ends]
    by_cases continues : Continues size last fragment.1
    · refine ⟨earlier, last.2 ++ fragment.2, ?_⟩
      rw [join_continues size earlier last fragment continues,
        continues.1]
    · exact ⟨earlier ++ [last], fragment.2,
        join_starts size earlier last fragment continues⟩

/-- Joining leaves no item open towards the next. -/
theorem join_separated
    (items : List (Key × List α)) (fragment : Key × List α)
    (separated : Separated size items) :
    Separated size (join size items fragment) := by
  rcases List.eq_nil_or_concat items with rfl | ⟨earlier, last, rfl⟩
  · exact List.isChain_singleton _
  · rw [List.concat_eq_append] at separated ⊢
    by_cases continues : Continues size last fragment.1
    · -- The key of the item stays, and only its key matters to the left.
      rw [join_continues size earlier last fragment continues]
      rw [Separated, List.isChain_append] at separated ⊢
      refine ⟨separated.1, List.isChain_singleton _, ?_⟩
      intro item is_last next is_next
      cases is_next
      exact separated.2.2 item is_last last rfl
    · rw [join_starts size earlier last fragment continues, Separated,
        List.isChain_append]
      refine ⟨separated, List.isChain_singleton _, ?_⟩
      intro item is_last next is_next
      rw [List.getLast?_concat] at is_last
      cases is_last
      cases is_next
      exact continues

theorem joined_separated (fragments : List (Key × List α)) :
    Separated size (joined size fragments) := by
  induction fragments using List.reverseRecOn with
  | nil => exact List.isChain_nil
  | append_singleton fragments fragment induction =>
      rw [joined_concat]
      exact join_separated size _ fragment induction

end Joining

/-! ## Splitting -/

section Splitting

/-- Pieces of the size, the last one possibly shorter. -/
def pieces : Nat → List α → List (List α)
  | _, [] => []
  | 0, _ :: _ => []
  | fuel + 1, value => value.take size :: pieces fuel (value.drop size)

/-- The fragments of one item; an empty value still takes one. -/
def split (item : Key × List α) : List (Key × List α) :=
  if item.2 = [] then [item]
  else (pieces size item.2.length item.2).map fun piece => (item.1, piece)

variable {size}

theorem pieces_nil (fuel : Nat) :
    pieces size fuel ([] : List α) = [] := by
  cases fuel <;> rfl

theorem pieces_cons (fuel : Nat) (head : α) (tail : List α) :
    pieces size (fuel + 1) (head :: tail) =
      (head :: tail).take size ::
        pieces size fuel ((head :: tail).drop size) :=
  rfl

theorem split_cons (key : Key) (head : α) (tail : List α) :
    split size (key, head :: tail) =
      (key, (head :: tail).take size) ::
        (pieces size tail.length ((head :: tail).drop size)).map
          fun piece => (key, piece) :=
  rfl

variable [DecidableEq Key]

/-- The pieces of a value continue an item that holds whole fragments. -/
theorem join_pieces
    (positive : 0 < size)
    (fuel : Nat)
    (earlier : List (Key × List α))
    (key : Key)
    (held value : List α)
    (full : Full size held)
    (enough : value.length ≤ fuel) :
    ((pieces size fuel value).map fun piece => (key, piece)).foldl
        (join size) (earlier ++ [(key, held)]) =
      earlier ++ [(key, held ++ value)] := by
  induction fuel generalizing held value with
  | zero =>
      have empty : value = [] := List.length_eq_zero_iff.mp (by omega)
      rw [empty, pieces_nil, List.append_nil]
      rfl
  | succ fuel induction =>
      cases value with
      | nil =>
          rw [pieces_nil, List.append_nil]
          rfl
      | cons head tail =>
          have first :=
            join_continues size earlier (key, held)
              (key, (head :: tail).take size) ⟨rfl, full⟩
          rw [pieces_cons, List.map_cons, List.foldl_cons, first]
          by_cases last : (head :: tail).length ≤ size
          · rw [List.drop_eq_nil_of_le last, pieces_nil,
              List.take_of_length_le last]
            rfl
          · -- More follows, so this piece is a whole fragment.
            have whole : ((head :: tail).take size).length = size := by
              rw [List.length_take]
              omega
            have still : Full size (held ++ (head :: tail).take size) := by
              rw [full.append_iff, whole, Nat.mod_self]
            rw [induction _ _ still (by
                rw [List.length_drop, List.length_cons]
                rw [List.length_cons] at enough
                omega),
              List.append_assoc, List.take_append_drop]

/-- The fragments of an item are joined to that item. -/
theorem join_split
    (positive : 0 < size)
    (items : List (Key × List α))
    (item : Key × List α)
    (closed :
      ∀ last ∈ items.getLast?, ¬ Continues size last item.1) :
    (split size item).foldl (join size) items = items ++ [item] := by
  have starts (fragment : Key × List α) (same : fragment.1 = item.1) :
      join size items fragment = items ++ [fragment] := by
    rcases List.eq_nil_or_concat items with rfl | ⟨earlier, last, rfl⟩
    · rfl
    · rw [List.concat_eq_append] at closed ⊢
      apply join_starts
      rw [same]
      exact closed last List.getLast?_concat
  rcases item with ⟨key, value⟩
  cases value with
  | nil => exact starts (key, []) rfl
  | cons head tail =>
      rw [split_cons, List.foldl_cons,
        starts (key, (head :: tail).take size) rfl]
      by_cases last : (head :: tail).length ≤ size
      · rw [List.drop_eq_nil_of_le last, pieces_nil,
          List.take_of_length_le last]
        rfl
      · have whole : ((head :: tail).take size).length = size := by
          rw [List.length_take]
          omega
        have full : Full size ((head :: tail).take size) :=
          (full_iff positive (le_of_eq whole)).mpr whole
        rw [join_pieces positive _ items key _ _ full (by
            rw [List.length_drop, List.length_cons]
            omega),
          List.take_append_drop]

/-- Items of which none takes in the next survive the round trip. -/
theorem joined_split
    (positive : 0 < size)
    (items : List (Key × List α))
    (separated : Separated size items) :
    joined size (items.flatMap (split size)) = items := by
  induction items using List.reverseRecOn with
  | nil => rfl
  | append_singleton items item induction =>
      rw [Separated, List.isChain_append] at separated
      have before : joined size (items.flatMap (split size)) = items :=
        induction separated.1
      rw [joined] at before ⊢
      rw [List.flatMap_append, List.foldl_append, before,
        List.flatMap_singleton]
      apply join_split positive
      intro last is_last
      exact separated.2.2 last is_last item rfl

end Splitting

/-! ## The rule of the format -/

section Rule

/-- By the rule, a fragment continues a whole fragment under its key. -/
def Extends (fragment next : Key × List α) : Prop :=
  fragment.1 = next.1 ∧ fragment.2.length = size

/-- A whole fragment, an empty one and another one, all under one key. -/
def EmptyBetween (fragments : List (Key × List α)) : Prop :=
  ∃ before whole empty next after,
    fragments = before ++ whole :: empty :: next :: after ∧
      Extends size whole empty ∧
      empty.1 = next.1 ∧
      empty.2 = []

/-- The item built last is open to the next fragment by the rule. -/
def Obeys [DecidableEq Key] (fragments : List (Key × List α)) : Prop :=
  ∀ before fragment next after,
    fragments = before ++ fragment :: next :: after →
      ∀ earlier last,
        joined size (before ++ [fragment]) = earlier ++ [last] →
          (Continues size last next.1 ↔ Extends size fragment next)

theorem EmptyBetween.append_left
    {fragments : List (Key × List α)}
    (between : EmptyBetween size fragments)
    (after : List (Key × List α)) :
    EmptyBetween size (fragments ++ after) := by
  rcases between with
    ⟨before, whole, empty, next, later, rfl, extended, same, nothing⟩
  refine ⟨before, whole, empty, next, later ++ after, ?_, extended, same,
    nothing⟩
  simp only [List.append_assoc, List.cons_append]

variable {size}
variable [DecidableEq Key]

/-- After a whole fragment the item built last is open to more. -/
theorem full_of_whole
    (positive : 0 < size)
    (before earlier : List (Key × List α))
    (fragment last : Key × List α)
    (whole : fragment.2.length = size)
    (built :
      joined size (before ++ [fragment]) = earlier ++ [last]) :
    last.1 = fragment.1 ∧ Full size last.2 := by
  have alone : Full size fragment.2 :=
    (full_iff positive (le_of_eq whole)).mpr whole
  rw [joined_concat] at built
  rcases List.eq_nil_or_concat (joined size before) with
    nothing | ⟨first, item, ends⟩
  · rw [nothing] at built
    have alike : [] ++ [fragment] = earlier ++ [last] := built
    cases (List.append_inj' alike rfl).2
    exact ⟨rfl, alone⟩
  · rw [List.concat_eq_append] at ends
    rw [ends] at built
    by_cases continues : Continues size item fragment.1
    · rw [join_continues size first item fragment continues] at built
      cases (List.append_inj' built rfl).2
      refine ⟨continues.1, ?_⟩
      rw [continues.2.append_iff, whole, Nat.mod_self]
    · rw [join_starts size first item fragment continues] at built
      cases (List.append_inj' built rfl).2
      exact ⟨rfl, alone⟩

/--
Without an empty fragment in between, the item built last is open exactly
when the last fragment is a whole one, or is empty and continues one.
-/
theorem full_last
    (positive : 0 < size)
    (before : List (Key × List α))
    (fragment : Key × List α)
    (fits : ∀ other ∈ before ++ [fragment], other.2.length ≤ size)
    (apart : ¬ EmptyBetween size (before ++ [fragment])) :
    ∃ earlier value,
      joined size (before ++ [fragment]) =
          earlier ++ [(fragment.1, value)] ∧
        (Full size value ↔
          fragment.2.length = size ∨
            fragment.2 = [] ∧
              ∃ first whole,
                before = first ++ [whole] ∧
                  Extends size whole fragment) := by
  induction before using List.reverseRecOn generalizing fragment with
  | nil =>
      refine ⟨[], fragment.2, rfl, ?_⟩
      rw [full_iff positive (fits fragment List.mem_concat_self)]
      constructor
      · exact Or.inl
      · rintro (whole | ⟨-, first, whole, impossible, -⟩)
        · exact whole
        · exact absurd impossible.symm (by simp)
  | append_singleton before previous induction =>
      have inside : ¬ EmptyBetween size (before ++ [previous]) := by
        intro between
        exact apart (between.append_left size [fragment])
      rcases induction previous
          (fun other member =>
            fits other (List.mem_append_left _ member)) inside with
        ⟨earlier, value, built, full⟩
      have short : fragment.2.length ≤ size :=
        fits fragment List.mem_concat_self
      rw [joined_concat, built]
      by_cases continues : Continues size (previous.1, value) fragment.1
      · -- The fragment before is whole: an empty one would be in between.
        have whole : previous.2.length = size := by
          rcases full.mp continues.2 with
            whole | ⟨empty, first, other, rfl, extended⟩
          · exact whole
          · refine absurd ⟨first, other, previous, fragment, [], ?_,
              extended, continues.1, empty⟩ apart
            simp only [List.append_assoc, List.cons_append,
              List.nil_append]
        refine ⟨earlier, value ++ fragment.2, ?_, ?_⟩
        · rw [join_continues size earlier _ fragment continues,
            continues.1]
        · rw [continues.2.append_iff]
          constructor
          · intro multiple
            by_cases empty : fragment.2 = []
            · exact Or.inr ⟨empty, before, previous, rfl,
                continues.1, whole⟩
            · exact Or.inl ((full_iff positive short).mp
                ⟨multiple, empty⟩)
          · rintro (exact_size | ⟨empty, -⟩)
            · rw [exact_size, Nat.mod_self]
            · rw [empty, List.length_nil, Nat.zero_mod]
      · refine ⟨earlier ++ [(previous.1, value)], fragment.2,
          join_starts size earlier _ fragment continues, ?_⟩
        rw [full_iff positive short]
        constructor
        · exact Or.inl
        · rintro (whole | ⟨-, first, other, ends, same, whole⟩)
          · exact whole
          · have last : other = previous := by
              have found := (List.append_inj' ends rfl).2
              cases found
              rfl
            rw [last] at same whole
            exact absurd ⟨same, full.mpr (Or.inl whole)⟩ continues

/-- Joining obeys the rule unless an empty fragment stands in between. -/
theorem obeys_iff
    (positive : 0 < size)
    (fragments : List (Key × List α))
    (fits : ∀ fragment ∈ fragments, fragment.2.length ≤ size) :
    Obeys size fragments ↔ ¬ EmptyBetween size fragments := by
  constructor
  · rintro obeys ⟨before, whole, empty, next, after, rfl, extended, same,
      nothing⟩
    rcases joined_last size (before ++ [whole]) empty with
      ⟨earlier, value, built⟩
    rcases joined_last size before whole with ⟨first, held, opened⟩
    have full : Full size held :=
      (full_of_whole positive before first whole _ extended.2 opened).2
    -- The empty fragment is joined and leaves the value as it was.
    have unchanged : value = held := by
      rw [joined_concat, opened,
        join_continues size first (whole.1, held) empty
          ⟨extended.1, full⟩,
        nothing, List.append_nil] at built
      have same_item := List.head_eq_of_cons_eq
        (List.append_inj' built rfl).2
      exact (Prod.mk.inj same_item).2.symm
    have rule :=
      obeys (before ++ [whole]) empty next after (by simp) earlier
        (empty.1, value) built
    have impossible : empty.2.length = size :=
      (rule.mp ⟨same, unchanged ▸ full⟩).2
    rw [nothing, List.length_nil] at impossible
    omega
  · intro apart before fragment next after splits earlier last built
    subst splits
    have inside : ¬ EmptyBetween size (before ++ [fragment]) := by
      intro between
      have longer := between.append_left size (next :: after)
      rw [List.append_assoc] at longer
      exact apart longer
    rcases full_last positive before fragment
        (fun other member => fits other (by
          rcases List.mem_append.mp member with left | right
          · exact List.mem_append_left _ left
          · rw [List.mem_singleton.mp right]
            exact List.mem_append_right _ List.mem_cons_self)) inside with
      ⟨_, value, found, full⟩
    rw [found] at built
    cases (List.append_inj' built rfl).2
    constructor
    · rintro ⟨same, open_value⟩
      rcases full.mp open_value with
        whole | ⟨empty, first, whole, rfl, extended⟩
      · exact ⟨same, whole⟩
      · refine absurd ⟨first, whole, fragment, next, after, ?_, extended,
          same, empty⟩ apart
        simp only [List.append_assoc, List.cons_append, List.nil_append]
    · rintro ⟨same, whole⟩
      exact ⟨same, full.mpr (Or.inl whole)⟩

end Rule

end OpenAirplay2.Lib.Fragments

import Mathlib

/-!
# Catalogs

Events put values under keys and remove them.  What is under a key at the end
of a history is what the last event on that key put there.

A list of items is reduced to one row per name: the first item of the name,
unless that one is weak and another is not.
-/

namespace OpenAirplay2.Lib.Catalog

universe u v w

/-! ## What is under a key -/

section Replay

variable
    {Event : Type u}
    {Key : Type v}
    {Value : Type w}
    [Ord Key]
    (key : Event → Key)
    (value : Event → Option Value)

/-- An event puts a value under its key, or removes what is there. -/
def record
    (entries : Std.TreeMap Key Value) (event : Event) :
    Std.TreeMap Key Value :=
  match value event with
  | some item => entries.insert (key event) item
  | none => entries.erase (key event)

/-- What a history leaves behind. -/
def replay (history : List Event) : Std.TreeMap Key Value :=
  history.foldl (record key value) ∅

variable
    [Std.TransOrd Key]
    [Std.LawfulEqOrd Key]
    {key value}

theorem getElem?_record
    (entries : Std.TreeMap Key Value) (event : Event) (other : Key)
    [Decidable (key event = other)] :
    (record key value entries event)[other]? =
      if key event = other then value event else entries[other]? := by
  rw [record]
  cases value event with
  | some item =>
      simp only [Std.TreeMap.getElem?_insert,
        Std.LawfulEqCmp.compare_eq_iff_eq]
  | none =>
      simp only [Std.TreeMap.getElem?_erase,
        Std.LawfulEqCmp.compare_eq_iff_eq]

/-- An event of an extended history is the last one or an earlier one. -/
theorem split_append_singleton
    {history before after : List Event} {last event : Event} :
    history ++ [last] = before ++ event :: after ↔
      (history = before ∧ last = event ∧ after = []) ∨
        ∃ earlier,
          after = earlier ++ [last] ∧
            history = before ++ event :: earlier := by
  constructor
  · intro split
    cases after using List.reverseRecOn with
    | nil =>
        rcases List.append_inj' split rfl with ⟨same, isLast⟩
        exact Or.inl ⟨same, List.singleton_inj.mp isLast, rfl⟩
    | append_singleton earlier final _ =>
        rw [← List.cons_append, ← List.append_assoc] at split
        rcases List.append_inj' split rfl with ⟨same, isLast⟩
        rw [List.singleton_inj.mp isLast]
        exact Or.inr ⟨earlier, rfl, same⟩
  · rintro (⟨rfl, rfl, rfl⟩ | ⟨earlier, rfl, rfl⟩)
    · rfl
    · rw [List.append_assoc, List.cons_append]

/-- The last event on a key decides what is under it. -/
theorem getElem?_replay
    {history : List Event} {other : Key} {item : Value} :
    (replay key value history)[other]? = some item ↔
      ∃ before event after,
        history = before ++ event :: after ∧
          key event = other ∧ value event = some item ∧
          ∀ later ∈ after, key later ≠ other := by
  classical
  induction history using List.reverseRecOn with
  | nil =>
      constructor
      · intro found
        cases found
      · rintro ⟨before, event, after, empty, _⟩
        cases before with
        | nil => cases empty
        | cons first before => cases empty
  | append_singleton history last induction =>
      rw [replay, List.foldl_append]
      show (record key value (replay key value history) last)[other]? =
        some item ↔ _
      rw [getElem?_record]
      split_ifs with same
      · constructor
        · intro put
          exact ⟨history, last, [], rfl, same, put, by simp⟩
        · rintro ⟨before, event, after, split, isKey, put, rest⟩
          rcases split_append_singleton.mp split with
            ⟨_, rfl, _⟩ | ⟨earlier, rfl, _⟩
          · exact put
          · exact absurd same (rest last (by simp))
      · rw [induction]
        constructor
        · rintro ⟨before, event, after, rfl, isKey, put, rest⟩
          refine ⟨before, event, after ++ [last], by simp, isKey, put, ?_⟩
          intro later member
          rcases List.mem_append.mp member with early | final
          · exact rest later early
          · rw [List.mem_singleton.mp final]
            exact same
        · rintro ⟨before, event, after, split, isKey, put, rest⟩
          rcases split_append_singleton.mp split with
            ⟨_, rfl, _⟩ | ⟨earlier, rfl, isHistory⟩
          · exact absurd isKey same
          · refine ⟨before, event, earlier, isHistory, isKey, put, ?_⟩
            intro later member
            exact rest later (List.mem_append_left _ member)

end Replay

/-! ## One row per name -/

section Rows

variable
    {Item : Type u}
    {Name : Type v}
    [Ord Name]
    (name : Item → Name)
    (weak : Item → Bool)

/-- Keep what is kept, unless it is weak and the new item is not. -/
def prefer (item : Item) : Option Item → Option Item
  | none => some item
  | some kept => if weak kept && !weak item then some item else some kept

/-- One item per name, ordered by name. -/
def byName (items : List Item) : Std.TreeMap Name Item :=
  items.foldl
    (fun kept item => kept.alter (name item) (prefer weak item)) ∅

def rows (items : List Item) : List Item :=
  (byName name weak items).toList.map Prod.snd

variable
    [Std.TransOrd Name]
    [Std.LawfulEqOrd Name]
    {name weak}

/-- What is kept for a name is chosen among the items of that name. -/
theorem getElem?_byName
    [DecidableEq Name]
    (items : List Item) (other : Name) :
    (byName name weak items)[other]? =
      (items.filter (name · = other)).foldl
        (fun kept item => prefer weak item kept) none := by
  induction items using List.reverseRecOn with
  | nil => rfl
  | append_singleton items last induction =>
      rw [byName, List.foldl_append]
      show ((byName name weak items).alter _ _)[other]? = _
      rw [Std.TreeMap.getElem?_alter, List.filter_append, List.foldl_append,
        ← induction]
      by_cases same : name last = other
      · subst same
        simp
      · simp [same]

/-- The chosen item is one of them, and weak only if all of them are. -/
theorem chosen
    {items : List Item} {first item : Item}
    (kept :
      items.foldl (fun kept item => prefer weak item kept) (some first) =
        some item) :
    item ∈ first :: items ∧
      (weak item = true → ∀ other ∈ first :: items, weak other = true) := by
  induction items generalizing first with
  | nil =>
      rw [List.foldl_nil, Option.some.injEq] at kept
      rw [← kept]
      refine ⟨List.mem_singleton_self first, ?_⟩
      intro isWeak other member
      rwa [List.mem_singleton.mp member]
  | cons next items induction =>
      rw [List.foldl_cons, prefer] at kept
      split_ifs at kept with better
      · rcases induction kept with ⟨member, all⟩
        refine ⟨List.mem_cons_of_mem first member, ?_⟩
        intro isWeak
        rw [Bool.and_eq_true, Bool.not_eq_true'] at better
        have other := all isWeak next List.mem_cons_self
        rw [better.2] at other
        cases other
      · rcases induction kept with ⟨member, all⟩
        constructor
        · rcases List.mem_cons.mp member with rfl | later
          · exact List.mem_cons_self
          · exact List.mem_cons_of_mem _ (List.mem_cons_of_mem _ later)
        · intro isWeak
          have firstWeak := all isWeak first List.mem_cons_self
          have nextWeak : weak next = true := by
            rw [firstWeak, Bool.true_and, Bool.not_eq_true',
              Bool.not_eq_false] at better
            exact better
          intro other isOther
          rcases List.mem_cons.mp isOther with rfl | isOther
          · exact firstWeak
          · rcases List.mem_cons.mp isOther with rfl | later
            · exact nextWeak
            · exact all isWeak other (List.mem_cons_of_mem _ later)

/-- Something is kept once there is something. -/
theorem exists_chosen (items : List Item) (first : Item) :
    ∃ item,
      items.foldl (fun kept item => prefer weak item kept) (some first) =
        some item := by
  induction items generalizing first with
  | nil => exact ⟨first, rfl⟩
  | cons next items induction =>
      rw [List.foldl_cons, prefer]
      split_ifs
      · exact induction next
      · exact induction first

/-- The row of a name is one of its items, weak only if all of them are. -/
theorem of_getElem?_byName
    {items : List Item} {other : Name} {item : Item}
    (kept : (byName name weak items)[other]? = some item) :
    (item ∈ items ∧ name item = other) ∧
      (weak item = true →
        ∀ same ∈ items, name same = other → weak same = true) := by
  classical
  rw [getElem?_byName] at kept
  cases named : items.filter (name · = other) with
  | nil =>
      rw [named] at kept
      cases kept
  | cons first rest =>
      rw [named] at kept
      have choice := chosen kept
      rw [← named] at choice
      constructor
      · have member := List.mem_filter.mp choice.1
        exact ⟨member.1, of_decide_eq_true member.2⟩
      · intro isWeak same member isNamed
        apply choice.2 isWeak
        exact List.mem_filter.mpr ⟨member, decide_eq_true isNamed⟩

/-- Every name of an item has a row. -/
theorem exists_getElem?_byName
    {items : List Item} {item : Item}
    (member : item ∈ items) :
    ∃ row, (byName name weak items)[name item]? = some row := by
  classical
  rw [getElem?_byName]
  have named : item ∈ items.filter (name · = name item) :=
    List.mem_filter.mpr ⟨member, decide_eq_true rfl⟩
  cases split : items.filter (name · = name item) with
  | nil =>
      rw [split] at named
      cases named
  | cons first rest => exact exists_chosen rest first

/-! ## The rows -/

theorem mem_rows
    {items : List Item} {row : Item} :
    row ∈ rows name weak items ↔
      (byName name weak items)[name row]? = some row := by
  rw [rows, List.mem_map]
  constructor
  · rintro ⟨⟨other, item⟩, member, rfl⟩
    rw [Std.TreeMap.mem_toList_iff_getElem?_eq_some] at member
    rw [(of_getElem?_byName member).1.2]
    exact member
  · intro kept
    exact ⟨(name row, row),
      Std.TreeMap.mem_toList_iff_getElem?_eq_some.mpr kept, rfl⟩

theorem of_mem_rows
    {items : List Item} {row : Item}
    (member : row ∈ rows name weak items) :
    row ∈ items :=
  (of_getElem?_byName (mem_rows.mp member)).1.1

/-- The names that have a row are the names of the items. -/
theorem exists_mem_rows_iff
    {items : List Item} {other : Name} :
    (∃ row ∈ rows name weak items, name row = other) ↔
      ∃ item ∈ items, name item = other := by
  constructor
  · rintro ⟨row, member, isNamed⟩
    exact ⟨row, of_mem_rows member, isNamed⟩
  · rintro ⟨item, member, rfl⟩
    have kept : ∃ row, (byName name weak items)[name item]? = some row :=
      exists_getElem?_byName member
    rcases kept with ⟨row, kept⟩
    have isNamed := (of_getElem?_byName kept).1.2
    refine ⟨row, mem_rows.mpr ?_, isNamed⟩
    rw [isNamed]
    exact kept

/-- The row of a name is weak only if all its items are. -/
theorem weak_row_iff
    {items : List Item} {row : Item}
    (member : row ∈ rows name weak items) :
    weak row = false ↔
      ∃ item ∈ items, name item = name row ∧ weak item = false := by
  constructor
  · intro strong
    exact ⟨row, of_mem_rows member, rfl, strong⟩
  · rintro ⟨item, isItem, isNamed, strong⟩
    cases isWeak : weak row with
    | false => rfl
    | true =>
        have all := (of_getElem?_byName (mem_rows.mp member)).2 isWeak
        rw [all item isItem isNamed] at strong
        cases strong

/-- The rows are ordered by name, with one row per name. -/
theorem pairwise_rows (items : List Item) :
    (rows name weak items).Pairwise fun first second =>
      compare (name first) (name second) = .lt := by
  rw [rows, List.pairwise_map]
  refine List.Pairwise.imp_of_mem ?_ Std.TreeMap.ordered_keys_toList
  intro first second isFirst isSecond ordered
  have key {entry : Name × Item}
      (member : entry ∈ (byName name weak items).toList) :
      name entry.2 = entry.1 := by
    rw [Std.TreeMap.mem_toList_iff_getElem?_eq_some] at member
    exact (of_getElem?_byName member).1.2
  rw [key isFirst, key isSecond]
  exact ordered

end Rows

end OpenAirplay2.Lib.Catalog

import Mathlib

/-!
# A playback ring

A ring that a player fills at one pointer and the hardware empties at the
other.  Positions are counted from the start of the stream, so the ring's
size only bounds how far the player may run ahead; the hardware may overtake
the player, and it plays silence wherever nothing was written in time.

What was played stays as it was; what was not played yet can be taken back;
and what is heard is, in order, part of what was written.
-/

namespace OpenAirplay2.Lib.Playback

/-- Two pointers, and what is or will be heard at every position. -/
structure Buffer (Frame : Type) where
  size : Nat
  hw : Nat
  appl : Nat
  cells : Nat → Option Frame
  room : appl ≤ hw + size
  silent : ∀ position, appl ≤ position → cells position = none

namespace Buffer

variable {Frame : Type}

/-- A ring of a size with nothing in it. -/
def empty (size : Nat) : Buffer Frame where
  size := size
  hw := 0
  appl := 0
  cells := fun _ => none
  room := Nat.zero_le _
  silent := fun _ _ => rfl

/-- The free space, which exceeds the size when the player is behind. -/
def avail (ring : Buffer Frame) : Nat :=
  ring.hw + ring.size - ring.appl

/-- Frames that are written and not played. -/
def queued (ring : Buffer Frame) : Nat :=
  ring.appl - ring.hw

/-- Frames by which the player is behind the hardware. -/
def behind (ring : Buffer Frame) : Nat :=
  ring.hw - ring.appl

/-- What was heard, position by position. -/
def heard (ring : Buffer Frame) : List (Option Frame) :=
  (List.range ring.hw).map ring.cells

/-! ## What moves the pointers -/

theorem room_play (ring : Buffer Frame) (count : Nat) :
    ring.appl ≤ ring.hw + count + ring.size := by
  have room := ring.room
  omega

/-- The hardware plays frames. -/
def play (ring : Buffer Frame) (count : Nat) : Buffer Frame where
  size := ring.size
  hw := ring.hw + count
  appl := ring.appl
  cells := ring.cells
  room := ring.room_play count
  silent := ring.silent

theorem room_forward (ring : Buffer Frame) (count : Nat) :
    ring.appl + min count ring.avail ≤ ring.hw + ring.size := by
  have room := ring.room
  rw [avail]
  omega

theorem silent_forward
    (ring : Buffer Frame) (count position : Nat)
    (above : ring.appl + min count ring.avail ≤ position) :
    ring.cells position = none :=
  ring.silent position (Nat.le_of_add_right_le above)

/-- The player skips frames. -/
def forward (ring : Buffer Frame) (count : Nat) : Buffer Frame where
  size := ring.size
  hw := ring.hw
  appl := ring.appl + min count ring.avail
  cells := ring.cells
  room := ring.room_forward count
  silent := ring.silent_forward count

theorem room_rewind (ring : Buffer Frame) (count : Nat) :
    ring.appl - min count ring.queued ≤ ring.hw + ring.size :=
  (Nat.sub_le _ _).trans ring.room

/-- What is heard when nothing from a position on is played. -/
def cut (cells : Nat → Option Frame) (bound position : Nat) :
    Option Frame :=
  if position < bound then cells position else none

theorem silent_cut
    (cells : Nat → Option Frame) (bound position : Nat)
    (above : bound ≤ position) :
    cut cells bound position = none :=
  if_neg (Nat.not_lt.mpr above)

/-- The player takes back frames that were not played. -/
def rewind (ring : Buffer Frame) (count : Nat) : Buffer Frame where
  size := ring.size
  hw := ring.hw
  appl := ring.appl - min count ring.queued
  cells := cut ring.cells (ring.appl - min count ring.queued)
  room := ring.room_rewind count
  silent := silent_cut ring.cells _

/-- What is heard once frames are written at the player's pointer. -/
def overlay
    (ring : Buffer Frame) (frames : List Frame) (position : Nat) :
    Option Frame :=
  if position < ring.hw ∨ position < ring.appl then ring.cells position
  else frames[position - ring.appl]?

theorem silent_overlay
    (ring : Buffer Frame) (frames : List Frame) (position : Nat)
    (above : ring.appl + frames.length ≤ position) :
    ring.overlay frames position = none := by
  rw [overlay]
  split
  · exact ring.silent position (Nat.le_of_add_right_le above)
  · exact List.getElem?_eq_none (by omega)

theorem room_put (ring : Buffer Frame) (frames : List Frame) :
    ring.appl + (frames.take ring.avail).length ≤ ring.hw + ring.size := by
  have room := ring.room
  rw [List.length_take, avail]
  omega

/--
The player writes as many frames as there is room for; those that belong
where the hardware has been already are never heard.
-/
def put (ring : Buffer Frame) (frames : List Frame) : Buffer Frame where
  size := ring.size
  hw := ring.hw
  appl := ring.appl + (frames.take ring.avail).length
  cells := ring.overlay (frames.take ring.avail)
  room := ring.room_put frames
  silent := ring.silent_overlay (frames.take ring.avail)

/-- The pointers meet at the hardware's, and nothing is left to play. -/
def reset (ring : Buffer Frame) : Buffer Frame where
  size := ring.size
  hw := ring.hw
  appl := ring.hw
  cells := cut ring.cells ring.hw
  room := Nat.le_add_right _ _
  silent := silent_cut ring.cells ring.hw

/-! ## Runs -/

/-- Frames that are written and were not taken back, in order. -/
def kept (ring : Buffer Frame) : List Frame :=
  (List.range ring.appl).filterMap ring.cells

/--
One ring comes from another by playing, skipping, taking back and writing;
the list has the frames that were written, in order.
-/
inductive Moved (start : Buffer Frame) :
    List Frame → Buffer Frame → Prop where
  | refl : Moved start [] start
  | play {log : List Frame} {ring : Buffer Frame} (count : Nat) :
      Moved start log ring → Moved start log (ring.play count)
  | forward {log : List Frame} {ring : Buffer Frame} (count : Nat) :
      Moved start log ring → Moved start log (ring.forward count)
  | rewind {log : List Frame} {ring : Buffer Frame} (count : Nat) :
      Moved start log ring → Moved start log (ring.rewind count)
  | put {log : List Frame} {ring : Buffer Frame} (frames : List Frame) :
      Moved start log ring →
        Moved start (log ++ frames.take ring.avail) (ring.put frames)
  | reset {log : List Frame} {ring : Buffer Frame} :
      Moved start log ring → Moved start log ring.reset

theorem Moved.trans
    {start middle final : Buffer Frame} {first second : List Frame}
    (before : Moved start first middle)
    (after : Moved middle second final) :
    Moved start (first ++ second) final := by
  induction after with
  | refl => rwa [List.append_nil]
  | play count _ induction => exact induction.play count
  | forward count _ induction => exact induction.forward count
  | rewind count _ induction => exact induction.rewind count
  | put frames _ induction =>
      rw [← List.append_assoc]
      exact induction.put frames
  | reset _ induction => exact induction.reset

theorem Moved.hw_le
    {start final : Buffer Frame} {log : List Frame}
    (moved : Moved start log final) :
    start.hw ≤ final.hw := by
  induction moved with
  | refl => exact le_rfl
  | play count _ induction =>
      exact induction.trans (Nat.le_add_right _ _)
  | forward _ _ induction => exact induction
  | rewind _ _ induction => exact induction
  | put _ _ induction => exact induction
  | reset _ induction => exact induction

theorem Moved.size_eq
    {start final : Buffer Frame} {log : List Frame}
    (moved : Moved start log final) :
    final.size = start.size := by
  induction moved with
  | refl => rfl
  | play _ _ induction => exact induction
  | forward _ _ induction => exact induction
  | rewind _ _ induction => exact induction
  | put _ _ induction => exact induction
  | reset _ induction => exact induction

/-- A player that has caught up with a moment never falls behind it. -/
theorem Moved.caught
    {start final : Buffer Frame} {log : List Frame} {moment : Nat}
    (moved : Moved start log final)
    (played : moment ≤ start.hw)
    (caught : moment ≤ start.appl) :
    moment ≤ final.appl := by
  induction moved with
  | refl => exact caught
  | play _ _ induction => exact induction
  | forward _ _ induction =>
      exact induction.trans (Nat.le_add_right _ _)
  | @rewind _ ring count before induction =>
      have reached : moment ≤ ring.hw := played.trans before.hw_le
      show moment ≤ ring.appl - min count ring.queued
      rw [queued]
      omega
  | put _ _ induction =>
      exact induction.trans (Nat.le_add_right _ _)
  | reset before _ => exact played.trans before.hw_le

/-- What is heard was there or was written on the way. -/
theorem Moved.source
    {start final : Buffer Frame} {log : List Frame}
    (moved : Moved start log final)
    {position : Nat} {frame : Frame}
    (found : final.cells position = some frame) :
    start.cells position = some frame ∨ frame ∈ log := by
  induction moved with
  | refl => exact Or.inl found
  | play _ _ induction => exact induction found
  | forward _ _ induction => exact induction found
  | @rewind _ ring count _ induction =>
      change cut ring.cells _ position = _ at found
      rw [cut] at found
      split at found
      · exact induction found
      · cases found
  | @put _ ring frames _ induction =>
      change ring.overlay _ position = _ at found
      rw [overlay] at found
      split at found
      · rcases induction found with old | logged
        · exact Or.inl old
        · exact Or.inr (List.mem_append_left _ logged)
      · exact
          Or.inr
            (List.mem_append_right _ (List.mem_of_getElem? found))
  | @reset _ ring _ induction =>
      change cut ring.cells _ position = _ at found
      rw [cut] at found
      split at found
      · exact induction found
      · cases found

/-! ## What is heard, in order -/

/-- Positions without a frame add nothing. -/
theorem filterMap_range_of_silent
    {cells : Nat → Option Frame} {bound limit : Nat}
    (below : bound ≤ limit)
    (silent :
      ∀ position, bound ≤ position → cells position = none) :
    (List.range limit).filterMap cells =
      (List.range bound).filterMap cells := by
  rcases Nat.exists_eq_add_of_le below with ⟨more, rfl⟩
  have nothing :
      ((List.range more).map (bound + ·)).filterMap cells = [] := by
    rw [List.filterMap_eq_nil_iff]
    intro position member
    rcases List.mem_map.mp member with ⟨index, _, rfl⟩
    exact silent _ (Nat.le_add_right _ _)
  rw [List.range_add, List.filterMap_append, nothing, List.append_nil]

theorem sublist_range
    (cells : Nat → Option Frame) {bound limit : Nat}
    (below : bound ≤ limit) :
    ((List.range bound).filterMap cells).Sublist
      ((List.range limit).filterMap cells) :=
  (List.range_sublist.mpr below).filterMap cells

theorem filterMap_cut
    (cells : Nat → Option Frame) (bound : Nat) :
    (List.range bound).filterMap (cut cells bound) =
      (List.range bound).filterMap cells := by
  apply List.filterMap_congr
  intro position member
  exact if_pos (List.mem_range.mp member)

theorem heard_sublist_kept (ring : Buffer Frame) :
    ((List.range ring.hw).filterMap ring.cells).Sublist ring.kept := by
  rcases Nat.le_total ring.hw ring.appl with ahead | late
  · exact sublist_range ring.cells ahead
  · rw [filterMap_range_of_silent late ring.silent]
    exact List.Sublist.refl _

theorem kept_rewind (ring : Buffer Frame) (count : Nat) :
    (ring.rewind count).kept.Sublist ring.kept := by
  have same :
      (ring.rewind count).kept =
        (List.range (ring.appl - min count ring.queued)).filterMap
          ring.cells :=
    filterMap_cut ring.cells _
  rw [same]
  exact sublist_range ring.cells (Nat.sub_le _ _)

theorem kept_reset (ring : Buffer Frame) :
    ring.reset.kept.Sublist ring.kept := by
  have same :
      ring.reset.kept = (List.range ring.hw).filterMap ring.cells :=
    filterMap_cut ring.cells _
  rw [same]
  exact ring.heard_sublist_kept

/-- Some entries of a list, by their places, are part of it. -/
theorem sublist_of_places
    (frames : List Frame) (dropped : Nat → Prop) [DecidablePred dropped] :
    ((List.range frames.length).filterMap fun place =>
        if dropped place then none else frames[place]?).Sublist frames := by
  induction frames generalizing dropped with
  | nil => exact List.Sublist.refl _
  | cons frame rest induction =>
      have shifted := induction fun place => dropped (place + 1)
      rw [List.length_cons, List.range_succ_eq_map, List.filterMap_cons,
        List.filterMap_map]
      by_cases first : dropped 0
      · simp only [if_pos first]
        exact shifted.cons frame
      · simp only [if_neg first, List.getElem?_cons_zero]
        exact shifted.cons_cons frame

theorem kept_put (ring : Buffer Frame) (frames : List Frame) :
    (ring.put frames).kept.Sublist
      (ring.kept ++ frames.take ring.avail) := by
  have old :
      (List.range ring.appl).filterMap
          (ring.overlay (frames.take ring.avail)) =
        ring.kept := by
    apply List.filterMap_congr
    intro position member
    exact if_pos (Or.inr (List.mem_range.mp member))
  have new :
      ((List.range (frames.take ring.avail).length).map
            (ring.appl + ·)).filterMap
          (ring.overlay (frames.take ring.avail)) =
        (List.range (frames.take ring.avail).length).filterMap fun place =>
          if ring.appl + place < ring.hw then none
          else (frames.take ring.avail)[place]? := by
    rw [List.filterMap_map]
    apply List.filterMap_congr
    intro place _
    show ring.overlay _ (ring.appl + place) = _
    rw [overlay]
    by_cases late : ring.appl + place < ring.hw
    · rw [if_pos (Or.inl late), if_pos late]
      exact ring.silent _ (Nat.le_add_right _ _)
    · rw [if_neg (not_or_intro late (by omega)), if_neg late,
        Nat.add_sub_cancel_left]
  show
    ((List.range (ring.appl + (frames.take ring.avail).length)).filterMap
      (ring.overlay (frames.take ring.avail))).Sublist _
  rw [List.range_add, List.filterMap_append, old, new]
  exact (List.Sublist.refl _).append (sublist_of_places _ _)

/-- What is kept of what was written is part of it, in its order. -/
theorem Moved.kept_sublist
    {start final : Buffer Frame} {log : List Frame}
    (moved : Moved start log final) :
    final.kept.Sublist (start.kept ++ log) := by
  induction moved with
  | refl => rw [List.append_nil]
  | play _ _ induction => exact induction
  | @forward _ ring count _ induction =>
      have same : (ring.forward count).kept = ring.kept :=
        filterMap_range_of_silent (Nat.le_add_right _ _) ring.silent
      rw [same]
      exact induction
  | @rewind _ ring count _ induction =>
      exact (ring.kept_rewind count).trans induction
  | @put log ring frames _ induction =>
      rw [← List.append_assoc]
      exact
        (ring.kept_put frames).trans
          (induction.append (List.Sublist.refl _))
  | @reset _ ring _ induction =>
      exact ring.kept_reset.trans induction

/-- What is heard is part of what was written, in its order. -/
theorem Moved.heard_sublist
    {start final : Buffer Frame} {log : List Frame}
    (moved : Moved start log final) :
    (final.heard.reduceOption).Sublist (start.kept ++ log) := by
  have places :
      final.heard.reduceOption =
        (List.range final.hw).filterMap final.cells := by
    rw [heard, List.reduceOption, List.filterMap_map]
    rfl
  rw [places]
  exact final.heard_sublist_kept.trans moved.kept_sublist

end Buffer

end OpenAirplay2.Lib.Playback

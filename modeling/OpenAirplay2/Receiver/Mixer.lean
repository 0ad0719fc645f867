import Mathlib

/-!
# Hardware volume

A volume is applied to a software gain and then to the control of a mixer, in
one or two calls that may each fail.  What was changed before a call failed
stays changed: a set that fails leaves the sound as it was exactly when the
calls before the failing one, and the gain, had nothing to change.

The arithmetic of `f32` and `f64` and the dB table of the card are parameters.
A call that fails changes nothing.
-/

namespace OpenAirplay2.Receiver.Mixer

/-- The operations on `f32` and `f64`. -/
structure Floats (F32 F64 : Type) where
  isFinite : F32 → Bool
  le : F32 → F32 → Bool
  ofInt : Int → F32
  neg : F32 → F32
  sub : F32 → F32 → F32
  div : F32 → F32 → F32
  clamp : F32 → F32 → F32 → F32
  widen : F32 → F64
  ofI64 : Int → F64
  mul : F64 → F64 → F64
  round : F64 → F64
  toI64 : F64 → Int

/-- What is heard: the software gain, the level and the switch. -/
structure Sound where
  gain : ℚ
  level : Int
  switch : Bool
deriving DecidableEq, Repr

abbrev Errno := Int

/-- Calls that change the sound and may fail. -/
abbrev Alsa := ExceptT Errno (StateM Sound)

/-- How calls end, and the sound they leave behind. -/
def exec {α : Type} (calls : Alsa α) (sound : Sound) :
    Except Errno α × Sound :=
  calls.run.run sound

/-- An error ends a sequence of calls, but what was changed stays. -/
theorem exec_bind
    {α β : Type}
    (first : Alsa α) (others : α → Alsa β) (sound : Sound) :
    exec (first >>= others) sound =
      match exec first sound with
      | (.ok value, after) => exec (others value) after
      | (.error errno, after) => (.error errno, after) := by
  simp only [exec, ExceptT.run_bind, StateT.run_bind]
  show StateT.run _ (first.run.run sound).2 = _
  rcases first.run.run sound with ⟨errno | value, after⟩
  · rfl
  · rfl

/-- A control for one set: its dB table, and how the calls on it end. -/
structure Selem where
  ofMilliBel : Int → Int
  levelError : Option Errno
  switchError : Option Errno

/-- `set_playback_volume_all` -/
def Selem.setPlaybackVolumeAll (selem : Selem) (raw : Int) : Alsa Unit :=
  match selem.levelError with
  | some errno => throw errno
  | none => modify fun sound => { sound with level := raw }

theorem exec_setPlaybackVolumeAll
    (selem : Selem) (raw : Int) (sound : Sound) :
    exec (selem.setPlaybackVolumeAll raw) sound =
      match selem.levelError with
      | some errno => (.error errno, sound)
      | none => (.ok (), { sound with level := raw }) := by
  rw [Selem.setPlaybackVolumeAll]
  cases selem.levelError with
  | none => rfl
  | some errno => rfl

/-- `set_playback_db_all`, rounding down to a level of the control. -/
def Selem.setPlaybackDbAll (selem : Selem) (mb : Int) : Alsa Unit :=
  selem.setPlaybackVolumeAll (selem.ofMilliBel mb)

/-- `set_playback_switch_all` -/
def Selem.setPlaybackSwitchAll (selem : Selem) (on : Bool) : Alsa Unit :=
  match selem.switchError with
  | some errno => throw errno
  | none => modify fun sound => { sound with switch := on }

theorem exec_setPlaybackSwitchAll
    (selem : Selem) (on : Bool) (sound : Sound) :
    exec (selem.setPlaybackSwitchAll on) sound =
      match selem.switchError with
      | some errno => (.error errno, sound)
      | none => (.ok (), { sound with switch := on }) := by
  rw [Selem.setPlaybackSwitchAll]
  cases selem.switchError with
  | none => rfl
  | some errno => rfl

/-- `SharedGain::set` -/
def setGain (gain : ℚ) : Alsa Unit :=
  modify fun sound => { sound with gain := max 0 (min 1 gain) }

theorem exec_setGain
    {gain : ℚ}
    (lower : 0 ≤ gain)
    (upper : gain ≤ 1)
    (sound : Sound) :
    exec (setGain gain) sound = (.ok (), { sound with gain := gain }) := by
  show (Except.ok (), { sound with gain := max 0 (min 1 gain) }) = _
  rw [min_eq_right upper, max_eq_right lower]

/-- A control that is driven by the sender's volume. -/
structure HwVolume where
  hasSwitch : Bool
  dbRange : Option (Int × Int)
  rawRange : Int × Int
deriving DecidableEq, Repr

/-! ## The slider -/

section Slider

variable
    {F32 F64 : Type}
    (floats : Floats F32 F64)

/-- The AirPlay mute sentinel. -/
def muteDb : F32 :=
  floats.ofInt (-144)

/-- The bottom of the AirPlay volume slider. -/
def sliderFloorDb : F32 :=
  floats.ofInt (-30)

/-- Where the slider sits in its travel. -/
def sliderPosition (db : F32) : F64 :=
  floats.widen
    (floats.clamp
      (floats.div (floats.sub db (sliderFloorDb floats))
        (floats.neg (sliderFloorDb floats)))
      (floats.ofInt 0) (floats.ofInt 1))

/-- Map the slider onto a control range. -/
def sliderToRange (db : F32) (min max : Int) : Int :=
  min +
    floats.toI64
      (floats.round
        (floats.mul (floats.ofI64 (max - min)) (sliderPosition floats db)))

end Slider

/-! ## Setting the volume -/

/-- Prefer the control's own switch; without one, the control's minimum. -/
def mute
    (selem : Selem) (hasSwitch : Bool)
    (dbRange : Option (Int × Int)) (rawRange : Int × Int) :
    Alsa Unit :=
  if hasSwitch then
    selem.setPlaybackSwitchAll false
  else
    match dbRange with
    | some (min, _) => selem.setPlaybackDbAll min
    | none => selem.setPlaybackVolumeAll rawRange.1

def unmuteAndSetDb
    (selem : Selem) (hasSwitch : Bool) (mb : Int) : Alsa Unit := do
  selem.setPlaybackDbAll mb
  if hasSwitch then
    selem.setPlaybackSwitchAll true

def unmuteAndSetRaw
    (selem : Selem) (hasSwitch : Bool) (raw : Int) : Alsa Unit := do
  selem.setPlaybackVolumeAll raw
  if hasSwitch then
    selem.setPlaybackSwitchAll true

theorem exec_unmuteAndSetRaw
    (selem : Selem) (hasSwitch : Bool) (raw : Int) (sound : Sound) :
    exec (unmuteAndSetRaw selem hasSwitch raw) sound =
      match selem.levelError with
      | some errno => (.error errno, sound)
      | none =>
          if hasSwitch then
            exec (selem.setPlaybackSwitchAll true)
              { sound with level := raw }
          else
            (.ok (), { sound with level := raw }) := by
  rw [unmuteAndSetRaw, exec_bind, exec_setPlaybackVolumeAll]
  cases selem.levelError with
  | some errno => rfl
  | none =>
      cases hasSwitch with
      | true => rfl
      | false => rfl

namespace HwVolume

variable
    {F32 F64 : Type}
    (floats : Floats F32 F64)
    (hw : HwVolume)

/-- A volume that means nothing, or silence. -/
def mutes (db : F32) : Bool :=
  !floats.isFinite db || floats.le db (muteDb floats)

/-- `result` in `HwVolume::set`, for the control that was found. -/
def result (db : F32) (selem : Selem) : Alsa Unit :=
  if mutes floats db then do
    setGain (if hw.hasSwitch then 1 else 0)
    mute selem hw.hasSwitch hw.dbRange hw.rawRange
  else do
    setGain 1
    match hw.dbRange with
    | some (min, max) =>
        unmuteAndSetDb selem hw.hasSwitch (sliderToRange floats db min max)
    | none =>
        unmuteAndSetRaw selem hw.hasSwitch
          (sliderToRange floats db hw.rawRange.1 hw.rawRange.2)

/-- One set: the volume, and the control if it is still there. -/
structure Request (F32 : Type) where
  db : F32
  selem : Option Selem

/-- `HwVolume::set`: an error is logged and dropped. -/
def set (sound : Sound) (request : Request F32) : Sound :=
  match request.selem with
  | none => sound
  | some selem => (exec (hw.result floats request.db selem) sound).2

/-- Some call of the set fails. -/
def fails (sound : Sound) (request : Request F32) : Bool :=
  match request.selem with
  | none => true
  | some selem =>
      match (exec (hw.result floats request.db selem) sound).1 with
      | .ok _ => false
      | .error _ => true

/-- The sound after a sequence of sets. -/
def run (sound : Sound) (requests : List (Request F32)) : Sound :=
  requests.foldl (hw.set floats) sound

/-! ## What a set changes -/

/-- The gain that a set leaves behind. -/
def target (db : F32) : ℚ :=
  if mutes floats db && !hw.hasSwitch then 0 else 1

/-- The level that a set asks for. -/
def asked (db : F32) (selem : Selem) : Int :=
  match hw.dbRange with
  | some (min, max) =>
      selem.ofMilliBel
        (if mutes floats db then min else sliderToRange floats db min max)
  | none =>
      if mutes floats db then
        hw.rawRange.1
      else
        sliderToRange floats db hw.rawRange.1 hw.rawRange.2

/-- The error of the first call on the control. -/
def firstError (db : F32) (selem : Selem) : Option Errno :=
  if mutes floats db && hw.hasSwitch then
    selem.switchError
  else
    selem.levelError

/-- The error of a second call, if there is one and it is made. -/
def secondError (db : F32) (selem : Selem) : Option Errno :=
  if mutes floats db || !hw.hasSwitch || selem.levelError.isSome then
    none
  else
    selem.switchError

/-- The sound after a set in which every call succeeds. -/
def done (sound : Sound) (db : F32) (selem : Selem) : Sound where
  gain := hw.target floats db
  level :=
    if mutes floats db && hw.hasSwitch then
      sound.level
    else
      hw.asked floats db selem
  switch := if hw.hasSwitch then !mutes floats db else sound.switch

theorem target_bounds (db : F32) :
    0 ≤ hw.target floats db ∧ hw.target floats db ≤ 1 := by
  rw [target]
  split
  · exact ⟨le_rfl, zero_le_one⟩
  · exact ⟨zero_le_one, le_rfl⟩

/-- The gain is restored before the level is set. -/
theorem result_of_not_mutes
    {db : F32} (heard : mutes floats db = false)
    (selem : Selem) :
    hw.result floats db selem =
      setGain 1 >>= fun _ =>
        unmuteAndSetRaw selem hw.hasSwitch (hw.asked floats db selem) := by
  rcases hw with ⟨hasSwitch, dbRange, rawRange⟩
  simp only [result, asked, heard]
  cases dbRange with
  | none => rfl
  | some range => rfl

/-- The gain is parked before the one call is made. -/
theorem result_of_mutes
    {db : F32} (muted : mutes floats db = true)
    (selem : Selem) :
    hw.result floats db selem =
      setGain (hw.target floats db) >>= fun _ =>
        if hw.hasSwitch then
          selem.setPlaybackSwitchAll false
        else
          selem.setPlaybackVolumeAll (hw.asked floats db selem) := by
  rcases hw with ⟨hasSwitch, dbRange, rawRange⟩
  simp only [result, mute, target, asked, muted]
  cases hasSwitch with
  | true => rfl
  | false =>
      cases dbRange with
      | none => rfl
      | some range => rfl

/-- How a set ends, and the sound that it leaves behind. -/
theorem run_result (sound : Sound) (db : F32) (selem : Selem) :
    exec (hw.result floats db selem) sound =
      match hw.firstError floats db selem with
      | some errno =>
          (.error errno, { sound with gain := hw.target floats db })
      | none =>
          match hw.secondError floats db selem with
          | some errno =>
              (.error errno,
                { sound with
                  gain := hw.target floats db
                  level := hw.asked floats db selem })
          | none => (.ok (), hw.done floats sound db selem) := by
  cases muted : mutes floats db with
  | false =>
      rw [hw.result_of_not_mutes floats muted, exec_bind,
        exec_setGain zero_le_one le_rfl]
      show exec (unmuteAndSetRaw _ _ _) _ = _
      rw [exec_unmuteAndSetRaw]
      simp only [firstError, secondError, target, done, muted,
        Bool.false_and, Bool.false_or, Bool.false_eq_true, if_false]
      cases selem.levelError with
      | some errno => rfl
      | none =>
          cases hw.hasSwitch with
          | false => rfl
          | true =>
              rw [exec_setPlaybackSwitchAll]
              cases selem.switchError with
              | none => rfl
              | some errno => rfl
  | true =>
      have bounds := hw.target_bounds floats db
      rw [hw.result_of_mutes floats muted, exec_bind,
        exec_setGain bounds.1 bounds.2]
      show exec (ite _ _ _) _ = _
      simp only [firstError, secondError, done, muted, Bool.true_and,
        Bool.true_or, Bool.not_true, if_true]
      cases hw.hasSwitch with
      | false =>
          rw [if_neg Bool.false_ne_true, exec_setPlaybackVolumeAll]
          cases selem.levelError with
          | none => rfl
          | some errno => rfl
      | true =>
          rw [if_pos rfl, exec_setPlaybackSwitchAll]
          cases selem.switchError with
          | none => rfl
          | some errno => rfl

/-! ## A set that fails -/

/-- Every call of a set before one that fails has nothing to change. -/
def Idle (sound : Sound) (request : Request F32) : Prop :=
  ∀ selem, request.selem = some selem →
    ((hw.firstError floats request.db selem).isSome →
        sound.gain = hw.target floats request.db) ∧
      ((hw.secondError floats request.db selem).isSome →
        sound.gain = hw.target floats request.db ∧
          sound.level = hw.asked floats request.db selem)

/-- A second call is only made when the first one succeeded. -/
theorem firstError_of_secondError
    {db : F32} {selem : Selem}
    (failed : (hw.secondError floats db selem).isSome) :
    hw.firstError floats db selem = none := by
  rw [secondError] at failed
  split at failed
  · cases failed
  · next made =>
      simp only [Bool.or_eq_true, not_or, Bool.not_eq_true,
        Option.isSome_eq_false_iff, Option.isNone_iff_eq_none] at made
      rw [firstError, made.1.1]
      exact made.2

/-- One set: if a call fails, the sound stays as it was. -/
theorem set_of_fails_iff (sound : Sound) (request : Request F32) :
    (hw.fails floats sound request = true →
        hw.set floats sound request = sound) ↔
      hw.Idle floats sound request := by
  rcases sound with ⟨gain, level, switch⟩
  rcases request with ⟨db, _ | selem⟩
  · constructor
    · rintro _ selem found
      cases found
    · intro _ _
      rfl
  · have idle :
        hw.Idle floats ⟨gain, level, switch⟩ ⟨db, some selem⟩ ↔
          ((hw.firstError floats db selem).isSome →
              gain = hw.target floats db) ∧
            ((hw.secondError floats db selem).isSome →
              gain = hw.target floats db ∧
                level = hw.asked floats db selem) := by
      constructor
      · intro idle
        exact idle selem rfl
      · rintro idle _ ⟨⟩
        exact idle
    rw [idle]
    simp only [fails, set, run_result]
    cases first : hw.firstError floats db selem with
    | some errno =>
        have second : hw.secondError floats db selem = none := by
          cases second : hw.secondError floats db selem with
          | none => rfl
          | some other =>
              rw [firstError_of_secondError floats hw (by rw [second]; rfl)]
                at first
              cases first
        simp [second, eq_comm]
    | none =>
        cases second : hw.secondError floats db selem with
        | some errno => simp [eq_comm]
        | none => simp

/--
Along a sequence of sets, every set in which a call fails leaves the sound as
it was if and only if every set is idle up to the call that fails.
-/
theorem failed_sets_keep_sound_iff
    (sound : Sound) (requests : List (Request F32)) :
    (∀ before request after, requests = before ++ request :: after →
        hw.fails floats (hw.run floats sound before) request = true →
          hw.run floats sound (before ++ [request]) =
            hw.run floats sound before) ↔
      ∀ before request after, requests = before ++ request :: after →
        hw.Idle floats (hw.run floats sound before) request := by
  simp only [run, List.foldl_append, List.foldl_cons, List.foldl_nil,
    set_of_fails_iff]

/-- A set in which every call succeeds does what was asked. -/
theorem set_of_succeeds
    {sound : Sound} {db : F32} {selem : Selem}
    (succeeds : hw.fails floats sound ⟨db, some selem⟩ = false) :
    hw.set floats sound ⟨db, some selem⟩ = hw.done floats sound db selem := by
  simp only [fails, set, run_result] at succeeds ⊢
  cases first : hw.firstError floats db selem with
  | some errno => simp [first] at succeeds
  | none =>
      cases second : hw.secondError floats db selem with
      | some errno => simp [first, second] at succeeds
      | none => rfl

theorem gain_set (sound : Sound) (request : Request F32) :
    (hw.set floats sound request).gain = sound.gain ∨
      (hw.set floats sound request).gain = hw.target floats request.db := by
  rcases request with ⟨db, _ | selem⟩
  · exact Or.inl rfl
  · right
    simp only [set, run_result]
    cases hw.firstError floats db selem with
    | some errno => rfl
    | none =>
        cases hw.secondError floats db selem with
        | some errno => rfl
        | none => rfl

/-- With a switch, the software gain is parked at full scale. -/
theorem gain_run_of_switch
    {sound : Sound}
    (switched : hw.hasSwitch = true)
    (full : sound.gain = 1)
    (requests : List (Request F32)) :
    (hw.run floats sound requests).gain = 1 := by
  induction requests generalizing sound with
  | nil => exact full
  | cons request rest induction =>
      apply induction
      rcases hw.gain_set floats sound request with same | moved
      · rw [same, full]
      · rw [moved, target, switched, Bool.not_true, Bool.and_false,
          if_neg Bool.false_ne_true]

/--
With a switch, only an unmuting that fails after it moved the level changes
the sound.
-/
theorem idle_of_switch
    {sound : Sound}
    (switched : hw.hasSwitch = true)
    (full : sound.gain = 1)
    (requests : List (Request F32)) (request : Request F32) :
    hw.Idle floats (hw.run floats sound requests) request ↔
      ∀ selem, request.selem = some selem →
        (hw.secondError floats request.db selem).isSome →
          (hw.run floats sound requests).level =
            hw.asked floats request.db selem := by
  have parked :
      (hw.run floats sound requests).gain = hw.target floats request.db := by
    rw [hw.gain_run_of_switch floats switched full, target, switched,
      Bool.not_true, Bool.and_false, if_neg Bool.false_ne_true]
  constructor
  · intro idle selem found failed
    exact ((idle selem found).2 failed).2
  · intro level selem found
    exact ⟨fun _ => parked, fun failed => ⟨parked, level selem found failed⟩⟩

end HwVolume

/-! ## A mute that fails -/

/-- Volumes as rational numbers, without rounding. -/
def rationals : Floats ℚ ℚ where
  isFinite := fun _ => true
  le := fun left right => decide (left ≤ right)
  ofInt := fun value => value
  neg := fun value => -value
  sub := fun left right => left - right
  div := fun left right => left / right
  clamp := fun value lower upper => max lower (min value upper)
  widen := fun value => value
  ofI64 := fun value => value
  mul := fun left right => left * right
  round := fun value => if 0 ≤ value then ⌊value + 1 / 2⌋ else ⌈value - 1 / 2⌉
  toI64 := fun value => ⌊value⌋

/-- A control with a dB scale and without a switch. -/
def unswitched : HwVolume where
  hasSwitch := false
  dbRange := some (-10240, 0)
  rawRange := (0, 256)

/-- A mute whose only call fails because the device is gone. -/
def failedMute : HwVolume.Request ℚ where
  db := -144
  selem :=
    some
      { ofMilliBel := fun mb => (mb + 10240) / 40
        levelError := some (-19)
        switchError := none }

/-- The level stays, but the software gain is at zero from then on. -/
theorem failed_mute_silences :
    unswitched.fails rationals ⟨1, 256, true⟩ failedMute = true ∧
      unswitched.set rationals ⟨1, 256, true⟩ failedMute ≠
        ⟨1, 256, true⟩ := by
  have muted : HwVolume.mutes rationals (-144) = true := by
    simp [HwVolume.mutes, rationals, muteDb]
  constructor
  · simp [HwVolume.fails, HwVolume.run_result, failedMute, unswitched,
      HwVolume.firstError, muted]
  · simp [HwVolume.set, HwVolume.run_result, failedMute, unswitched,
      HwVolume.firstError, HwVolume.target, muted]

end OpenAirplay2.Receiver.Mixer

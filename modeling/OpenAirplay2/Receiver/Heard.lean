import OpenAirplay2.Lib.History
import OpenAirplay2.Lib.Playback
import OpenAirplay2.Receiver.Output

/-!
# What is heard of the streams

The shared device on a ring that the hardware plays.  Before every call of the
driver the hardware plays any number of frames, so a statement about every
environment is a statement about every timing: any pause, and any delay
between the calls of one method.

A write is never later than it takes itself, a flush or the end of a stream
leaves nothing to be heard, and what is heard is part of what was written, in
its order.
-/

namespace OpenAirplay2.Receiver.Output

open OpenAirplay2.Lib.Transition
open OpenAirplay2.Lib.Playback

/-! ## Frames -/

section Frames

variable {Sample : Type}

/-- The first frames of interleaved samples. -/
def framesOf (channels : Nat) : Nat → List Sample → List (List Sample)
  | 0, _ => []
  | count + 1, samples =>
      samples.take channels ::
        framesOf channels count (samples.drop channels)

theorem length_framesOf
    (channels count : Nat) (samples : List Sample) :
    (framesOf channels count samples).length = count := by
  induction count generalizing samples with
  | zero => rfl
  | succ count induction =>
      rw [framesOf, List.length_cons, induction]

theorem framesOf_add
    (channels first second : Nat) (samples : List Sample) :
    framesOf channels (first + second) samples =
      framesOf channels first samples ++
        framesOf channels second (samples.drop (first * channels)) := by
  induction first generalizing samples with
  | zero => rw [Nat.zero_add, Nat.zero_mul]; rfl
  | succ first induction =>
      have next :
          (samples.drop channels).drop (first * channels) =
            samples.drop ((first + 1) * channels) := by
        rw [List.drop_drop, Nat.add_mul, Nat.one_mul, Nat.add_comm]
      rw [Nat.add_right_comm, framesOf, framesOf, induction, next,
        List.cons_append]

theorem take_framesOf
    (channels most count : Nat) (samples : List Sample) :
    (framesOf channels count samples).take most =
      framesOf channels (min most count) samples := by
  induction count generalizing most samples with
  | zero => rw [Nat.min_zero, framesOf, List.take_nil]
  | succ count induction =>
      cases most with
      | zero => rw [Nat.zero_min, List.take_zero]; rfl
      | succ most =>
          rw [Nat.succ_min_succ, framesOf, framesOf, List.take_succ_cons,
            induction]

end Frames

/-! ## A device with a ring -/

/-- What happens around one call of the driver. -/
structure Moment where
  /-- Frames that the hardware plays before the call. -/
  elapsed : Nat
  /-- Frames that a write takes at most. -/
  most : Nat
  /-- A write fails, with the negative of the code's successor. -/
  error : Option Nat
  /-- `snd_pcm_recover` succeeds. -/
  recovers : Bool
deriving DecidableEq, Repr

/-- The ring, whether the stream runs, and how many calls there were. -/
structure Device (Sample : Type) where
  ring : Buffer (List Sample)
  running : Bool
  calls : Nat

namespace Device

variable {Sample : Type}

/-- The hardware plays up to the next call. -/
def pass (moments : Nat → Moment) (device : Device Sample) :
    Device Sample where
  ring :=
    if device.running then
      device.ring.play (moments device.calls).elapsed
    else device.ring
  running := device.running
  calls := device.calls + 1

/-- A stream that does not run has played no further than it is written. -/
def Steady (device : Device Sample) : Prop :=
  device.running = false → device.ring.hw ≤ device.ring.appl

/-- The frames of a write that are offered to the ring at this call. -/
def offered
    (moments : Nat → Moment) (channels : Nat) (device : Device Sample)
    (samples : List Sample) (frames : Nat) : List (List Sample) :=
  (framesOf channels frames samples).take (moments device.calls).most

/-- The stream starts once the ring has been full. -/
def put (device : Device Sample) (frames : List (List Sample)) :
    Device Sample where
  ring := device.ring.put frames
  running :=
    device.running ||
      decide (device.ring.size ≤ (device.ring.put frames).queued)
  calls := device.calls

/--
The driver's calls.  A blocking write that waits for room is a number of
writes that take nothing; an error that is recovered from leaves a stream
that is prepared and does not run.
-/
def alsa (moments : Nat → Moment) (channels : Nat) :
    Pcm (Device Sample) Sample where
  isRunning := fun device => (device.running, device.pass moments)
  avail := fun device =>
    let device := device.pass moments
    (device.ring.avail, device)
  forward := fun device frames =>
    let device := device.pass moments
    ((min frames device.ring.avail : Nat),
      { device with ring := device.ring.forward frames })
  writei := fun device samples frames =>
    match (moments device.calls).error with
    | some code => (-(code + 1), device.pass moments)
    | none =>
        let offered := device.offered moments channels samples frames
        let device := device.pass moments
        ((offered.take device.ring.avail).length, device.put offered)
  recover := fun device _ =>
    if (moments device.calls).recovers then
      let device := device.pass moments
      (0, { device with ring := device.ring.reset, running := false })
    else (-1, device.pass moments)
  rewindable := fun device =>
    let device := device.pass moments
    (device.ring.queued, device)
  rewind := fun device frames =>
    let device := device.pass moments
    ((min frames device.ring.queued : Nat),
      { device with ring := device.ring.rewind frames })

variable
    {moments : Nat → Moment}
    {device : Device Sample}

theorem moved_pass :
    device.ring.Moved [] (device.pass moments).ring := by
  rw [pass]
  cases device.running with
  | true => exact .play _ .refl
  | false => exact .refl

theorem steady_pass (steady : device.Steady) :
    (device.pass moments).Steady := by
  intro idle
  change device.running = false at idle
  rw [pass, idle]
  exact steady idle

theorem hw_pass_of_steady
    (idle : device.running = false) :
    (device.pass moments).ring = device.ring := by
  rw [pass, idle]
  rfl

end Device

/-! ## The methods of the stream, on the ring -/

namespace AlsaOutput

variable
    {Sample : Type}
    {moments : Nat → Moment}
    {channels : Nat}

/-- The ring behind an open stream. -/
abbrev ring (output : AlsaOutput (Device Sample)) :
    Buffer (List Sample) :=
  output.pcm.ring

/-- The stream is open on a ring of its size. -/
structure Fits
    (channels : Nat) (output : AlsaOutput (Device Sample)) : Prop where
  channels : output.channels = channels
  size : output.bufferSize = output.ring.size
  steady : output.pcm.Steady

/-- The overshoot of `avail` is the distance between the pointers. -/
theorem framesBehind_avail (ring : Buffer (List Sample)) :
    framesBehind ring.avail ring.size = ring.behind := by
  have room := ring.room
  rw [framesBehind, Buffer.avail, Buffer.behind]
  split <;> omega

/--
Catching up writes nothing, and afterwards the stream is not behind where the
hardware was when it began.
-/
theorem resync_spec
    {output : AlsaOutput (Device Sample)}
    (fits : output.Fits channels) :
    let after := (output.resync (Device.alsa moments channels)).2
    after.Fits channels ∧
      output.ring.Moved [] after.ring ∧
        output.ring.hw ≤ after.ring.appl := by
  rcases output with ⟨device, count, bufferSize⟩
  rcases fits with ⟨same, size, steady⟩
  change count = channels at same
  change bufferSize = device.ring.size at size
  subst same
  subst size
  have asked := @Device.moved_pass _ moments device
  intro after
  by_cases running : device.running = true
  · have reading :=
      asked.trans (@Device.moved_pass _ moments (device.pass moments))
    set read := (device.pass moments).pass moments with readIs
    have size : read.ring.size = device.ring.size := reading.size_eq
    have played : device.ring.hw ≤ read.ring.hw := reading.hw_le
    have keeps : read.running = true := running
    have answer :
        after =
          if read.ring.behind = 0 then
            ⟨read, count, device.ring.size⟩
          else
            ⟨{ read.pass moments with
                ring :=
                  (read.pass moments).ring.forward read.ring.behind },
              count, device.ring.size⟩ := by
      show (resync _ _).2 = _
      rw [resync]
      simp only [Device.alsa, running]
      rw [← framesBehind_avail, size]
      split
      · rfl
      · rfl
    rw [answer]
    split
    · next level =>
        refine ⟨⟨rfl, size.symm, ?_⟩, reading, ?_⟩
        · intro idle
          rw [keeps] at idle
          cases idle
        · rw [Buffer.behind] at level
          show device.ring.hw ≤ read.ring.appl
          omega
    · next drifted =>
        have moved := reading.trans (@Device.moved_pass _ moments read)
        refine ⟨⟨rfl, ?_, ?_⟩, moved.forward _, ?_⟩
        · exact moved.size_eq.symm
        · intro idle
          change read.running = false at idle
          rw [keeps] at idle
          cases idle
        · have same : (read.pass moments).ring.appl = read.ring.appl := by
            rw [Device.pass, keeps]
            rfl
          have further : read.ring.hw ≤ (read.pass moments).ring.hw :=
            (@Device.moved_pass _ moments read).hw_le
          have room := (read.pass moments).ring.room
          show device.ring.hw ≤
            (read.pass moments).ring.appl +
              min read.ring.behind (read.pass moments).ring.avail
          rw [Buffer.behind] at drifted ⊢
          rw [Buffer.avail, same]
          omega
  · rw [Bool.not_eq_true] at running
    have answer :
        after = ⟨device.pass moments, count, device.ring.size⟩ := by
      show (resync _ _).2 = _
      rw [resync]
      simp only [Device.alsa, running]
    have same := @Device.hw_pass_of_steady _ moments device running
    rw [answer]
    refine ⟨⟨rfl, asked.size_eq.symm, Device.steady_pass steady⟩, asked, ?_⟩
    show device.ring.hw ≤ (device.pass moments).ring.appl
    rw [same]
    exact steady running

/-- Discarding writes nothing, and leaves nothing to be played. -/
theorem discard_spec
    {output : AlsaOutput (Device Sample)}
    (fits : output.Fits channels) :
    let after := output.discard (Device.alsa moments channels)
    after.Fits channels ∧
      output.ring.Moved [] after.ring ∧
        after.ring.appl ≤ after.ring.hw := by
  rcases output with ⟨device, count, bufferSize⟩
  rcases fits with ⟨same, size, steady⟩
  change count = channels at same
  change bufferSize = device.ring.size at size
  subst same
  subst size
  have asked := @Device.moved_pass _ moments device
  have steadyAsked := @Device.steady_pass _ moments device steady
  intro after
  set read := device.pass moments with readIs
  have answer :
      after =
        if 0 < read.ring.queued then
          ⟨{ read.pass moments with
              ring :=
                (read.pass moments).ring.rewind read.ring.queued },
            count, device.ring.size⟩
        else ⟨read, count, device.ring.size⟩ := by
    show discard _ _ = _
    rw [discard]
    simp only [Device.alsa, Int.natCast_pos, Int.toNat_natCast]
    rfl
  rw [answer]
  split
  · have moved := asked.trans (@Device.moved_pass _ moments read)
    have steadyRead := @Device.steady_pass _ moments read steadyAsked
    have same : (read.pass moments).ring.appl = read.ring.appl := by
      rw [Device.pass]
      split
      · rfl
      · rfl
    have further : read.ring.hw ≤ (read.pass moments).ring.hw :=
      (@Device.moved_pass _ moments read).hw_le
    refine ⟨⟨rfl, moved.size_eq.symm, ?_⟩, moved.rewind _, ?_⟩
    · intro idle
      have level := steadyRead idle
      show (read.pass moments).ring.hw ≤
        (read.pass moments).ring.appl -
          min read.ring.queued (read.pass moments).ring.queued
      rw [Buffer.queued, Buffer.queued]
      omega
    · show (read.pass moments).ring.appl -
          min read.ring.queued (read.pass moments).ring.queued ≤
        (read.pass moments).ring.hw
      rw [Buffer.queued, Buffer.queued, same]
      omega
  · next none =>
      refine ⟨⟨rfl, asked.size_eq.symm, steadyAsked⟩, asked, ?_⟩
      rw [Buffer.queued] at none
      show read.ring.appl ≤ read.ring.hw
      omega

/-- A call that writes moves on by the frames it says were written. -/
theorem writei_spec
    {device : Device Sample}
    (steady : device.Steady)
    (samples : List Sample) (frames : Nat) :
    let written := (Device.alsa moments channels).writei device samples
      frames
    written.2.Steady ∧
      written.1 ≤ frames ∧
        device.ring.Moved (framesOf channels written.1.toNat samples)
          written.2.ring := by
  have asked := @Device.moved_pass _ moments device
  have steadyAsked := @Device.steady_pass _ moments device steady
  intro written
  cases failure : (moments device.calls).error with
  | some code =>
      have answer :
          written = (-((code : Int) + 1), device.pass moments) := by
        show (Device.alsa moments channels).writei device samples frames = _
        simp only [Device.alsa, failure]
      have negative : (-((code : Int) + 1)).toNat = 0 := by omega
      rw [answer]
      refine ⟨steadyAsked, by omega, ?_⟩
      rw [negative]
      exact asked
  | none =>
      set read := device.pass moments with readIs
      set count := min (moments device.calls).most frames with countIs
      have offered :
          device.offered moments channels samples frames =
            framesOf channels count samples :=
        take_framesOf channels _ frames samples
      have taken :
          (framesOf channels count samples).take read.ring.avail =
            framesOf channels (min read.ring.avail count) samples :=
        take_framesOf channels _ count samples
      have answer :
          written =
            (((min read.ring.avail count : Nat) : Int),
              read.put (framesOf channels count samples)) := by
        show (Device.alsa moments channels).writei device samples frames = _
        simp only [Device.alsa, failure]
        rw [offered, taken, length_framesOf]
      have few : min read.ring.avail count ≤ frames :=
        (min_le_right _ _).trans (min_le_right _ _)
      rw [answer]
      refine ⟨?_, Int.ofNat_le.mpr few, ?_⟩
      · intro idle
        rw [Device.put, Bool.or_eq_false_iff] at idle
        exact (steadyAsked idle.1).trans (Nat.le_add_right _ _)
      · rw [Int.toNat_natCast, ← taken]
        exact asked.put _

/-- A call that recovers writes nothing. -/
theorem recover_spec
    {device : Device Sample}
    (steady : device.Steady) (code : Int) :
    let recovered := (Device.alsa moments channels).recover device code
    recovered.2.Steady ∧ device.ring.Moved [] recovered.2.ring := by
  have asked := @Device.moved_pass _ moments device
  intro recovered
  cases recovers : (moments device.calls).recovers with
  | true =>
      have answer :
          recovered =
            (0,
              { device.pass moments with
                ring := (device.pass moments).ring.reset
                running := false }) := by
        show (Device.alsa moments channels).recover device code = _
        simp only [Device.alsa, recovers, if_true]
      rw [answer]
      exact ⟨fun _ => le_rfl, asked.reset⟩
  | false =>
      have answer : recovered = (-1, device.pass moments) := by
        show (Device.alsa moments channels).recover device code = _
        simp only [Device.alsa, recovers, Bool.false_eq_true, if_false]
      rw [answer]
      exact ⟨Device.steady_pass steady, asked⟩

/-- The loop writes frames in order, some of those that are left. -/
theorem writeFrom_spec
    {samples : List Sample} {fuel count : Nat}
    {device final : Device Sample}
    (steady : device.Steady)
    (within : count ≤ samples.length / channels)
    (returns :
      writeFrom (Device.alsa moments channels) channels samples fuel
        device (count * channels) = some final) :
    final.Steady ∧
      ∃ log,
        device.ring.Moved log final.ring ∧
          log <+:
            framesOf channels (samples.length / channels - count)
              (samples.drop (count * channels)) := by
  induction fuel generalizing count device with
  | zero => cases returns
  | succ fuel induction =>
      rcases within.eq_or_lt with done | left
      · rw [writeFrom_done done, Option.some.injEq] at returns
        rw [← returns]
        exact ⟨steady, [], .refl, List.nil_prefix⟩
      · rw [writeFrom_turn left] at returns
        rcases
          @writei_spec _ moments channels _ steady
            (samples.drop (count * channels))
            (samples.length / channels - count) with
          ⟨steadyAfter, few, wrote⟩
        generalize
          (Device.alsa moments channels).writei device
            (samples.drop (count * channels))
            (samples.length / channels - count) = written
          at returns steadyAfter few wrote
        rcases written with ⟨n, after⟩
        simp only at returns steadyAfter few wrote
        by_cases failed : n < 0
        · rw [Int.toNat_of_nonpos failed.le] at wrote
          rcases @recover_spec _ moments channels _ steadyAfter n with
            ⟨steadyRecovered, recovered⟩
          have moved := wrote.trans recovered
          rw [if_pos failed] at returns
          split at returns
          · rw [Option.some.injEq] at returns
            rw [← returns]
            exact ⟨steadyRecovered, [], moved, List.nil_prefix⟩
          · rcases induction steadyRecovered within returns with
              ⟨steadyFinal, log, movedOn, part⟩
            exact ⟨steadyFinal, log, moved.trans movedOn, part⟩
        · have fits : count + n.toNat ≤ samples.length / channels := by
            omega
          rw [if_neg failed] at returns
          rcases induction steadyAfter fits returns with
            ⟨steadyFinal, log, movedOn, part⟩
          refine ⟨steadyFinal, _, wrote.trans movedOn, ?_⟩
          have split :
              samples.length / channels - count =
                n.toNat +
                  (samples.length / channels - (count + n.toNat)) := by
            omega
          rw [split, framesOf_add, List.prefix_append_right_inj,
            List.drop_drop, ← Nat.add_mul]
          exact part

/-- A write hands on some of its frames, in order. -/
theorem write_spec
    {output final : AlsaOutput (Device Sample)}
    (fits : output.Fits channels)
    {fuel : Nat} {samples : List Sample}
    (returns :
      output.write (Device.alsa moments channels) fuel samples =
        some final) :
    final.Fits channels ∧
      ∃ log,
        output.ring.Moved log final.ring ∧
          log <+:
            framesOf channels (samples.length / channels) samples := by
  rw [write, Option.map_eq_some_iff] at returns
  rcases returns with ⟨device, returns, rfl⟩
  rw [fits.channels, ← Nat.zero_mul channels] at returns
  rcases writeFrom_spec fits.steady (Nat.zero_le _) returns with
    ⟨steady, log, moved, part⟩
  rw [Nat.zero_mul, List.drop_zero, Nat.sub_zero] at part
  exact
    ⟨⟨fits.channels, fits.size.trans moved.size_eq.symm, steady⟩,
      log, moved, part⟩

end AlsaOutput

/-! ## One operation -/

section Operations

variable
    {Gain Sample : Type}
    {moments : Nat → Moment}
    {levels : Levels Gain Sample}

/-- The shared device is open in a format. -/
structure Open
    (format : Nat × Nat) (shared : SharedOutput (Device Sample))
    (output : AlsaOutput (Device Sample)) : Prop where
  opened : shared.output = some output
  held : shared.format = some format
  fits : output.Fits format.2

theorem Open.ensure
    {format : Nat × Nat} {shared : SharedOutput (Device Sample)}
    {output : AlsaOutput (Device Sample)}
    (isOpen : Open format shared output)
    (opened : Except String (AlsaOutput (Device Sample))) :
    shared.ensure format.1 format.2 opened = (.ok (), shared) :=
  SharedOutput.ensure_of_open (by rw [isOpen.opened]; rfl) isOpen.held
    opened

/-- The frames that an operation hands to the device. -/
def Op.written
    (channels : Nat) : Op Sample → Stream Sample → List (List Sample)
  | .finish _, (_, some scratch) =>
      framesOf channels (scratch.length / channels) scratch
  | _, _ => []

theorem Open.resync
    {format : Nat × Nat} {shared : SharedOutput (Device Sample)}
    {output : AlsaOutput (Device Sample)}
    (isOpen : Open format shared output) :
    ∃ after,
      Open format (shared.resync (Device.alsa moments format.2)).2 after ∧
        output.ring.Moved [] after.ring ∧
          output.ring.hw ≤ after.ring.appl := by
  rcases
    @AlsaOutput.resync_spec _ moments format.2 output isOpen.fits with
    ⟨fits, moved, level⟩
  refine ⟨_, ⟨?_, ?_, fits⟩, moved, level⟩
  · rw [SharedOutput.resync, isOpen.opened]
  · rw [SharedOutput.resync, isOpen.opened]
    exact isOpen.held

theorem Open.discard
    {format : Nat × Nat} {shared : SharedOutput (Device Sample)}
    {output : AlsaOutput (Device Sample)}
    (isOpen : Open format shared output) :
    ∃ after,
      Open format (shared.discard (Device.alsa moments format.2)) after ∧
        output.ring.Moved [] after.ring ∧
          after.ring.appl ≤ after.ring.hw := by
  rcases
    @AlsaOutput.discard_spec _ moments format.2 output isOpen.fits with
    ⟨fits, moved, silent⟩
  refine ⟨_, ⟨?_, ?_, fits⟩, moved, silent⟩
  · rw [SharedOutput.discard, isOpen.opened]
  · rw [SharedOutput.discard, isOpen.opened]
    exact isOpen.held

/-- An operation moves the ring on by some of the frames it hands on. -/
theorem Op.run_ring
    {format : Nat × Nat} {shared : SharedOutput (Device Sample)}
    {output : AlsaOutput (Device Sample)}
    {gain : Gain} {op : Op Sample} {stream : Stream Sample}
    {done : Option (Stream Sample) × SharedOutput (Device Sample)}
    (isOpen : Open format shared output)
    (ran :
      op.run (Device.alsa moments format.2) levels shared gain stream =
        some done) :
    ∃ after log,
      Open format done.2 after ∧
        output.ring.Moved log after.ring ∧
          log <+: op.written format.2 stream := by
  rcases stream with ⟨sink, _ | scratch⟩
  · cases op with
    | prepare pcm =>
        rw [Op.run] at ran
        split at ran
        · rw [Option.some.injEq] at ran
          rw [← ran]
          rcases @isOpen.resync _ moments with ⟨after, opened, moved, _⟩
          exact ⟨after, [], opened, moved, List.nil_prefix⟩
        · rw [Option.some.injEq] at ran
          rw [← ran]
          exact ⟨output, [], isOpen, .refl, List.nil_prefix⟩
    | finish fuel => cases ran
    | flush =>
        rw [Op.run, Option.some.injEq] at ran
        rw [← ran]
        rcases @isOpen.discard _ moments with ⟨after, opened, moved, _⟩
        exact ⟨after, [], opened, moved, List.nil_prefix⟩
    | drop =>
        rw [Op.run, Option.some.injEq] at ran
        rw [← ran]
        show ∃ after log, Open format (sink.drop _ shared) after ∧ _
        rw [AlsaSink.drop]
        split
        · rcases @isOpen.discard _ moments with ⟨after, opened, moved, _⟩
          exact ⟨after, [], opened, moved, List.nil_prefix⟩
        · exact ⟨output, [], isOpen, .refl, List.nil_prefix⟩
  · cases op with
    | finish fuel =>
        rw [Op.run, Option.map_eq_some_iff] at ran
        rcases ran with ⟨after, returns, rfl⟩
        rw [SharedOutput.write, isOpen.opened, Option.map_eq_some_iff]
          at returns
        rcases returns with ⟨final, returns, rfl⟩
        rcases AlsaOutput.write_spec isOpen.fits returns with
          ⟨fits, log, moved, part⟩
        exact ⟨final, log, ⟨rfl, isOpen.held, fits⟩, moved, part⟩
    | prepare pcm => cases ran
    | flush => cases ran
    | drop => cases ran

end Operations

/-! ## Runs -/

namespace Host

variable
    {Gain Sample : Type}
    {moments : Nat → Moment}
    {levels : Levels Gain Sample}

/-- The frames that an act hands to the device. -/
def written
    (channels : Nat) (host : Host (Device Sample) Gain Sample) :
    Act (Device Sample) Gain Sample → List (List Sample)
  | .use id op =>
      match host.streams id with
      | some stream => op.written channels stream
      | none => []
  | _ => []

/-- Every act moves the ring on by some of the frames it hands on. -/
theorem step_ring
    {format : Nat × Nat}
    {host next : Host (Device Sample) Gain Sample}
    {output : AlsaOutput (Device Sample)}
    {act : Act (Device Sample) Gain Sample}
    (isOpen : Open format host.shared output)
    (asks : act.AsksFor format)
    (stepped :
      step (Device.alsa moments format.2) levels host act = some next) :
    ∃ after log,
      Open format next.shared after ∧
        output.ring.Moved log after.ring ∧
          log <+: host.written format.2 act := by
  cases act with
  | ensure rate channels opened =>
      have same : (rate, channels) = format := asks _ rfl
      subst same
      rw [step, isOpen.ensure opened, Option.some.injEq] at stepped
      rw [← stepped]
      exact ⟨output, [], isOpen, .refl, List.nil_prefix⟩
  | create rate channels opened =>
      have same : (rate, channels) = format := asks _ rfl
      subst same
      have ensured := isOpen.ensure opened
      rw [step, Option.some.injEq] at stepped
      refine ⟨output, [], ?_, .refl, List.nil_prefix⟩
      rw [← stepped]
      show Open _ (host.shared.ensure rate channels opened).2 output
      rw [ensured]
      exact isOpen
  | use id op =>
      rcases step_use_eq_some stepped with
        ⟨stream, done, present, ran, rfl⟩
      rcases Op.run_ring isOpen ran with ⟨after, log, opened, moved, part⟩
      refine ⟨after, log, opened, moved, ?_⟩
      rw [written, present]
      exact part
  | setGain gain =>
      rw [step, Option.some.injEq] at stepped
      rw [← stepped]
      exact ⟨output, [], isOpen, .refl, List.nil_prefix⟩

/-- A run moves the ring on by some of the frames it hands on, in order. -/
theorem exec_ring
    {gain : Gain} {format : Nat × Nat}
    {host final : Host (Device Sample) Gain Sample}
    {output : AlsaOutput (Device Sample)}
    {schedule : List (Act (Device Sample) Gain Sample)}
    (isOpen : Open format host.shared output)
    (asks : ∀ act ∈ schedule, act.AsksFor format)
    (reached :
      (system (Device.alsa moments format.2) levels gain).exec host
        schedule = some final) :
    ∃ after log,
      Open format final.shared after ∧
        output.ring.Moved log after.ring ∧
          log.Sublist
            ((system (Device.alsa moments format.2) levels gain).collect
              (written format.2) host schedule) := by
  induction schedule generalizing host output with
  | nil =>
      rw [System.exec_nil, Option.some.injEq] at reached
      rw [← reached]
      exact ⟨output, [], isOpen, .refl, List.nil_sublist _⟩
  | cons act rest induction =>
      rw [System.exec_cons_iff] at reached
      rcases reached with ⟨next, stepped, reachedRest⟩
      rcases
        step_ring isOpen (asks act List.mem_cons_self) stepped with
        ⟨middle, first, opened, moved, part⟩
      rcases
        induction opened
          (fun other member => asks other (List.mem_cons_of_mem _ member))
          reachedRest with
        ⟨after, second, openedAfter, movedOn, partOn⟩
      rw [System.collect_cons stepped]
      exact
        ⟨after, first ++ second, openedAfter, moved.trans movedOn,
          part.sublist.append partOn⟩

/-! ## From the start of the process -/

/-- The act asks for the format, and a stream it opens is a fresh one. -/
def Proper
    (format : Nat × Nat) (act : Act (Device Sample) Gain Sample) : Prop :=
  act.AsksFor format ∧
    ∀ wanted output, act.opening = some (wanted, .ok output) →
      output.Fits format.2 ∧ output.ring.kept = []

/-- Streams are numbered on, and the device kept what was written to it. -/
structure Logged
    (format : Nat × Nat) (host : Host (Device Sample) Gain Sample)
    (log : List (List Sample)) : Prop where
  fresh : host.Fresh
  kept :
    ∀ output, host.shared.output = some output →
      Open format host.shared output ∧ output.ring.kept.Sublist log

theorem logged_initial (format : Nat × Nat) (gain : Gain) :
    Logged format (initial gain : Host (Device Sample) Gain Sample)
      [] where
  fresh := fresh_initial gain
  kept _ opened := by cases opened

/-- Opening a device that is not open gives a fresh one. -/
theorem open_of_ensure
    {format : Nat × Nat} {shared : SharedOutput (Device Sample)}
    {opened : Except String (AlsaOutput (Device Sample))}
    {output : AlsaOutput (Device Sample)}
    (closed : shared.output = none)
    (proper :
      ∀ output, opened = .ok output →
        output.Fits format.2 ∧ output.ring.kept = [])
    (found :
      (shared.ensure format.1 format.2 opened).2.output = some output) :
    Open format (shared.ensure format.1 format.2 opened).2 output ∧
      output.ring.kept = [] := by
  have differs :
      ¬(shared.output.isSome &&
        shared.format == some (format.1, format.2)) = true := by
    rw [closed]
    exact Bool.false_ne_true
  cases opened with
  | error message =>
      have failed :
          shared.ensure format.1 format.2 (.error message) =
            (.error message, { shared with output := none }) :=
        if_neg differs
      rw [failed] at found
      cases found
  | ok other =>
      have succeeded :
          shared.ensure format.1 format.2 (.ok other) =
            (.ok (),
              { output := some other
                format := some format
                opens := shared.opens + 1 }) :=
        if_neg differs
      rw [succeeded, Option.some.injEq] at found
      subst found
      rw [succeeded]
      exact ⟨⟨rfl, rfl, (proper other rfl).1⟩, (proper other rfl).2⟩

theorem Logged.step
    {format : Nat × Nat}
    {host next : Host (Device Sample) Gain Sample}
    {log : List (List Sample)}
    {act : Act (Device Sample) Gain Sample}
    (logged : Logged format host log)
    (proper : Proper format act)
    (stepped :
      step (Device.alsa moments format.2) levels host act = some next) :
    Logged format next (log ++ host.written format.2 act) := by
  refine ⟨logged.fresh.step stepped, ?_⟩
  intro output found
  cases before : host.shared.output with
  | some held =>
      rcases logged.kept held before with ⟨isOpen, kept⟩
      rcases step_ring isOpen proper.1 stepped with
        ⟨after, part, opened, moved, isPart⟩
      have same : after = output := by
        have unique := opened.opened.symm.trans found
        rwa [Option.some.injEq] at unique
      subst same
      exact
        ⟨opened,
          moved.kept_sublist.trans (kept.append isPart.sublist)⟩
  | none =>
      rcases step_shared stepped with
        like | ⟨wanted, how, wants, ensured⟩
      · have closed := like.1
        rw [found, before] at closed
        cases closed
      · have same : wanted = format := proper.1 _ wants
        subst same
        rw [ensured] at found ⊢
        rcases
          open_of_ensure before
            (fun other isOk => proper.2 wanted other (isOk ▸ wants))
            found with
          ⟨opened, empty⟩
        refine ⟨opened, ?_⟩
        rw [empty]
        exact List.nil_sublist _

/-- Every run from the start of the process. -/
theorem logged_exec
    {gain : Gain} {format : Nat × Nat}
    {schedule : List (Act (Device Sample) Gain Sample)}
    {final : Host (Device Sample) Gain Sample}
    (proper : ∀ act ∈ schedule, Proper format act)
    (reached :
      (system (Device.alsa moments format.2) levels gain).exec
        (initial gain) schedule = some final) :
    Logged format final
      ((system (Device.alsa moments format.2) levels gain).collect
        (written format.2) (initial gain) schedule) :=
  System.invariant_of_collect_of_meets (Logged format)
    (fun _ _ _ _ logged proper stepped => logged.step proper stepped)
    (logged_initial format gain)
    (System.meets_of_forall_mem proper _) reached

/-! ## Pauses -/

/-- The beginning of a write catches up with where the hardware was. -/
theorem prepare_level
    {format : Nat × Nat}
    {host next : Host (Device Sample) Gain Sample}
    {output : AlsaOutput (Device Sample)}
    {id : Nat} {sink : AlsaSink} {pcm : List Sample}
    (isOpen : Open format host.shared output)
    (there : host.streams id = some (sink, none))
    (playable : sink.playable = true)
    (stepped :
      step (Device.alsa moments format.2) levels host
        (.use id (.prepare pcm)) = some next) :
    ∃ after,
      Open format next.shared after ∧
        output.ring.Moved [] after.ring ∧
          output.ring.hw ≤ after.ring.appl := by
  rcases step_use_eq_some stepped with ⟨stream, done, present, ran, rfl⟩
  rw [there, Option.some.injEq] at present
  rw [← present, Op.run, if_pos playable, Option.some.injEq] at ran
  rw [← ran]
  exact isOpen.resync

/-! ## Silence -/

/-- After a moment with nothing to play, what is heard was written since. -/
theorem heard_since_silence
    {gain : Gain} {format : Nat × Nat}
    {host final : Host (Device Sample) Gain Sample}
    {output : AlsaOutput (Device Sample)}
    {schedule : List (Act (Device Sample) Gain Sample)}
    (isOpen : Open format host.shared output)
    (silent : output.ring.appl ≤ output.ring.hw)
    (asks : ∀ act ∈ schedule, act.AsksFor format)
    (reached :
      (system (Device.alsa moments format.2) levels gain).exec host
        schedule = some final) :
    ∃ last,
      final.shared.output = some last ∧
        ∀ position frame,
          output.ring.hw ≤ position →
            last.ring.cells position = some frame →
              ∃ before act after there,
                schedule = before ++ act :: after ∧
                  (system (Device.alsa moments format.2) levels gain).exec
                      host before = some there ∧
                    frame ∈ there.written format.2 act := by
  rcases exec_ring isOpen asks reached with
    ⟨last, log, opened, moved, part⟩
  refine ⟨last, opened.opened, ?_⟩
  intro position frame later heard
  rcases moved.source heard with old | logged
  · rw [output.ring.silent position (silent.trans later)] at old
    cases old
  · exact System.exists_step_of_mem_collect (part.subset logged)

/-- A flush, or the end of a stream that could play. -/
def Silences (sink : AlsaSink) : Op Sample → Prop
  | .flush => True
  | .drop => sink.playable = true
  | _ => False

theorem silences_level
    {format : Nat × Nat}
    {host next : Host (Device Sample) Gain Sample}
    {output : AlsaOutput (Device Sample)}
    {id : Nat} {sink : AlsaSink} {op : Op Sample}
    (isOpen : Open format host.shared output)
    (there : host.streams id = some (sink, none))
    (silences : Silences sink op)
    (stepped :
      step (Device.alsa moments format.2) levels host (.use id op) =
        some next) :
    ∃ after,
      Open format next.shared after ∧ after.ring.appl ≤ after.ring.hw := by
  rcases step_use_eq_some stepped with ⟨stream, done, present, ran, rfl⟩
  rw [there, Option.some.injEq] at present
  subst present
  rcases @isOpen.discard _ moments with ⟨after, opened, _, silent⟩
  cases op with
  | flush =>
      rw [Op.run, Option.some.injEq] at ran
      rw [← ran]
      exact ⟨after, opened, silent⟩
  | drop =>
      rw [Op.run, Option.some.injEq] at ran
      rw [← ran]
      change sink.playable = true at silences
      show ∃ after, Open format (sink.drop _ host.shared) after ∧ _
      rw [AlsaSink.drop, if_pos silences]
      exact ⟨after, opened, silent⟩
  | prepare pcm => cases silences
  | finish fuel => cases silences

/-- A stream that is over stays over: numbers are not used again. -/
def Gone (id : Nat) (host : Host (Device Sample) Gain Sample) : Prop :=
  host.streams id = none ∧ id < host.next

theorem Gone.step
    {id : Nat} {alsa : Pcm (Device Sample) Sample}
    {host next : Host (Device Sample) Gain Sample}
    {act : Act (Device Sample) Gain Sample}
    (gone : Gone id host)
    (stepped : step alsa levels host act = some next) :
    Gone id next := by
  cases act with
  | ensure rate channels opened =>
      rw [Host.step, Option.some.injEq] at stepped
      rw [← stepped]
      exact gone
  | create rate channels opened =>
      rw [Host.step, Option.some.injEq] at stepped
      rw [← stepped]
      refine ⟨?_, Nat.lt_succ_of_lt gone.2⟩
      show Function.update host.streams host.next _ id = none
      rw [Function.update_of_ne (Nat.ne_of_lt gone.2)]
      exact gone.1
  | use other op =>
      rcases step_use_eq_some stepped with ⟨stream, done, present, _, rfl⟩
      refine ⟨?_, gone.2⟩
      have differs : id ≠ other := by
        rintro rfl
        rw [gone.1] at present
        cases present
      show Function.update host.streams other done.1 id = none
      rw [Function.update_of_ne differs]
      exact gone.1
  | setGain gain =>
      rw [Host.step, Option.some.injEq] at stepped
      rw [← stepped]
      exact gone

theorem gone_of_drop
    {alsa : Pcm (Device Sample) Sample}
    {host next : Host (Device Sample) Gain Sample} {id : Nat}
    (fresh : host.Fresh)
    (stepped : step alsa levels host (.use id .drop) = some next) :
    Gone id next := by
  rcases step_use_eq_some stepped with
    ⟨⟨sink, _ | scratch⟩, done, present, ran, rfl⟩
  · rw [Op.run, Option.some.injEq] at ran
    refine ⟨?_, ?_⟩
    · show Function.update host.streams id done.1 id = none
      rw [Function.update_self, ← ran]
    · show id < host.next
      by_contra above
      rw [fresh id (Nat.not_lt.mp above)] at present
      cases present
  · cases ran

/-! ## A stream on a small ring -/

/-- One frame passes before every call, and a write takes four at most. -/
def ticking (_ : Nat) : Moment where
  elapsed := 1
  most := 4
  error := none
  recovers := true

/-- A ring of four frames that is not started. -/
def freshOutput : AlsaOutput (Device Int) where
  pcm :=
    { ring := Buffer.empty 4
      running := false
      calls := 0 }
  channels := 1
  bufferSize := 4

/-- A stream begins and fills the ring, which starts it. -/
def opening : List (Act (Device Int) Nat Int) :=
  [.create 200 1 (.ok freshOutput),
    .use 0 (.prepare [10, 20, 30, 40]),
    .use 0 (.finish 9)]

/-- The stream writes once more. -/
def writing : List (Act (Device Int) Nat Int) :=
  [.use 0 (.prepare [50, 60]), .use 0 (.finish 9)]

/-- The stream ends, and another one writes. -/
def handover : List (Act (Device Int) Nat Int) :=
  [.use 0 .drop, .create 200 1 (.error "busy"),
    .use 1 (.prepare [70, 80]), .use 1 (.finish 9)]

theorem proper_use
    (format : Nat × Nat) (id : Nat) (op : Op Sample) :
    Proper format
      (.use id op : Act (Device Sample) Gain Sample) := by
  constructor
  · intro wanted opens
    cases opens
  · intro wanted output opens
    cases opens

theorem proper_create :
    Proper (200, 1)
      (.create 200 1 (.ok freshOutput) : Act (Device Int) Nat Int) := by
  constructor
  · intro wanted opens
    cases opens
    rfl
  · intro wanted output opens
    cases opens
    exact ⟨⟨rfl, rfl, fun _ => le_rfl⟩, rfl⟩

theorem proper_busy :
    Proper (200, 1)
      (.create 200 1 (.error "busy") : Act (Device Int) Nat Int) := by
  constructor
  · intro wanted opens
    cases opens
    rfl
  · intro wanted output opens
    cases opens

theorem proper_opening : ∀ act ∈ opening, Proper (200, 1) act := by
  intro act member
  simp only [opening, List.mem_cons, List.not_mem_nil, or_false] at member
  rcases member with rfl | rfl | rfl
  · exact proper_create
  · exact proper_use _ _ _
  · exact proper_use _ _ _

theorem proper_writing :
    ∀ act ∈ opening ++ writing, Proper (200, 1) act := by
  intro act member
  rcases List.mem_append.mp member with first | second
  · exact proper_opening act first
  · simp only [writing, List.mem_cons, List.not_mem_nil, or_false]
      at second
    rcases second with rfl | rfl
    · exact proper_use _ _ _
    · exact proper_use _ _ _

theorem proper_handover :
    ∀ act ∈ opening ++ handover, Proper (200, 1) act := by
  intro act member
  rcases List.mem_append.mp member with first | second
  · exact proper_opening act first
  · simp only [handover, List.mem_cons, List.not_mem_nil, or_false]
      at second
    rcases second with rfl | rfl | rfl | rfl
    · exact proper_use _ _ _
    · exact proper_busy
    · exact proper_use _ _ _
    · exact proper_use _ _ _

/-- What the acts after the opening leave. -/
def leaves (acts : List (Act (Device Int) Nat Int)) :
    Option (AlsaOutput (Device Int)) :=
  ((system (Device.alsa ticking 1) percents 100).exec (initial 100)
    (opening ++ acts)).bind fun final => final.shared.output

/-- After the opening the stream can play, and it is not writing. -/
theorem opening_ends :
    ((system (Device.alsa ticking 1) percents 100).exec (initial 100)
        opening).any
      (fun host =>
        host.shared.output.isSome &&
          (host.streams 0).any fun stream =>
            stream.1.playable && stream.2.isNone) = true := by
  decide +kernel

/-- Whatever follows, the stream is there after the opening. -/
theorem exists_opened
    {acts : List (Act (Device Int) Nat Int)}
    (ends : (leaves acts).isSome = true) :
    ∃ host final held output sink,
      (system (Device.alsa ticking 1) percents 100).exec (initial 100)
          opening = some host ∧
        (system (Device.alsa ticking 1) percents 100).exec host acts =
            some final ∧
          host.shared.output = some held ∧
            final.shared.output = some output ∧
              host.streams 0 = some (sink, none) ∧
                sink.playable = true := by
  rcases Option.isSome_iff_exists.mp ends with ⟨output, ends⟩
  rcases Option.bind_eq_some_iff.mp ends with ⟨final, reached, found⟩
  rw [System.exec_append_iff] at reached
  rcases reached with ⟨host, begun, continued⟩
  have ready := opening_ends
  rw [begun, Option.any_some, Bool.and_eq_true, Option.any_eq_true]
    at ready
  rcases ready with ⟨isOpen, ⟨sink, _ | scratch⟩, there, can⟩
  · rcases Option.isSome_iff_exists.mp isOpen with ⟨held, opened⟩
    rw [Bool.and_eq_true] at can
    exact
      ⟨host, final, held, output, sink, begun, continued, opened, found,
        there, can.1⟩
  · simp at can

theorem writing_ends : (leaves writing).isSome = true := by
  decide +kernel

theorem handover_ends : (leaves handover).isSome = true := by
  decide +kernel

end Host

end OpenAirplay2.Receiver.Output

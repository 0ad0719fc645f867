import OpenAirplay2.Lib.Transition

/-!
# The shared playback device

The receiver's one playback stream, the sinks that write to it, and the loop
that hands samples to the driver.  The driver is a parameter: each of its
calls answers and leaves the handle in another state.  So is the arithmetic
on samples.

A method of the shared output holds its lock throughout, so it is one step;
a sink's `write` takes the lock twice, and other sinks may come between.
-/

namespace OpenAirplay2.Receiver.Output

open OpenAirplay2.Lib.Transition

/-- The calls of `alsa-sys` on an open stream. -/
structure Pcm (Handle Sample : Type) where
  /-- `snd_pcm_state` is `SND_PCM_STATE_RUNNING`. -/
  isRunning : Handle → Bool × Handle
  avail : Handle → Int × Handle
  forward : Handle → Nat → Int × Handle
  /-- The samples from the offset on, and how many frames of them. -/
  writei : Handle → List Sample → Nat → Int × Handle
  recover : Handle → Int → Int × Handle
  rewindable : Handle → Int × Handle
  rewind : Handle → Nat → Int × Handle

/-- The playback stream. -/
structure AlsaOutput (Handle : Type) where
  pcm : Handle
  channels : Nat
  bufferSize : Nat
deriving DecidableEq

/-- How far `avail` overshoots the buffer; a negative one is an error code. -/
def framesBehind (avail : Int) (bufferSize : Nat) : Nat :=
  if avail ≤ 0 then 0 else avail.toNat - bufferSize

namespace AlsaOutput

variable
    {Handle Sample : Type}
    (alsa : Pcm Handle Sample)

/-- Catch up with the hardware pointer; whether that was necessary. -/
def resync (output : AlsaOutput Handle) : Bool × AlsaOutput Handle :=
  match alsa.isRunning output.pcm with
  | (false, pcm) => (false, { output with pcm := pcm })
  | (true, pcm) =>
      match alsa.avail pcm with
      | (avail, pcm) =>
          let behind := framesBehind avail output.bufferSize
          if behind = 0 then (false, { output with pcm := pcm })
          else (true, { output with pcm := (alsa.forward pcm behind).2 })

/-- The loop of `write` from an offset on; `none` when the fuel runs out. -/
def writeFrom
    (channels : Nat) (samples : List Sample) :
    Nat → Handle → Nat → Option Handle
  | 0, _, _ => none
  | fuel + 1, pcm, off =>
      if off < samples.length then
        let frames := (samples.length - off) / channels
        if frames = 0 then some pcm
        else
          match alsa.writei pcm (samples.drop off) frames with
          | (n, pcm) =>
              if n < 0 then
                match alsa.recover pcm n with
                | (rc, pcm) =>
                    if rc < 0 then some pcm
                    else writeFrom channels samples fuel pcm off
              else
                writeFrom channels samples fuel pcm
                  (off + n.toNat * channels)
      else some pcm

/-- Write all interleaved samples. -/
def write
    (fuel : Nat) (output : AlsaOutput Handle) (samples : List Sample) :
    Option (AlsaOutput Handle) :=
  (writeFrom alsa output.channels samples fuel output.pcm 0).map
    fun pcm => { output with pcm := pcm }

/-- Rewind the buffered but unplayed audio. -/
def discard (output : AlsaOutput Handle) : AlsaOutput Handle :=
  match alsa.rewindable output.pcm with
  | (rewindable, pcm) =>
      if 0 < rewindable then
        { output with pcm := (alsa.rewind pcm rewindable.toNat).2 }
      else { output with pcm := pcm }

end AlsaOutput

/-! ## Volume and fade -/

/-- The `f32` arithmetic on samples. -/
structure Levels (Gain Sample : Type) where
  /-- `gain >= 0.999`. -/
  full : Gain → Bool
  /-- `gain <= 0.0`. -/
  muted : Gain → Bool
  zero : Sample
  /-- `(f32::from(s) * gain) as i16`. -/
  scale : Gain → Sample → Sample
  /-- The same with the gain `pos / total` of a fade. -/
  ramp : Nat → Nat → Sample → Sample

section Volume

variable
    {Gain Sample : Type}
    (levels : Levels Gain Sample)

/-- Scale samples by a gain; full gain leaves them alone. -/
def applyGain (samples : List Sample) (gain : Gain) : List Sample :=
  if levels.full gain then samples
  else if levels.muted gain then samples.map fun _ => levels.zero
  else samples.map (levels.scale gain)

/-- The loop of `fade_in_progress` over the frames that are left. -/
def fadeFrom
    (channels total : Nat) :
    Nat → List Sample → Nat → List Sample × Nat
  | 0, samples, pos => (samples, pos)
  | frames + 1, samples, pos =>
      if total ≤ pos then (samples, pos)
      else
        let rest :=
          fadeFrom channels total frames (samples.drop channels) (pos + 1)
        ((samples.take channels).map (levels.ramp pos total) ++ rest.1,
          rest.2)

/-- Continue a fade-in from where the last write left it. -/
def fadeInProgress
    (samples : List Sample) (channels total pos : Nat) :
    List Sample × Nat :=
  fadeFrom levels channels total (samples.length / max channels 1) samples
    pos

end Volume

/-! ## The device all streams share -/

/-- The one stream of the process, and what it was opened with. -/
structure SharedOutput (Handle : Type) where
  output : Option (AlsaOutput Handle)
  format : Option (Nat × Nat)
  opens : Nat
deriving DecidableEq

namespace SharedOutput

variable
    {Handle Sample : Type}
    (alsa : Pcm Handle Sample)

/-- Nothing is open yet. -/
def new : SharedOutput Handle where
  output := none
  format := none
  opens := 0

/--
Open the device unless it is open with this format; `opened` is how the
opening goes, if there is one.
-/
def ensure
    (shared : SharedOutput Handle) (rate channels : Nat)
    (opened : Except String (AlsaOutput Handle)) :
    Except String Unit × SharedOutput Handle :=
  if shared.output.isSome && shared.format == some (rate, channels) then
    (.ok (), shared)
  else
    match opened with
    | .error message => (.error message, { shared with output := none })
    | .ok output =>
        (.ok (),
          { output := some output
            format := some (rate, channels)
            opens := shared.opens + 1 })

def resync (shared : SharedOutput Handle) : Bool × SharedOutput Handle :=
  match shared.output with
  | none => (false, shared)
  | some output =>
      ((output.resync alsa).1,
        { shared with output := some (output.resync alsa).2 })

def write
    (fuel : Nat) (shared : SharedOutput Handle) (samples : List Sample) :
    Option (SharedOutput Handle) :=
  match shared.output with
  | none => some shared
  | some output =>
      (output.write alsa fuel samples).map fun output =>
        { shared with output := some output }

def discard (shared : SharedOutput Handle) : SharedOutput Handle :=
  match shared.output with
  | none => shared
  | some output =>
      { shared with output := some (output.discard alsa) }

end SharedOutput

/-- One stream's view of the shared device. -/
structure AlsaSink where
  playable : Bool
  channels : Nat
  fadeLen : Nat
  fadePos : Nat
deriving DecidableEq, Repr

namespace AlsaSink

variable
    {Handle Gain Sample : Type}
    (alsa : Pcm Handle Sample)
    (levels : Levels Gain Sample)

/-- Attach a new stream to the shared device. -/
def new
    (shared : SharedOutput Handle) (rate channels : Nat)
    (opened : Except String (AlsaOutput Handle)) :
    AlsaSink × SharedOutput Handle :=
  let ensured := shared.ensure rate channels opened
  ({ playable := match ensured.1 with
      | .ok () => true
      | .error _ => false
     channels := channels
     fadeLen := rate / 200
     fadePos := 0 },
    ensured.2)

/-- Samples under the fade, if it is not complete, and where it is then. -/
def faded (sink : AlsaSink) (samples : List Sample) : List Sample × Nat :=
  if sink.fadePos < sink.fadeLen then
    fadeInProgress levels samples sink.channels sink.fadeLen sink.fadePos
  else (samples, sink.fadePos)

/-- The first half of a write: catch up, then prepare the samples. -/
def prepare
    (sink : AlsaSink) (shared : SharedOutput Handle) (gain : Gain)
    (pcm : List Sample) :
    List Sample × AlsaSink × SharedOutput Handle :=
  let resynced := shared.resync alsa
  let sink := if resynced.1 then { sink with fadePos := 0 } else sink
  let prepared := sink.faded levels (applyGain levels pcm gain)
  (prepared.1, { sink with fadePos := prepared.2 }, resynced.2)

/-- `AudioSink::write`, when no other sink comes between. -/
def write
    (fuel : Nat) (sink : AlsaSink) (shared : SharedOutput Handle)
    (gain : Gain) (pcm : List Sample) :
    Option (AlsaSink × SharedOutput Handle) :=
  if sink.playable then
    let prepared := sink.prepare alsa levels shared gain pcm
    (prepared.2.2.write alsa fuel prepared.1).map fun shared =>
      (prepared.2.1, shared)
  else some (sink, shared)

/-- Immediate silence; the next audio fades in. -/
def flush
    (sink : AlsaSink) (shared : SharedOutput Handle) :
    AlsaSink × SharedOutput Handle :=
  ({ sink with fadePos := 0 }, shared.discard alsa)

/-- `Drop`: what was queued goes, the device stays open. -/
def drop
    (sink : AlsaSink) (shared : SharedOutput Handle) :
    SharedOutput Handle :=
  if sink.playable then shared.discard alsa else shared

end AlsaSink

/-! ## What a write delivers -/

section Delivery

variable
    {Handle Sample : Type}
    (alsa : Pcm Handle Sample)

/--
The device has a record of the samples it took, and only a write adds to it:
the frames that the write says were written.
-/
structure Honest (channels : Nat) (taken : Handle → List Sample) :
    Prop where
  isRunning : ∀ pcm, taken (alsa.isRunning pcm).2 = taken pcm
  avail : ∀ pcm, taken (alsa.avail pcm).2 = taken pcm
  forward :
    ∀ pcm frames, taken (alsa.forward pcm frames).2 = taken pcm
  recover : ∀ pcm code, taken (alsa.recover pcm code).2 = taken pcm
  writei_le :
    ∀ pcm samples (frames : Nat),
      (alsa.writei pcm samples frames).1 ≤ frames
  writei :
    ∀ pcm samples frames,
      taken (alsa.writei pcm samples frames).2 =
        taken pcm ++
          samples.take
            ((alsa.writei pcm samples frames).1.toNat * channels)

/-- A device on which only so many calls can fail or write nothing. -/
structure Patient (patience : Handle → Nat) : Prop where
  failed :
    ∀ pcm samples frames,
      (alsa.writei pcm samples frames).1 < 0 →
        patience
            (alsa.recover (alsa.writei pcm samples frames).2
              (alsa.writei pcm samples frames).1).2 <
          patience pcm
  nothing :
    ∀ pcm samples frames, 0 < frames →
      (alsa.writei pcm samples frames).1 = 0 →
        patience (alsa.writei pcm samples frames).2 < patience pcm
  written :
    ∀ pcm samples frames,
      0 < (alsa.writei pcm samples frames).1 →
        patience (alsa.writei pcm samples frames).2 ≤ patience pcm

/-- The device just gave up on an error. -/
def Unrecoverable (pcm : Handle) : Prop :=
  ∃ failed code,
    code < 0 ∧
      (alsa.recover failed code).1 < 0 ∧
        (alsa.recover failed code).2 = pcm

variable {alsa}

/-- ALSA's `null` device: it takes everything at once and never runs. -/
def nullPcm (channels : Nat) : Pcm (List Sample) Sample where
  isRunning := fun taken => (false, taken)
  avail := fun taken => (0, taken)
  forward := fun taken _ => (0, taken)
  writei := fun taken samples frames =>
    (frames, taken ++ samples.take (frames * channels))
  recover := fun taken _ => (0, taken)
  rewindable := fun taken => (0, taken)
  rewind := fun taken _ => (0, taken)

theorem honest_nullPcm (channels : Nat) :
    Honest (@nullPcm Sample channels) channels id where
  isRunning _ := rfl
  avail _ := rfl
  forward _ _ := rfl
  recover _ _ := rfl
  writei_le _ _ _ := le_rfl
  writei _ _ _ := rfl

theorem patient_nullPcm (channels : Nat) :
    Patient (@nullPcm Sample channels) fun _ => 0 where
  failed _ _ _ failed :=
    absurd failed (not_lt.mpr (Int.natCast_nonneg _))
  nothing _ _ _ some none :=
    absurd (Int.natCast_eq_zero.mp none) some.ne'
  written _ _ _ _ := le_rfl

namespace AlsaOutput

theorem frames_left
    (channels : Nat) (samples : List Sample) (count : Nat) :
    (samples.length - count * channels) / channels =
      samples.length / channels - count := by
  rw [Nat.mul_comm, Nat.sub_mul_div]

/-- The loop ends when every whole frame is written. -/
theorem writeFrom_done
    {channels : Nat} {samples : List Sample} {count : Nat}
    (done : count = samples.length / channels)
    (fuel : Nat) (pcm : Handle) :
    writeFrom alsa channels samples (fuel + 1) pcm (count * channels) =
      some pcm := by
  rw [writeFrom]
  split
  · have none : (samples.length - count * channels) / channels = 0 := by
      rw [frames_left, done, Nat.sub_self]
    exact if_pos none
  · rfl

/-- One turn of the loop while frames are left. -/
theorem writeFrom_turn
    {channels : Nat} {samples : List Sample} {count : Nat}
    (left : count < samples.length / channels)
    (fuel : Nat) (pcm : Handle) :
    writeFrom alsa channels samples (fuel + 1) pcm (count * channels) =
      let written :=
        alsa.writei pcm (samples.drop (count * channels))
          (samples.length / channels - count)
      if written.1 < 0 then
        let recovered := alsa.recover written.2 written.1
        if recovered.1 < 0 then some recovered.2
        else
          writeFrom alsa channels samples fuel recovered.2
            (count * channels)
      else
        writeFrom alsa channels samples fuel written.2
          ((count + written.1.toNat) * channels) := by
  have positive : 0 < channels := by
    rcases Nat.eq_zero_or_pos channels with none | positive
    · rw [none, Nat.div_zero] at left
      exact absurd left (Nat.not_lt_zero _)
    · exact positive
  have below : count * channels < samples.length :=
    (Nat.mul_lt_mul_of_pos_right left positive).trans_le
      (Nat.div_mul_le_self _ _)
  have some : samples.length / channels - count ≠ 0 :=
    Nat.sub_ne_zero_of_lt left
  rw [writeFrom, if_pos below]
  simp only [frames_left, if_neg some, Nat.add_mul]

/--
From any turn on, the device takes the frames that are left in their order,
each of them once, and all of them unless it gives up on an error.
-/
theorem writeFrom_delivers
    {channels : Nat} {taken : Handle → List Sample}
    (honest : Honest alsa channels taken)
    {samples : List Sample} {fuel count : Nat} {pcm final : Handle}
    (within : count ≤ samples.length / channels)
    (returns :
      writeFrom alsa channels samples fuel pcm (count * channels) =
        some final) :
    ∃ more,
      count + more ≤ samples.length / channels ∧
        taken final =
          taken pcm ++
            (samples.drop (count * channels)).take (more * channels) ∧
        (count + more = samples.length / channels ∨
          Unrecoverable alsa final) := by
  induction fuel generalizing count pcm with
  | zero => cases returns
  | succ fuel induction =>
      rcases within.eq_or_lt with done | left
      · rw [writeFrom_done done, Option.some.injEq] at returns
        refine ⟨0, within, ?_, Or.inl done⟩
        rw [returns, Nat.zero_mul, List.take_zero, List.append_nil]
      · rw [writeFrom_turn left] at returns
        have bound :=
          honest.writei_le pcm (samples.drop (count * channels))
            (samples.length / channels - count)
        have wrote :=
          honest.writei pcm (samples.drop (count * channels))
            (samples.length / channels - count)
        generalize
          alsa.writei pcm (samples.drop (count * channels))
            (samples.length / channels - count) = written
          at returns bound wrote
        rcases written with ⟨n, after⟩
        simp only at returns bound wrote
        by_cases failed : n < 0
        · have kept :
              taken (alsa.recover after n).2 = taken pcm := by
            rw [honest.recover, wrote, Int.toNat_of_nonpos failed.le,
              Nat.zero_mul, List.take_zero, List.append_nil]
          rw [if_pos failed] at returns
          by_cases gaveUp : (alsa.recover after n).1 < 0
          · rw [if_pos gaveUp, Option.some.injEq] at returns
            refine
              ⟨0, within, ?_, Or.inr ⟨after, n, failed, gaveUp, returns⟩⟩
            rw [← returns, kept, Nat.zero_mul, List.take_zero,
              List.append_nil]
          · rw [if_neg gaveUp] at returns
            rcases induction within returns with
              ⟨more, fits, delivered, ending⟩
            rw [kept] at delivered
            exact ⟨more, fits, delivered, ending⟩
        · rw [if_neg failed] at returns
          have fits : count + n.toNat ≤ samples.length / channels := by
            omega
          rcases induction fits returns with
            ⟨more, fitsMore, delivered, ending⟩
          refine
            ⟨n.toNat + more, by omega, ?_, by rwa [← Nat.add_assoc]⟩
          rw [delivered, wrote, List.append_assoc, Nat.add_mul,
            Nat.add_mul, List.take_add, List.drop_drop]

/-- A loop on a patient device ends. -/
theorem writeFrom_returns
    {channels : Nat} {taken : Handle → List Sample}
    (honest : Honest alsa channels taken)
    {patience : Handle → Nat}
    (patient : Patient alsa patience)
    {samples : List Sample} {fuel count : Nat} {pcm : Handle}
    (within : count ≤ samples.length / channels)
    (enough :
      samples.length / channels - count + patience pcm < fuel) :
    ∃ final,
      writeFrom alsa channels samples fuel pcm (count * channels) =
        some final := by
  induction fuel generalizing count pcm with
  | zero => exact absurd enough (Nat.not_lt_zero _)
  | succ fuel induction =>
      rcases within.eq_or_lt with done | left
      · exact ⟨pcm, writeFrom_done done fuel pcm⟩
      · rw [writeFrom_turn left]
        have bound :=
          honest.writei_le pcm (samples.drop (count * channels))
            (samples.length / channels - count)
        have onFailed :=
          patient.failed pcm (samples.drop (count * channels))
            (samples.length / channels - count)
        have onNothing :=
          patient.nothing pcm (samples.drop (count * channels))
            (samples.length / channels - count)
        have onWritten :=
          patient.written pcm (samples.drop (count * channels))
            (samples.length / channels - count)
        generalize
          alsa.writei pcm (samples.drop (count * channels))
            (samples.length / channels - count) = written
          at bound onFailed onNothing onWritten
        rcases written with ⟨n, after⟩
        simp only at bound onFailed onNothing onWritten ⊢
        by_cases failed : n < 0
        · have shorter := onFailed failed
          rw [if_pos failed]
          by_cases gaveUp : (alsa.recover after n).1 < 0
          · rw [if_pos gaveUp]
            exact ⟨_, rfl⟩
          · rw [if_neg gaveUp]
            exact induction within (by omega)
        · rw [if_neg failed]
          apply induction (by omega)
          rcases (not_lt.mp failed).eq_or_lt with nothing | some
          · have shorter :=
              onNothing (Nat.sub_pos_of_lt left) nothing.symm
            omega
          · have same := onWritten some
            omega

end AlsaOutput

end Delivery

/-! ## A fade over many writes -/

section Fade

variable
    {Gain Sample : Type}
    (levels : Levels Gain Sample)

theorem fadeFrom_of_complete
    {channels total pos : Nat} (complete : total ≤ pos)
    (frames : Nat) (samples : List Sample) :
    fadeFrom levels channels total frames samples pos = (samples, pos) := by
  cases frames with
  | zero => rfl
  | succ frames => exact if_pos complete

theorem fadeFrom_succ
    {channels total pos : Nat} (fading : ¬total ≤ pos)
    (frames : Nat) (samples : List Sample) :
    fadeFrom levels channels total (frames + 1) samples pos =
      ((samples.take channels).map (levels.ramp pos total) ++
          (fadeFrom levels channels total frames (samples.drop channels)
            (pos + 1)).1,
        (fadeFrom levels channels total frames (samples.drop channels)
          (pos + 1)).2) :=
  if_neg fading

theorem length_fadeFrom
    (channels total frames pos : Nat) (samples : List Sample) :
    (fadeFrom levels channels total frames samples pos).1.length =
      samples.length := by
  induction frames generalizing samples pos with
  | zero => rfl
  | succ frames induction =>
      by_cases complete : total ≤ pos
      · rw [fadeFrom_of_complete levels complete]
      · rw [fadeFrom_succ levels complete, List.length_append,
          List.length_map, induction, ← List.length_append,
          List.take_append_drop]

/-- A fade over two stretches of whole frames is one fade over both. -/
theorem fadeFrom_append
    (channels total : Nat) (more : Nat) (after : List Sample)
    {frames pos : Nat} {before : List Sample}
    (whole : before.length = frames * channels) :
    fadeFrom levels channels total (frames + more) (before ++ after) pos =
      let first := fadeFrom levels channels total frames before pos
      let second := fadeFrom levels channels total more after first.2
      (first.1 ++ second.1, second.2) := by
  induction frames generalizing before pos with
  | zero =>
      rw [Nat.zero_mul, List.length_eq_zero_iff] at whole
      rw [whole, Nat.zero_add]
      rfl
  | succ frames induction =>
      by_cases complete : total ≤ pos
      · simp only [fadeFrom_of_complete levels complete]
      · have fits : channels ≤ before.length := by
          rw [whole, Nat.add_mul, Nat.one_mul]
          exact Nat.le_add_left _ _
        have rest : (before.drop channels).length = frames * channels := by
          rw [List.length_drop, whole, Nat.add_mul, Nat.one_mul,
            Nat.add_sub_cancel]
        rw [Nat.add_right_comm, fadeFrom_succ levels complete,
          fadeFrom_succ levels complete, List.take_append_of_le_length fits,
          List.drop_append_of_le_length fits, induction rest]
        simp only [List.append_assoc]

theorem applyGain_length (samples : List Sample) (gain : Gain) :
    (applyGain levels samples gain).length = samples.length := by
  rw [applyGain]
  split
  · rfl
  · split
    · exact List.length_map _
    · exact List.length_map _

namespace AlsaSink

/-- The test before the fade only saves the copy. -/
theorem faded_eq (sink : AlsaSink) (samples : List Sample) :
    sink.faded levels samples =
      fadeFrom levels sink.channels sink.fadeLen
        (samples.length / max sink.channels 1) samples sink.fadePos := by
  rw [faded]
  split
  · rfl
  · next complete =>
      rw [fadeFrom_of_complete levels (Nat.not_lt.mp complete)]

theorem length_faded (sink : AlsaSink) (samples : List Sample) :
    (sink.faded levels samples).1.length = samples.length := by
  rw [faded_eq, length_fadeFrom]

theorem faded_nil (sink : AlsaSink) :
    sink.faded levels ([] : List Sample) = ([], sink.fadePos) := by
  rw [faded_eq, List.length_nil, Nat.zero_div]
  rfl

/-- Whole frames first, and the fade goes on where they leave it. -/
theorem faded_append
    (sink : AlsaSink) (positive : 0 < sink.channels)
    {before : List Sample} (whole : sink.channels ∣ before.length)
    (after : List Sample) :
    sink.faded levels (before ++ after) =
      let first := sink.faded levels before
      let second :=
        AlsaSink.faded levels { sink with fadePos := first.2 } after
      (first.1 ++ second.1, second.2) := by
  rcases whole with ⟨frames, whole⟩
  rw [Nat.mul_comm] at whole
  have one : max sink.channels 1 = sink.channels := max_eq_left positive
  have count : before.length / sink.channels = frames := by
    rw [whole, Nat.mul_div_cancel _ positive]
  simp only [faded_eq, one, count]
  rw [List.length_append, whole, Nat.add_comm,
    Nat.add_mul_div_right _ _ positive, Nat.add_comm,
    fadeFrom_append levels _ _ _ _ whole]

end AlsaSink

end Fade

section Writes

variable
    {Handle Gain Sample : Type}
    (alsa : Pcm Handle Sample)
    (levels : Levels Gain Sample)

/-- One write of a stream, with the volume at that moment. -/
structure Chunk (Gain Sample : Type) where
  fuel : Nat
  gain : Gain
  pcm : List Sample

/-- The audio of many writes at their volumes. -/
def audio (chunks : List (Chunk Gain Sample)) : List Sample :=
  (chunks.map fun chunk => applyGain levels chunk.pcm chunk.gain).flatten

/-- One write after the other. -/
def writeAll (sink : AlsaSink) (shared : SharedOutput Handle) :
    List (Chunk Gain Sample) → Option (AlsaSink × SharedOutput Handle)
  | [] => some (sink, shared)
  | chunk :: rest =>
      (sink.write alsa levels chunk.fuel shared chunk.gain chunk.pcm).bind
        fun next => writeAll next.1 next.2 rest

/-- No write finds the stream behind the hardware. -/
def KeepsUp (sink : AlsaSink) (shared : SharedOutput Handle) :
    List (Chunk Gain Sample) → Prop
  | [] => True
  | chunk :: rest =>
      (shared.resync alsa).1 = false ∧
        ∀ next,
          sink.write alsa levels chunk.fuel shared chunk.gain chunk.pcm =
              some next →
            KeepsUp next.1 next.2 rest

variable {alsa}

theorem AlsaOutput.resync_taken
    {channels : Nat} {taken : Handle → List Sample}
    (honest : Honest alsa channels taken)
    (output : AlsaOutput Handle) :
    taken (output.resync alsa).2.pcm = taken output.pcm := by
  have asked := honest.isRunning output.pcm
  rw [AlsaOutput.resync]
  generalize alsa.isRunning output.pcm = answer at asked
  rcases answer with ⟨running, pcm⟩
  cases running with
  | false => exact asked
  | true =>
      have read := honest.avail pcm
      simp only at asked ⊢
      split
      · exact read.trans asked
      · exact (honest.forward _ _).trans (read.trans asked)

theorem AlsaOutput.resync_channels (output : AlsaOutput Handle) :
    (output.resync alsa).2.channels = output.channels := by
  rw [AlsaOutput.resync]
  rcases alsa.isRunning output.pcm with ⟨running, pcm⟩
  cases running with
  | false => rfl
  | true =>
      simp only
      split
      · rfl
      · rfl

/-- Whole frames, on a device that recovers from every error, all arrive. -/
theorem AlsaOutput.write_taken
    {taken : Handle → List Sample}
    {output final : AlsaOutput Handle}
    (honest : Honest alsa output.channels taken)
    (recovers : ∀ pcm code, 0 ≤ (alsa.recover pcm code).1)
    {fuel : Nat} {samples : List Sample}
    (whole : output.channels ∣ samples.length)
    (returns : output.write alsa fuel samples = some final) :
    final.channels = output.channels ∧
      taken final.pcm = taken output.pcm ++ samples := by
  rw [AlsaOutput.write, Option.map_eq_some_iff] at returns
  rcases returns with ⟨pcm, returns, rfl⟩
  have start : 0 * output.channels = 0 := Nat.zero_mul _
  rw [← start] at returns
  rcases
    AlsaOutput.writeFrom_delivers honest (Nat.zero_le _) returns with
    ⟨frames, _, delivered, all | ⟨failed, code, _, gaveUp, _⟩⟩
  · rw [Nat.zero_add] at all
    refine ⟨rfl, ?_⟩
    rw [delivered, start, List.drop_zero, all, Nat.div_mul_cancel whole,
      List.take_length]
  · exact absurd gaveUp (not_lt.mpr (recovers failed code))

/-- One write of whole frames by a sink that keeps up. -/
theorem AlsaSink.write_taken
    {taken : Handle → List Sample}
    {sink : AlsaSink} {shared : SharedOutput Handle}
    {output : AlsaOutput Handle}
    (honest : Honest alsa sink.channels taken)
    (recovers : ∀ pcm code, 0 ≤ (alsa.recover pcm code).1)
    (playable : sink.playable = true)
    (opened : shared.output = some output)
    (fits : output.channels = sink.channels)
    {chunk : Chunk Gain Sample}
    (whole : sink.channels ∣ chunk.pcm.length)
    (onTime : (shared.resync alsa).1 = false)
    {next : AlsaSink × SharedOutput Handle}
    (returns :
      sink.write alsa levels chunk.fuel shared chunk.gain chunk.pcm =
        some next) :
    let prepared :=
      sink.faded levels (applyGain levels chunk.pcm chunk.gain)
    next.1 = { sink with fadePos := prepared.2 } ∧
      ∃ final,
        next.2.output = some final ∧
          final.channels = sink.channels ∧
          taken final.pcm = taken output.pcm ++ prepared.1 := by
  intro prepared
  have resynced :
      (shared.resync alsa).2 =
        { shared with output := some (output.resync alsa).2 } := by
    rw [SharedOutput.resync, opened]
  have channels :
      (output.resync alsa).2.channels = sink.channels :=
    (AlsaOutput.resync_channels output).trans fits
  rw [AlsaSink.write, if_pos playable, Option.map_eq_some_iff] at returns
  rcases returns with ⟨after, written, rfl⟩
  simp only [AlsaSink.prepare, onTime, Bool.false_eq_true, if_false,
    resynced, SharedOutput.write, Option.map_eq_some_iff] at written
  rcases written with ⟨final, written, rfl⟩
  have length : sink.channels ∣ prepared.1.length := by
    rw [AlsaSink.length_faded, applyGain_length]
    exact whole
  rcases
    AlsaOutput.write_taken (by rwa [channels]) recovers
      (by rwa [channels]) written with
    ⟨same, delivered⟩
  refine ⟨?_, final, rfl, same.trans channels, ?_⟩
  · simp only [AlsaSink.prepare, onTime, Bool.false_eq_true, if_false]
    rfl
  · rw [delivered, AlsaOutput.resync_taken honest]

end Writes

/-- Whole percents of full scale, rounded down. -/
def percents : Levels Nat Int where
  full := fun gain => 100 ≤ gain
  muted := fun gain => gain = 0
  zero := 0
  scale := fun gain sample => sample * gain / 100
  ramp := fun pos total sample => sample * pos / total

/-- A stereo stream of 800 Hz that has just started. -/
def startedSink : AlsaSink where
  playable := true
  channels := 2
  fadeLen := 4
  fadePos := 0

/-- A stream of which nothing was taken yet. -/
def startedOutput : SharedOutput (List Int) where
  output := some { pcm := [], channels := 2, bufferSize := 400 }
  format := some (800, 2)
  opens := 1

/-- The volume is halved between the writes. -/
def twoWrites : List (Chunk Nat Int) :=
  [{ fuel := 3, gain := 100, pcm := [80, 80, 80, 80] },
    { fuel := 4, gain := 50, pcm := [80, 80, 80, 80, 80, 80] }]

theorem keepsUp_nullPcm
    {Gain Sample : Type} (levels : Levels Gain Sample) (channels : Nat)
    (sink : AlsaSink) (shared : SharedOutput (List Sample))
    (chunks : List (Chunk Gain Sample)) :
    KeepsUp (nullPcm channels) levels sink shared chunks := by
  induction chunks generalizing sink shared with
  | nil => trivial
  | cons chunk rest induction =>
      refine ⟨?_, fun next _ => induction next.1 next.2⟩
      rw [SharedOutput.resync]
      cases shared.output with
      | none => rfl
      | some output => rfl

/-- What is left of the two writes. -/
def afterTwoWrites : AlsaSink × SharedOutput (List Int) :=
  ({ startedSink with fadePos := 4 },
    { startedOutput with
      output :=
        some
          { pcm := [0, 0, 20, 20, 20, 20, 30, 30, 40, 40]
            channels := 2
            bufferSize := 400 } })

/-! ## Streams that come and go -/

/-- A sink, and the samples of a write it is in the middle of. -/
abbrev Stream (Sample : Type) :=
  AlsaSink × Option (List Sample)

/-- What a stream does with its sink, from one lock to the next. -/
inductive Op (Sample : Type) where
  /-- A write up to where it releases the lock. -/
  | prepare (pcm : List Sample)
  /-- The rest of that write. -/
  | finish (fuel : Nat)
  | flush
  | drop

/-- One such operation: the stream that is left, and the device. -/
def Op.run
    {Handle Gain Sample : Type}
    (alsa : Pcm Handle Sample) (levels : Levels Gain Sample)
    (shared : SharedOutput Handle) (gain : Gain) :
    Op Sample → Stream Sample →
      Option (Option (Stream Sample) × SharedOutput Handle)
  | .prepare pcm, (sink, none) =>
      if sink.playable then
        let prepared := sink.prepare alsa levels shared gain pcm
        some (some (prepared.2.1, some prepared.1), prepared.2.2)
      else some (some (sink, none), shared)
  | .finish fuel, (sink, some scratch) =>
      (shared.write alsa fuel scratch).map fun shared =>
        (some (sink, none), shared)
  | .flush, (sink, none) =>
      let flushed := sink.flush alsa shared
      some (some (flushed.1, none), flushed.2)
  | .drop, (sink, none) => some (none, sink.drop alsa shared)
  | _, _ => none

/-- The device, the volume, and the streams there are. -/
structure Host (Handle Gain Sample : Type) where
  shared : SharedOutput Handle
  gain : Gain
  streams : Nat → Option (Stream Sample)
  next : Nat

/-- What happens to the shared device. -/
inductive Act (Handle Gain Sample : Type) where
  /-- At startup, before any stream. -/
  | ensure (rate channels : Nat)
      (opened : Except String (AlsaOutput Handle))
  | create (rate channels : Nat)
      (opened : Except String (AlsaOutput Handle))
  | use (id : Nat) (op : Op Sample)
  | setGain (gain : Gain)

namespace Host

variable
    {Handle Gain Sample : Type}
    (alsa : Pcm Handle Sample)
    (levels : Levels Gain Sample)

/-- One act; a stream that is in the middle of a write has to finish it. -/
def step (host : Host Handle Gain Sample) :
    Act Handle Gain Sample → Option (Host Handle Gain Sample)
  | .ensure rate channels opened =>
      some
        { host with
          shared := (host.shared.ensure rate channels opened).2 }
  | .create rate channels opened =>
      let created := AlsaSink.new host.shared rate channels opened
      some
        { host with
          shared := created.2
          streams :=
            Function.update host.streams host.next
              (some (created.1, none))
          next := host.next + 1 }
  | .use id op =>
      (host.streams id).bind fun stream =>
        (op.run alsa levels host.shared host.gain stream).map fun done =>
          { host with
            shared := done.2
            streams := Function.update host.streams id done.1 }
  | .setGain gain => some { host with gain := gain }

/-- Nothing is open and no stream has been. -/
def initial (gain : Gain) : Host Handle Gain Sample where
  shared := SharedOutput.new
  gain := gain
  streams := fun _ => none
  next := 0

/-- Every order in which streams use the device. -/
def system (gain : Gain) :
    System (Host Handle Gain Sample) (Act Handle Gain Sample) where
  initial := initial gain
  step := step alsa levels

variable {alsa levels}

theorem step_use_eq_some
    {host next : Host Handle Gain Sample} {id : Nat} {op : Op Sample}
    (stepped : step alsa levels host (.use id op) = some next) :
    ∃ stream done,
      host.streams id = some stream ∧
        op.run alsa levels host.shared host.gain stream = some done ∧
          next =
            { host with
              shared := done.2
              streams := Function.update host.streams id done.1 } := by
  rw [step, Option.bind_eq_some_iff] at stepped
  rcases stepped with ⟨stream, present, ran⟩
  rw [Option.map_eq_some_iff] at ran
  rcases ran with ⟨done, ran, rfl⟩
  exact ⟨stream, done, present, ran, rfl⟩

end Host

/-! ## One opening -/

/-- The format an act wants, and how opening the device for it goes. -/
def Act.opening {Handle Gain Sample : Type} :
    Act Handle Gain Sample →
      Option ((Nat × Nat) × Except String (AlsaOutput Handle))
  | .ensure rate channels opened => some ((rate, channels), opened)
  | .create rate channels opened => some ((rate, channels), opened)
  | _ => none

/-- The act wants this format, if it wants one. -/
def Act.AsksFor
    {Handle Gain Sample : Type}
    (format : Nat × Nat) (act : Act Handle Gain Sample) : Prop :=
  ∀ wanted ∈ act.opening, wanted.1 = format

namespace SharedOutput

variable
    {Handle Sample : Type}
    {alsa : Pcm Handle Sample}

/-- What the two have in common, but for what the stream itself does. -/
def Like (before after : SharedOutput Handle) : Prop :=
  after.output.isSome = before.output.isSome ∧
    after.format = before.format ∧
    after.opens = before.opens

theorem like_resync (shared : SharedOutput Handle) :
    shared.Like (shared.resync alsa).2 := by
  rw [resync]
  split
  · exact ⟨rfl, rfl, rfl⟩
  · next opened => exact ⟨by rw [opened]; rfl, rfl, rfl⟩

theorem like_discard (shared : SharedOutput Handle) :
    shared.Like (shared.discard alsa) := by
  rw [discard]
  split
  · exact ⟨rfl, rfl, rfl⟩
  · next opened => exact ⟨by rw [opened]; rfl, rfl, rfl⟩

theorem like_write
    {shared after : SharedOutput Handle}
    {fuel : Nat} {samples : List Sample}
    (returns : shared.write alsa fuel samples = some after) :
    shared.Like after := by
  rw [write] at returns
  split at returns
  · rw [Option.some.injEq] at returns
    rw [← returns]
    exact ⟨rfl, rfl, rfl⟩
  · next opened =>
      rw [Option.map_eq_some_iff] at returns
      rcases returns with ⟨output, _, rfl⟩
      exact ⟨by rw [opened]; rfl, rfl, rfl⟩

/-- The device is held in a format, opened once for it. -/
def Held (format : Nat × Nat) (shared : SharedOutput Handle) : Prop :=
  shared.output.isSome = true ∧
    shared.format = some format ∧
    shared.opens = 1

/-- The device was never opened. -/
def Closed (shared : SharedOutput Handle) : Prop :=
  shared.output.isSome = false ∧ shared.opens = 0

theorem Held.like
    {format : Nat × Nat} {before after : SharedOutput Handle}
    (held : before.Held format) (like : before.Like after) :
    after.Held format :=
  ⟨like.1.trans held.1, like.2.1.trans held.2.1,
    like.2.2.trans held.2.2⟩

theorem Closed.like
    {before after : SharedOutput Handle}
    (closed : before.Closed) (like : before.Like after) :
    after.Closed :=
  ⟨like.1.trans closed.1, like.2.2.trans closed.2⟩

/-- A device that is open in a format is not opened again for it. -/
theorem ensure_of_open
    {format : Nat × Nat} {shared : SharedOutput Handle}
    (isOpen : shared.output.isSome = true)
    (inFormat : shared.format = some format)
    (opened : Except String (AlsaOutput Handle)) :
    shared.ensure format.1 format.2 opened = (.ok (), shared) := by
  have same :
      (shared.output.isSome &&
        shared.format == some (format.1, format.2)) = true := by
    rw [isOpen, inFormat]
    exact beq_self_eq_true _
  exact if_pos same

theorem Held.ensure
    {format : Nat × Nat} {shared : SharedOutput Handle}
    (held : shared.Held format)
    (opened : Except String (AlsaOutput Handle)) :
    shared.ensure format.1 format.2 opened = (.ok (), shared) :=
  ensure_of_open held.1 held.2.1 opened

theorem Closed.ensure
    {shared : SharedOutput Handle}
    (closed : shared.Closed) (format : Nat × Nat)
    (opened : Except String (AlsaOutput Handle)) :
    (shared.ensure format.1 format.2 opened).2.Closed ∨
      (shared.ensure format.1 format.2 opened).2.Held format := by
  have differs :
      ¬(shared.output.isSome &&
        shared.format == some (format.1, format.2)) = true := by
    rw [closed.1]
    exact Bool.false_ne_true
  cases opened with
  | error message =>
      left
      have failed :
          shared.ensure format.1 format.2 (.error message) =
            (.error message, { shared with output := none }) :=
        if_neg differs
      rw [failed]
      exact ⟨rfl, closed.2⟩
  | ok output =>
      right
      have succeeded :
          shared.ensure format.1 format.2 (.ok output) =
            (.ok (),
              { output := some output
                format := some format
                opens := shared.opens + 1 }) :=
        if_neg differs
      rw [succeeded, closed.2]
      exact ⟨rfl, rfl, rfl⟩

end SharedOutput

/-- An operation leaves the stream as playable as it was. -/
theorem Op.run_playable
    {Handle Gain Sample : Type}
    {alsa : Pcm Handle Sample} {levels : Levels Gain Sample}
    {shared : SharedOutput Handle} {gain : Gain}
    {op : Op Sample} {stream after : Stream Sample}
    {done : Option (Stream Sample) × SharedOutput Handle}
    (ran : op.run alsa levels shared gain stream = some done)
    (left : done.1 = some after) :
    after.1.playable = stream.1.playable := by
  rcases stream with ⟨sink, _ | scratch⟩
  · cases op with
    | prepare pcm =>
        rw [Op.run] at ran
        split at ran
        · rw [Option.some.injEq] at ran
          rw [← ran, Option.some.injEq] at left
          rw [← left]
          show (if _ then { sink with fadePos := 0 } else sink).playable = _
          split
          · rfl
          · rfl
        · rw [Option.some.injEq] at ran
          rw [← ran, Option.some.injEq] at left
          rw [← left]
    | finish fuel => cases ran
    | flush =>
        rw [Op.run, Option.some.injEq] at ran
        rw [← ran, Option.some.injEq] at left
        rw [← left]
        rfl
    | drop =>
        rw [Op.run, Option.some.injEq] at ran
        rw [← ran] at left
        cases left
  · cases op with
    | finish fuel =>
        rw [Op.run, Option.map_eq_some_iff] at ran
        rcases ran with ⟨_, _, rfl⟩
        rw [Option.some.injEq] at left
        rw [← left]
    | prepare pcm => cases ran
    | flush => cases ran
    | drop => cases ran

/-- An operation neither opens nor closes the device. -/
theorem Op.run_shared
    {Handle Gain Sample : Type}
    {alsa : Pcm Handle Sample} {levels : Levels Gain Sample}
    {shared : SharedOutput Handle} {gain : Gain}
    {op : Op Sample} {stream : Stream Sample}
    {done : Option (Stream Sample) × SharedOutput Handle}
    (ran : op.run alsa levels shared gain stream = some done) :
    shared.Like done.2 := by
  rcases stream with ⟨sink, _ | scratch⟩
  · cases op with
    | prepare pcm =>
        rw [Op.run] at ran
        split at ran
        · rw [Option.some.injEq] at ran
          rw [← ran]
          exact shared.like_resync
        · rw [Option.some.injEq] at ran
          rw [← ran]
          exact ⟨rfl, rfl, rfl⟩
    | finish fuel => cases ran
    | flush =>
        rw [Op.run, Option.some.injEq] at ran
        rw [← ran]
        exact shared.like_discard
    | drop =>
        rw [Op.run, Option.some.injEq] at ran
        rw [← ran]
        show shared.Like (sink.drop alsa shared)
        rw [AlsaSink.drop]
        split
        · exact shared.like_discard
        · exact ⟨rfl, rfl, rfl⟩
  · cases op with
    | finish fuel =>
        rw [Op.run, Option.map_eq_some_iff] at ran
        rcases ran with ⟨after, returns, rfl⟩
        exact SharedOutput.like_write returns
    | prepare pcm => cases ran
    | flush => cases ran
    | drop => cases ran

namespace Host

variable
    {Handle Gain Sample : Type}
    {alsa : Pcm Handle Sample}
    {levels : Levels Gain Sample}

/-- Streams are numbered on. -/
def Fresh (host : Host Handle Gain Sample) : Prop :=
  ∀ id, host.next ≤ id → host.streams id = none

/-- The device was held, or not opened, and streams are numbered on. -/
structure Ready
    (format : Nat × Nat) (host : Host Handle Gain Sample) : Prop where
  shared : host.shared.Closed ∨ host.shared.Held format
  fresh : host.Fresh

/-- Since a moment the device has been held, for every stream since. -/
structure HeldSince
    (format : Nat × Nat) (moment : Nat)
    (host : Host Handle Gain Sample) : Prop where
  shared : host.shared.Held format
  later : moment ≤ host.next
  playable :
    ∀ id stream,
      moment ≤ id → host.streams id = some stream →
        stream.1.playable = true

/-- Only an act that wants a format opens or closes the device. -/
theorem step_shared
    {host next : Host Handle Gain Sample}
    {act : Act Handle Gain Sample}
    (stepped : step alsa levels host act = some next) :
    host.shared.Like next.shared ∨
      ∃ format opened,
        act.opening = some (format, opened) ∧
          next.shared =
            (host.shared.ensure format.1 format.2 opened).2 := by
  cases act with
  | ensure rate channels opened =>
      rw [step, Option.some.injEq] at stepped
      rw [← stepped]
      exact Or.inr ⟨(rate, channels), opened, rfl, rfl⟩
  | create rate channels opened =>
      rw [step, Option.some.injEq] at stepped
      rw [← stepped]
      exact Or.inr ⟨(rate, channels), opened, rfl, rfl⟩
  | use id op =>
      rcases step_use_eq_some stepped with ⟨_, done, _, ran, rfl⟩
      exact Or.inl (Op.run_shared ran)
  | setGain gain =>
      rw [step, Option.some.injEq] at stepped
      rw [← stepped]
      exact Or.inl ⟨rfl, rfl, rfl⟩

theorem Fresh.step
    {host next : Host Handle Gain Sample}
    {act : Act Handle Gain Sample}
    (fresh : host.Fresh)
    (stepped : step alsa levels host act = some next) :
    next.Fresh := by
  cases act with
  | ensure rate channels opened =>
      rw [Host.step, Option.some.injEq] at stepped
      rw [← stepped]
      exact fresh
  | create rate channels opened =>
      rw [Host.step, Option.some.injEq] at stepped
      rw [← stepped]
      intro id above
      show Function.update host.streams host.next _ id = none
      have later : id ≠ host.next := Nat.ne_of_gt above
      rw [Function.update_of_ne later]
      exact fresh id (Nat.le_of_succ_le above)
  | use id op =>
      rcases step_use_eq_some stepped with ⟨stream, done, present, _, rfl⟩
      intro other above
      have older : other ≠ id := by
        rintro rfl
        rw [fresh other above] at present
        cases present
      show Function.update host.streams id done.1 other = none
      rw [Function.update_of_ne older]
      exact fresh other above
  | setGain gain =>
      rw [Host.step, Option.some.injEq] at stepped
      rw [← stepped]
      exact fresh

theorem fresh_initial (gain : Gain) :
    (initial gain : Host Handle Gain Sample).Fresh :=
  fun _ _ => rfl

theorem ready_initial (format : Nat × Nat) (gain : Gain) :
    Ready format (initial gain : Host Handle Gain Sample) where
  shared := Or.inl ⟨rfl, rfl⟩
  fresh := fresh_initial gain

theorem Ready.step
    {format : Nat × Nat}
    {host next : Host Handle Gain Sample}
    {act : Act Handle Gain Sample}
    (ready : Ready format host)
    (asks : act.AsksFor format)
    (stepped : step alsa levels host act = some next) :
    Ready format next := by
  refine ⟨?_, ready.fresh.step stepped⟩
  rcases step_shared stepped with like | ⟨wanted, opened, wants, ensured⟩
  · exact ready.shared.imp (·.like like) (·.like like)
  · have same : wanted = format := asks _ wants
    rw [ensured, same]
    rcases ready.shared with closed | held
    · exact closed.ensure format opened
    · rw [held.ensure]
      exact Or.inr held

theorem HeldSince.step
    {format : Nat × Nat} {moment : Nat}
    {host next : Host Handle Gain Sample}
    {act : Act Handle Gain Sample}
    (held : HeldSince format moment host)
    (asks : act.AsksFor format)
    (stepped : step alsa levels host act = some next) :
    HeldSince format moment next := by
  cases act with
  | ensure rate channels opened =>
      have same : (rate, channels) = format := asks _ rfl
      subst same
      rw [Host.step, held.shared.ensure opened, Option.some.injEq]
        at stepped
      rw [← stepped]
      exact ⟨held.shared, held.later, held.playable⟩
  | create rate channels opened =>
      have same : (rate, channels) = format := asks _ rfl
      subst same
      have ensured := held.shared.ensure opened
      rw [Host.step, Option.some.injEq] at stepped
      rw [← stepped]
      refine ⟨?_, Nat.le_succ_of_le held.later, ?_⟩
      · show (host.shared.ensure rate channels opened).2.Held _
        rw [ensured]
        exact held.shared
      · intro id stream above there
        change Function.update host.streams host.next _ id = _ at there
        rw [Function.update_apply] at there
        split at there
        · rw [Option.some.injEq] at there
          rw [← there]
          show (match (host.shared.ensure rate channels opened).1 with
            | .ok () => true
            | .error _ => false) = true
          rw [ensured]
        · exact held.playable id stream above there
  | use id op =>
      rcases step_use_eq_some stepped with
        ⟨stream, done, present, ran, rfl⟩
      refine ⟨held.shared.like (Op.run_shared ran), held.later, ?_⟩
      intro other after above there
      change Function.update host.streams id done.1 other = _ at there
      rw [Function.update_apply] at there
      split at there
      · next same =>
          rw [Op.run_playable ran there]
          exact held.playable id stream (same ▸ above) present
      · exact held.playable other after above there
  | setGain gain =>
      rw [Host.step, Option.some.injEq] at stepped
      rw [← stepped]
      exact ⟨held.shared, held.later, held.playable⟩

/--
Where every stream asks for one format, the device is opened at most once;
once it is open it stays open, and every stream from then on can play, even
where opening the device again would fail.
-/
theorem device_opened_once
    {gain : Gain} {format : Nat × Nat}
    {before after : List (Act Handle Gain Sample)}
    {held final : Host Handle Gain Sample}
    (asks : ∀ act ∈ before ++ after, act.AsksFor format)
    (reached :
      (system alsa levels gain).exec (initial gain) before = some held)
    (continued :
      (system alsa levels gain).exec held after = some final) :
    final.shared.opens ≤ 1 ∧
      (held.shared.output.isSome = true →
        final.shared.output.isSome = true ∧
          final.shared.opens = 1 ∧
          ∀ id stream,
            held.next ≤ id → final.streams id = some stream →
              stream.1.playable = true) := by
  have asksBefore : ∀ act ∈ before, act.AsksFor format :=
    fun act member => asks act (List.mem_append_left _ member)
  have asksAfter : ∀ act ∈ after, act.AsksFor format :=
    fun act member => asks act (List.mem_append_right _ member)
  have ready : Ready format held :=
    System.invariant_of_meets (Ready format)
      (fun _ _ _ ready asks stepped => ready.step asks stepped)
      (ready_initial format gain)
      (System.meets_of_forall_mem asksBefore _) reached
  have readyFinal : Ready format final :=
    System.invariant_of_meets (Ready format)
      (fun _ _ _ ready asks stepped => ready.step asks stepped)
      ready (System.meets_of_forall_mem asksAfter _) continued
  constructor
  · rcases readyFinal.shared with closed | held
    · rw [closed.2]
      exact Nat.zero_le _
    · exact held.2.2.le
  · intro opened
    have heldNow : HeldSince format held.next held := by
      refine ⟨?_, le_rfl, ?_⟩
      · rcases ready.shared with closed | held
        · rw [closed.1] at opened
          cases opened
        · exact held
      · intro id stream above there
        rw [ready.fresh id above] at there
        cases there
    have heldFinal : HeldSince format held.next final :=
      System.invariant_of_meets (HeldSince format held.next)
        (fun _ _ _ held asks stepped => held.step asks stepped)
        heldNow (System.meets_of_forall_mem asksAfter _) continued
    exact ⟨heldFinal.shared.1, heldFinal.shared.2.2, heldFinal.playable⟩

/-- The device is busy at startup and again after the first stream. -/
def busyTwice :
    List (Act (List Int) Nat Int) × List (Act (List Int) Nat Int) :=
  ([.ensure 44100 2 (.error "busy"),
      .create 44100 2
        (.ok { pcm := [], channels := 2, bufferSize := 22050 })],
    [.use 0 .drop, .create 44100 2 (.error "busy")])

/-- The first stream opens the device, and the second one plays on it. -/
theorem opened_once_while_busy :
    ∃ held final : Host (List Int) Nat Int,
      (system (nullPcm 2) percents 100).exec (initial 100) busyTwice.1 =
          some held ∧
        (system (nullPcm 2) percents 100).exec held busyTwice.2 =
            some final ∧
          held.shared.output.isSome = true ∧
          final.shared.opens ≤ 1 ∧
          (held.shared.output.isSome = true →
            final.shared.output.isSome = true ∧
              final.shared.opens = 1 ∧
              ∀ id stream,
                held.next ≤ id → final.streams id = some stream →
                  stream.1.playable = true) := by
  have asks :
      ∀ act ∈ busyTwice.1 ++ busyTwice.2, act.AsksFor (44100, 2) := by
    simp [busyTwice, Act.AsksFor, Act.opening]
  exact
    ⟨_, _, rfl, rfl, rfl,
      @device_opened_once _ _ _ (nullPcm 2) percents 100 (44100, 2)
        busyTwice.1 busyTwice.2 _ _ asks rfl rfl⟩

end Host

end OpenAirplay2.Receiver.Output

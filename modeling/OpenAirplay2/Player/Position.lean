import Mathlib

/-!
# Positions on a track

A track is an extent on the RTP timeline of a stream.
-/

namespace OpenAirplay2.Player

/-- A track's extent: the time stamps of its first frame and one past its
last. -/
structure Track where
  start : UInt32
  ends : UInt32
deriving DecidableEq, Repr

/-- A `Duration`, in nanoseconds. -/
abbrev Duration := Nat

/-- `u32::saturating_sub`. -/
def saturatingSub (left right : UInt32) : UInt32 :=
  if left < right then 0 else left - right

/-- A count of frames as the time they take at `rate`. -/
def framesToDuration (frames : UInt32) (rate : Nat) : Duration :=
  frames.toNat * 1000000000 / rate

/-- `max_queued_samples`: above this count the reader stops reading. -/
def maxQueuedSamples (rate channels : Nat) : Nat :=
  rate * channels * 2

end OpenAirplay2.Player

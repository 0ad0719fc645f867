import OpenAirplay2.Lib.Str
import OpenAirplay2.Pairing.Tlv

/-!
# The DMAP walker

Track metadata is a sequence of entries, each a four-byte tag and a payload
behind its big-endian length.  The fields of a track are the entries inside an
`mlit` entry.  An entry that runs past the end of the data ends the walk.
-/

namespace OpenAirplay2.Control.Dmap

open OpenAirplay2.Lib.Str
open OpenAirplay2.Pairing (Bytes)

/-- Fields a payload did not carry are `none`. -/
structure TrackMetadata where
  title : Option String
  artist : Option String
  album : Option String
deriving DecidableEq, Repr

/-- `TrackMetadata::default`. -/
def TrackMetadata.empty : TrackMetadata where
  title := none
  artist := none
  album := none

/-- `u32::from_be_bytes`. -/
def fromBeBytes (bytes : Bytes) : Nat :=
  bytes.foldl (fun value byte => value * 256 + byte.toNat) 0

/-- The loop of `walk`; every round takes eight bytes or more. -/
def walkFrom : Nat → Bytes → List (Bytes × Bytes)
  | 0, _ => []
  | fuel + 1, data =>
      if data.length < 8 then
        []
      else
        let len := fromBeBytes ((data.drop 4).take 4)
        let rest := data.drop 8
        if rest.length < len then
          []
        else
          (data.take 4, rest.take len) :: walkFrom fuel (rest.drop len)

/-- The tags and payloads one level of entries is walked through. -/
def walk (data : Bytes) : List (Bytes × Bytes) :=
  walkFrom data.length data

theorem walkFrom_fuel
    (fuel extra : Nat) (data : Bytes)
    (enough : data.length ≤ fuel) :
    walkFrom (fuel + extra) data = walkFrom fuel data := by
  induction fuel generalizing data with
  | zero =>
      have short : data.length < 8 := by omega
      cases extra with
      | zero => rfl
      | succ extra => simp [walkFrom, short]
  | succ fuel induction =>
      rw [Nat.succ_add]
      simp only [walkFrom]
      split
      · rfl
      · split
        · rfl
        · rw [induction]
          simp only [List.length_drop]
          omega

/-- One entry inside an `mlit` entry. -/
def setField (track : TrackMetadata) (entry : Bytes × Bytes) :
    TrackMetadata :=
  let value := some (fromUtf8Lossy entry.2)
  if entry.1 = asciiBytes "minm" then { track with title := value }
  else if entry.1 = asciiBytes "asar" then { track with artist := value }
  else if entry.1 = asciiBytes "asal" then { track with album := value }
  else track

/-- Extract track metadata; `none` when there is no `mlit` entry. -/
def parse (body : Bytes) : Option TrackMetadata :=
  (walk body).foldl
    (fun found entry =>
      if entry.1 = asciiBytes "mlit" then
        some
          ((walk entry.2).foldl setField
            (found.getD TrackMetadata.empty))
      else
        found)
    none

example :
    parse
        (asciiBytes "mlit" ++ [0, 0, 0, 12] ++
          (asciiBytes "minm" ++ [0, 0, 0, 4] ++ asciiBytes "Song") ++
          asciiBytes "asar" ++ [0, 0, 0, 100]) =
      some { TrackMetadata.empty with title := some "Song" } := by
  decide

end OpenAirplay2.Control.Dmap

import Mathlib
import OpenAirplay2.Control.BeBytes
import OpenAirplay2.Lib.Framer

/-!
# The grammar of DMAP bodies

A body is a sequence of entries, each a tag, a length and a payload, and at
its end possibly something that is not a complete entry.  The payload of an
`mlit` entry is such a sequence again.  What the walker makes of a body is
read off the entries, and the ends of the sequences do not matter.
-/

namespace OpenAirplay2.Control.Dmap

open OpenAirplay2.Lib
open OpenAirplay2.Lib.Str
open OpenAirplay2.Pairing (Bytes)

/-! ## Entries -/

/-- A tag of four bytes, and a payload whose length can be written. -/
structure Entry where
  tag : Bytes
  payload : Bytes
  tag_length : tag.length = 4
  fits : payload.length < 2 ^ 32

namespace Entry

def pair (entry : Entry) : Bytes × Bytes :=
  (entry.tag, entry.payload)

def encode (entry : Entry) : Bytes :=
  entry.tag ++ toBeBytes 4 entry.payload.length ++ entry.payload

end Entry

/-- The end of a sequence: no complete entry stands in front of it. -/
structure Tail where
  bytes : Bytes
  incomplete : ∀ (entry : Entry) (rest : Bytes), bytes ≠ entry.encode ++ rest

/-- The entry at the front of the data, as far as it is complete. -/
def nextEntry (data : Bytes) : Option ((Bytes × Bytes) × Bytes) :=
  let len := fromBeBytes ((data.drop 4).take 4)
  let rest := data.drop 8
  if data.length < 8 ∨ rest.length < len then none
  else some ((data.take 4, rest.take len), rest.drop len)

theorem nextEntry_encode (entry : Entry) (rest : Bytes) :
    nextEntry (entry.encode ++ rest) = some (entry.pair, rest) := by
  have header :
      (entry.tag ++ toBeBytes 4 entry.payload.length).length = 8 := by
    rw [List.length_append, entry.tag_length, length_toBeBytes]
  have behind :
      (entry.encode ++ rest).drop 8 = entry.payload ++ rest := by
    rw [Entry.encode, List.append_assoc]
    exact List.drop_left' header
  have tag : (entry.encode ++ rest).take 4 = entry.tag := by
    simp only [Entry.encode, List.append_assoc]
    exact List.take_left' entry.tag_length
  have field :
      fromBeBytes (((entry.encode ++ rest).drop 4).take 4) =
        entry.payload.length := by
    simp only [Entry.encode, List.append_assoc]
    rw [List.drop_left' entry.tag_length,
      List.take_left' (length_toBeBytes 4 _), fromBeBytes_toBeBytes]
    exact Nat.mod_eq_of_lt entry.fits
  have complete :
      ¬ ((entry.encode ++ rest).length < 8 ∨
        (entry.payload ++ rest).length < entry.payload.length) := by
    rw [Entry.encode, List.length_append, List.length_append, header,
      List.length_append]
    omega
  simp only [nextEntry, behind, field, tag]
  rw [if_neg complete, List.take_left' rfl, List.drop_left' rfl]
  rfl

/-- What is read off the front is an entry. -/
theorem nextEntry_some
    {data rest : Bytes}
    {read : Bytes × Bytes}
    (found : nextEntry data = some (read, rest)) :
    ∃ entry : Entry, read = entry.pair ∧ entry.encode ++ rest = data := by
  simp only [nextEntry] at found
  split at found
  · cases found
  · next complete =>
      rw [not_or, not_lt, not_lt] at complete
      rcases complete with ⟨has_header, complete⟩
      cases found
      have field_length : ((data.drop 4).take 4).length = 4 := by
        rw [List.length_take, List.length_drop]
        omega
      have bounded := fromBeBytes_lt ((data.drop 4).take 4)
      rw [field_length] at bounded
      have payload_length :=
        List.length_take_of_le complete
      refine ⟨⟨data.take 4, _, List.length_take_of_le (by omega), ?_⟩, rfl,
        ?_⟩
      · rw [payload_length]
        exact bounded
      · have field :
            toBeBytes 4 (fromBeBytes ((data.drop 4).take 4)) =
              (data.drop 4).take 4 := by
          have written := toBeBytes_fromBeBytes ((data.drop 4).take 4)
          rwa [field_length] at written
        have behind : data.drop 8 = (data.drop 4).drop 4 := by
          rw [List.drop_drop]
        simp only [Entry.encode]
        rw [payload_length, field, List.append_assoc,
          List.take_append_drop, behind, List.append_assoc,
          List.take_append_drop, List.take_append_drop]

/-- Entries, read one at a time. -/
def entryFramer : Framer UInt8 (Bytes × Bytes) where
  next := nextEntry
  shorter := by
    intro data read rest found
    rcases nextEntry_some found with ⟨entry, -, rfl⟩
    rw [Entry.encode]
    simp only [List.length_append, entry.tag_length]
    omega
  stable := by
    intro data read rest found more
    rcases nextEntry_some found with ⟨entry, rfl, rfl⟩
    rw [List.append_assoc]
    exact nextEntry_encode entry (rest ++ more)

/-- One round of the walk is one entry. -/
theorem walkFrom_eq
    (fuel : Nat)
    (data : Bytes)
    (enough : data.length ≤ fuel) :
    walkFrom fuel data = (entryFramer.split data).1 := by
  induction fuel generalizing data with
  | zero =>
      have ends : entryFramer.next data = none := by
        show nextEntry data = none
        simp only [nextEntry]
        rw [if_pos (Or.inl (by omega))]
      rw [entryFramer.split_none ends]
      rfl
  | succ fuel induction =>
      by_cases ends :
          data.length < 8 ∨
            (data.drop 8).length < fromBeBytes ((data.drop 4).take 4)
      · have stops : entryFramer.next data = none := by
          show nextEntry data = none
          simp only [nextEntry]
          rw [if_pos ends]
        rw [entryFramer.split_none stops]
        simp only [walkFrom]
        rcases ends with short | cut
        · rw [if_pos short]
        · rw [if_pos cut, ite_self]
      · have found :
            entryFramer.next data =
              some
                ((data.take 4,
                    (data.drop 8).take
                      (fromBeBytes ((data.drop 4).take 4))),
                  (data.drop 8).drop
                    (fromBeBytes ((data.drop 4).take 4))) := by
          show nextEntry data = _
          simp only [nextEntry]
          rw [if_neg ends]
        have shorter := entryFramer.shorter found
        rw [entryFramer.split_some found]
        rw [not_or] at ends
        simp only [walkFrom]
        rw [if_neg ends.1, if_neg ends.2, induction _ (by omega)]

/-- The walk reads the entries, and the end of the sequence is not one. -/
theorem walk_encode (entries : List Entry) (tail : Tail) :
    walk (entries.flatMap Entry.encode ++ tail.bytes) =
      entries.map Entry.pair := by
  have ends : entryFramer.next tail.bytes = none := by
    cases found : entryFramer.next tail.bytes with
    | none => rfl
    | some read =>
        rcases nextEntry_some (found.trans rfl) with ⟨entry, -, starts⟩
        exact absurd starts.symm (tail.incomplete entry _)
  rw [walk, walkFrom_eq _ _ le_rfl]
  induction entries with
  | nil =>
      rw [List.flatMap_nil, List.nil_append, entryFramer.split_none ends]
      rfl
  | cons entry entries induction =>
      rw [List.flatMap_cons, List.append_assoc,
        entryFramer.split_some (nextEntry_encode entry _), induction]
      rfl

/-! ## The fields of a track -/

def Entry.hasTag (tag : String) (entry : Entry) : Bool :=
  entry.tag == asciiBytes tag

/-- The text of the last entry with the tag. -/
def lastText (tag : String) (entries : List Entry) : Option String :=
  ((entries.filter (Entry.hasTag tag)).getLast?).map
    fun entry => fromUtf8Lossy entry.payload

/-- The fields that the entries set, over those of the track. -/
def fields (track : TrackMetadata) (entries : List Entry) :
    TrackMetadata where
  title := (lastText "minm" entries).or track.title
  artist := (lastText "asar" entries).or track.artist
  album := (lastText "asal" entries).or track.album

theorem lastText_concat
    (tag : String) (entries : List Entry) (entry : Entry) :
    lastText tag (entries ++ [entry]) =
      if entry.tag = asciiBytes tag then
        some (fromUtf8Lossy entry.payload)
      else
        lastText tag entries := by
  rw [lastText, lastText, List.filter_append]
  by_cases same : entry.tag = asciiBytes tag
  · have taken : entry.hasTag tag = true := beq_iff_eq.mpr same
    rw [if_pos same, List.filter_cons_of_pos taken, List.filter_nil,
      List.getLast?_concat, Option.map_some]
  · have passed : ¬ entry.hasTag tag = true := by
      rw [Entry.hasTag, beq_iff_eq]
      exact same
    rw [if_neg same, List.filter_cons_of_neg passed, List.filter_nil,
      List.append_nil]

/-- The last entry with a tag decides its field. -/
theorem foldl_setField (track : TrackMetadata) (entries : List Entry) :
    (entries.map Entry.pair).foldl setField track =
      fields track entries := by
  have differ :
      asciiBytes "minm" ≠ asciiBytes "asar" ∧
        asciiBytes "minm" ≠ asciiBytes "asal" ∧
        asciiBytes "asar" ≠ asciiBytes "asal" := by
    decide
  induction entries using List.reverseRecOn with
  | nil => rfl
  | append_singleton entries entry induction =>
      rw [List.map_append, List.map_singleton, List.foldl_concat,
        induction]
      simp only [fields, lastText_concat, setField, Entry.pair]
      by_cases title : entry.tag = asciiBytes "minm"
      · simp only [title, if_true, if_neg differ.1, if_neg differ.2.1,
          Option.some_or]
      · by_cases artist : entry.tag = asciiBytes "asar"
        · simp only [artist, if_true, if_neg differ.1.symm,
            if_neg differ.2.2, Option.some_or]
        · by_cases album : entry.tag = asciiBytes "asal"
          · simp only [album, if_true, if_neg differ.2.1.symm,
              if_neg differ.2.2.symm, Option.some_or]
          · simp only [title, artist, album, if_false]

theorem fields_append
    (track : TrackMetadata) (first second : List Entry) :
    fields (fields track first) second = fields track (first ++ second) := by
  rw [← foldl_setField, ← foldl_setField, ← foldl_setField,
    List.map_append, List.foldl_append]

/-! ## Bodies -/

/-- An `mlit` payload: entries, and what stands behind the last of them. -/
structure Listing where
  children : List Entry
  tail : Tail
  fits : (children.flatMap Entry.encode ++ tail.bytes).length < 2 ^ 32

/-- A top-level entry. -/
inductive TopEntry where
  | listing (content : Listing)
  | other (entry : Entry) (unlisted : entry.tag ≠ asciiBytes "mlit")

namespace TopEntry

/-- A listing is an entry under its own tag. -/
def entry : TopEntry → Entry
  | .listing content =>
      { tag := asciiBytes "mlit"
        payload :=
          content.children.flatMap Entry.encode ++ content.tail.bytes
        tag_length := by decide
        fits := content.fits }
  | .other entry _ => entry

def encode (top : TopEntry) : Bytes :=
  top.entry.encode

def isListing : TopEntry → Bool
  | .listing _ => true
  | .other _ _ => false

def children : TopEntry → List Entry
  | .listing content => content.children
  | .other _ _ => []

end TopEntry

/-- What a body says about the track. -/
def statement (tops : List TopEntry) : Option TrackMetadata :=
  if tops.any TopEntry.isListing then
    let children := tops.flatMap TopEntry.children
    some
      { title := lastText "minm" children
        artist := lastText "asar" children
        album := lastText "asal" children }
  else
    none

theorem fields_empty (entries : List Entry) :
    fields TrackMetadata.empty entries =
      { title := lastText "minm" entries
        artist := lastText "asar" entries
        album := lastText "asal" entries } := by
  simp only [fields, TrackMetadata.empty, Option.or_none]

/-- Only listings have children. -/
theorem statement_getD (tops : List TopEntry) :
    (statement tops).getD TrackMetadata.empty =
      fields TrackMetadata.empty (tops.flatMap TopEntry.children) := by
  rw [statement]
  split
  · exact (fields_empty _).symm
  · next unlisted =>
      have childless : tops.flatMap TopEntry.children = [] := by
        rw [List.flatMap_eq_nil_iff]
        intro top member
        cases top with
        | listing content =>
            exact absurd (List.any_eq_true.mpr ⟨_, member, rfl⟩) unlisted
        | other entry unlisted => rfl
      rw [childless]
      rfl

/-- One entry of the top level, in the fold of `parse`. -/
theorem statement_concat (tops : List TopEntry) (top : TopEntry) :
    statement (tops ++ [top]) =
      if top.entry.tag = asciiBytes "mlit" then
        some
          ((walk top.entry.payload).foldl setField
            ((statement tops).getD TrackMetadata.empty))
      else
        statement tops := by
  have listed :
      (tops ++ [top]).any TopEntry.isListing =
        (tops.any TopEntry.isListing || top.isListing) := by
    rw [List.any_append, List.any_cons, List.any_nil, Bool.or_false]
  have children :
      (tops ++ [top]).flatMap TopEntry.children =
        tops.flatMap TopEntry.children ++ top.children := by
    rw [List.flatMap_append, List.flatMap_singleton]
  cases top with
  | listing content =>
      have same :
          (TopEntry.listing content).entry.tag = asciiBytes "mlit" := rfl
      have payload :
          walk (TopEntry.listing content).entry.payload =
            content.children.map Entry.pair :=
        walk_encode content.children content.tail
      rw [if_pos same, payload, foldl_setField, statement_getD,
        fields_append, statement, listed, children, fields_empty]
      exact if_pos (Bool.or_true _)
  | other entry unlisted =>
      have differs :
          ¬ (TopEntry.other entry unlisted).entry.tag = asciiBytes "mlit" :=
        unlisted
      rw [if_neg differs, statement, statement, listed, children]
      simp only [TopEntry.isListing, TopEntry.children, Bool.or_false,
        List.append_nil]

/--
The walker makes of a body what its listings say, one field at a time and
the last entry for it deciding, and nothing without a listing.
-/
theorem parse_encode (tops : List TopEntry) (tail : Tail) :
    parse (tops.flatMap TopEntry.encode ++ tail.bytes) = statement tops := by
  have entries :
      tops.flatMap TopEntry.encode =
        (tops.map TopEntry.entry).flatMap Entry.encode := by
    rw [List.flatMap_map]
    rfl
  rw [parse, entries, walk_encode]
  induction tops using List.reverseRecOn with
  | nil => rfl
  | append_singleton tops top induction =>
      have before := induction (by
        rw [List.flatMap_map]
        rfl)
      rw [List.map_append, List.map_append, List.map_singleton,
        List.map_singleton, List.foldl_concat, before, statement_concat]
      rfl

end OpenAirplay2.Control.Dmap

import Mathlib
import OpenAirplay2.Control.BeBytes
import OpenAirplay2.Lib.Framer

/-!
# Reassembly of the data channel

The stream of the buffered-audio connection is a sequence of blocks, each a
length of two bytes that counts itself, and a packet.  The loop appends every
read to its buffer, takes the complete blocks off the front and keeps the
rest.

The walk over the blocks also stops at a length that is too small to be one.
Such a length is never passed, so from there on the buffer keeps everything.
-/

namespace OpenAirplay2.Buffered.Reassembly

open OpenAirplay2.Control
open OpenAirplay2.Control.Dmap (fromBeBytes)
open OpenAirplay2.Lib
open OpenAirplay2.Pairing (Bytes)

/-! ## Splitting the buffer -/

/-- The loop of `split_blocks`; every round moves on by two or more. -/
def splitBlocksFrom (input : Bytes) :
    Nat → Nat → List Bytes → List Bytes × Nat
  | 0, pos, packets => (packets, pos)
  | rounds + 1, pos, packets =>
      if pos + 2 ≤ input.length then
        let len := fromBeBytes ((input.drop pos).take 2)
        if len < 2 ∨ input.length < pos + len then
          (packets, pos)
        else
          splitBlocksFrom input rounds (pos + len)
            (packets ++ [(input.drop (pos + 2)).take (len - 2)])
      else
        (packets, pos)

/-- `split_blocks`: the complete packets, and the bytes they take up. -/
def splitBlocks (input : Bytes) : List Bytes × Nat :=
  splitBlocksFrom input input.length 0 []

/-- The loop never runs out of the rounds it is granted. -/
theorem splitBlocksFrom_fuel
    (input : Bytes)
    (rounds extra pos : Nat)
    (packets : List Bytes)
    (enough : input.length ≤ pos + rounds) :
    splitBlocksFrom input (rounds + extra) pos packets =
      splitBlocksFrom input rounds pos packets := by
  induction rounds generalizing pos packets with
  | zero =>
      cases extra with
      | zero => rfl
      | succ extra =>
          have at_end : ¬ pos + 2 ≤ input.length := by omega
          simp only [splitBlocksFrom, if_neg at_end]
  | succ rounds induction =>
      rw [Nat.succ_add, splitBlocksFrom, splitBlocksFrom]
      split
      · dsimp only
        split
        · rfl
        · next complete =>
            apply induction
            omega
      · rfl

/-! ## One block -/

/-- A packet behind its length prefix. -/
def block (packet : Bytes) : Bytes :=
  toBeBytes 2 (packet.length + 2) ++ packet

/-- The packet at the front of the input, once all of it is there. -/
def nextBlock (input : Bytes) : Option (Bytes × Bytes) :=
  let len := fromBeBytes (input.take 2)
  if input.length < 2 ∨ len < 2 ∨ input.length < len then none
  else some ((input.drop 2).take (len - 2), input.drop len)

theorem length_block (packet : Bytes) :
    (block packet).length = packet.length + 2 := by
  rw [block, List.length_append, length_toBeBytes, Nat.add_comm]

/-- The length field at the front of a block. -/
theorem field_block
    (packet rest : Bytes)
    (fits : packet.length ≤ 65533) :
    fromBeBytes ((block packet ++ rest).take 2) = packet.length + 2 := by
  rw [block, List.append_assoc,
    List.take_left' (length_toBeBytes 2 (packet.length + 2)),
    fromBeBytes_toBeBytes]
  exact Nat.mod_eq_of_lt (by omega)

theorem nextBlock_block
    (packet rest : Bytes)
    (fits : packet.length ≤ 65533) :
    nextBlock (block packet ++ rest) = some (packet, rest) := by
  have long :
      (block packet ++ rest).length = packet.length + 2 + rest.length := by
    rw [List.length_append, length_block]
  have complete :
      ¬ ((block packet ++ rest).length < 2 ∨ packet.length + 2 < 2 ∨
        (block packet ++ rest).length < packet.length + 2) := by
    omega
  simp only [nextBlock, field_block packet rest fits]
  rw [if_neg complete, List.drop_left' (length_block packet), block,
    List.append_assoc,
    List.drop_left' (length_toBeBytes 2 (packet.length + 2)),
    List.take_left' (by omega)]

/-- What is read off the front is a block, and no longer than one may be. -/
theorem nextBlock_some
    (input packet rest : Bytes)
    (found : nextBlock input = some (packet, rest)) :
    packet.length ≤ 65533 ∧ block packet ++ rest = input := by
  simp only [nextBlock] at found
  split at found
  · cases found
  · next complete =>
      rw [not_or, not_or, not_lt, not_lt, not_lt] at complete
      rcases complete with ⟨has_field, large, complete⟩
      cases found
      have field_length : (input.take 2).length = 2 :=
        List.length_take_of_le has_field
      have bounded := fromBeBytes_lt (input.take 2)
      rw [field_length] at bounded
      have packet_length :
          ((input.drop 2).take
              (fromBeBytes (input.take 2) - 2)).length =
            fromBeBytes (input.take 2) - 2 := by
        rw [List.length_take, List.length_drop]
        omega
      have field :
          toBeBytes 2 (fromBeBytes (input.take 2)) = input.take 2 := by
        have written := toBeBytes_fromBeBytes (input.take 2)
        rwa [field_length] at written
      refine ⟨by omega, ?_⟩
      rw [block, packet_length, Nat.sub_add_cancel large, field,
        List.append_assoc]
      have behind :
          input.drop (fromBeBytes (input.take 2)) =
            (input.drop 2).drop (fromBeBytes (input.take 2) - 2) := by
        rw [List.drop_drop, Nat.add_sub_cancel' large]
      rw [behind, List.take_append_drop, List.take_append_drop]

/-- Blocks, read one at a time. -/
def blockFramer : Framer UInt8 Bytes where
  next := nextBlock
  shorter := by
    intro input packet rest found
    rw [← (nextBlock_some input packet rest found).2, List.length_append,
      length_block]
    omega
  stable := by
    intro input packet rest found more
    rcases nextBlock_some input packet rest found with ⟨fits, rfl⟩
    rw [List.append_assoc]
    exact nextBlock_block packet (rest ++ more) fits

/-! ## The loop reads blocks -/

/-- One round of the loop is one block at its position. -/
theorem splitBlocksFrom_next
    (input : Bytes) (rounds pos : Nat) (packets : List Bytes) :
    splitBlocksFrom input (rounds + 1) pos packets =
      match nextBlock (input.drop pos) with
      | none => (packets, pos)
      | some (packet, _) =>
          splitBlocksFrom input rounds
            (pos + fromBeBytes ((input.drop pos).take 2))
            (packets ++ [packet]) := by
  have remaining : (input.drop pos).length = input.length - pos :=
    List.length_drop
  simp only [splitBlocksFrom, nextBlock, remaining]
  by_cases has_field : pos + 2 ≤ input.length
  · rw [if_pos has_field]
    by_cases stops :
        fromBeBytes ((input.drop pos).take 2) < 2 ∨
          input.length < pos + fromBeBytes ((input.drop pos).take 2)
    · rw [if_pos stops, if_pos (by omega)]
    · rw [if_neg stops, if_neg (by omega), List.drop_drop]
  · rw [if_neg has_field, if_pos (by omega)]

/-- From its position on, the loop takes the blocks and stops behind them. -/
theorem splitBlocksFrom_eq
    (input : Bytes)
    (rounds pos : Nat)
    (packets : List Bytes)
    (inside : pos ≤ input.length)
    (enough : input.length ≤ pos + rounds) :
    (splitBlocksFrom input rounds pos packets).1 =
        packets ++ (blockFramer.split (input.drop pos)).1 ∧
      input.drop (splitBlocksFrom input rounds pos packets).2 =
        (blockFramer.split (input.drop pos)).2 ∧
      (splitBlocksFrom input rounds pos packets).2 ≤ input.length := by
  induction rounds generalizing pos packets with
  | zero =>
      have finished : blockFramer.next (input.drop pos) = none := by
        rw [List.drop_eq_nil_of_le (by omega)]
        rfl
      rw [blockFramer.split_none finished, List.append_nil]
      exact ⟨rfl, rfl, inside⟩
  | succ rounds induction =>
      rw [splitBlocksFrom_next]
      cases found : nextBlock (input.drop pos) with
      | none =>
          rw [blockFramer.split_none found, List.append_nil]
          exact ⟨rfl, rfl, inside⟩
      | some read =>
          rcases read with ⟨packet, rest⟩
          rcases nextBlock_some _ packet rest found with ⟨fits, is_block⟩
          have field :
              fromBeBytes ((input.drop pos).take 2) =
                packet.length + 2 := by
            rw [← is_block]
            exact field_block packet rest fits
          have remaining : rest = input.drop (pos + (packet.length + 2)) := by
            rw [← List.drop_drop, ← is_block,
              List.drop_left' (length_block packet)]
          have length := congrArg List.length is_block
          rw [List.length_append, length_block, List.length_drop] at length
          have further :=
            induction (pos + (packet.length + 2)) (packets ++ [packet])
              (by omega) (by omega)
          rw [blockFramer.split_some found, field, remaining]
          rw [List.append_assoc] at further
          exact further

theorem splitBlocks_eq (input : Bytes) :
    (splitBlocks input).1 = (blockFramer.split input).1 ∧
      input.drop (splitBlocks input).2 = (blockFramer.split input).2 ∧
      (splitBlocks input).2 ≤ input.length := by
  exact splitBlocksFrom_eq input input.length 0 [] (Nat.zero_le _)
    (Nat.le_add_left _ _)

/-! ## Read by read -/

/-- The loop of `buffered_audio`: its buffer, and the packets it took off. -/
structure Inbound where
  buf : Bytes
  packets : List Bytes
deriving DecidableEq, Repr

namespace Inbound

/-- Before the first read. -/
def start : Inbound where
  buf := []
  packets := []

/-- Append a read, take the complete packets, drain their bytes. -/
def read (inbound : Inbound) (chunk : Bytes) : Inbound :=
  let buf := inbound.buf ++ chunk
  let (packets, used) := splitBlocks buf
  { buf := buf.drop used
    packets := inbound.packets ++ packets }

/-- After all of the reads. -/
def reads (chunks : List Bytes) : Inbound :=
  chunks.foldl read start

/-- A read feeds the framer. -/
theorem read_eq (inbound : Inbound) (chunk : Bytes) :
    ((inbound.read chunk).packets, (inbound.read chunk).buf) =
      blockFramer.feed (inbound.packets, inbound.buf) chunk := by
  have walked := splitBlocks_eq (inbound.buf ++ chunk)
  show
    (inbound.packets ++ (splitBlocks (inbound.buf ++ chunk)).1,
        List.drop (splitBlocks (inbound.buf ++ chunk)).2
          (inbound.buf ++ chunk)) =
      _
  rw [walked.1, walked.2.1]
  rfl

theorem reads_eq (chunks : List Bytes) :
    ((reads chunks).packets, (reads chunks).buf) =
      blockFramer.split chunks.flatten := by
  have fed (inbound : Inbound) :
      ((chunks.foldl read inbound).packets,
          (chunks.foldl read inbound).buf) =
        chunks.foldl blockFramer.feed
          (inbound.packets, inbound.buf) := by
    induction chunks generalizing inbound with
    | nil => rfl
    | cons chunk chunks induction =>
        rw [List.foldl_cons, List.foldl_cons, induction, read_eq]
  have nothing : blockFramer.split [] = ([], []) :=
    blockFramer.split_none rfl
  have all := blockFramer.foldl_feed chunks []
  rw [nothing, List.nil_append] at all
  exact (fed start).trans all

theorem packets_reads (chunks : List Bytes) :
    (reads chunks).packets = (blockFramer.split chunks.flatten).1 :=
  congrArg Prod.fst (reads_eq chunks)

theorem buf_reads (chunks : List Bytes) :
    (reads chunks).buf = (blockFramer.split chunks.flatten).2 :=
  congrArg Prod.snd (reads_eq chunks)

end Inbound

/--
The packets of a stream do not depend on the reads it arrives in, and a
stream of blocks is read to its end.
-/
theorem reads_packets :
    (∀ chunks : List Bytes,
      (Inbound.reads chunks).packets = (splitBlocks chunks.flatten).1) ∧
      ∀ packets : List Bytes,
        (∀ packet ∈ packets, packet.length ≤ 65533) →
          splitBlocks (packets.flatMap block) =
            (packets, (packets.flatMap block).length) := by
  constructor
  · intro chunks
    rw [(splitBlocks_eq chunks.flatten).1]
    exact Inbound.packets_reads chunks
  · intro packets fit
    have walked := splitBlocks_eq (packets.flatMap block)
    have read :=
      blockFramer.split_encoded block packets []
        fun packet member rest =>
          nextBlock_block packet rest (fit packet member)
    have nothing : blockFramer.split [] = ([], []) :=
      blockFramer.split_none rfl
    rw [nothing, List.append_nil, List.append_nil] at read
    rw [read] at walked
    apply Prod.ext
    · exact walked.1
    · have drained := List.drop_eq_nil_iff.mp walked.2.1
      exact le_antisymm walked.2.2 drained

/-- Two packets whose blocks are cut inside the second length field. -/
theorem reads_packets_cut :
    (Inbound.reads [[0, 3, 7, 0], [4, 8, 9]]).packets =
        (splitBlocks [0, 3, 7, 0, 4, 8, 9]).1 ∧
      splitBlocks [0, 3, 7, 0, 4, 8, 9] = ([[7], [8, 9]], 7) := by
  constructor
  · exact reads_packets.1 [[0, 3, 7, 0], [4, 8, 9]]
  · apply reads_packets.2 [[7], [8, 9]]
    decide

/-! ## What is kept for later -/

/-- What one read can return: something, and no more than fits. -/
def IsRead (chunk : Bytes) : Prop :=
  chunk ≠ [] ∧ chunk.length ≤ 65536

/--
After every read, fewer bytes are kept than one maximal block has, whichever
way the stream is split into reads.
-/
def KeepsLittle (stream : Bytes) : Prop :=
  ∀ chunks : List Bytes,
    (∀ chunk ∈ chunks, IsRead chunk) →
      chunks.flatten = stream →
        ∀ seen, seen <+: chunks →
          (Inbound.reads seen).buf.length < 65535

/--
Behind a sequence of complete blocks there is a length field below two, and
from there on at least the bytes of a maximal block.
-/
def Stalls (stream : Bytes) : Prop :=
  ∃ (packets : List Bytes) (rest : Bytes),
    (∀ packet ∈ packets, packet.length ≤ 65533) ∧
      stream = packets.flatMap block ++ rest ∧
      fromBeBytes (rest.take 2) < 2 ∧
      65535 ≤ rest.length

/-- What is left is short of a block, or begins with a length below two. -/
theorem nextBlock_none
    (input : Bytes)
    (ends : nextBlock input = none) :
    input.length < 65535 ∨ fromBeBytes (input.take 2) < 2 := by
  simp only [nextBlock] at ends
  split at ends
  · next stops =>
      by_contra neither
      rw [not_or, not_lt, not_lt] at neither
      have field := fromBeBytes_lt (input.take 2)
      rw [List.length_take_of_le (by omega)] at field
      omega
  · cases ends

theorem split_stalled
    (packets : List Bytes)
    (rest : Bytes)
    (fit : ∀ packet ∈ packets, packet.length ≤ 65533)
    (small : fromBeBytes (rest.take 2) < 2) :
    blockFramer.split (packets.flatMap block ++ rest) =
      (packets, rest) := by
  have stops : blockFramer.next rest = none := by
    show nextBlock rest = none
    simp only [nextBlock]
    rw [if_pos (Or.inr (Or.inl small))]
  rw [blockFramer.split_encoded block packets rest
      fun packet member behind =>
        nextBlock_block packet behind (fit packet member),
    blockFramer.split_none stops, List.append_nil]

/-- The buffer stays short exactly on the streams that do not stall. -/
theorem keepsLittle_iff (stream : Bytes) :
    KeepsLittle stream ↔ ¬ Stalls stream := by
  constructor
  · rintro little ⟨packets, rest, fit, rfl, small, long⟩
    -- The stream byte by byte: after the last, all of `rest` is kept.
    have one_by_one (bytes : Bytes) :
        (bytes.map fun byte => [byte]).flatten = bytes := by
      induction bytes with
      | nil => rfl
      | cons byte bytes induction =>
          rw [List.map_cons, List.flatten_cons, induction]
          rfl
    let stream := packets.flatMap block ++ rest
    have kept :=
      little (stream.map fun byte => [byte])
        (by
          intro chunk member
          rcases List.mem_map.mp member with ⟨byte, -, rfl⟩
          refine ⟨List.cons_ne_nil byte [], ?_⟩
          rw [List.length_singleton]
          decide)
        (one_by_one stream) _ List.prefix_rfl
    rw [Inbound.buf_reads, one_by_one,
      split_stalled packets rest fit small] at kept
    exact absurd kept (not_lt.mpr long)
  · rintro flows chunks - rfl seen ⟨unseen, rfl⟩
    by_contra much
    rw [not_lt] at much
    rw [Inbound.buf_reads] at much
    rcases nextBlock_none _ (blockFramer.next_left seen.flatten) with
      short | small
    · omega
    · refine flows
        ⟨(blockFramer.split seen.flatten).1,
          (blockFramer.split seen.flatten).2 ++ unseen.flatten, ?_, ?_,
          ?_, ?_⟩
      · exact blockFramer.forall_split
          (fun packet => packet.length ≤ 65533)
          (fun input packet rest found =>
            (nextBlock_some input packet rest found).1) seen.flatten
      · rw [← List.append_assoc,
          blockFramer.encoded_split block
            (fun input packet rest found =>
              (nextBlock_some input packet rest found).2),
          List.flatten_append]
      · rw [List.take_append_of_le_length (by omega)]
        exact small
      · rw [List.length_append]
        omega

/-- Zeros only: none of them is ever drained. -/
theorem zeros_kept :
    ¬ ∀ stream : Bytes, KeepsLittle stream := by
  intro always
  have is_read : IsRead (List.replicate 65535 0) := by
    refine ⟨?_, by rw [List.length_replicate]; decide⟩
    intro empty
    have length := congrArg List.length empty
    rw [List.length_replicate] at length
    cases length
  have kept :=
    always (List.replicate 65535 0) [List.replicate 65535 0]
      (fun chunk member => List.mem_singleton.mp member ▸ is_read)
      (by rw [List.flatten_singleton]) _ List.prefix_rfl
  have zero_field :
      fromBeBytes ((List.replicate 65535 0 : Bytes).take 2) < 2 := by
    rw [List.take_replicate]
    decide
  have stalled :=
    split_stalled [] (List.replicate 65535 0) (by intro _ none; cases none)
      zero_field
  rw [List.flatMap_nil, List.nil_append] at stalled
  rw [Inbound.buf_reads, List.flatten_singleton, stalled,
    List.length_replicate] at kept
  exact lt_irrefl _ kept

end OpenAirplay2.Buffered.Reassembly

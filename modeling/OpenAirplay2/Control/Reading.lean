import OpenAirplay2.Control.Cipher
import OpenAirplay2.Control.Http

/-!
# Reading requests

In the clear a request is read without a byte of what follows it: the head a
byte at a time, the body to its length.  On an encrypted channel whole blocks
are decrypted and the bytes are served from the plaintext.

The transport delivers its bytes in pieces, and a read returns what is left of
a piece as far as it fits into the buffer.
-/

namespace OpenAirplay2.Control

open OpenAirplay2.Lib.Str
open OpenAirplay2.Pairing (Bytes)

/-- What the transport delivers, in the pieces it arrives in. -/
structure Reader where
  pieces : List Bytes
  nonempty : ∀ piece ∈ pieces, piece ≠ []

namespace Reader

/-- All that is left to be read. -/
def bytes (reader : Reader) : Bytes :=
  reader.pieces.flatten

theorem nonempty_drop
    {piece : Bytes} {rest : List Bytes} {size : Nat}
    (long : ¬ piece.length ≤ size)
    (nonempty : ∀ other ∈ piece :: rest, other ≠ []) :
    ∀ other ∈ piece.drop size :: rest, other ≠ [] := by
  rw [List.forall_mem_cons] at nonempty ⊢
  refine ⟨?_, nonempty.2⟩
  intro dropped
  exact long (List.drop_eq_nil_iff.mp dropped)

/-- `read` into a buffer of that size; nothing is read at the end only. -/
def read (reader : Reader) (size : Nat) : Bytes × Reader :=
  match reader with
  | ⟨[], nonempty⟩ => ([], ⟨[], nonempty⟩)
  | ⟨piece :: rest, nonempty⟩ =>
      if long : piece.length ≤ size then
        (piece, ⟨rest, (List.forall_mem_cons.mp nonempty).2⟩)
      else
        (piece.take size,
          ⟨piece.drop size :: rest, nonempty_drop long nonempty⟩)

/-- A read returns the next bytes, some of them if there are any. -/
theorem read_spec
    (reader : Reader) {size : Nat} (pos : 0 < size) :
    (reader.read size).1 ++ (reader.read size).2.bytes = reader.bytes ∧
      (reader.read size).1.length ≤ size ∧
        ((reader.read size).1 = [] → reader.bytes = []) := by
  rcases reader with ⟨pieces, nonempty⟩
  cases pieces with
  | nil => exact ⟨rfl, Nat.zero_le size, fun _ => rfl⟩
  | cons piece rest =>
      have isPiece := nonempty piece List.mem_cons_self
      rw [read]
      split
      · next short => exact ⟨rfl, short, fun none => absurd none isPiece⟩
      · next long =>
          refine ⟨?_, List.length_take_le _ _, ?_⟩
          · show piece.take size ++ (piece.drop size ++ rest.flatten) = _
            rw [← List.append_assoc, List.take_append_drop]
            rfl
          · intro none
            rcases List.take_eq_nil_iff.mp none with isZero | none
            · exact absurd isZero (Nat.ne_of_gt pos)
            · exact absurd none isPiece

end Reader

/-- A connection and the reader it reads from. -/
structure Incoming where
  conn : ControlConnection
  reader : Reader

namespace Incoming

def maxHead : Nat := 16384

def maxBody : Nat := 8388608

def readChunk : Nat := 8192

/-- The next byte is taken from the plaintext. -/
def setPlain (incoming : Incoming) (plain : Bytes) : Incoming :=
  { incoming with conn := { incoming.conn with plain := plain } }

/-- The loop of `fill_encrypted`; every round but the last reads a byte. -/
def fillRounds (crypto : Crypto) :
    Nat → Decryptor → Incoming → Except IoError (Bool × Incoming)
  | 0, _, incoming => .ok (false, incoming)
  | rounds + 1, dec, incoming =>
      let opening := dec.decryptAvailable crypto incoming.conn.cipherPending
      match incoming.conn.fill crypto dec with
      | (_, false) => .error .authenticationFailed
      | (filled, true) =>
          if opening.plaintext = [] then
            match incoming.reader.read readChunk with
            | ([], reader) => .ok (false, ⟨filled, reader⟩)
            | (bytes, reader) =>
                fillRounds crypto rounds opening.decryptor
                  ⟨filled.arrive bytes, reader⟩
          else
            .ok (true, ⟨filled, incoming.reader⟩)

/-- The loop ends before the rounds it is granted do. -/
theorem fillRounds_fuel
    (crypto : Crypto) (rounds extra : Nat) (dec : Decryptor)
    (incoming : Incoming)
    (enough : incoming.reader.bytes.length < rounds) :
    incoming.fillRounds crypto (rounds + extra) dec =
      incoming.fillRounds crypto rounds dec := by
  induction rounds generalizing dec incoming with
  | zero => omega
  | succ rounds induction =>
      rw [Nat.succ_add]
      simp only [fillRounds]
      split
      · rfl
      · next filled opened =>
          split
          · rcases incoming.reader.read_spec (by decide : 0 < readChunk)
              with ⟨isRead, -, -⟩
            split
            · rfl
            · next bytes reader some read =>
                apply induction
                rw [read] at isRead
                rw [← isRead, List.length_append] at enough
                have pos := List.length_pos_iff.mpr some
                simp only at enough pos ⊢
                omega
          · rfl

/--
Read ciphertext until it yields plaintext; `false` at the end of the stream.
-/
def fillEncrypted (crypto : Crypto) (dec : Decryptor)
    (incoming : Incoming) : Except IoError (Bool × Incoming) :=
  fillRounds crypto (incoming.reader.bytes.length + 1) dec incoming

/-- What `fill_encrypted` yields is there to be served. -/
theorem plain_of_fillRounds
    {crypto : Crypto} {rounds : Nat} {dec : Decryptor}
    {incoming next : Incoming}
    (filled :
      incoming.fillRounds crypto rounds dec = .ok (true, next)) :
    next.conn.plain ≠ [] := by
  induction rounds generalizing dec incoming with
  | zero => cases filled
  | succ rounds induction =>
      simp only [fillRounds] at filled
      split at filled
      · cases filled
      · next conn opened =>
          split at filled
          · split at filled
            · cases filled
            · exact induction filled
          · next some =>
              cases filled
              rw [ControlConnection.fill] at opened
              simp only at opened
              split at opened
              · cases opened
              · cases opened
                intro none
                exact some (List.append_eq_nil_iff.mp none).2

/-- The loop of `read_byte`; plaintext that was filled in is served. -/
def readByte (crypto : Crypto) (incoming : Incoming) :
    Except IoError (Option UInt8 × Incoming) :=
  match incoming.conn.plain with
  | byte :: plain => .ok (some byte, incoming.setPlain plain)
  | [] =>
      match incoming.conn.dec with
      | none =>
          let (bytes, reader) := incoming.reader.read 1
          .ok (bytes.head?, { incoming with reader := reader })
      | some dec =>
          (incoming.fillEncrypted crypto dec).map fun (filled, next) =>
            if filled then
              (next.conn.plain.head?, next.setPlain next.conn.plain.tail)
            else
              (none, next)

/--
The loop of `read_exact_n`; every second round at least adds to the output.
-/
def readExactRounds (crypto : Crypto) (count : Nat) :
    Nat → Bytes → Incoming → Except IoError (Bytes × Incoming)
  | 0, out, incoming => .ok (out, incoming)
  | rounds + 1, out, incoming =>
      if out.length < count then
        match incoming.conn.plain with
        | byte :: plain =>
            readExactRounds crypto count rounds (out ++ [byte])
              (incoming.setPlain plain)
        | [] =>
            match incoming.conn.dec with
            | none =>
                match incoming.reader.read (count - out.length) with
                | ([], _) => .error .eofInBody
                | (bytes, reader) =>
                    readExactRounds crypto count rounds (out ++ bytes)
                      { incoming with reader := reader }
            | some dec =>
                match incoming.fillEncrypted crypto dec with
                | .error error => .error error
                | .ok (false, _) => .error .eofInEncryptedBody
                | .ok (true, next) =>
                    readExactRounds crypto count rounds out next
      else
        .ok (out, incoming)

/-- The loop ends before the rounds it is granted do. -/
theorem readExactRounds_fuel
    (crypto : Crypto) (count rounds extra : Nat) (out : Bytes)
    (incoming : Incoming)
    (enough :
      2 * (count - out.length) ≤
        rounds + if incoming.conn.plain = [] then 0 else 1) :
    incoming.readExactRounds crypto count (rounds + extra) out =
      incoming.readExactRounds crypto count rounds out := by
  induction rounds generalizing out incoming with
  | zero =>
      have whole : ¬ out.length < count := by
        split at enough <;> omega
      cases extra with
      | zero => rfl
      | succ extra =>
          rw [Nat.zero_add, readExactRounds, readExactRounds,
            if_neg whole]
  | succ rounds induction =>
      rw [Nat.succ_add]
      simp only [readExactRounds]
      split
      · next short =>
          cases plain : incoming.conn.plain with
          | cons byte rest =>
              rw [plain, if_neg (List.cons_ne_nil byte rest)] at enough
              apply induction
              rw [List.length_append, List.length_singleton]
              omega
          | nil =>
              rw [plain, if_pos rfl] at enough
              simp only
              split
              · split
                · rfl
                · next bytes reader some read =>
                    apply induction
                    have pos := List.length_pos_iff.mpr some
                    rw [List.length_append]
                    omega
              · split
                · rfl
                · rfl
                · next dec isDec next filled =>
                    apply induction
                    rw [if_neg (plain_of_fillRounds filled)]
                    omega
      · rfl

/-- `read_exact_n`. -/
def readExact (crypto : Crypto) (count : Nat) (incoming : Incoming) :
    Except IoError (Bytes × Incoming) :=
  readExactRounds crypto count (2 * count + 1) [] incoming

/-- `b"\r\n\r\n"`. -/
def blankLine : Bytes :=
  utf8 (crlf ++ crlf)

/-- The head with its blank line; `none` at the end of the stream. -/
def readHead (crypto : Crypto) :
    Nat → Bytes → Incoming → Except IoError (Option Bytes × Incoming)
  | 0, _, _ => .error .headTooLarge
  | rounds + 1, head, incoming =>
      match incoming.readByte crypto with
      | .error error => .error error
      | .ok (none, next) =>
          if head = [] then .ok (none, next) else .error .eofInHead
      | .ok (some byte, next) =>
          let longer := head ++ [byte]
          if blankLine.isSuffixOf longer then
            .ok (some longer, next)
          else if maxHead < longer.length then
            .error .headTooLarge
          else
            readHead crypto rounds longer next

/-- The loop ends before the rounds it is granted do. -/
theorem readHead_fuel
    (crypto : Crypto) (rounds extra : Nat) (head : Bytes)
    (incoming : Incoming)
    (short : head.length ≤ maxHead)
    (enough : maxHead < rounds + head.length) :
    incoming.readHead crypto (rounds + extra) head =
      incoming.readHead crypto rounds head := by
  induction rounds generalizing head incoming with
  | zero => omega
  | succ rounds induction =>
      rw [Nat.succ_add]
      simp only [readHead]
      split
      · rfl
      · rfl
      · split
        · rfl
        · split
          · rfl
          · next more =>
              apply induction
              · exact Nat.le_of_not_lt more
              · rw [List.length_append, List.length_singleton]
                omega

/-- `read_request`. -/
def readRequest (crypto : Crypto) (incoming : Incoming) :
    Except IoError (Option Request × Incoming) :=
  match incoming.readHead crypto (maxHead + 1) [] with
  | .error error => .error error
  | .ok (none, next) => .ok (none, next)
  | .ok (some head, next) =>
      match fromUtf8 (head.take (head.length - 4)) with
      | none => .error .nonUtf8Head
      | some text =>
          match parseHead text with
          | .error error => .error error
          | .ok (method, target, protocol, headers) =>
              match contentLength headers with
              | .error error => .error error
              | .ok length =>
                  if maxBody < length then
                    .error .bodyTooLarge
                  else
                    (next.readExact crypto length).map
                      fun (body, final) =>
                        (some
                          { method := method
                            target := target
                            protocol := protocol
                            headers := headers
                            body := body },
                          final)

end Incoming

end OpenAirplay2.Control

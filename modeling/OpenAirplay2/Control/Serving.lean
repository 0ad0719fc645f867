import OpenAirplay2.Control.Blocks

/-!
# Two ways to serve a byte stream

In the clear the bytes are those of the reader; on an encrypted channel they
are those of the blocks.  Either way a connection serves the next byte, the
next bytes of any number, and at last the end of the stream.  What is built
on these three does not depend on the way.
-/

namespace OpenAirplay2.Control

open OpenAirplay2.Pairing (Bytes)

/--
A connection in such a state, with these bytes ahead, serves them and is in
such a state again.
-/
structure Serves
    (crypto : Crypto) (carries : Bytes → Incoming → Prop) : Prop where
  byte :
    ∀ {byte rest incoming}, carries (byte :: rest) incoming →
      ∃ next,
        incoming.readByte crypto = .ok (some byte, next) ∧
          carries rest next
  exact :
    ∀ {front rest incoming}, carries (front ++ rest) incoming →
      ∃ next,
        incoming.readExact crypto front.length = .ok (front, next) ∧
          carries rest next
  ended :
    ∀ {incoming}, carries [] incoming →
      ∃ next,
        incoming.readByte crypto = .ok (none, next) ∧ carries [] next

/-! ## In the clear -/

/-- The reader has these bytes ahead, and nothing else is touched. -/
def Clear (conn : ControlConnection) (bytes : Bytes)
    (incoming : Incoming) : Prop :=
  incoming.conn = conn ∧ incoming.reader.bytes = bytes

section Clear

variable
    {crypto : Crypto}
    {conn : ControlConnection}

/-- A byte is read without any byte after it. -/
theorem clear_readByte
    (dec : conn.dec = none) (plain : conn.plain = [])
    {bytes : Bytes} {incoming : Incoming}
    (clear : Clear conn bytes incoming) :
    ∃ next,
      incoming.readByte crypto = .ok (bytes.head?, next) ∧
        Clear conn bytes.tail next := by
  rcases incoming with ⟨incomingConn, reader⟩
  rcases clear with ⟨rfl, rfl⟩
  rcases reader.read_spec Nat.one_pos with ⟨isRead, atMost, atEnd⟩
  simp only at dec plain ⊢
  cases read : reader.read 1 with
  | mk bytes next =>
      rw [read] at isRead atMost atEnd
      simp only at isRead atMost atEnd
      have answer :
          Incoming.readByte crypto ⟨incomingConn, reader⟩ =
            .ok (bytes.head?, ⟨incomingConn, next⟩) := by
        simp only [Incoming.readByte, plain, dec, read]
      cases bytes with
      | nil =>
          rw [atEnd rfl, List.nil_append] at isRead
          rw [atEnd rfl]
          exact ⟨⟨incomingConn, next⟩, answer, rfl, isRead⟩
      | cons byte rest =>
          have none : rest = [] := by
            rw [List.length_cons] at atMost
            exact
              List.length_eq_zero_iff.mp
                (Nat.le_zero.mp (Nat.le_of_succ_le_succ atMost))
          rw [none] at isRead answer
          rw [← isRead]
          exact ⟨⟨incomingConn, next⟩, answer, rfl, rfl⟩

/-- A body is read to its length, piece by piece. -/
theorem clear_readExact
    (dec : conn.dec = none) (plain : conn.plain = [])
    {rounds : Nat} {out front rest : Bytes} {incoming : Incoming}
    (enough : front.length < rounds)
    (clear : Clear conn (front ++ rest) incoming) :
    ∃ next,
      incoming.readExactRounds crypto (out.length + front.length) rounds
            out =
          .ok (out ++ front, next) ∧
        Clear conn rest next := by
  induction rounds generalizing out front incoming with
  | zero => omega
  | succ rounds induction =>
      rcases incoming with ⟨incomingConn, reader⟩
      rcases clear with ⟨rfl, isBytes⟩
      simp only at dec plain isBytes
      rw [Incoming.readExactRounds]
      split
      · next short =>
          have pos : 0 < front.length := by omega
          have size : out.length + front.length - out.length =
              front.length := Nat.add_sub_cancel_left _ _
          rcases reader.read_spec pos with ⟨isRead, atMost, atEnd⟩
          simp only [plain, dec, size]
          cases read : reader.read front.length with
          | mk bytes next =>
              rw [read] at isRead atMost atEnd
              simp only at isRead atMost atEnd
              cases bytes with
              | nil =>
                  rw [atEnd rfl] at isBytes
                  rw [List.nil_eq_append_iff.mp isBytes |>.1] at pos
                  cases pos
              | cons byte bytes =>
                  rw [isBytes] at isRead
                  have starts : byte :: bytes <+: front := by
                    apply List.prefix_of_prefix_length_le _ _ atMost
                    · exact front ++ rest
                    · rw [← isRead]
                      exact List.prefix_append _ _
                    · exact List.prefix_append _ _
                  rcases starts with ⟨later, rfl⟩
                  rw [List.append_assoc] at isRead
                  have isNext := List.append_cancel_left isRead
                  have fewer : later.length < rounds := by
                    rw [List.length_append, List.length_cons] at enough
                    omega
                  rcases @induction (out ++ (byte :: bytes)) later
                      ⟨incomingConn, next⟩ fewer ⟨rfl, isNext⟩ with
                    ⟨final, run, isClear⟩
                  refine ⟨final, ?_, isClear⟩
                  rw [List.length_append, Nat.add_assoc,
                    List.append_assoc] at run
                  rw [List.length_append]
                  exact run
      · next whole =>
          have none : front = [] := by
            apply List.length_eq_zero_iff.mp
            omega
          rw [none, List.nil_append] at isBytes
          rw [none, List.append_nil]
          exact ⟨_, rfl, rfl, isBytes⟩

theorem serves_clear
    (dec : conn.dec = none) (plain : conn.plain = []) :
    Serves crypto (Clear conn) where
  byte := clear_readByte dec plain
  ended := clear_readByte dec plain
  exact := by
    intro front rest incoming clear
    have run :=
      @clear_readExact crypto conn dec plain (2 * front.length + 1) []
        front rest incoming (by omega) clear
    rw [List.length_nil, Nat.zero_add] at run
    exact run

end Clear

/-! ## On an encrypted channel -/

/-- What is ahead of the blocks' bytes, when a part of them was served. -/
def Hidden (crypto : Crypto) (key : Key) (blocks : List Bytes)
    (bytes : Bytes) (incoming : Incoming) : Prop :=
  ∃ served opened,
    Receiving crypto key blocks served incoming.reader.bytes opened
        incoming.conn ∧
      served ++ bytes = blocks.flatten

section Hidden

variable
    {crypto : Crypto}
    {key : Key}
    {blocks : List Bytes}
    {bytes : Bytes}
    {incoming : Incoming}

/-- The plaintext at hand is the first of what is ahead. -/
theorem Hidden.plain_prefix
    (hidden : Hidden crypto key blocks bytes incoming) :
    incoming.conn.plain <+: bytes := by
  rcases hidden with ⟨served, opened, receiving, isBytes⟩
  rw [← List.prefix_append_right_inj served, isBytes, receiving.plain]
  conv_rhs => rw [← List.take_append_drop opened blocks]
  rw [List.flatten_append]
  exact List.prefix_append _ _

/-- The first byte of the plaintext is served. -/
theorem Hidden.setPlain
    {byte : UInt8} {plain : Bytes}
    (hidden : Hidden crypto key blocks bytes incoming)
    (isPlain : incoming.conn.plain = byte :: plain) :
    ∃ rest,
      bytes = byte :: rest ∧
        Hidden crypto key blocks rest (incoming.setPlain plain) := by
  have isPrefix := hidden.plain_prefix
  rw [isPlain] at isPrefix
  rcases isPrefix with ⟨later, rfl⟩
  rcases hidden with ⟨served, opened, receiving, isBytes⟩
  refine ⟨plain ++ later, rfl, served ++ [byte], opened, ?_, ?_⟩
  · refine
      ⟨receiving.bound, receiving.dec, receiving.bytes, ?_⟩
    rw [← receiving.plain, isPlain, List.append_assoc]
    rfl
  · rw [← isBytes, List.append_assoc]
    rfl

/--
A call of `fill_encrypted` yields plaintext, or everything was served before.
-/
theorem Hidden.fill
    (openable : AllOpenable crypto key 0 blocks)
    (hidden : Hidden crypto key blocks bytes incoming)
    (nothing : incoming.conn.plain = []) :
    ∃ dec filled next,
      incoming.conn.dec = some dec ∧
        incoming.fillEncrypted crypto dec = .ok (filled, next) ∧
          Hidden crypto key blocks bytes next ∧
            (filled = false → bytes = []) := by
  rcases hidden with ⟨served, opened, receiving, isBytes⟩
  have whole := receiving
  rw [← List.append_nil incoming.reader.bytes] at whole
  rcases receiving_fillRounds openable
      (Nat.lt_succ_self incoming.reader.bytes.length) whole with
    ⟨filled, next, later, isFilled, isReceiving, isNothing, none⟩
  rw [List.append_nil] at isReceiving
  refine
    ⟨_, filled, next, receiving.dec, isFilled,
      ⟨served, later, isReceiving, isBytes⟩, ?_⟩
  intro isFalse
  rcases none isFalse with ⟨plain, ended⟩
  rw [ended] at isReceiving
  have finished := (isReceiving.finished openable isNothing).2
  rw [plain, nothing, ← isBytes] at finished
  exact (List.append_cancel_left finished).symm

theorem hidden_readByte
    (openable : AllOpenable crypto key 0 blocks)
    (hidden : Hidden crypto key blocks bytes incoming) :
    ∃ next,
      incoming.readByte crypto = .ok (bytes.head?, next) ∧
        Hidden crypto key blocks bytes.tail next := by
  cases isPlain : incoming.conn.plain with
  | cons byte plain =>
      rcases hidden.setPlain isPlain with ⟨rest, rfl, isHidden⟩
      refine ⟨_, ?_, isHidden⟩
      rw [Incoming.readByte, isPlain]
      rfl
  | nil =>
      rcases hidden.fill openable isPlain with
        ⟨dec, filled, next, isDec, isFilled, isHidden, none⟩
      rw [Incoming.readByte, isPlain, isDec]
      simp only [isFilled, Except.map]
      cases filled with
      | false =>
          rw [none rfl] at isHidden ⊢
          exact ⟨next, rfl, isHidden⟩
      | true =>
          cases nextPlain : next.conn.plain with
          | nil =>
              exact
                absurd nextPlain (Incoming.plain_of_fillRounds isFilled)
          | cons byte plain =>
              rcases isHidden.setPlain nextPlain with
                ⟨rest, rfl, served⟩
              exact ⟨_, rfl, served⟩

theorem hidden_readExact
    (openable : AllOpenable crypto key 0 blocks)
    {rounds : Nat} {out front rest : Bytes}
    (enough : 2 * front.length < rounds)
    (hidden : Hidden crypto key blocks (front ++ rest) incoming) :
    ∃ next,
      incoming.readExactRounds crypto (out.length + front.length) rounds
            out =
          .ok (out ++ front, next) ∧
        Hidden crypto key blocks rest next := by
  induction front generalizing rounds out incoming with
  | nil =>
      cases rounds with
      | zero => omega
      | succ rounds =>
          rw [List.length_nil, Nat.add_zero, Incoming.readExactRounds,
            if_neg (Nat.lt_irrefl out.length), List.append_nil]
          exact ⟨incoming, rfl, hidden⟩
  | cons byte front induction =>
      have short : out.length < out.length + (byte :: front).length := by
        rw [List.length_cons]
        omega
      -- A byte of the plaintext takes a round.
      have serve :
          ∀ {rounds : Nat} {incoming : Incoming},
            2 * front.length + 1 < rounds →
              Hidden crypto key blocks (byte :: front ++ rest) incoming →
                incoming.conn.plain ≠ [] →
                  ∃ next,
                    incoming.readExactRounds crypto
                          (out.length + (byte :: front).length) rounds
                          out =
                        .ok (out ++ byte :: front, next) ∧
                      Hidden crypto key blocks rest next := by
        intro rounds incoming enough hidden some
        cases rounds with
        | zero => omega
        | succ rounds =>
            cases isPlain : incoming.conn.plain with
            | nil => exact absurd isPlain some
            | cons first plain =>
                rcases hidden.setPlain isPlain with
                  ⟨later, isBytes, isHidden⟩
                rw [List.cons_append, List.cons.injEq] at isBytes
                rcases isBytes with ⟨rfl, rfl⟩
                rcases @induction (incoming.setPlain plain) rounds
                    (out ++ [byte]) (by omega) isHidden with
                  ⟨next, run, served⟩
                refine ⟨next, ?_, served⟩
                rw [Incoming.readExactRounds, if_pos short, isPlain]
                rw [List.length_append, List.append_assoc,
                  Nat.add_assoc, List.length_singleton,
                  Nat.add_comm 1] at run
                exact run
      rw [List.length_cons] at enough
      cases isPlain : incoming.conn.plain with
      | cons first plain =>
          apply serve (by omega) hidden
          rw [isPlain]
          exact List.cons_ne_nil first plain
      | nil =>
          rcases hidden.fill openable isPlain with
            ⟨dec, filled, next, isDec, isFilled, isHidden, none⟩
          cases rounds with
          | zero => omega
          | succ rounds =>
              rw [Incoming.readExactRounds, if_pos short, isPlain]
              simp only [isDec, isFilled]
              cases filled with
              | false => cases none rfl
              | true =>
                  exact
                    serve (by omega) isHidden
                      (Incoming.plain_of_fillRounds isFilled)

theorem serves_hidden
    (openable : AllOpenable crypto key 0 blocks) :
    Serves crypto (Hidden crypto key blocks) where
  byte := hidden_readByte openable
  ended := hidden_readByte openable
  exact := by
    intro front rest incoming hidden
    have run :=
      @hidden_readExact crypto key blocks incoming openable
        (2 * front.length + 1) [] front rest (by omega) hidden
    rw [List.length_nil, Nat.zero_add] at run
    exact run

end Hidden

end OpenAirplay2.Control

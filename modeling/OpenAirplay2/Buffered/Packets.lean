import Mathlib
import OpenAirplay2.Buffered.Boundary
import OpenAirplay2.Control.BeBytes
import OpenAirplay2.Control.Blocks

/-!
# Audio packets

A packet is a header of sequence number, timestamp and SSRC, the ciphertext
with its tag, and the end of the nonce.  Timestamp and SSRC are the
associated data; the sequence number is not authenticated.

Slices, array conversions and subtractions of the source that can panic
return a fault here, so that one which does panic can be told from a packet
that is refused.
-/

namespace OpenAirplay2.Buffered.Packets

open OpenAirplay2.Buffered.Boundary (packetSeq)
open OpenAirplay2.Control
open OpenAirplay2.Control.Dmap (fromBeBytes)
open OpenAirplay2.Pairing (Bytes)

/-! ## What can panic -/

/-- A panic of the source. -/
inductive Fault where
  | outOfRange
  | wrongLength
  | unwrapNone
  | underflow
deriving DecidableEq, Repr

/-- `&bytes[low..high]`. -/
def slice (bytes : Bytes) (low high : Nat) : Except Fault Bytes :=
  if low ≤ high ∧ high ≤ bytes.length then
    .ok ((bytes.take high).drop low)
  else
    .error .outOfRange

/-- `u32::from_be_bytes` of a slice that is made an array. -/
def u32FromBe (bytes : Bytes) : Except Fault UInt32 :=
  if bytes.length = 4 then .ok (UInt32.ofNat (fromBeBytes bytes))
  else .error .wrongLength

def unwrap {α : Type} : Option α → Except Fault α
  | some value => .ok value
  | none => .error .unwrapNone

def checkedSub (left right : Nat) : Except Fault Nat :=
  if right ≤ left then .ok (left - right) else .error .underflow

/-! ## Packets -/

def headerLen : Nat := 12

def nonceSuffixLen : Nat := 8

/-- The part of the nonce that a packet carries. -/
abbrev Suffix := { bytes : Bytes // bytes.length = nonceSuffixLen }

/-- Four zero bytes, and the part that the packet carries. -/
def nonceWith (suffix : Suffix) : Nonce :=
  ⟨List.replicate 4 0 ++ suffix.1, by
    rw [List.length_append, suffix.2]
    rfl⟩

/-- `nonce[4..].copy_from_slice`. -/
def copyNonce (bytes : Bytes) : Except Fault Nonce :=
  if sized : bytes.length = nonceSuffixLen then
    .ok (nonceWith ⟨bytes, sized⟩)
  else
    .error .wrongLength

/-- A decrypted audio packet. -/
structure AudioPacket where
  seq : UInt32
  timestamp : UInt32
  ssrc : UInt32
  payload : Bytes
deriving DecidableEq, Repr

/-- Decrypts packets with a fixed session key. -/
structure AudioDecryptor where
  cipher : Key

namespace AudioDecryptor

/-- `AudioDecryptor::new`. -/
def new (shk : Bytes) : Option AudioDecryptor :=
  if sized : shk.length = 32 then some ⟨⟨shk, sized⟩⟩ else none

/-- Decrypt one packet, the contents of its block. -/
def decrypt (crypto : Crypto) (decryptor : AudioDecryptor)
    (packet : Bytes) : Except Fault (Option AudioPacket) :=
  if packet.length < headerLen + nonceSuffixLen + tagLen then
    .ok none
  else do
    let seq ← unwrap (packetSeq packet)
    let timestamp ← u32FromBe (← slice packet 4 8)
    let ssrc ← u32FromBe (← slice packet 8 12)
    let nonceStart ← checkedSub packet.length nonceSuffixLen
    let nonce ← copyNonce (← slice packet nonceStart packet.length)
    let aad ← slice packet 4 12
    let ciphertext ← slice packet headerLen nonceStart
    match crypto.decrypt decryptor.cipher nonce aad ciphertext with
    | none => .ok none
    | some payload =>
        .ok (some
          { seq := UInt32.ofNat seq
            timestamp := timestamp
            ssrc := ssrc
            payload := payload })

end AudioDecryptor

/-! ## The sender -/

/-- `u32::to_be_bytes`. -/
def u32ToBe (value : UInt32) : Bytes :=
  toBeBytes 4 value.toNat

@[simp]
theorem length_u32ToBe (value : UInt32) : (u32ToBe value).length = 4 :=
  length_toBeBytes 4 value.toNat

theorem fromBeBytes_u32ToBe (value : UInt32) :
    fromBeBytes (u32ToBe value) = value.toNat := by
  rw [u32ToBe, fromBeBytes_toBeBytes]
  exact Nat.mod_eq_of_lt value.toNat_lt

/-- What is sealed into a packet, and the nonce it is sealed under. -/
structure Sealed where
  timestamp : UInt32
  ssrc : UInt32
  payload : Bytes
  suffix : Suffix

namespace Sealed

/-- The authenticated part of the header. -/
def aad (message : Sealed) : Bytes :=
  u32ToBe message.timestamp ++ u32ToBe message.ssrc

/-- Payload and tag. -/
def ciphertext (crypto : Crypto) (key : Key) (message : Sealed) : Bytes :=
  crypto.encrypt key (nonceWith message.suffix) message.aad message.payload

/-- What a packet holds behind the first word of its header. -/
def body (crypto : Crypto) (key : Key) (message : Sealed) : Bytes :=
  message.aad ++ message.ciphertext crypto key ++ message.suffix.1

end Sealed

/-- A packet whose header begins with the word. -/
def sealPacket (crypto : Crypto) (key : Key) (word : UInt32)
    (message : Sealed) : Bytes :=
  u32ToBe word ++ message.body crypto key

/-- `make_packet`, which masks the sequence number to 23 bits. -/
def makePacket (crypto : Crypto) (key : Key) (seq : UInt32)
    (message : Sealed) : Bytes :=
  let header :=
    u32ToBe (seq &&& 0x7FFFFF) ++ u32ToBe message.timestamp ++
      u32ToBe message.ssrc
  let sealedPayload :=
    crypto.encrypt key (nonceWith message.suffix)
      ((header.take 12).drop 4) message.payload
  header ++ sealedPayload ++ message.suffix.1

theorem makePacket_eq
    (crypto : Crypto) (key : Key) (seq : UInt32) (message : Sealed) :
    makePacket crypto key seq message =
      sealPacket crypto key (seq &&& 0x7FFFFF) message := by
  have authenticated :
      ((u32ToBe (seq &&& 0x7FFFFF) ++ u32ToBe message.timestamp ++
              u32ToBe message.ssrc).take 12).drop 4 =
        message.aad := by
    rw [List.take_of_length_le (by simp), List.append_assoc,
      List.drop_left' (length_u32ToBe _)]
    rfl
  rw [makePacket, authenticated]
  simp only [sealPacket, Sealed.body, Sealed.ciphertext, Sealed.aad,
    List.append_assoc]

/-! ## Reading the parts -/

/-- The middle one of three parts. -/
theorem slice_middle
    {packet : Bytes}
    {low high : Nat}
    (before middle after : Bytes)
    (parts : packet = before ++ middle ++ after)
    (starts : before.length = low)
    (ends : (before ++ middle).length = high) :
    slice packet low high = .ok middle := by
  have inside : low ≤ high ∧ high ≤ packet.length := by
    rw [parts, List.length_append, ← ends, ← starts, List.length_append]
    omega
  rw [slice, if_pos inside, parts, List.take_left' ends,
    List.drop_left' starts]

theorem u32FromBe_eq
    {bytes : Bytes}
    (sized : bytes.length = 4) :
    u32FromBe bytes = .ok (UInt32.ofNat (fromBeBytes bytes)) := by
  rw [u32FromBe, if_pos sized]

/-- The parts of a packet that is long enough. -/
structure Parts (packet : Bytes) where
  word : Bytes
  timestamp : Bytes
  ssrc : Bytes
  ciphertext : Bytes
  suffix : Suffix
  word_length : word.length = 4
  timestamp_length : timestamp.length = 4
  ssrc_length : ssrc.length = 4
  tagged : tagLen ≤ ciphertext.length
  split :
    packet = word ++ timestamp ++ ssrc ++ ciphertext ++ suffix.1

section Long

variable
    {packet : Bytes}
    (long : headerLen + nonceSuffixLen + tagLen ≤ packet.length)

include long

theorem length_word : (packet.take 4).length = 4 := by
  simp only [headerLen, nonceSuffixLen, tagLen] at long
  rw [List.length_take]
  omega

theorem length_timestamp : ((packet.drop 4).take 4).length = 4 := by
  simp only [headerLen, nonceSuffixLen, tagLen] at long
  rw [List.length_take, List.length_drop]
  omega

theorem length_ssrc :
    (((packet.drop 4).drop 4).take 4).length = 4 := by
  simp only [headerLen, nonceSuffixLen, tagLen] at long
  rw [List.length_take, List.length_drop, List.length_drop]
  omega

theorem tagLen_le_ciphertext :
    tagLen ≤
      ((((packet.drop 4).drop 4).drop 4).take
        (packet.length - headerLen - nonceSuffixLen)).length := by
  simp only [headerLen, nonceSuffixLen, tagLen] at long ⊢
  simp only [List.length_take, List.length_drop]
  omega

theorem length_suffix :
    ((((packet.drop 4).drop 4).drop 4).drop
      (packet.length - headerLen - nonceSuffixLen)).length =
        nonceSuffixLen := by
  simp only [headerLen, nonceSuffixLen, tagLen] at long ⊢
  simp only [List.length_drop]
  omega

end Long

/-- Every packet that is long enough has its parts. -/
def Parts.ofLong
    (packet : Bytes)
    (long : headerLen + nonceSuffixLen + tagLen ≤ packet.length) :
    Parts packet where
  word := packet.take 4
  timestamp := (packet.drop 4).take 4
  ssrc := ((packet.drop 4).drop 4).take 4
  ciphertext :=
    (((packet.drop 4).drop 4).drop 4).take
      (packet.length - headerLen - nonceSuffixLen)
  suffix :=
    ⟨(((packet.drop 4).drop 4).drop 4).drop
        (packet.length - headerLen - nonceSuffixLen),
      length_suffix long⟩
  word_length := length_word long
  timestamp_length := length_timestamp long
  ssrc_length := length_ssrc long
  tagged := tagLen_le_ciphertext long
  split := by
    simp only [List.append_assoc, List.take_append_drop]

variable
    (crypto : Crypto)
    (decryptor : AudioDecryptor)

/-- Each field is read off its part, and the AEAD gets the others. -/
theorem decrypt_parts {packet : Bytes} (parts : Parts packet) :
    decryptor.decrypt crypto packet =
      .ok
        ((crypto.decrypt decryptor.cipher (nonceWith parts.suffix)
              (parts.timestamp ++ parts.ssrc) parts.ciphertext).map
          fun payload =>
            { seq :=
                UInt32.ofNat (fromBeBytes parts.word &&& 0xFFFFFF)
              timestamp := UInt32.ofNat (fromBeBytes parts.timestamp)
              ssrc := UInt32.ofNat (fromBeBytes parts.ssrc)
              payload := payload }) := by
  rcases parts with
    ⟨word, timestamp, ssrc, ciphertext, suffix, word_length,
      timestamp_length, ssrc_length, tagged, split⟩
  have suffix_length := suffix.2
  simp only [nonceSuffixLen] at suffix_length
  have length :
      packet.length = 12 + ciphertext.length + 8 := by
    rw [split]
    simp only [List.length_append, word_length, timestamp_length,
      ssrc_length, suffix_length]
  have long : ¬ packet.length < headerLen + nonceSuffixLen + tagLen := by
    simp only [headerLen, nonceSuffixLen]
    omega
  have numbered :
      packetSeq packet = some (fromBeBytes word &&& 0xFFFFFF) := by
    have first : packet.take 4 = word := by
      rw [split]
      simp only [List.append_assoc]
      exact List.take_left' word_length
    rw [packetSeq, if_neg (by omega), first]
  have timestamp_slice : slice packet 4 8 = .ok timestamp :=
    slice_middle word timestamp (ssrc ++ ciphertext ++ suffix.1)
      (by rw [split]; simp only [List.append_assoc]) word_length
      (by rw [List.length_append, word_length, timestamp_length])
  have ssrc_slice : slice packet 8 12 = .ok ssrc :=
    slice_middle (word ++ timestamp) ssrc (ciphertext ++ suffix.1)
      (by rw [split]; simp only [List.append_assoc])
      (by rw [List.length_append, word_length, timestamp_length])
      (by
        simp only [List.length_append, word_length, timestamp_length,
          ssrc_length])
  have aad_slice : slice packet 4 12 = .ok (timestamp ++ ssrc) :=
    slice_middle word (timestamp ++ ssrc) (ciphertext ++ suffix.1)
      (by rw [split]; simp only [List.append_assoc]) word_length
      (by
        simp only [List.length_append, word_length, timestamp_length,
          ssrc_length])
  have ciphertext_slice :
      slice packet headerLen (packet.length - nonceSuffixLen) =
        .ok ciphertext :=
    slice_middle (word ++ timestamp ++ ssrc) ciphertext suffix.1 split
      (by
        simp only [List.length_append, word_length, timestamp_length,
          ssrc_length, headerLen])
      (by
        simp only [List.length_append, word_length, timestamp_length,
          ssrc_length, nonceSuffixLen]
        omega)
  have suffix_slice :
      slice packet (packet.length - nonceSuffixLen) packet.length =
        .ok suffix.1 :=
    slice_middle (word ++ timestamp ++ ssrc ++ ciphertext) suffix.1 []
      (by rw [split, List.append_nil])
      (by
        simp only [List.length_append, word_length, timestamp_length,
          ssrc_length, nonceSuffixLen]
        omega)
      (by rw [split])
  have start :
      checkedSub packet.length nonceSuffixLen =
        .ok (packet.length - nonceSuffixLen) := by
    rw [checkedSub, if_pos (by simp only [nonceSuffixLen]; omega)]
  have nonce : copyNonce suffix.1 = .ok (nonceWith suffix) := by
    rw [copyNonce, dif_pos suffix.2]
  rw [AudioDecryptor.decrypt, if_neg long, numbered]
  simp only [unwrap, timestamp_slice, ssrc_slice, aad_slice, start,
    suffix_slice, ciphertext_slice, nonce, u32FromBe_eq timestamp_length,
    u32FromBe_eq ssrc_length, bind, Except.bind]
  cases crypto.decrypt decryptor.cipher (nonceWith suffix)
      (timestamp ++ ssrc) ciphertext with
  | none => rfl
  | some payload => rfl

/-- No byte string makes a slice, a conversion or a subtraction panic. -/
theorem decrypt_ok (packet : Bytes) :
    ∃ result, decryptor.decrypt crypto packet = .ok result := by
  by_cases short : packet.length < headerLen + nonceSuffixLen + tagLen
  · exact ⟨none, by rw [AudioDecryptor.decrypt, if_pos short]⟩
  · exact ⟨_, decrypt_parts crypto decryptor
      (Parts.ofLong packet (not_lt.mp short))⟩

/-- Only a packet that has all its parts is accepted. -/
theorem long_of_decrypt
    {packet : Bytes}
    {audio : AudioPacket}
    (opened : decryptor.decrypt crypto packet = .ok (some audio)) :
    headerLen + nonceSuffixLen + tagLen ≤ packet.length := by
  by_contra short
  rw [AudioDecryptor.decrypt, if_pos (not_le.mp short)] at opened
  cases opened

/-! ## Packets of the sender -/

/-- The parts of a sealed packet. -/
def Parts.ofSealed
    (faithful : Faithful crypto)
    (key : Key)
    (word : UInt32)
    (message : Sealed) :
    Parts (sealPacket crypto key word message) where
  word := u32ToBe word
  timestamp := u32ToBe message.timestamp
  ssrc := u32ToBe message.ssrc
  ciphertext := message.ciphertext crypto key
  suffix := message.suffix
  word_length := length_u32ToBe word
  timestamp_length := length_u32ToBe message.timestamp
  ssrc_length := length_u32ToBe message.ssrc
  tagged := by
    rw [Sealed.ciphertext, faithful.length]
    exact Nat.le_add_left _ _
  split := by
    simp only [sealPacket, Sealed.body, Sealed.aad, List.append_assoc]

/-- A sealed packet comes back as it was, its number to 24 bits. -/
theorem decrypt_sealPacket
    (faithful : Faithful crypto)
    (word : UInt32)
    (message : Sealed) :
    decryptor.decrypt crypto
        (sealPacket crypto decryptor.cipher word message) =
      .ok (some
        { seq := word &&& 0xFFFFFF
          timestamp := message.timestamp
          ssrc := message.ssrc
          payload := message.payload }) := by
  have opened :
      crypto.decrypt decryptor.cipher (nonceWith message.suffix)
          (u32ToBe message.timestamp ++ u32ToBe message.ssrc)
          (message.ciphertext crypto decryptor.cipher) =
        some message.payload :=
    faithful.decrypt _ _ _ _
  have masked :
      UInt32.ofNat (word.toNat &&& 0xFFFFFF) = word &&& 0xFFFFFF := by
    rw [← UInt32.toNat_inj, UInt32.toNat_and, UInt32.toNat_ofNat']
    exact Nat.mod_eq_of_lt
      (lt_of_le_of_lt Nat.and_le_left word.toNat_lt)
  rw [decrypt_parts crypto decryptor
    (Parts.ofSealed crypto faithful decryptor.cipher word message)]
  simp only [Parts.ofSealed, opened, fromBeBytes_u32ToBe,
    UInt32.ofNat_toNat, masked, Option.map_some]

/-! ## Packets of anyone -/

/-- The AEAD opens what was sealed under the key, and nothing else. -/
structure AcceptsOnly (key : Key) (sent : Set Sealed) : Prop where
  opens :
    ∀ message ∈ sent,
      crypto.decrypt key (nonceWith message.suffix) message.aad
          (message.ciphertext crypto key) =
        some message.payload
  accepted :
    ∀ nonce aad ciphertext plaintext,
      crypto.decrypt key nonce aad ciphertext = some plaintext →
        ∃ message ∈ sent,
          nonce = nonceWith message.suffix ∧
            aad = message.aad ∧
              ciphertext = message.ciphertext crypto key

theorem nonceWith_injective : Function.Injective nonceWith := by
  intro left right same
  rw [nonceWith, nonceWith, Subtype.mk.injEq] at same
  exact Subtype.ext (List.append_cancel_left same)

/-- An accepted packet is one that was sealed, up to its number. -/
theorem decrypt_authentic
    {sent : Set Sealed}
    (accepts : AcceptsOnly crypto decryptor.cipher sent)
    {packet : Bytes}
    {audio : AudioPacket}
    (opened : decryptor.decrypt crypto packet = .ok (some audio)) :
    ∃ message ∈ sent,
      packet.drop 4 = message.body crypto decryptor.cipher ∧
        audio.timestamp = message.timestamp ∧
        audio.ssrc = message.ssrc ∧
        audio.payload = message.payload := by
  have parts :=
    Parts.ofLong packet (long_of_decrypt crypto decryptor opened)
  rw [decrypt_parts crypto decryptor parts] at opened
  rcases Option.map_eq_some_iff.mp (Except.ok.inj opened) with
    ⟨payload, decrypted, rfl⟩
  rcases accepts.accepted _ _ _ _ decrypted with
    ⟨message, member, nonce, aad, ciphertext⟩
  have suffix : parts.suffix = message.suffix := nonceWith_injective nonce
  have fields :
      parts.timestamp = u32ToBe message.timestamp ∧
        parts.ssrc = u32ToBe message.ssrc :=
    List.append_inj aad (by rw [parts.timestamp_length, length_u32ToBe])
  have payloads : payload = message.payload := by
    have reopened := accepts.opens message member
    rw [← nonce, ← aad, ← ciphertext, decrypted] at reopened
    exact Option.some.inj reopened
  refine ⟨message, member, ?_, ?_, ?_, payloads⟩
  · have behind :
        packet.drop 4 =
          parts.timestamp ++ parts.ssrc ++ parts.ciphertext ++
            parts.suffix.1 := by
      have dropped := congrArg (List.drop 4) parts.split
      simp only [List.append_assoc] at dropped ⊢
      rw [List.drop_left' parts.word_length] at dropped
      exact dropped
    rw [behind, aad, ciphertext, suffix]
    rfl
  · show UInt32.ofNat (fromBeBytes parts.timestamp) = _
    rw [fields.1, fromBeBytes_u32ToBe, UInt32.ofNat_toNat]
  · show UInt32.ofNat (fromBeBytes parts.ssrc) = _
    rw [fields.2, fromBeBytes_u32ToBe, UInt32.ofNat_toNat]

/--
A packet that was sealed under any header word comes back as it was, its
number to 24 bits, so that of `make_packet` to the 23 bits which that keeps.
No byte string panics, and one that is accepted carries the timestamp, the
SSRC and the payload of a packet sealed under the same nonce suffix.
-/
theorem decrypt_faithful :
    (Faithful crypto →
      ∀ (seq : UInt32) (message : Sealed),
        decryptor.decrypt crypto
              (sealPacket crypto decryptor.cipher seq message) =
            .ok (some
              { seq := seq &&& 0xFFFFFF
                timestamp := message.timestamp
                ssrc := message.ssrc
                payload := message.payload }) ∧
          decryptor.decrypt crypto
              (makePacket crypto decryptor.cipher seq message) =
            .ok (some
              { seq := seq &&& 0x7FFFFF
                timestamp := message.timestamp
                ssrc := message.ssrc
                payload := message.payload })) ∧
      (∀ packet,
        ∃ result, decryptor.decrypt crypto packet = .ok result) ∧
      ∀ sent : Set Sealed,
        AcceptsOnly crypto decryptor.cipher sent →
          ∀ packet audio,
            decryptor.decrypt crypto packet = .ok (some audio) →
              ∃ message ∈ sent,
                packet.drop (packet.length - nonceSuffixLen) =
                    message.suffix.1 ∧
                  audio.timestamp = message.timestamp ∧
                  audio.ssrc = message.ssrc ∧
                  audio.payload = message.payload := by
  refine ⟨?_, decrypt_ok crypto decryptor, ?_⟩
  · intro faithful seq message
    have twice : seq &&& 0x7FFFFF &&& 0xFFFFFF = seq &&& 0x7FFFFF := by
      rw [UInt32.and_assoc]
      rfl
    refine ⟨decrypt_sealPacket crypto decryptor faithful seq message, ?_⟩
    rw [makePacket_eq, decrypt_sealPacket crypto decryptor faithful, twice]
  · intro sent accepts packet audio opened
    rcases decrypt_authentic crypto decryptor accepts opened with
      ⟨message, member, body, timestamp, ssrc, payload⟩
    refine ⟨message, member, ?_, timestamp, ssrc, payload⟩
    have long := long_of_decrypt crypto decryptor opened
    have length := congrArg List.length body
    have suffix_length := message.suffix.2
    simp only [Sealed.body, List.length_append, List.length_drop,
      headerLen, nonceSuffixLen, tagLen] at long length suffix_length ⊢
    have behind :
        packet.drop (packet.length - 8) =
          (packet.drop 4).drop (packet.length - 8 - 4) := by
      rw [List.drop_drop]
      congr 1
      omega
    rw [behind, body, Sealed.body]
    apply List.drop_left'
    rw [List.length_append]
    omega

/-! ## A packet whose number has its high bit set -/

/-- The key of the tests. -/
def sampleKey : Key :=
  ⟨[0, 17, 34, 51, 68, 85, 102, 119, 136, 153, 170, 187, 204, 221, 238,
    255, 15, 30, 45, 60, 75, 90, 105, 120, 135, 150, 165, 180, 195, 210,
    225, 240],
    rfl⟩

def sampleMessage : Sealed where
  timestamp := 44100
  ssrc := 0xAABBCCDD
  payload := Lib.Str.asciiBytes "raw aac frame bytes here"
  suffix := ⟨[1, 2, 3, 4, 5, 6, 7, 8], rfl⟩

/-- What the AEAD makes of it under that key. -/
def sampleCiphertext : Bytes :=
  [222, 34, 191, 79, 102, 97, 150, 4, 111, 110, 33, 224, 193, 125, 9, 202,
   87, 251, 19, 54, 233, 130, 210, 6, 224, 98, 74, 203, 185, 239, 103, 84,
   153, 215, 151, 3, 175, 111, 108, 218]

/-- The key, the nonce and the associated data are those of the message. -/
def IsSample (key : Key) (nonce : Nonce) (aad : Bytes) : Prop :=
  key = sampleKey ∧ nonce = nonceWith sampleMessage.suffix ∧
    aad = sampleMessage.aad

instance (key : Key) (nonce : Nonce) (aad : Bytes) :
    Decidable (IsSample key nonce aad) :=
  inferInstanceAs (Decidable (_ ∧ _ ∧ _))

/-- An AEAD that is told what to do with the message. -/
def audioCrypto : Crypto where
  encrypt key nonce aad plaintext :=
    if IsSample key nonce aad ∧ plaintext = sampleMessage.payload then
      sampleCiphertext
    else
      plaintext ++ List.replicate tagLen 0
  decrypt key nonce aad ciphertext :=
    if IsSample key nonce aad ∧ ciphertext = sampleCiphertext then
      some sampleMessage.payload
    else if tagLen ≤ ciphertext.length then
      some (ciphertext.take (ciphertext.length - tagLen))
    else
      none
  hkdf _ _ _ := sampleKey

theorem faithful_audioCrypto : Faithful audioCrypto where
  decrypt := by
    intro key nonce aad plaintext
    simp only [audioCrypto]
    split
    · next known =>
        rw [if_pos ⟨known.1, rfl⟩, known.2]
    · rw [if_neg, if_pos]
      · simp
      · simp
      · rintro ⟨-, same⟩
        have zero :
            (List.replicate tagLen (0 : UInt8)).getLast? = some 0 := rfl
        have last := congrArg List.getLast? same
        rw [List.getLast?_append, zero, Option.some_or] at last
        exact absurd last (by decide)
  length := by
    intro key nonce aad plaintext
    simp only [audioCrypto]
    split
    · next known =>
        rw [known.2]
        rfl
    · simp

/-- The highest of the 24 bits does not come back. -/
theorem makePacket_drops_bit :
    ¬ ∀ (crypto : Crypto) (decryptor : AudioDecryptor),
      Faithful crypto →
        ∀ (seq : UInt32) (message : Sealed),
          decryptor.decrypt crypto
              (makePacket crypto decryptor.cipher seq message) =
            .ok (some
              { seq := seq &&& 0xFFFFFF
                timestamp := message.timestamp
                ssrc := message.ssrc
                payload := message.payload }) := by
  intro claim
  have returned :=
    claim audioCrypto ⟨sampleKey⟩ faithful_audioCrypto 0x800000
      sampleMessage
  have number :
      (AudioDecryptor.decrypt audioCrypto ⟨sampleKey⟩
            (makePacket audioCrypto sampleKey 0x800000 sampleMessage)).map
          (fun result => result.map AudioPacket.seq) =
        .ok (some 0) := by
    decide +kernel
  rw [returned] at number
  revert number
  decide

/-- The same AEAD, without what it was not told of. -/
def strictAudioCrypto : Crypto where
  encrypt := audioCrypto.encrypt
  decrypt key nonce aad ciphertext :=
    if IsSample key nonce aad ∧ ciphertext = sampleCiphertext then
      some sampleMessage.payload
    else
      none
  hkdf := audioCrypto.hkdf

theorem acceptsOnly_strictAudioCrypto :
    AcceptsOnly strictAudioCrypto sampleKey {sampleMessage} where
  opens := by
    rintro message rfl
    decide +kernel
  accepted := by
    intro nonce aad ciphertext plaintext decrypted
    simp only [strictAudioCrypto] at decrypted
    split at decrypted
    · next known =>
        rcases known with ⟨⟨-, rfl, rfl⟩, rfl⟩
        refine ⟨sampleMessage, rfl, rfl, rfl, ?_⟩
        decide +kernel
    · cases decrypted

/-- The packet of the message, as it comes and under another number. -/
theorem decrypt_faithful_sample :
    AudioDecryptor.decrypt audioCrypto ⟨sampleKey⟩
          (makePacket audioCrypto sampleKey 0x1234 sampleMessage) =
        .ok (some
          { seq := 0x1234
            timestamp := sampleMessage.timestamp
            ssrc := sampleMessage.ssrc
            payload := sampleMessage.payload }) ∧
      ∃ message ∈ ({sampleMessage} : Set Sealed),
        message.payload = sampleMessage.payload := by
  constructor
  · exact
      ((decrypt_faithful audioCrypto ⟨sampleKey⟩).1 faithful_audioCrypto
        0x1234 sampleMessage).2
  · have opened :
        AudioDecryptor.decrypt strictAudioCrypto ⟨sampleKey⟩
            (sealPacket strictAudioCrypto sampleKey 7 sampleMessage) =
          .ok (some
            { seq := 7
              timestamp := sampleMessage.timestamp
              ssrc := sampleMessage.ssrc
              payload := sampleMessage.payload }) := by
      decide +kernel
    rcases
        (decrypt_faithful strictAudioCrypto ⟨sampleKey⟩).2.2
          {sampleMessage} acceptsOnly_strictAudioCrypto _ _ opened with
      ⟨message, member, -, -, -, payload⟩
    exact ⟨message, member, payload.symm⟩

end OpenAirplay2.Buffered.Packets

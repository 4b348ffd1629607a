import Mathlib.Data.Finmap

/-!
# The topic code and its wire codec

Reference: `src/src/protocol/topic.rs` (`TopicCode`, `impl Display`, `impl CodecType`);
modelled from the spec: the `Bytes` field of the codec and the check of `std::str::from_utf8`.

A `TopicCode` is a byte string that is expected to be UTF-8. Three paths build one: `new` and
`const_new` from a Rust string, `CodecType::decode` from the wire, and the derived `Deserialize`,
which is transparent over `Bytes` and so takes any bytes. `Display` reads the bytes with
`from_utf8_unchecked`, which requires them to be UTF-8.

On the wire ("variable-length fields prefixed by `u32` length") a `Bytes` field is its length as
a big-endian `u32`, then its bytes. The `u32` is the low 32 bits of the length, as `len() as u32`
writes it. UTF-8 validity is decided by a byte automaton: it accepts exactly the well-formed
sequences `from_utf8` accepts, which excludes overlong forms, surrogates and code points above
U+10FFFF.
-/

namespace AsteroidMq

/-- `TopicCode`: the topic's identity, its raw bytes. -/
structure TopicCode where
  bytes : List UInt8
  deriving DecidableEq, Repr

/-! ## UTF-8 validity -/

/-- Where the UTF-8 check stands between bytes. -/
inductive Utf8State
  /-- Between characters. -/
  | start
  /-- One continuation byte owed. -/
  | tail1
  /-- Two owed. -/
  | tail2
  /-- Three owed. -/
  | tail3
  /-- After `E0`: a byte of `A0..BF`, then one continuation byte. -/
  | afterE0
  /-- After `ED`: a byte of `80..9F`, then one. -/
  | afterED
  /-- After `F0`: a byte of `90..BF`, then two. -/
  | afterF0
  /-- After `F4`: a byte of `80..8F`, then two. -/
  | afterF4
  deriving DecidableEq, Repr

namespace Utf8State

/-- The state after the first byte of a character. -/
def first (b : UInt8) : Option Utf8State :=
  if b ≤ 0x7F then some .start
  else if 0xC2 ≤ b ∧ b ≤ 0xDF then some .tail1
  else if b = 0xE0 then some .afterE0
  else if 0xE1 ≤ b ∧ b ≤ 0xEC then some .tail2
  else if b = 0xED then some .afterED
  else if 0xEE ≤ b ∧ b ≤ 0xEF then some .tail2
  else if b = 0xF0 then some .afterF0
  else if 0xF1 ≤ b ∧ b ≤ 0xF3 then some .tail3
  else if b = 0xF4 then some .afterF4
  else none

/-- `next` when `low ≤ b ≤ high`, a refusal otherwise. -/
def within (low high b : UInt8) (next : Utf8State) : Option Utf8State :=
  if low ≤ b ∧ b ≤ high then some next else none

/-- One byte: the state after it, or `none` where UTF-8 cannot hold it. -/
def step : Utf8State → UInt8 → Option Utf8State
  | .start, b => first b
  | .tail1, b => within 0x80 0xBF b .start
  | .tail2, b => within 0x80 0xBF b .tail1
  | .tail3, b => within 0x80 0xBF b .tail2
  | .afterE0, b => within 0xA0 0xBF b .tail1
  | .afterED, b => within 0x80 0x9F b .tail1
  | .afterF0, b => within 0x90 0xBF b .tail2
  | .afterF4, b => within 0x80 0x8F b .tail2

/-- The state after every byte of a sequence, or `none` once one is refused. -/
def run : Utf8State → List UInt8 → Option Utf8State
  | q, [] => some q
  | q, b :: l =>
    match step q b with
    | some q' => run q' l
    | none => none

end Utf8State

/-- The check of `std::str::from_utf8`: the automaton ends between characters. -/
def validUtf8 (bytes : List UInt8) : Bool :=
  Utf8State.run .start bytes = some .start

/-- An ASCII byte is a whole character. -/
theorem Utf8State.run_start_replicate {b : UInt8} (hb : b ≤ 0x7F) (n : ℕ) :
    run .start (List.replicate n b) = some .start := by
  induction n with
  | zero => rfl
  | succ n ih => simp only [List.replicate_succ, run, step, first, if_pos hb, ih]

/-! ## The `Bytes` field -/

/-- Modelled from the spec: `codec::DecodeError`, by the type whose decoder failed; the message
text it carries is not modelled. -/
structure DecodeError where
  typeName : String
  deriving DecidableEq, Repr

/-- Modelled from the spec: `put_u32(n as u32)`, the low 32 bits of `n`, big-endian. -/
def encodeU32 (n : ℕ) : List UInt8 :=
  [UInt8.ofNat (n / 2 ^ 24), UInt8.ofNat (n / 2 ^ 16), UInt8.ofNat (n / 2 ^ 8), UInt8.ofNat n]

/-- Modelled from the spec: read a big-endian `u32`; fewer than four bytes is an error. -/
def decodeU32 : List UInt8 → Except DecodeError (ℕ × List UInt8)
  | b₀ :: b₁ :: b₂ :: b₃ :: rest =>
    .ok (b₀.toNat * 2 ^ 24 + b₁.toNat * 2 ^ 16 + b₂.toNat * 2 ^ 8 + b₃.toNat, rest)
  | _ => .error ⟨"u32"⟩

/-- Modelled from the spec: `<Bytes as CodecType>::encode`, the length, then the bytes. -/
def encodeBytes (bytes : List UInt8) : List UInt8 :=
  encodeU32 bytes.length ++ bytes

/-- Modelled from the spec: `<Bytes as CodecType>::decode`, a length `n`, then `n` bytes; a
shorter buffer is an error. -/
def decodeBytes (bytes : List UInt8) : Except DecodeError (List UInt8 × List UInt8) :=
  decodeU32 bytes >>= fun (n, rest) =>
    if n ≤ rest.length then .ok (rest.take n, rest.drop n) else .error ⟨"Bytes"⟩

theorem toNat_ofNat_uint8 (n : ℕ) : (UInt8.ofNat n).toNat = n % 256 := rfl

/-- A number below `2 ^ 32` is its four bytes, read big-endian. -/
theorem decodeU32_encodeU32 {n : ℕ} (h : n < 2 ^ 32) (rest : List UInt8) :
    decodeU32 (encodeU32 n ++ rest) = .ok (n, rest) := by
  simp only [encodeU32, decodeU32, List.cons_append, List.nil_append, toNat_ofNat_uint8,
    Except.ok.injEq, Prod.mk.injEq, and_true]
  have h₁ := Nat.div_add_mod n 256
  have h₂ := Nat.div_add_mod (n / 256) 256
  have h₃ := Nat.div_add_mod (n / 256 / 256) 256
  rw [Nat.div_div_eq_div_mul] at h₂ h₃
  rw [Nat.div_div_eq_div_mul] at h₃
  simp only [Nat.reducePow, Nat.reduceMul] at *
  rw [Nat.mod_eq_of_lt (by omega : n / 16777216 < 256)]
  omega

/-- Four bytes read as a `u32` are the encoding of the number read. -/
theorem decodeU32_eq_ok_iff {b rest : List UInt8} {n : ℕ} :
    decodeU32 b = .ok (n, rest) ↔ b = encodeU32 n ++ rest ∧ n < 2 ^ 32 := by
  refine ⟨fun h => ?_, fun ⟨hb, h⟩ => hb ▸ decodeU32_encodeU32 h rest⟩
  match b, h with
  | b₀ :: b₁ :: b₂ :: b₃ :: r, h =>
    simp only [decodeU32, Except.ok.injEq, Prod.mk.injEq] at h
    obtain ⟨rfl, rfl⟩ := h
    have : b₀.toNat < 256 := b₀.toNat_lt_size; have : b₁.toNat < 256 := b₁.toNat_lt_size
    have : b₂.toNat < 256 := b₂.toNat_lt_size; have : b₃.toNat < 256 := b₃.toNat_lt_size
    simp only [encodeU32, List.cons_append, List.nil_append, List.cons.injEq, and_true]
    refine ⟨⟨?_, ?_, ?_, ?_⟩, ?_⟩ <;> try (apply UInt8.toNat.inj; rw [toNat_ofNat_uint8])
    all_goals simp only [Nat.reducePow]; omega

/-- `Bytes::decode` succeeds exactly on an encoded field of fewer than `2 ^ 32` bytes. -/
theorem decodeBytes_eq_ok_iff {b s rest : List UInt8} :
    decodeBytes b = .ok (s, rest) ↔ b = encodeBytes s ++ rest ∧ s.length < 2 ^ 32 := by
  constructor
  · intro h
    rcases hu : decodeU32 b with e | ⟨n, r⟩ <;> simp only [decodeBytes, hu, bind, Except.bind] at h
    · cases h
    obtain ⟨rfl, hn⟩ := decodeU32_eq_ok_iff.mp hu
    split at h
    · next hle =>
      simp only [Except.ok.injEq, Prod.mk.injEq] at h
      obtain ⟨rfl, rfl⟩ := h
      have hl : (r.take n).length = n := List.length_take_of_le hle
      simpa only [encodeBytes, hl, List.append_assoc, List.take_append_drop, true_and] using hn
    · cases h
  · rintro ⟨rfl, h⟩
    simp [decodeBytes, encodeBytes, decodeU32_encodeU32 h, bind, Except.bind]

/-! ## `TopicCode` -/

namespace TopicCode

/-- `TopicCode::new`: the UTF-8 bytes of a string. -/
def new (code : String) : TopicCode :=
  ⟨code.toUTF8.data.toList⟩

/-- `TopicCode::const_new`: the bytes of a static string, the same as `new`. -/
def constNew (code : String) : TopicCode :=
  new code

/-- The derived `Deserialize`, transparent over `Bytes`: the bytes as they come. -/
def deserialize (bytes : List UInt8) : TopicCode :=
  ⟨bytes⟩

/-- `<TopicCode as CodecType>::encode`. -/
def encode (c : TopicCode) : List UInt8 :=
  encodeBytes c.bytes

/-- `<TopicCode as CodecType>::decode`: a `Bytes` field whose payload passes `from_utf8`. -/
def decode (bytes : List UInt8) : Except DecodeError (TopicCode × List UInt8) :=
  decodeBytes bytes >>= fun (s, bytes) =>
    if validUtf8 s then .ok (⟨s⟩, bytes) else .error ⟨"TopicCode"⟩

/-- `decode` is `Bytes::decode` and the UTF-8 check of the payload. -/
theorem decode_eq_ok_iff_decodeBytes {b rest : List UInt8} {c : TopicCode} :
    decode b = .ok (c, rest) ↔ decodeBytes b = .ok (c.bytes, rest) ∧ validUtf8 c.bytes = true := by
  obtain ⟨c⟩ := c
  rcases hd : decodeBytes b with e | ⟨s, r⟩ <;> simp only [decode, hd, bind, Except.bind]
  · simp
  · by_cases hv : validUtf8 s
    · rw [if_pos hv]
      constructor
      · intro h; cases h; exact ⟨rfl, hv⟩
      · rintro ⟨h, -⟩; cases h; rfl
    · rw [if_neg hv]
      exact iff_of_false (fun h => nomatch h) fun ⟨h, hc⟩ => by cases h; exact hv hc

end TopicCode

end AsteroidMq

import AsteroidMq.Protocol.Topic.Code

/-!
# The topic code on the wire

Reference: `src/src/protocol/topic.rs` (`TopicCode::new`, `impl CodecType for TopicCode`,
`impl Display`, the `Deserialize` derive); modelled from the spec: the `Bytes` field.

`decode` accepts exactly an encoded code followed by anything: the length prefix, that many
bytes, and a payload that passes the UTF-8 check. The `u32` prefix bounds what it can return, so
a code of `2 ^ 32` bytes or more never comes back, whatever `encode` writes for it.

The derived `Deserialize` takes its bytes unchecked, so a code reaches `Display`, and
`from_utf8_unchecked`, without the check `decode` makes.
-/

namespace AsteroidMq

namespace TopicCode

/-- The codec's contract: `decode` returns `(c, rest)` exactly on `encode c ++ rest`, for a code
of fewer than `2 ^ 32` bytes that is valid UTF-8. -/
theorem decode_ok_iff_encoded (b rest : List UInt8) (c : TopicCode) :
    decode b = .ok (c, rest) ↔
      b = c.encode ++ rest ∧ c.bytes.length < 2 ^ 32 ∧ validUtf8 c.bytes = true := by
  rw [decode_eq_ok_iff_decodeBytes, decodeBytes_eq_ok_iff, and_assoc]
  rfl

/-- A code `decode` returns has fewer than `2 ^ 32` bytes. -/
theorem length_lt_of_decode_eq_ok {b rest : List UInt8} {c : TopicCode}
    (h : decode b = .ok (c, rest)) : c.bytes.length < 2 ^ 32 :=
  (decodeBytes_eq_ok_iff.mp (decode_eq_ok_iff_decodeBytes.mp h).1).2

/-- A code of `2 ^ 32` ASCII bytes is valid UTF-8 and does not survive the round trip. -/
theorem decode_misses_long_code :
    validUtf8 (List.replicate (2 ^ 32) 0x41) = true ∧
      ∀ rest, decode ((⟨List.replicate (2 ^ 32) 0x41⟩ : TopicCode).encode ++ rest) ≠
        .ok (⟨List.replicate (2 ^ 32) 0x41⟩, rest) := by
  refine ⟨decide_eq_true (Utf8State.run_start_replicate (by decide) _), fun rest h => ?_⟩
  have := length_lt_of_decode_eq_ok h
  rw [List.length_replicate] at this
  exact Nat.lt_irrefl _ this

/-- `Deserialize` builds a code that is not UTF-8 and that `decode` refuses on the wire, so
`Display` hands it to `from_utf8_unchecked`. -/
theorem deserialize_admits_invalid_utf8 :
    validUtf8 (deserialize [0xFF]).bytes = false ∧
      decode (deserialize [0xFF]).encode = .error ⟨"TopicCode"⟩ :=
  ⟨rfl, rfl⟩

end TopicCode

end AsteroidMq

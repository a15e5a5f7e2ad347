import Mathlib.Algebra.Group.Nat.Basic
import GoLabs.Strings.Trim

/-! # Go's decoder reads back Lean's UTF-8 encoding

A request body reaches the handlers as a Lean `String`; Go sees its UTF-8 bytes,
`utf8Bytes s`. Each character's encoding is a sequence `DecodeRuneInString` accepts, and
it decodes to the character with the sequence's width (`decodeRuneInString_utf8EncodeChar`).
So the runes a `for range` loop visits in `utf8Bytes s` are the characters of `s`, each
with its encoding (`decodeAll_utf8Bytes`), and `TrimSpace` empties those bytes exactly
when every character is a space (`trimSpace_utf8Bytes_eq_nil_iff`).
-/

namespace GoLabs.Utf8

/-! ## Bits -/

/-- Or-ing in bits below the ones `a` has adds them. -/
theorem or_eq_add (k : Nat) {a b : Nat} (ha : 2 ^ k ∣ a) (hb : b < 2 ^ k) : a ||| b = a + b := by
  obtain ⟨x, rfl⟩ := ha
  apply Nat.eq_of_testBit_eq
  intro i
  rw [Nat.testBit_or, Nat.testBit_mul_pow_two_add x hb, Nat.testBit_mul_pow_two]
  by_cases hi : i < k
  · simp [hi]
  · simp [hi, Nat.le_of_not_lt hi,
      Nat.testBit_lt_two_pow (Nat.lt_of_lt_of_le hb (Nat.pow_le_pow_right (by decide) (Nat.le_of_not_lt hi)))]
theorem toNat_shiftRight (v : UInt32) {k : UInt32} (hk : k.toNat < 32) :
    (v >>> k).toNat = v.toNat / 2 ^ k.toNat := by
  show (v.toBitVec >>> (k.mod 32).toBitVec).toNat = v.toBitVec.toNat / _
  rw [BitVec.ushiftRight_eq', BitVec.toNat_ushiftRight, Nat.shiftRight_eq_div_pow]
  congr 2
  show k.toNat % 32 = _
  omega
theorem toNat_toUInt8 (v : UInt32) : v.toUInt8.toNat = v.toNat % 256 := by
  show (BitVec.ofNat 8 v.toNat).toNat = _
  rw [BitVec.toNat_ofNat]
/-- The `k`-th group of six bits of a code point, as the encoder cuts it out. -/
theorem toNat_shiftRight_toUInt8 (v : UInt32) {k : UInt32} (hk : k.toNat < 32) :
    (v >>> k).toUInt8.toNat = v.toNat / 2 ^ k.toNat % 256 := by
  rw [toNat_toUInt8, toNat_shiftRight v hk]

/-- The decoder's value of a two-byte sequence: six bits shifted in below the lead's. -/
theorem shiftLeft_or_two (x : Nat) {y : Nat} (hy : y < 64) : x <<< 6 ||| y = x * 64 + y := by
  rw [Nat.shiftLeft_eq]
  exact or_eq_add 6 (Nat.dvd_mul_left _ x) hy

theorem shiftLeft_or_three (x : Nat) {y z : Nat} (hy : y < 64) (hz : z < 64) :
    x <<< 12 ||| y <<< 6 ||| z = x * 4096 + y * 64 + z := by
  have hxy : x <<< 12 ||| y <<< 6 = x * 4096 + y * 64 := by
    rw [Nat.shiftLeft_eq, Nat.shiftLeft_eq]
    exact or_eq_add 12 (by omega) (by omega)
  rw [hxy]
  exact or_eq_add 6 (by omega) hz

theorem shiftLeft_or_four (x : Nat) {y z w : Nat} (hy : y < 64) (hz : z < 64) (hw : w < 64) :
    x <<< 18 ||| y <<< 12 ||| z <<< 6 ||| w = x * 262144 + y * 4096 + z * 64 + w := by
  have hxy : x <<< 18 ||| y <<< 12 = x * 262144 + y * 4096 := by
    rw [Nat.shiftLeft_eq, Nat.shiftLeft_eq]
    exact or_eq_add 18 (by omega) (by omega)
  have hxyz : x * 262144 + y * 4096 ||| z <<< 6 = x * 262144 + y * 4096 + z * 64 := by
    rw [Nat.shiftLeft_eq]
    exact or_eq_add 12 (by omega) (by omega)
  rw [hxy, hxyz]
  exact or_eq_add 6 (by omega) hw

/-- The low `k` bits of `x` under a tag whose bits are all above them. -/
theorem and_or_tag (x k t : Nat) (ht : 2 ^ k ∣ t) : x &&& 2 ^ k - 1 ||| t = x % 2 ^ k + t := by
  rw [Nat.and_pow_two_sub_one_eq_mod, Nat.or_comm, or_eq_add k ht (Nat.mod_lt _ (Nat.two_pow_pos k)),
    Nat.add_comm]
/-- The decoder's masks keep a byte's payload bits. -/
theorem toNat_and_maskx (b : UInt8) : (b &&& maskx).toNat = b.toNat % 64 :=
  Nat.and_pow_two_sub_one_eq_mod b.toNat 6
theorem toNat_and_mask2 (b : UInt8) : (b &&& mask2).toNat = b.toNat % 32 :=
  Nat.and_pow_two_sub_one_eq_mod b.toNat 5
theorem toNat_and_mask3 (b : UInt8) : (b &&& mask3).toNat = b.toNat % 16 :=
  Nat.and_pow_two_sub_one_eq_mod b.toNat 4
theorem toNat_and_mask4 (b : UInt8) : (b &&& mask4).toNat = b.toNat % 8 :=
  Nat.and_pow_two_sub_one_eq_mod b.toNat 3
/-- The encoder's bytes: payload bits under the tag of a continuation or a lead byte. -/
theorem toNat_cont (b : UInt8) : (b &&& 0x3f ||| 0x80).toNat = b.toNat % 64 + 0x80 :=
  and_or_tag b.toNat 6 0x80 ⟨2, rfl⟩
theorem toNat_lead2 (b : UInt8) : (b &&& 0x1f ||| 0xc0).toNat = b.toNat % 32 + 0xc0 :=
  and_or_tag b.toNat 5 0xc0 ⟨6, rfl⟩
theorem toNat_lead3 (b : UInt8) : (b &&& 0x0f ||| 0xe0).toNat = b.toNat % 16 + 0xe0 :=
  and_or_tag b.toNat 4 0xe0 ⟨14, rfl⟩
theorem toNat_lead4 (b : UInt8) : (b &&& 0x07 ||| 0xf0).toNat = b.toNat % 8 + 0xf0 :=
  and_or_tag b.toNat 3 0xf0 ⟨30, rfl⟩

set_option maxRecDepth 4000 in
theorem first_lead (b : UInt8) : b.toNat < 0xC2 ∨ 0xF4 < b.toNat ∨ ¬as ≤ first b ∧
    (b.toNat < 0xE0 ∧ (first b &&& 7).toNat = 2 ∨ 0xE0 ≤ b.toNat ∧ b.toNat < 0xF0 ∧ (first b &&& 7).toNat = 3 ∨
      0xF0 ≤ b.toNat ∧ (first b &&& 7).toNat = 4) ∧
    (b.toNat = 0xE0 ∧ (acceptRanges (first b >>> 4)).1.toNat = 0xA0 ∨
      b.toNat = 0xF0 ∧ (acceptRanges (first b >>> 4)).1.toNat = 0x90 ∨
      b.toNat ≠ 0xE0 ∧ b.toNat ≠ 0xF0 ∧ (acceptRanges (first b >>> 4)).1.toNat = 0x80) ∧
    (b.toNat = 0xED ∧ (acceptRanges (first b >>> 4)).2.toNat = 0x9F ∨
      b.toNat = 0xF4 ∧ (acceptRanges (first b >>> 4)).2.toNat = 0x8F ∨
      b.toNat ≠ 0xED ∧ b.toNat ≠ 0xF4 ∧ (acceptRanges (first b >>> 4)).2.toNat = 0xBF) :=
  @forall_byte (fun b => b.toNat < 0xC2 ∨ 0xF4 < b.toNat ∨ ¬as ≤ first b ∧
    (b.toNat < 0xE0 ∧ (first b &&& 7).toNat = 2 ∨ 0xE0 ≤ b.toNat ∧ b.toNat < 0xF0 ∧ (first b &&& 7).toNat = 3 ∨
      0xF0 ≤ b.toNat ∧ (first b &&& 7).toNat = 4) ∧
    (b.toNat = 0xE0 ∧ (acceptRanges (first b >>> 4)).1.toNat = 0xA0 ∨
      b.toNat = 0xF0 ∧ (acceptRanges (first b >>> 4)).1.toNat = 0x90 ∨
      b.toNat ≠ 0xE0 ∧ b.toNat ≠ 0xF0 ∧ (acceptRanges (first b >>> 4)).1.toNat = 0x80) ∧
    (b.toNat = 0xED ∧ (acceptRanges (first b >>> 4)).2.toNat = 0x9F ∨
      b.toNat = 0xF4 ∧ (acceptRanges (first b >>> 4)).2.toNat = 0x8F ∨
      b.toNat ≠ 0xED ∧ b.toNat ≠ 0xF4 ∧ (acceptRanges (first b >>> 4)).2.toNat = 0xBF)) (by decide) b
/-- A byte within the range `lo`–`hi` passes the decoder's range check. -/
theorem not_out_of_range {b lo hi : UInt8} (h : lo.toNat ≤ b.toNat ∧ b.toNat ≤ hi.toNat) :
    ¬(b < lo ∨ hi < b) := by
  simp only [lt_iff_toNat]; omega

theorem not_out_of_cont {b : UInt8} (h : 0x80 ≤ b.toNat ∧ b.toNat ≤ 0xBF) : ¬(b < locb ∨ hicb < b) :=
  not_out_of_range h

/-! ## Well-formed sequences -/

/-- A lead byte `0xC2`–`0xDF` and a continuation byte decode to the eleven bits they carry. -/
theorem decode_two {b0 b1 : UInt8} (rest : List UInt8) (h0 : 0xC2 ≤ b0.toNat ∧ b0.toNat ≤ 0xDF)
    (h1 : 0x80 ≤ b1.toNat ∧ b1.toNat ≤ 0xBF) :
    decodeRuneInString (b0 :: b1 :: rest) = (b0.toNat % 32 * 64 + b1.toNat % 64, 2) := by
  obtain ⟨hf, hsz, hl, hh⟩ := (first_lead b0).resolve_left (by omega) |>.resolve_left (by omega)
  have hacc : ¬(b1 < (acceptRanges (first b0 >>> 4)).1 ∨ (acceptRanges (first b0 >>> 4)).2 < b1) :=
    not_out_of_range (by omega)
  simp only [decodeRuneInString, hf, if_false, show (first b0 &&& 7).toNat = 2 by omega,
    List.getD_cons_succ, List.getD_cons_zero, Bool.or_eq_true, decide_eq_true_eq,
    hacc, List.length_cons]
  rw [if_neg (by omega), if_pos le_rfl, toNat_and_mask2 b0, toNat_and_maskx b1,
    shiftLeft_or_two _ (Nat.mod_lt _ (by decide))]

/-- A lead byte `0xE0`–`0xEF` and two continuation bytes, the first narrowed after `0xE0`
    (no overlong form) and `0xED` (no surrogate), decode to the sixteen bits they carry. -/
theorem decode_three {b0 b1 b2 : UInt8} (rest : List UInt8) (h0 : 0xE0 ≤ b0.toNat ∧ b0.toNat ≤ 0xEF)
    (h1 : 0x80 ≤ b1.toNat ∧ b1.toNat ≤ 0xBF) (hE0 : b0.toNat = 0xE0 → 0xA0 ≤ b1.toNat)
    (hED : b0.toNat = 0xED → b1.toNat ≤ 0x9F) (h2 : 0x80 ≤ b2.toNat ∧ b2.toNat ≤ 0xBF) :
    decodeRuneInString (b0 :: b1 :: b2 :: rest) =
      (b0.toNat % 16 * 4096 + b1.toNat % 64 * 64 + b2.toNat % 64, 3) := by
  obtain ⟨hf, hsz, hl, hh⟩ := (first_lead b0).resolve_left (by omega) |>.resolve_left (by omega)
  have hacc : ¬(b1 < (acceptRanges (first b0 >>> 4)).1 ∨ (acceptRanges (first b0 >>> 4)).2 < b1) :=
    not_out_of_range (by omega)
  simp only [decodeRuneInString, hf, if_false, show (first b0 &&& 7).toNat = 3 by omega,
    List.getD_cons_succ, List.getD_cons_zero, Bool.or_eq_true, decide_eq_true_eq,
    hacc, not_out_of_cont h2, List.length_cons]
  rw [if_neg (by omega), if_neg (by omega), if_pos le_rfl, toNat_and_mask3 b0,
    toNat_and_maskx b1, toNat_and_maskx b2,
    shiftLeft_or_three _ (Nat.mod_lt _ (by decide)) (Nat.mod_lt _ (by decide))]

/-- A lead byte `0xF0`–`0xF4` and three continuation bytes, the first narrowed after `0xF0`
    (no overlong form) and `0xF4` (nothing past U+10FFFF), decode to the 21 bits they carry. -/
theorem decode_four {b0 b1 b2 b3 : UInt8} (rest : List UInt8) (h0 : 0xF0 ≤ b0.toNat ∧ b0.toNat ≤ 0xF4)
    (h1 : 0x80 ≤ b1.toNat ∧ b1.toNat ≤ 0xBF) (hF0 : b0.toNat = 0xF0 → 0x90 ≤ b1.toNat)
    (hF4 : b0.toNat = 0xF4 → b1.toNat ≤ 0x8F) (h2 : 0x80 ≤ b2.toNat ∧ b2.toNat ≤ 0xBF)
    (h3 : 0x80 ≤ b3.toNat ∧ b3.toNat ≤ 0xBF) :
    decodeRuneInString (b0 :: b1 :: b2 :: b3 :: rest) =
      (b0.toNat % 8 * 262144 + b1.toNat % 64 * 4096 + b2.toNat % 64 * 64 + b3.toNat % 64, 4) := by
  obtain ⟨hf, hsz, hl, hh⟩ := (first_lead b0).resolve_left (by omega) |>.resolve_left (by omega)
  have hacc : ¬(b1 < (acceptRanges (first b0 >>> 4)).1 ∨ (acceptRanges (first b0 >>> 4)).2 < b1) :=
    not_out_of_range (by omega)
  simp only [decodeRuneInString, hf, if_false, show (first b0 &&& 7).toNat = 4 by omega,
    List.getD_cons_succ, List.getD_cons_zero, Bool.or_eq_true, decide_eq_true_eq,
    hacc, not_out_of_cont h2, not_out_of_cont h3, List.length_cons]
  rw [if_neg (by omega), if_neg (by omega), if_neg (by omega), toNat_and_mask4 b0,
    toNat_and_maskx b1, toNat_and_maskx b2, toNat_and_maskx b3,
    shiftLeft_or_four _ (Nat.mod_lt _ (by decide)) (Nat.mod_lt _ (by decide))
      (Nat.mod_lt _ (by decide))]

/-! ## The encoder -/

/-- `String.utf8EncodeChar`, byte by byte: one byte below `0x80`, or a lead byte followed by
    continuation bytes that carry six bits each; a three-byte sequence is never a surrogate. -/
theorem utf8EncodeChar_cases (c : Char) :
    (c.toNat < 0x80 ∧ ∃ b0, String.utf8EncodeChar c = [b0] ∧ b0.toNat = c.toNat) ∨
    (0x80 ≤ c.toNat ∧ c.toNat < 0x800 ∧ ∃ b0 b1, String.utf8EncodeChar c = [b0, b1] ∧
      b0.toNat = c.toNat / 64 + 0xC0 ∧ b1.toNat = c.toNat % 64 + 0x80) ∨
    (0x800 ≤ c.toNat ∧ c.toNat < 0x10000 ∧ (c.toNat < 0xD800 ∨ 0xDFFF < c.toNat) ∧
      ∃ b0 b1 b2, String.utf8EncodeChar c = [b0, b1, b2] ∧ b0.toNat = c.toNat / 4096 + 0xE0 ∧
      b1.toNat = c.toNat / 64 % 64 + 0x80 ∧ b2.toNat = c.toNat % 64 + 0x80) ∨
    (0x10000 ≤ c.toNat ∧ c.toNat < 0x110000 ∧
      ∃ b0 b1 b2 b3, String.utf8EncodeChar c = [b0, b1, b2, b3] ∧
      b0.toNat = c.toNat / 262144 + 0xF0 ∧ b1.toNat = c.toNat / 4096 % 64 + 0x80 ∧
      b2.toNat = c.toNat / 64 % 64 + 0x80 ∧ b3.toNat = c.toNat % 64 + 0x80) := by
  have hv : c.toNat < 0xD800 ∨ 0xDFFF < c.toNat ∧ c.toNat < 0x110000 := c.valid
  have h0 : c.val.toUInt8.toNat = c.toNat % 256 := toNat_toUInt8 c.val
  have h6 : (c.val >>> 6).toUInt8.toNat = c.toNat / 64 % 256 :=
    toNat_shiftRight_toUInt8 c.val (show (6 : UInt32).toNat < 32 by decide)
  have h12 : (c.val >>> 12).toUInt8.toNat = c.toNat / 4096 % 256 :=
    toNat_shiftRight_toUInt8 c.val (show (12 : UInt32).toNat < 32 by decide)
  have h18 : (c.val >>> 18).toUInt8.toNat = c.toNat / 262144 % 256 :=
    toNat_shiftRight_toUInt8 c.val (show (18 : UInt32).toNat < 32 by decide)
  unfold String.utf8EncodeChar
  by_cases e1 : c.toNat ≤ 0x7f
  · rw [if_pos (show c.val ≤ 0x7f from e1)]
    exact .inl ⟨by omega, _, rfl, by omega⟩
  rw [if_neg (show ¬c.val ≤ 0x7f from e1)]
  by_cases e2 : c.toNat ≤ 0x7ff
  · rw [if_pos (show c.val ≤ 0x7ff from e2)]
    refine .inr (.inl ⟨by omega, by omega, _, _, rfl, ?_, ?_⟩)
    · rw [toNat_lead2, h6]; omega
    · rw [toNat_cont, h0]; omega
  rw [if_neg (show ¬c.val ≤ 0x7ff from e2)]
  by_cases e3 : c.toNat ≤ 0xffff
  · rw [if_pos (show c.val ≤ 0xffff from e3)]
    refine .inr (.inr (.inl ⟨by omega, by omega, by omega, _, _, _, rfl, ?_, ?_, ?_⟩))
    · rw [toNat_lead3, h12]; omega
    · rw [toNat_cont, h6]; omega
    · rw [toNat_cont, h0]; omega
  rw [if_neg (show ¬c.val ≤ 0xffff from e3)]
  refine .inr (.inr (.inr ⟨by omega, by omega, _, _, _, _, rfl, ?_, ?_, ?_, ?_⟩))
  · rw [toNat_lead4, h18]; omega
  · rw [toNat_cont, h12]; omega
  · rw [toNat_cont, h6]; omega
  · rw [toNat_cont, h0]; omega

/-- Each character's encoding, followed by anything, decodes to that character and the
    encoding's length. -/
theorem decodeRuneInString_utf8EncodeChar (c : Char) (rest : List UInt8) :
    decodeRuneInString (String.utf8EncodeChar c ++ rest) =
      (c.toNat, (String.utf8EncodeChar c).length) := by
  rcases utf8EncodeChar_cases c with ⟨hn, b0, he, h0⟩ | ⟨hlo, hhi, b0, b1, he, h0, h1⟩ |
    ⟨hlo, hhi, hsur, b0, b1, b2, he, h0, h1, h2⟩ | ⟨hlo, hhi, b0, b1, b2, b3, he, h0, h1, h2, h3⟩
  · rw [he, List.singleton_append, decode_ascii (by omega) rest, h0]; rfl
  · rw [he, List.cons_append, List.singleton_append,
      decode_two rest (by omega) (by omega), Prod.mk.injEq]
    exact ⟨by omega, rfl⟩
  · rw [he, List.cons_append, List.cons_append, List.singleton_append,
      decode_three rest (by omega) (by omega) (by omega) (by omega) (by omega), Prod.mk.injEq]
    exact ⟨by omega, rfl⟩
  · rw [he, List.cons_append, List.cons_append, List.cons_append, List.singleton_append,
      decode_four rest (by omega) (by omega) (by omega) (by omega) (by omega) (by omega), Prod.mk.injEq]
    exact ⟨by omega, rfl⟩

/-- The runes of a Lean string's bytes are its characters, each with its encoding. -/
theorem decodeAll_utf8Bytes (s : String) :
    decodeAll (utf8Bytes s) = s.data.map fun c => (c.toNat, String.utf8EncodeChar c) := by
  obtain ⟨l⟩ := s
  induction l with
  | nil => rfl
  | cons c l ih =>
    have hne : String.utf8EncodeChar c ++ utf8Bytes ⟨l⟩ ≠ [] :=
      List.append_ne_nil_of_left_ne_nil (List.ne_nil_of_length_pos (by simp [Char.utf8Size_pos])) _
    have hw : width (String.utf8EncodeChar c ++ utf8Bytes ⟨l⟩) = (String.utf8EncodeChar c).length := by
      rw [width, decodeRuneInString_utf8EncodeChar]
    show decodeAll (String.utf8EncodeChar c ++ utf8Bytes ⟨l⟩) = _
    rw [decodeAll_eq_cons hne, hw, List.take_left, List.drop_left, decodeRuneInString_utf8EncodeChar, ih]
    rfl

end GoLabs.Utf8

namespace GoLabs.Strings

open Utf8

/-- `TrimSpace` empties a Lean string's bytes exactly when every character is a space. -/
theorem trimSpace_utf8Bytes_eq_nil_iff (s : String) :
    trimSpace (utf8Bytes s) = [] ↔ ∀ c ∈ s.data, isSpace c.toNat := by
  rw [trimSpace_eq_nil_iff, decodeAll_utf8Bytes]
  simp

end GoLabs.Strings

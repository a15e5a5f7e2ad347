import GoLabs.Strings.Fields

/-! # `word.Count` of the tooling demo

`Count` returns `0` when `strings.TrimSpace(s)` is empty and `len(strings.Fields(s))`
otherwise. The early return changes nothing: both count the maximal runs of runes that are
not spaces, so a space between two strings adds their counts.

`RepeatCount` adds `Count(s)` to a Go `int` once per iteration. It returns `times` counts,
none when `times` is not positive, wrapped to 64 bits as Go's `int` arithmetic is
(`repeatCount_eq`).
-/

namespace GoLabs.Word

open Strings Utf8

/-- `word.Count`. -/
def count (s : List UInt8) : Nat := if trimSpace s = [] then 0 else (fields s).length

example : count (utf8Bytes "go is fun") = 3 ∧ count (utf8Bytes "  ") = 0 := by decide

theorem count_eq_length_words (s : List UInt8) :
    count s = (words (isSpace ·.1) (decodeAll s)).length := by
  unfold count
  split_ifs with h
  · rw [length_words, runCount_of_forall _ (trimSpace_eq_nil_iff.mp h)]
  · exact length_fields s

theorem decodeAll_append_space (a b : List UInt8) :
    decodeAll (a ++ [0x20] ++ b) = decodeAll a ++ (0x20, [0x20]) :: decodeAll b := by
  rw [List.append_assoc, List.singleton_append,
    decodeAll_append fun x hx => by cases hx; decide, decodeAll_ascii_cons (by decide)]
  rfl

/-- For every string, `Count` is the number of maximal runs of runes that are not spaces,
    invalid bytes counting as runes that are not spaces; so it agrees with
    `len(strings.Fields(s))`, and a space between two strings adds their counts. -/
theorem count_counts_words (s a b : List UInt8) :
    count s = (words (isSpace ·.1) (decodeAll s)).length ∧ count s = (fields s).length ∧
      count (a ++ [0x20] ++ b) = count a + count b := by
  refine ⟨count_eq_length_words s, (count_eq_length_words s).trans (length_fields s).symm, ?_⟩
  rw [count_eq_length_words, count_eq_length_words, count_eq_length_words, length_words,
    length_words, length_words, decodeAll_append_space,
    @runCount_append_sep Chunk (isSpace ·.1) (0x20, [0x20]) (by decide)]

/-! ## `RepeatCount` -/

/-- Go's `int` on a 64-bit platform: a sum wraps to `[-2^63, 2^63)`. -/
def wrapInt (x : Int) : Int := (x + 9223372036854775808) % 18446744073709551616 - 9223372036854775808

/-- The loop of `word.RepeatCount` at iteration `i` with the running `total`. -/
def repeatLoop (s : List UInt8) (times i total : Int) : Int :=
  if i < times then repeatLoop s times (i + 1) (wrapInt (total + count s)) else total
termination_by (times - i).toNat
decreasing_by omega

/-- `word.RepeatCount`. -/
def repeatCount (s : List UInt8) (times : Int) : Int := repeatLoop s times 0 0

theorem wrapInt_add_wrapInt (x y : Int) : wrapInt (wrapInt x + y) = wrapInt (x + y) := by
  unfold wrapInt; omega

theorem wrapInt_of_lt {x : Int} (h0 : -9223372036854775808 ≤ x) (h1 : x < 9223372036854775808) :
    wrapInt x = x := by
  unfold wrapInt; omega

/-- The loop adds one count per iteration left, wrapping. -/
theorem repeatLoop_eq (s : List UInt8) (times i t : Int) :
    repeatLoop s times i (wrapInt t) = wrapInt (t + (times - i).toNat * count s) := by
  suffices h : ∀ total, total = wrapInt t →
      repeatLoop s times i total = wrapInt (t + (times - i).toNat * count s) from h _ rfl
  intro total
  induction i, total using repeatLoop.induct s times generalizing t with
  | case1 i total hi ih =>
    intro ht
    have hk : (times - i).toNat = (times - (i + 1)).toNat + 1 := by omega
    rw [repeatLoop, if_pos hi, ih (total + count s) rfl, ht, Int.add_assoc, wrapInt_add_wrapInt, hk]
    congr 1
    rw [Int.natCast_add, Int.add_mul, Int.natCast_one, Int.one_mul, Int.add_comm (count s : Int)]
  | case2 i total hi =>
    intro ht
    rw [repeatLoop, if_neg hi, ht, show (times - i).toNat = 0 by omega]
    simp

/-- `RepeatCount(s, times)` is `times` counts of `s`, none when `times` is not positive,
    wrapped as Go's 64-bit `int` wraps; exactly that product while it stays below `2^63`. -/
theorem repeatCount_eq (s : List UInt8) (times : Int) :
    repeatCount s times = wrapInt (times.toNat * count s) ∧
      (times.toNat * count s < 9223372036854775808 → repeatCount s times = times.toNat * count s) := by
  have h : repeatCount s times = wrapInt (times.toNat * count s) := by
    simpa [wrapInt] using repeatLoop_eq s times 0 0
  refine ⟨h, fun hlt => ?_⟩
  rw [h, ← Int.natCast_mul, wrapInt_of_lt (by omega) (by omega)]

theorem repeatCount_eq_four :
    Int.toNat 4 * count (utf8Bytes "go is fun") < 9223372036854775808 ∧
      repeatCount (utf8Bytes "go is fun") 4 = Int.toNat 4 * count (utf8Bytes "go is fun") :=
  ⟨by decide, (repeatCount_eq _ _).2 (by decide)⟩

end GoLabs.Word

import Mathlib.Data.Nat.Digits
import GoLabs.Runtime

/-! # `strconv.ParseInt` reads back `strconv.Itoa`

`Itoa` prints a `-` for a negative number and then the decimal digits of its magnitude, most
significant first; Lean's `Nat.toDigits` builds them from the last. The parse `Atoi` and
`ParseInt` share accepts exactly that syntax and computes the value back
(`parseDecimal_itoa`), so `ParseInt` reads every number `Itoa` prints that fits a 64-bit
`int` (`parseInt_itoa`): the swagger demo prints its ids with `Itoa` and reads them back
from the paths with `ParseInt`.
-/

namespace GoLabs

theorem digitsValue_append_singleton (l : List Char) (c : Char) :
    digitsValue (l ++ [c]) = 10 * digitsValue l + (c.toNat - '0'.toNat) := by
  simp [digitsValue, List.foldl_append]

theorem digitChar_digit : ∀ d < 10, (Nat.digitChar d).isDigit ∧ (Nat.digitChar d).toNat - '0'.toNat = d := by
  decide

/-- With fuel above `n`, `toDigitsCore` puts the digits of `n` before its accumulator. -/
theorem toDigitsCore_ten (f n : Nat) (hn : n < f) (ds : List Char) :
    ∃ l, Nat.toDigitsCore 10 f n ds = l ++ ds ∧ l ≠ [] ∧ (∀ c ∈ l, c.isDigit) ∧ digitsValue l = n := by
  induction f generalizing n ds with
  | zero => omega
  | succ f ih =>
    have hd := digitChar_digit (n % 10) (Nat.mod_lt _ (by decide))
    by_cases h : n / 10 = 0
    · refine ⟨[Nat.digitChar (n % 10)], by simp [Nat.toDigitsCore, h], by simp, by simpa using hd.1, ?_⟩
      have := digitsValue_append_singleton [] (Nat.digitChar (n % 10))
      simp only [List.nil_append, hd.2] at this
      rw [this]
      simp [digitsValue]
      omega
    · obtain ⟨l, hl, hne, hdig, hval⟩ := ih (n / 10) (by omega) (Nat.digitChar (n % 10) :: ds)
      refine ⟨l ++ [Nat.digitChar (n % 10)], by simp [Nat.toDigitsCore, h, hl], by simp, ?_, ?_⟩
      · intro c hc
        rcases List.mem_append.1 hc with hc | hc
        · exact hdig c hc
        · rw [List.mem_singleton.1 hc]; exact hd.1
      · rw [digitsValue_append_singleton, hval, hd.2]
        omega

/-- `Nat.repr n` is a non-empty run of digits whose value is `n`. -/
theorem toList_repr (n : Nat) :
    (Nat.repr n).toList ≠ [] ∧ (∀ c ∈ (Nat.repr n).toList, c.isDigit) ∧ digitsValue (Nat.repr n).toList = n := by
  obtain ⟨l, hl, hne, hdig, hval⟩ := toDigitsCore_ten (n + 1) n (Nat.lt_succ_self n) []
  have : (Nat.repr n).toList = l := by simpa [Nat.repr, Nat.toDigits] using hl
  rw [this]
  exact ⟨hne, hdig, hval⟩

/-- `Atoi`'s syntax check passes a run of digits, unsigned or after a `-`. -/
theorem parseDecimal_digits {l : List Char} (hne : l ≠ []) (hd : ∀ c ∈ l, c.isDigit) :
    parseDecimal ⟨l⟩ = some (digitsValue l) ∧ parseDecimal ⟨'-' :: l⟩ = some (-(digitsValue l : Int)) := by
  obtain ⟨c, l', rfl⟩ := List.exists_cons_of_ne_nil hne
  have hc := hd c (List.mem_cons_self c l')
  have hminus : c ≠ '-' := by rintro rfl; exact absurd hc (by decide)
  have hplus : c ≠ '+' := by rintro rfl; exact absurd hc (by decide)
  have hall : (c :: l').all Char.isDigit = true := List.all_eq_true.2 hd
  constructor
  · simp [parseDecimal, hminus, hplus, hall]
  · simp [parseDecimal, hall]

/-- `Atoi`'s parse reads back every number `Itoa` prints. -/
theorem parseDecimal_itoa (n : Int) : parseDecimal (itoa n) = some n := by
  cases n with
  | ofNat m =>
    obtain ⟨hne, hd, hv⟩ := toList_repr m
    have h := (parseDecimal_digits hne hd).1
    rw [hv] at h
    exact h
  | negSucc m =>
    obtain ⟨hne, hd, hv⟩ := toList_repr (m + 1)
    have h := (parseDecimal_digits hne hd).2
    rw [hv] at h
    exact h

/-- `strconv.ParseInt(strconv.Itoa(n), 10, 64)` is `n` when `n` fits. -/
theorem parseInt_itoa {n : Int} (h0 : -2 ^ 63 ≤ n) (h1 : n < 2 ^ 63) : parseInt (itoa n) = n := by
  rw [parseInt, parseDecimal_itoa]
  simp only
  omega

end GoLabs

import Mathlib.Data.List.GetD
import Mathlib.Data.Nat.Digits

/-! # Base-62 short codes

The URL shortener's `EncodeBase62` writes an `int64` ID in base 62, most significant digit
first, over the digits `base62Chars`: `0` is written `0`, and a negative ID is written as nothing
at all, since its loop `for n > 0` never runs. The loop is Mathlib's `Nat.digits 62` read
backwards (`encodeLoop_toList`). Division and remainder of a positive `int64` by `62` cannot
overflow, so `Int` computes what the code does.

The text says a code can be reverse-mapped back to the original ID; `decodeBase62` is that
reverse mapping, over the three ranges of `base62Chars`. It undoes `EncodeBase62` on every ID
that is not negative (`decodeBase62_encodeBase62`); two IDs share a code exactly when they are
equal or both negative (`encodeBase62_eq_iff`); and the codes of the IDs that are not negative
are exactly the canonical digit strings, `0` or digits not starting with `0`
(`encodeBase62_codes`).
-/

namespace GoLabs.Shortener

/-- `base62Chars`. -/
def base62Chars : String := "0123456789abcdefghijklmnopqrstuvwxyzABCDEFGHIJKLMNOPQRSTUVWXYZ"

/-- `base62Chars[i]` as a character: the table is ASCII, so its `i`-th byte is its `i`-th
    character. The code indexes it only below `62`, so the default is never read. -/
def base62Char (i : Nat) : Char := base62Chars.toList.getD i '0'

/-- The `for n > 0` loop of `EncodeBase62`, from `n` and the `result` built so far. -/
def encodeLoop (n : Int) (result : String) : String :=
  if n > 0 then encodeLoop (n / 62) (String.singleton (base62Char (n % 62).toNat) ++ result) else result
termination_by n.toNat
decreasing_by omega

/-- `EncodeBase62`. -/
def encodeBase62 (n : Int) : String :=
  if n = 0 then String.singleton (base62Char 0) else encodeLoop n ""

/-- The digit a character stands for, by the three ranges of `base62Chars`; `none` for a
    character that is not a digit. -/
def digitValue (c : Char) : Option Nat :=
  if '0' ≤ c ∧ c ≤ '9' then some (c.toNat - '0'.toNat)
  else if 'a' ≤ c ∧ c ≤ 'z' then some (c.toNat - 'a'.toNat + 10)
  else if 'A' ≤ c ∧ c ≤ 'Z' then some (c.toNat - 'A'.toNat + 36)
  else none

/-- The reverse mapping: the ID whose base-62 digits, most significant first, are the code's
    characters, or `none` when one of them is not a digit. -/
def decodeBase62 (s : String) : Option Int :=
  (s.toList.mapM digitValue).map fun ds => ((ds.foldl (fun a d => 62 * a + d) 0 : Nat) : Int)

/-- A canonical code: `0`, or digits of which the first is not `0`. -/
def IsCode (s : String) : Prop :=
  s = "0" ∨ ∃ c cs, s.toList = c :: cs ∧ c ≠ '0' ∧ ∀ x ∈ c :: cs, x ∈ base62Chars.toList

/-! ## The digits -/

theorem length_base62Chars : base62Chars.toList.length = 62 := rfl

/-- The decoder reads each digit of the table back. -/
theorem digitValue_base62Char : ∀ d < 62, digitValue (base62Char d) = some d := by
  decide

theorem base62Char_mem {d : Nat} (h : d < 62) : base62Char d ∈ base62Chars.toList := by
  rw [base62Char, List.getD_eq_getElem _ _ (length_base62Chars ▸ h)]
  exact List.getElem_mem _

theorem base62Char_inj {d e : Nat} (hd : d < 62) (he : e < 62) (h : base62Char d = base62Char e) :
    d = e :=
  Option.some.inj ((digitValue_base62Char d hd).symm.trans (h ▸ digitValue_base62Char e he))

theorem exists_base62Char {c : Char} (hc : c ∈ base62Chars.toList) : ∃ d < 62, base62Char d = c := by
  obtain ⟨i, hi, rfl⟩ := List.getElem_of_mem hc
  exact ⟨i, length_base62Chars ▸ hi, List.getD_eq_getElem _ _ hi⟩

/-- Characters of the table are the digits of some list of digits. -/
theorem exists_digits : ∀ l : List Char, (∀ x ∈ l, x ∈ base62Chars.toList) →
    ∃ ds : List Nat, (∀ d ∈ ds, d < 62) ∧ ds.map base62Char = l
  | [], _ => ⟨[], by simp, rfl⟩
  | c :: l, h => by
    obtain ⟨d, hd, rfl⟩ := exists_base62Char (h c (List.mem_cons_self c l))
    obtain ⟨ds, hds, rfl⟩ := exists_digits l fun x hx => h x (List.mem_cons_of_mem _ hx)
    exact ⟨d :: ds, by simpa [hd] using hds, rfl⟩

theorem mapM_digitValue {ds : List Nat} (h : ∀ d ∈ ds, d < 62) :
    (ds.map base62Char).mapM digitValue = some ds := by
  induction ds with
  | nil => rfl
  | cons d ds ih =>
    rw [List.map_cons, List.mapM_cons, digitValue_base62Char d (h d (List.mem_cons_self d ds)),
      ih fun e he => h e (List.mem_cons_of_mem d he)]
    rfl

/-- Reading digits most significant first is `Nat.ofDigits` of the digits least significant
    first. -/
theorem foldl_reverse_eq_ofDigits (L : List Nat) :
    L.reverse.foldl (fun a d => 62 * a + d) 0 = Nat.ofDigits 62 L := by
  rw [List.foldl_reverse]
  induction L with
  | nil => rfl
  | cons d L ih => rw [List.foldr_cons, ih, Nat.ofDigits_cons]; omega

/-! ## The encoder -/

/-- The loop prepends the base-62 digits of `n`. -/
theorem encodeLoop_toList (n : Int) (result : String) :
    (encodeLoop n result).toList = (Nat.digits 62 n.toNat).reverse.map base62Char ++ result.toList := by
  induction n, result using encodeLoop.induct with
  | case1 n result h ih =>
    have h1 : (n / 62).toNat = n.toNat / 62 := by omega
    have h2 : (n % 62).toNat = n.toNat % 62 := by omega
    rw [encodeLoop, if_pos h, ih, Nat.digits_def' (by norm_num) (by omega : 0 < n.toNat), h1, h2]
    simp [String.singleton]
  | case2 n result h =>
    rw [encodeLoop, if_neg h, show n.toNat = 0 by omega, Nat.digits_zero]
    rfl

/-- The text's example gives `cb` for `125`; the code writes `21` (`cb` is the code of `755`). -/
example : (encodeBase62 125).toList = ['2', '1'] := by
  rw [encodeBase62, if_neg (by decide), encodeLoop_toList, show (125 : Int).toNat = 125 from rfl,
    show Nat.digits 62 125 = [1, 2] by norm_num]
  rfl

/-- The code of an ID that is not negative: the characters of its digits, most significant
    first, none above `61`, and read back to the ID. -/
theorem encodeBase62_digits {n : Int} (h : 0 ≤ n) :
    ∃ ds : List Nat, (encodeBase62 n).toList = ds.map base62Char ∧ ds ≠ [] ∧ (∀ d ∈ ds, d < 62) ∧
      ds.foldl (fun a d => 62 * a + d) 0 = n.toNat := by
  by_cases h0 : n = 0
  · exact ⟨[0], by rw [encodeBase62, if_pos h0]; rfl, List.cons_ne_nil _ _, by simp, by simp [h0]⟩
  · refine ⟨(Nat.digits 62 n.toNat).reverse, ?_, ?_, ?_, ?_⟩
    · rw [encodeBase62, if_neg h0, encodeLoop_toList]
      exact List.append_nil _
    · simpa using Nat.digits_ne_nil_iff_ne_zero.2 (by omega)
    · exact fun d hd => Nat.digits_lt_base (by norm_num) (List.mem_reverse.1 hd)
    · rw [foldl_reverse_eq_ofDigits, Nat.ofDigits_digits]

/-- The reverse mapping undoes `EncodeBase62` on every ID that is not negative. -/
theorem decodeBase62_encodeBase62 (n : Int) (h : 0 ≤ n) : decodeBase62 (encodeBase62 n) = some n := by
  obtain ⟨ds, hs, -, hlt, hv⟩ := encodeBase62_digits h
  rw [decodeBase62, hs, mapM_digitValue hlt, Option.map_some', hv, Int.toNat_of_nonneg h]

theorem decodeBase62_encodeBase62_id125 : 0 ≤ (125 : Int) ∧ decodeBase62 (encodeBase62 125) = some 125 :=
  ⟨by decide, decodeBase62_encodeBase62 125 (by decide)⟩

/-- The most significant digit of a positive number is not `0`. -/
theorem exists_reverse_digits {k : Nat} (hk : k ≠ 0) :
    ∃ d ds, (Nat.digits 62 k).reverse = d :: ds ∧ d ≠ 0 := by
  have hL : Nat.digits 62 k ≠ [] := Nat.digits_ne_nil_iff_ne_zero.2 hk
  refine ⟨_, (Nat.digits 62 k).dropLast.reverse, ?_, Nat.getLast_digit_ne_zero 62 hk⟩
  conv_lhs => rw [← List.dropLast_append_getLast hL]
  simp

/-- The code of an ID that is not negative is canonical. -/
theorem isCode_encodeBase62 {n : Int} (hn : 0 ≤ n) : IsCode (encodeBase62 n) := by
  by_cases h0 : n = 0
  · exact .inl (by rw [encodeBase62, if_pos h0]; rfl)
  obtain ⟨d, ds, hds, hd⟩ := exists_reverse_digits (show n.toNat ≠ 0 by omega)
  have hlt : ∀ e ∈ d :: ds, e < 62 := fun e he =>
    Nat.digits_lt_base (by norm_num) (List.mem_reverse.1 (hds ▸ he))
  refine .inr ⟨base62Char d, ds.map base62Char, ?_, fun h => hd (base62Char_inj (hlt d (List.mem_cons_self d ds))
    (by norm_num) h), ?_⟩
  · rw [encodeBase62, if_neg h0, encodeLoop_toList, hds]
    exact List.append_nil _
  · intro x hx
    obtain ⟨e, he, rfl⟩ := List.mem_map.1 (show x ∈ (d :: ds).map base62Char from hx)
    exact base62Char_mem (hlt e he)

/-- A canonical code is the code of the number its digits spell. -/
theorem exists_encodeBase62_of_isCode {s : String} (h : IsCode s) : ∃ n, 0 ≤ n ∧ encodeBase62 n = s := by
  rcases h with rfl | ⟨c, cs, hs, hc, hmem⟩
  · exact ⟨0, le_rfl, rfl⟩
  obtain ⟨ds, hlt, hmap⟩ := exists_digits (c :: cs) hmem
  obtain ⟨d, ds, rfl⟩ := List.exists_cons_of_ne_nil (show ds ≠ [] by rintro rfl; cases hmap)
  have hd : d ≠ 0 := by
    rintro rfl
    exact hc (List.cons.inj hmap).1.symm
  have hdig : Nat.digits 62 (Nat.ofDigits 62 (d :: ds).reverse) = (d :: ds).reverse :=
    Nat.digits_ofDigits 62 (by norm_num) _ (fun e he => hlt e (List.mem_reverse.1 he))
      (fun _ => by rwa [List.getLast_reverse])
  have hN : Nat.ofDigits 62 (d :: ds).reverse ≠ 0 := by
    intro h
    rw [h, Nat.digits_zero] at hdig
    exact List.cons_ne_nil d ds (List.reverse_eq_nil_iff.1 hdig.symm)
  refine ⟨((Nat.ofDigits 62 (d :: ds).reverse : Nat) : Int), by omega, String.ext ?_⟩
  show (encodeBase62 _).toList = s.toList
  rw [encodeBase62, if_neg (by omega), encodeLoop_toList, Int.toNat_natCast, hdig, List.reverse_reverse,
    hmap, hs]
  exact List.append_nil _

/-- The codes of the IDs that are not negative are exactly the canonical digit strings. -/
theorem encodeBase62_codes (s : String) : (∃ n, 0 ≤ n ∧ encodeBase62 n = s) ↔ IsCode s :=
  ⟨fun ⟨_, hn, h⟩ => h ▸ isCode_encodeBase62 hn, exists_encodeBase62_of_isCode⟩

end GoLabs.Shortener

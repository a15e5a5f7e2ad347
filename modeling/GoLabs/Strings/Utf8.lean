import Mathlib.Data.List.Basic

/-! # UTF-8 decoding as Go's `unicode/utf8` does it

A Go string is a sequence of bytes, modelled as `List UInt8`; nothing requires it to be
valid UTF-8. `decodeRuneInString` is the forward decoder `for range` loops use, with the
`first` and `acceptRanges` tables; `decodeLastRuneInString` the backward one
`strings.TrimRightFunc` uses. An invalid sequence decodes as `RuneError` of width one.

`decodeAll` cuts a string into the runes a `for range` loop visits, each with its bytes.
The backward decoder, run on a prefix that ends where such a rune ends, returns that
rune (`decodeLastRuneInString_eq`): so a scan from the end sees the same runes as the
forward loop, invalid bytes included.
-/

namespace GoLabs.Utf8

/-! ## The decoder -/

/-- `utf8.RuneError`, U+FFFD. -/
def runeError : Nat := 0xFFFD

/-- `utf8.RuneSelf`: a byte below it is a rune by itself. -/
def runeSelf : UInt8 := 0x80

/-- `utf8.UTFMax`. -/
def utfMax : Nat := 4

/-- The range of a continuation byte. -/
def locb : UInt8 := 0x80
def hicb : UInt8 := 0xBF

/-- The codes of the `first` table: the high nibble indexes `acceptRanges`, the low one
    is the size of the sequence; `as` marks an ASCII byte, `xx` an invalid one. -/
def xx : UInt8 := 0xF1
def as : UInt8 := 0xF0
def s1 : UInt8 := 0x02
def s2 : UInt8 := 0x13
def s3 : UInt8 := 0x03
def s4 : UInt8 := 0x23
def s5 : UInt8 := 0x34
def s6 : UInt8 := 0x04
def s7 : UInt8 := 0x44

def maskx : UInt8 := 0x3F
def mask2 : UInt8 := 0x1F
def mask3 : UInt8 := 0x0F
def mask4 : UInt8 := 0x07

/-- The table `first`, by its ranges of bytes. -/
def first (b : UInt8) : UInt8 :=
  if b < 0x80 then as
  else if b < 0xC2 then xx
  else if b < 0xE0 then s1
  else if b = 0xE0 then s2
  else if b < 0xED then s3
  else if b = 0xED then s4
  else if b < 0xF0 then s3
  else if b = 0xF0 then s5
  else if b < 0xF4 then s6
  else if b = 0xF4 then s7
  else xx

/-- The table `acceptRanges`: the range of the second byte; entries past `4` are zero. -/
def acceptRanges (i : UInt8) : UInt8 × UInt8 :=
  match i.toNat with
  | 0 => (locb, hicb)
  | 1 => (0xA0, hicb)
  | 2 => (locb, 0x9F)
  | 3 => (0x90, hicb)
  | 4 => (locb, 0x8F)
  | _ => (0, 0)

/-- `utf8.RuneStart`: the byte is not a continuation byte. -/
def runeStart (b : UInt8) : Bool := b &&& 0xC0 != 0x80

/-- `utf8.DecodeRuneInString`: the first rune of `s` and its width. `s.getD i 0` is
    `s[i]`, read only once the length check has passed. -/
def decodeRuneInString (s : List UInt8) : Nat × Nat :=
  match s with
  | [] => (runeError, 0)
  | s0 :: _ =>
    let x := first s0
    if as ≤ x then
      -- `rune(s[0])&^mask | RuneError&mask`: `mask` is all ones exactly when `x` is `xx`
      (if x = xx then runeError else s0.toNat, 1)
    else
    let sz := (x &&& 7).toNat
    let accept := acceptRanges (x >>> 4)
    if s.length < sz then (runeError, 1) else
    let b1 := s.getD 1 0
    if b1 < accept.1 || accept.2 < b1 then (runeError, 1) else
    if sz ≤ 2 then ((s0 &&& mask2).toNat <<< 6 ||| (b1 &&& maskx).toNat, 2) else
    let b2 := s.getD 2 0
    if b2 < locb || hicb < b2 then (runeError, 1) else
    if sz ≤ 3 then
      ((s0 &&& mask3).toNat <<< 12 ||| (b1 &&& maskx).toNat <<< 6 ||| (b2 &&& maskx).toNat, 3)
    else
    let b3 := s.getD 3 0
    if b3 < locb || hicb < b3 then (runeError, 1) else
    ((s0 &&& mask4).toNat <<< 18 ||| (b1 &&& maskx).toNat <<< 12 |||
      (b2 &&& maskx).toNat <<< 6 ||| (b3 &&& maskx).toNat, 4)

example : decodeRuneInString [0xE2, 0x80, 0x80, 0x41] = (0x2000, 3) := by decide
example : decodeRuneInString [0xE2, 0x80, 0x41] = (runeError, 1) := by decide

/-- The loop of `DecodeLastRuneInString` that looks back for a rune start: called with
    `start + 1`, it returns where it stops, `lim - 1` when it finds none. -/
def findStart (s : List UInt8) (lim : Nat) : Nat → Int
  | 0 => -1
  | i + 1 =>
    if i < lim then i
    else if runeStart (s.getD i 0) then i
    else findStart s lim i

/-- `utf8.DecodeLastRuneInString`: the last rune of `s` and its width. -/
def decodeLastRuneInString (s : List UInt8) : Nat × Nat :=
  match s.getLast? with
  | none => (runeError, 0)
  | some last =>
    if last < runeSelf then (last.toNat, 1) else
    let e := s.length
    -- `lim := end - UTFMax`, raised to `0`
    let start := max (findStart s (e - utfMax) (e - 1)) 0
    let (r, size) := decodeRuneInString (s.drop start.toNat)
    if start + size ≠ e then (runeError, 1) else (r, size)

/-- The bytes of a Go string that holds the text `s`: its UTF-8 encoding. -/
def utf8Bytes (s : String) : List UInt8 := s.data.flatMap String.utf8EncodeChar

theorem utf8Bytes_eq_toUTF8 (s : String) : utf8Bytes s = s.toUTF8.data.toList := rfl

/-- The width of the first rune. -/
def width (s : List UInt8) : Nat := (decodeRuneInString s).2

/-! ## Bytes -/

theorem lt_iff_toNat {a b : UInt8} : a < b ↔ a.toNat < b.toNat := Iff.rfl

theorem le_iff_toNat {a b : UInt8} : a ≤ b ↔ a.toNat ≤ b.toNat := Iff.rfl

theorem ofNat_toNat (b : UInt8) : UInt8.ofNat b.toNat = b :=
  UInt8.toNat.inj (UInt8.toNat_ofNat_of_lt b.toNat_lt_size)

/-- A fact of every byte, from a check of the numbers below `256`. -/
theorem forall_byte {P : UInt8 → Prop} (h : ∀ n < 256, P (UInt8.ofNat n)) (b : UInt8) : P b :=
  ofNat_toNat b ▸ h b.toNat b.toNat_lt_size

set_option maxRecDepth 4000 in
/-- A continuation byte is one of `0x80`–`0xBF`. -/
theorem runeStart_eq (b : UInt8) : runeStart b = !(0x80 ≤ b.toNat && b.toNat ≤ 0xBF) :=
  @forall_byte (fun b => runeStart b = !(0x80 ≤ b.toNat && b.toNat ≤ 0xBF)) (by decide) b

set_option maxRecDepth 4000 in
/-- What `first` says of a byte: ASCII, invalid as a first byte, or the lead of a
    sequence of two to four bytes whose second byte lies among the continuation bytes. -/
theorem first_cases (b : UInt8) :
    b.toNat < 0x80 ∧ first b = as ∨ 0x80 ≤ b.toNat ∧ first b = xx ∨
      0xC2 ≤ b.toNat ∧ ¬as ≤ first b ∧ 2 ≤ (first b &&& 7).toNat ∧ (first b &&& 7).toNat ≤ 4 ∧
        0x80 ≤ (acceptRanges (first b >>> 4)).1.toNat ∧
        (acceptRanges (first b >>> 4)).2.toNat ≤ 0xBF :=
  @forall_byte (fun b => b.toNat < 0x80 ∧ first b = as ∨ 0x80 ≤ b.toNat ∧ first b = xx ∨
      0xC2 ≤ b.toNat ∧ ¬as ≤ first b ∧ 2 ≤ (first b &&& 7).toNat ∧ (first b &&& 7).toNat ≤ 4 ∧
        0x80 ≤ (acceptRanges (first b >>> 4)).1.toNat ∧
        (acceptRanges (first b >>> 4)).2.toNat ≤ 0xBF) (by decide) b

theorem runeStart_of_lt {b : UInt8} (h : b.toNat < 0x80) : runeStart b := by
  simp [runeStart_eq]; omega

/-- A byte that passes a range check within `0x80`–`0xBF` is a continuation byte. -/
theorem not_runeStart_of_range {b lo hi : UInt8} (hlo : 0x80 ≤ lo.toNat) (hhi : hi.toNat ≤ 0xBF)
    (h : ¬(b < lo ∨ hi < b)) : runeStart b = false := by
  simp only [lt_iff_toNat, not_or, Nat.not_lt] at h
  simp [runeStart_eq]; omega

theorem not_runeStart_of_cont {b : UInt8} (h : ¬(b < locb ∨ hicb < b)) : runeStart b = false :=
  not_runeStart_of_range (by decide) (by decide) h

/-! ## What one decoding step does -/

/-- A lead byte either fails and decodes as `RuneError` of width one, or decodes its whole
    sequence: two to four bytes, all there, the ones after the lead continuation bytes. -/
theorem decode_lead {s0 : UInt8} (rest : List UInt8) (hf : ¬as ≤ first s0)
    (hsz : 2 ≤ (first s0 &&& 7).toNat) (hlo : 0x80 ≤ (acceptRanges (first s0 >>> 4)).1.toNat)
    (hhi : (acceptRanges (first s0 >>> 4)).2.toNat ≤ 0xBF) :
    decodeRuneInString (s0 :: rest) = (runeError, 1) ∨
      2 ≤ width (s0 :: rest) ∧ width (s0 :: rest) ≤ utfMax ∧
        width (s0 :: rest) ≤ rest.length + 1 ∧
        ∀ j, 1 ≤ j → j < width (s0 :: rest) → runeStart ((s0 :: rest).getD j 0) = false := by
  simp only [width, decodeRuneInString, hf, if_false, Bool.or_eq_true, decide_eq_true_eq]
  generalize (first s0 &&& 7).toNat = sz at hsz ⊢
  generalize acceptRanges (first s0 >>> 4) = acc at hlo hhi ⊢
  by_cases h0 : (s0 :: rest).length < sz
  · rw [if_pos h0]; exact .inl rfl
  rw [if_neg h0]
  simp only [List.length_cons, Nat.not_lt] at h0
  by_cases h1 : (s0 :: rest).getD 1 0 < acc.1 ∨ acc.2 < (s0 :: rest).getD 1 0
  · rw [if_pos h1]; exact .inl rfl
  rw [if_neg h1]
  have c1 := not_runeStart_of_range hlo hhi h1
  by_cases h2 : sz ≤ 2
  · rw [if_pos h2]
    refine .inr ⟨le_refl _, show 2 ≤ utfMax by decide, show 2 ≤ rest.length + 1 by omega, fun j hj1 hj2 => ?_⟩
    obtain rfl : j = 1 := by omega
    exact c1
  rw [if_neg h2]
  by_cases h3 : (s0 :: rest).getD 2 0 < locb ∨ hicb < (s0 :: rest).getD 2 0
  · rw [if_pos h3]; exact .inl rfl
  rw [if_neg h3]
  have c2 := not_runeStart_of_cont h3
  by_cases h4 : sz ≤ 3
  · rw [if_pos h4]
    refine .inr ⟨show 2 ≤ 3 by omega, show 3 ≤ utfMax by decide, show 3 ≤ rest.length + 1 by omega, fun j hj1 hj2 => ?_⟩
    obtain rfl | rfl : j = 1 ∨ j = 2 := by omega
    exacts [c1, c2]
  rw [if_neg h4]
  by_cases h5 : (s0 :: rest).getD 3 0 < locb ∨ hicb < (s0 :: rest).getD 3 0
  · rw [if_pos h5]; exact .inl rfl
  rw [if_neg h5]
  have c3 := not_runeStart_of_cont h5
  refine .inr ⟨show 2 ≤ 4 by omega, le_refl _, show 4 ≤ rest.length + 1 by omega, fun j hj1 hj2 => ?_⟩
  obtain rfl | rfl | rfl : j = 1 ∨ j = 2 ∨ j = 3 := by omega
  exacts [c1, c2, c3]

/-- The first rune of a non-empty string: an ASCII byte, `RuneError` of width one on a
    byte that is not ASCII, or a sequence of two to four bytes, all there, led by a rune
    start that is not ASCII and followed by continuation bytes. -/
theorem decode_cons_cases (s0 : UInt8) (rest : List UInt8) :
    s0.toNat < 0x80 ∧ decodeRuneInString (s0 :: rest) = (s0.toNat, 1) ∨
      0x80 ≤ s0.toNat ∧ decodeRuneInString (s0 :: rest) = (runeError, 1) ∨
      0x80 ≤ s0.toNat ∧ runeStart s0 ∧ 2 ≤ width (s0 :: rest) ∧ width (s0 :: rest) ≤ utfMax ∧
        width (s0 :: rest) ≤ rest.length + 1 ∧
        ∀ j, 1 ≤ j → j < width (s0 :: rest) → runeStart ((s0 :: rest).getD j 0) = false := by
  rcases first_cases s0 with ⟨h, hf⟩ | ⟨h, hf⟩ | ⟨h, hf, hsz, -, hlo, hhi⟩
  · exact .inl ⟨h, by simp [decodeRuneInString, hf, as, xx]⟩
  · exact .inr (.inl ⟨h, by simp [decodeRuneInString, hf, as, xx]⟩)
  · rcases decode_lead rest hf hsz hlo hhi with he | ⟨h2, h4, hw, hc⟩
    · exact .inr (.inl ⟨by omega, he⟩)
    · exact .inr (.inr ⟨by omega, by simp [runeStart_eq]; omega, h2, h4, hw, hc⟩)

theorem decode_ascii {b : UInt8} (hb : b.toNat < 0x80) (t : List UInt8) :
    decodeRuneInString (b :: t) = (b.toNat, 1) := by
  rcases decode_cons_cases b t with ⟨-, h⟩ | ⟨h, -⟩ | ⟨h, -⟩ <;> first | exact h | omega

theorem width_cons_pos (s0 : UInt8) (rest : List UInt8) : 0 < width (s0 :: rest) := by
  rcases decode_cons_cases s0 rest with ⟨-, h⟩ | ⟨-, h⟩ | ⟨-, -, h, -⟩
  · simp [width, h]
  · simp [width, h]
  · omega

theorem width_le_length (s : List UInt8) : width s ≤ s.length := by
  cases s with
  | nil => rfl
  | cons s0 rest =>
    rcases decode_cons_cases s0 rest with ⟨-, h⟩ | ⟨-, h⟩ | ⟨-, -, -, -, h, -⟩
    · simp [width, h]
    · simp [width, h]
    · simpa using h

/-- A successful decoding depends only on the bytes it decoded. -/
theorem decode_congr {s t : List UInt8} {r w : Nat} (hs : decodeRuneInString s = (r, w))
    (hw : 2 ≤ w) (ht : t.take w = s.take w) : decodeRuneInString t = (r, w) := by
  have hsl : w ≤ s.length := by simpa [width, hs] using width_le_length s
  have htl : w ≤ t.length := by
    have := congrArg List.length ht; simp only [List.length_take] at this; omega
  have hget : ∀ j < w, t.getD j 0 = s.getD j 0 := fun j hj => by
    rw [List.getD_eq_getElem?_getD, List.getD_eq_getElem?_getD, ← List.getElem?_take_of_lt hj,
      ht, List.getElem?_take_of_lt hj]
  obtain ⟨s0, rest, rfl⟩ : ∃ s0 rest, s = s0 :: rest := List.exists_cons_of_ne_nil (by
    rintro rfl; simp at hsl; omega)
  obtain ⟨t0, rest', rfl⟩ : ∃ t0 rest', t = t0 :: rest' := List.exists_cons_of_ne_nil (by
    rintro rfl; simp at htl; omega)
  obtain rfl : s0 = t0 := (hget 0 (by omega)).symm
  rcases first_cases s0 with ⟨-, hf⟩ | ⟨-, hf⟩ | ⟨-, hf, -, hsz4, -, -⟩
  · simp [decodeRuneInString, hf, as, xx] at hs; omega
  · simp [decodeRuneInString, hf, as, xx] at hs; omega
  simp only [decodeRuneInString, hf, if_false, Bool.or_eq_true, decide_eq_true_eq] at hs ⊢
  generalize (first s0 &&& 7).toNat = sz at hsz4 hs ⊢
  generalize acceptRanges (first s0 >>> 4) = acc at hs ⊢
  by_cases h0 : (s0 :: rest).length < sz
  · rw [if_pos h0] at hs; cases hs; omega
  rw [if_neg h0] at hs
  by_cases h1 : (s0 :: rest).getD 1 0 < acc.1 ∨ acc.2 < (s0 :: rest).getD 1 0
  · rw [if_pos h1] at hs; cases hs; omega
  rw [if_neg h1] at hs
  by_cases h2 : sz ≤ 2
  · rw [if_pos h2] at hs; cases hs
    rw [if_neg (by omega), hget 1 (by omega), if_neg h1, if_pos h2]
  rw [if_neg h2] at hs
  by_cases h3 : (s0 :: rest).getD 2 0 < locb ∨ hicb < (s0 :: rest).getD 2 0
  · rw [if_pos h3] at hs; cases hs; omega
  rw [if_neg h3] at hs
  by_cases h4 : sz ≤ 3
  · rw [if_pos h4] at hs; cases hs
    rw [if_neg (by omega), hget 1 (by omega), if_neg h1, if_neg h2, hget 2 (by omega), if_neg h3,
      if_pos h4]
  rw [if_neg h4] at hs
  by_cases h5 : (s0 :: rest).getD 3 0 < locb ∨ hicb < (s0 :: rest).getD 3 0
  · rw [if_pos h5] at hs; cases hs; omega
  rw [if_neg h5] at hs
  cases hs
  rw [if_neg (by omega), hget 1 (by omega), if_neg h1, if_neg h2, hget 2 (by omega), if_neg h3,
    if_neg h4, hget 3 (by omega), if_neg h5]

/-- Decoding a prefix that holds the first rune's bytes decodes that rune. -/
theorem decode_take {s : List UInt8} {n : Nat} (hn : width s ≤ n) :
    decodeRuneInString (s.take n) = decodeRuneInString s := by
  cases s with
  | nil => simp
  | cons s0 rest =>
    obtain ⟨m, rfl⟩ : ∃ m, n = m + 1 := ⟨n - 1, by have := width_cons_pos s0 rest; omega⟩
    rcases decode_cons_cases s0 rest with ⟨h, he⟩ | ⟨h, he⟩ | ⟨-, -, h2, -, -⟩
    · rw [he, List.take_succ_cons, decode_ascii h]
    · -- a prefix of an invalid sequence is invalid: were it valid, so would the sequence be
      rw [he, List.take_succ_cons]
      rcases decode_cons_cases s0 (rest.take m) with ⟨h', -⟩ | ⟨-, he'⟩ | ⟨-, -, h2', -, hw', -⟩
      · omega
      · exact he'
      · have hle : width (s0 :: rest.take m) ≤ m + 1 := by
          have := List.length_take_le m rest; omega
        have hs' : decodeRuneInString (s0 :: rest.take m) =
            ((decodeRuneInString (s0 :: rest.take m)).1, width (s0 :: rest.take m)) := rfl
        generalize width (s0 :: rest.take m) = w' at hs' h2' hle
        have ht : (s0 :: rest).take w' = (s0 :: rest.take m).take w' := by
          rw [← List.take_succ_cons, List.take_take, Nat.min_eq_left hle]
        have hd := decode_congr hs' h2' ht
        rw [he, Prod.mk.injEq] at hd
        omega
    · have hs : decodeRuneInString (s0 :: rest) =
          ((decodeRuneInString (s0 :: rest)).1, width (s0 :: rest)) := rfl
      generalize width (s0 :: rest) = w at hs h2 hn
      rw [hs]
      exact decode_congr hs h2 (by rw [List.take_take, Nat.min_eq_left hn])

/-! ## The runes of a string -/

/-- A rune as a `for range` loop visits it: its value and its bytes. -/
abbrev Chunk := Nat × List UInt8

/-- The bytes of a sequence of runes. -/
def bytes (rs : List Chunk) : List UInt8 := (rs.map Prod.snd).flatten

/-- The runes a `for range` loop visits in `s`, in order: each step decodes one rune and
    moves on by its width. The fuel, `len(s)`, never runs out first. -/
def decodeAll (s : List UInt8) : List Chunk := go s.length s
where
  go : Nat → List UInt8 → List Chunk
    | 0, _ => []
    | _ + 1, [] => []
    | fuel + 1, s0 :: rest =>
      ((decodeRuneInString (s0 :: rest)).1, (s0 :: rest).take (width (s0 :: rest))) ::
        go fuel ((s0 :: rest).drop (width (s0 :: rest)))

@[simp] theorem bytes_nil : bytes [] = [] := rfl

@[simp] theorem bytes_cons (c : Chunk) (rs : List Chunk) : bytes (c :: rs) = c.2 ++ bytes rs :=
  rfl

theorem bytes_append (rs qs : List Chunk) : bytes (rs ++ qs) = bytes rs ++ bytes qs := by
  simp [bytes]

theorem bytes_take_prefix (rs : List Chunk) (k : Nat) : bytes (rs.take k) <+: bytes rs :=
  ⟨bytes (rs.drop k), by rw [← bytes_append, List.take_append_drop]⟩

theorem length_drop_width_lt {s : List UInt8} (hs : s ≠ []) :
    (s.drop (width s)).length < s.length := by
  obtain ⟨s0, rest, rfl⟩ := List.exists_cons_of_ne_nil hs
  have := width_cons_pos s0 rest
  simp only [List.length_drop, List.length_cons]; omega

theorem decodeAll_go_eq {s : List UInt8} {m n : Nat} (hm : s.length ≤ m) (hn : s.length ≤ n) :
    decodeAll.go m s = decodeAll.go n s := by
  induction m generalizing s n with
  | zero => cases s with
    | nil => cases n <;> rfl
    | cons => simp at hm
  | succ m ih => cases s with
    | nil => cases n <;> rfl
    | cons s0 rest =>
      obtain ⟨n, rfl⟩ : ∃ k, n = k + 1 := ⟨n - 1, by simp at hn; omega⟩
      have := length_drop_width_lt (List.cons_ne_nil s0 rest)
      simp only [decodeAll.go]
      rw [@ih _ n (by omega) (by omega)]

@[simp] theorem decodeAll_nil : decodeAll [] = [] := rfl

/-- One turn of the loop. -/
theorem decodeAll_eq_cons {s : List UInt8} (hs : s ≠ []) :
    decodeAll s = ((decodeRuneInString s).1, s.take (width s)) :: decodeAll (s.drop (width s)) := by
  obtain ⟨s0, rest, rfl⟩ := List.exists_cons_of_ne_nil hs
  have := length_drop_width_lt hs
  simp only [decodeAll, decodeAll.go, List.length_cons]
  exact congrArg (_ :: ·) (decodeAll_go_eq (by simp at this ⊢; omega) le_rfl)

/-- Induction along the loop: from the rest after the first rune to the whole string. -/
@[elab_as_elim]
theorem decodeAll_induction {motive : List UInt8 → Prop} (nil : motive [])
    (cons : ∀ s, s ≠ [] → motive (s.drop (width s)) → motive s) (s : List UInt8) : motive s :=
  if hs : s = [] then hs ▸ nil else cons s hs (decodeAll_induction nil cons _)
termination_by s.length
decreasing_by exact length_drop_width_lt hs

/-- The runes' bytes are the string's. -/
theorem bytes_decodeAll (s : List UInt8) : bytes (decodeAll s) = s := by
  induction s using decodeAll_induction with
  | nil => rfl
  | cons s hs ih => rw [decodeAll_eq_cons hs, bytes_cons, ih, List.take_append_drop]

theorem decodeAll_eq_nil {s : List UInt8} : decodeAll s = [] ↔ s = [] := by
  refine ⟨fun h => ?_, fun h => h ▸ rfl⟩
  rw [← bytes_decodeAll s, h, bytes_nil]

/-- Each rune's bytes, on their own, decode to that rune and its whole width. -/
theorem decode_of_mem_decodeAll {s : List UInt8} {c : Chunk} (hc : c ∈ decodeAll s) :
    decodeRuneInString c.2 = (c.1, c.2.length) ∧ c.2 ≠ [] := by
  induction s using decodeAll_induction with
  | nil => simp at hc
  | cons s hs ih =>
    rw [decodeAll_eq_cons hs, List.mem_cons] at hc
    rcases hc with rfl | hc
    · obtain ⟨s0, rest, rfl⟩ := List.exists_cons_of_ne_nil hs
      have hw := width_le_length (s0 :: rest)
      have hp := width_cons_pos s0 rest
      refine ⟨?_, List.ne_nil_of_length_pos (by rw [List.length_take]; omega)⟩
      rw [decode_take le_rfl, List.length_take, Nat.min_eq_left hw]
      rfl
    · exact ih hc

/-- From where a rune begins, the loop visits the remaining runes. -/
theorem decodeAll_bytes_drop (s : List UInt8) (k : Nat) :
    decodeAll (bytes ((decodeAll s).drop k)) = (decodeAll s).drop k := by
  induction k generalizing s with
  | zero => rw [List.drop_zero, bytes_decodeAll]
  | succ k ih =>
    rcases eq_or_ne s [] with rfl | hs
    · rfl
    rw [decodeAll_eq_cons hs, List.drop_succ_cons, ih]

/-- The first rune, then anything that can follow it in the string. -/
theorem decodeAll_take_width_append {s v : List UInt8} (hs : s ≠ [])
    (hv : v <+: s.drop (width s)) :
    decodeAll (s.take (width s) ++ v) =
      ((decodeRuneInString s).1, s.take (width s)) :: decodeAll v := by
  rw [List.prefix_iff_eq_take] at hv
  generalize v.length = n at hv
  subst hv
  have hu : s.take (width s) ++ (s.drop (width s)).take n = s.take (width s + n) :=
    (List.take_add s _ n).symm
  have hd : decodeRuneInString (s.take (width s + n)) = decodeRuneInString s :=
    decode_take (Nat.le_add_right _ n)
  have hw : width (s.take (width s + n)) = width s := congrArg Prod.snd hd
  have hne : s.take (width s + n) ≠ [] := by
    obtain ⟨s0, rest, rfl⟩ := List.exists_cons_of_ne_nil hs
    have := width_cons_pos s0 rest
    exact List.ne_nil_of_length_pos (by simp only [List.length_take, List.length_cons]; omega)
  rw [hu, decodeAll_eq_cons hne, hd, hw, List.take_take, Nat.min_eq_left (Nat.le_add_right _ n),
    List.drop_take, Nat.add_sub_cancel_left]

/-- Up to where a rune ends, the loop visits the runes before it. -/
theorem decodeAll_bytes_take (s : List UInt8) (k : Nat) :
    decodeAll (bytes ((decodeAll s).take k)) = (decodeAll s).take k := by
  induction k generalizing s with
  | zero => rfl
  | succ k ih =>
    rcases eq_or_ne s [] with rfl | hs
    · rfl
    have hv := bytes_take_prefix (decodeAll (s.drop (width s))) k
    rw [bytes_decodeAll] at hv
    rw [decodeAll_eq_cons hs, List.take_succ_cons, bytes_cons, decodeAll_take_width_append hs hv,
      ih]

theorem getD_drop (l : List UInt8) (n i : Nat) : (l.drop n).getD i 0 = l.getD (n + i) 0 := by
  simp [List.getD_eq_getElem?_getD, List.getElem?_drop]

theorem getD_append_right (p t : List UInt8) (j : Nat) :
    (p ++ t).getD (p.length + j) 0 = t.getD j 0 := by
  simp [List.getD_eq_getElem?_getD, List.getElem?_append_right]

theorem getLast?_append_of_ne_nil (p : List UInt8) {t : List UInt8} (ht : t ≠ []) :
    (p ++ t).getLast? = some (t.getD (t.length - 1) 0) := by
  have := List.length_pos.mpr ht
  rw [List.getLast?_append, List.getLast?_eq_getElem?, List.getD_eq_getElem?_getD,
    List.getElem?_eq_getElem (by omega)]
  rfl

/-- A rune start in the string is where one of its runes begins: no rune's bytes run over
    a rune start, as an invalid sequence decodes one byte at a time. -/
theorem exists_drop_of_runeStart {s : List UInt8} {q : Nat} (hq : q < s.length)
    (hst : runeStart (s.getD q 0)) : ∃ k, bytes ((decodeAll s).drop k) = s.drop q := by
  induction s using decodeAll_induction generalizing q with
  | nil => simp at hq
  | cons s hs ih =>
    rcases Nat.eq_zero_or_pos q with rfl | hq0
    · exact ⟨0, by rw [List.drop_zero, List.drop_zero, bytes_decodeAll]⟩
    obtain ⟨s0, rest, rfl⟩ := List.exists_cons_of_ne_nil hs
    by_cases hqw : q < width (s0 :: rest)
    · rcases decode_cons_cases s0 rest with ⟨-, h⟩ | ⟨-, h⟩ | ⟨-, -, -, -, -, hc⟩
      · simp [width, h] at hqw; omega
      · simp [width, h] at hqw; omega
      · rw [hc q hq0 hqw] at hst; exact absurd hst (by decide)
    · have hget := getD_drop (s0 :: rest) (width (s0 :: rest)) (q - width (s0 :: rest))
      rw [Nat.add_sub_cancel' (by omega)] at hget
      obtain ⟨k, hk⟩ := @ih (q - width (s0 :: rest)) (by simp only [List.length_drop]; omega)
        (hget ▸ hst)
      refine ⟨k + 1, ?_⟩
      rw [decodeAll_eq_cons hs, List.drop_succ_cons, hk, List.drop_drop,
        Nat.add_sub_cancel' (by omega)]

/-- A string followed by one that begins with a rune start decodes as the two one after
    the other. -/
theorem decodeAll_append {x y : List UInt8} (hy : ∀ b ∈ y.head?, runeStart b) :
    decodeAll (x ++ y) = decodeAll x ++ decodeAll y := by
  rcases y with _ | ⟨b, y⟩
  · simp
  have hst : runeStart ((x ++ b :: y).getD x.length 0) := by
    rw [← Nat.add_zero x.length, getD_append_right]; exact hy b rfl
  obtain ⟨k, hk⟩ := exists_drop_of_runeStart (by simp) hst
  rw [List.drop_left] at hk
  have hx : bytes ((decodeAll (x ++ b :: y)).take k) = x := by
    have := bytes_decodeAll (x ++ b :: y)
    rw [← List.take_append_drop k (decodeAll (x ++ b :: y)), bytes_append, hk] at this
    exact List.append_cancel_right this
  calc decodeAll (x ++ b :: y)
      = (decodeAll (x ++ b :: y)).take k ++ (decodeAll (x ++ b :: y)).drop k :=
        (List.take_append_drop _ _).symm
    _ = decodeAll x ++ decodeAll (b :: y) := by
        rw [← decodeAll_bytes_take, ← decodeAll_bytes_drop, hx, hk]

/-- An ASCII byte is a rune of its own. -/
theorem decodeAll_ascii_cons {b : UInt8} (hb : b.toNat < 0x80) (t : List UInt8) :
    decodeAll (b :: t) = (b.toNat, [b]) :: decodeAll t := by
  have hw : width (b :: t) = 1 := by simp [width, decode_ascii hb]
  rw [decodeAll_eq_cons (List.cons_ne_nil b t), hw, decode_ascii hb]
  rfl

theorem decodeAll_of_ascii {s : List UInt8} (h : ∀ b ∈ s, b.toNat < 0x80) :
    decodeAll s = s.map fun b => (b.toNat, [b]) := by
  induction s with
  | nil => rfl
  | cons b t ih =>
    rw [decodeAll_ascii_cons (h b (List.mem_cons_self b t)),
      ih fun x hx => h x (List.mem_cons_of_mem b hx), List.map_cons]

theorem length_decodeAll_le (s : List UInt8) : (decodeAll s).length ≤ s.length := by
  induction s using decodeAll_induction with
  | nil => rfl
  | cons s hs ih =>
    have := length_drop_width_lt hs
    rw [decodeAll_eq_cons hs, List.length_cons]
    omega

/-- The width of a rune of the loop, decoded from where it begins, is its byte count. -/
theorem width_drop_bytes {s : List UInt8} {A T : List Chunk} {c : Chunk}
    (h : decodeAll s = A ++ c :: T) : width (s.drop (bytes A).length) = c.2.length := by
  have hd := decodeAll_bytes_drop s A.length
  rw [h, List.drop_left] at hd
  have hs : s.drop (bytes A).length = bytes (c :: T) := by
    rw [← bytes_decodeAll s, h, bytes_append, List.drop_left]
  have hne : bytes (c :: T) ≠ [] := by
    have := (decode_of_mem_decodeAll (show c ∈ decodeAll s by simp [h])).2
    simp [bytes_cons, this]
  rw [hs]
  rw [decodeAll_eq_cons hne, List.cons.injEq, Prod.mk.injEq] at hd
  have := congrArg List.length hd.1.2
  have := width_le_length (bytes (c :: T))
  rw [List.length_take] at *
  omega

/-! ## Decoding backwards -/

theorem findStart_lt (s : List UInt8) (lim i : Nat) : findStart s lim i < i := by
  induction i with
  | zero => simp [findStart]
  | succ i ih =>
    simp only [findStart]
    split_ifs <;> omega

/-- The loop stops at the last rune start before `i`, when it lies within the limit. -/
theorem findStart_eq {s : List UInt8} {lim q i : Nat} (hq : q < i) (hlim : lim ≤ q)
    (hst : runeStart (s.getD q 0))
    (hcont : ∀ j, q < j → j < i → runeStart (s.getD j 0) = false) : findStart s lim i = q := by
  induction i with
  | zero => omega
  | succ i ih =>
    rw [findStart, if_neg (by omega)]
    rcases Nat.lt_succ_iff_lt_or_eq.mp hq with hlt | rfl
    · rw [if_neg (by rw [hcont i hlt (by omega)]; decide),
        ih hlt fun j h1 h2 => hcont j h1 (by omega)]
    · rw [if_pos hst]

/-- Past its ASCII check, `DecodeLastRuneInString` decodes from where its loop stopped
    and keeps the rune only if that rune reaches the end. -/
theorem decodeLastRuneInString_of_not_ascii {s : List UInt8} {last : UInt8}
    (hlast : s.getLast? = some last) (hl : ¬last < runeSelf) {q : Nat}
    (hq : (max (findStart s (s.length - utfMax) (s.length - 1)) 0).toNat = q) :
    decodeLastRuneInString s =
      if q + width (s.drop q) = s.length then decodeRuneInString (s.drop q)
      else (runeError, 1) := by
  have hq' : max (findStart s (s.length - utfMax) (s.length - 1)) 0 = q := by omega
  simp only [decodeLastRuneInString, hlast, if_neg hl, hq', Int.toNat_ofNat, width]
  by_cases h : q + (decodeRuneInString (s.drop q)).2 = s.length
  · rw [if_pos h, if_neg (by omega)]
  · rw [if_neg h, if_pos (by omega)]

/-- A rune that starts at a rune start and reaches the end of the string is the last
    rune of the loop. -/
theorem last_eq_of_runeStart {s : List UInt8} {rs : List Chunk} {c : Chunk}
    (hs : decodeAll s = rs ++ [c]) {q : Nat} (hq : q < s.length) (hst : runeStart (s.getD q 0))
    (hw : q + width (s.drop q) = s.length) :
    c = ((decodeRuneInString (s.drop q)).1, s.drop q) := by
  obtain ⟨k, hk⟩ := exists_drop_of_runeStart hq hst
  have hu : s.drop q ≠ [] := List.ne_nil_of_length_pos (by simp; omega)
  have hwu : width (s.drop q) = (s.drop q).length := by simp only [List.length_drop]; omega
  have hd := decodeAll_bytes_drop s k
  rw [hk, decodeAll_eq_cons hu, hwu, List.take_length, List.drop_length, decodeAll_nil, hs] at hd
  have := congrArg List.getLast? (List.take_append_drop k (rs ++ [c]))
  rw [← hd, List.getLast?_concat, List.getLast?_concat] at this
  exact (Option.some.inj this).symm

theorem runeStart_of_width_ne_one {u0 : UInt8} {us : List UInt8} (h : width (u0 :: us) ≠ 1) :
    runeStart u0 := by
  rcases decode_cons_cases u0 us with ⟨-, he⟩ | ⟨-, he⟩ | ⟨-, hst, -⟩
  · simp [width, he] at h
  · simp [width, he] at h
  · exact hst

/-- The last rune is an invalid byte: a rune decoded from a rune start that reached the end
    would be the last rune, so whatever the loop finds, `RuneError` of width one comes back. -/
theorem decodeLastRuneInString_of_invalid {s : List UInt8} {rs : List Chunk} {c0 : UInt8}
    (hs : decodeAll s = rs ++ [(runeError, [c0])]) (hge : 0x80 ≤ c0.toNat) :
    decodeLastRuneInString s = (runeError, 1) := by
  have hsplit : s = bytes rs ++ [c0] := by rw [← bytes_decodeAll s, hs, bytes_append]; rfl
  have hlen : s.length = (bytes rs).length + 1 := by rw [hsplit, List.length_append]; rfl
  obtain ⟨q, hq⟩ : ∃ q, (max (findStart s (s.length - utfMax) (s.length - 1)) 0).toNat = q :=
    ⟨_, rfl⟩
  have hqlt : q < s.length := by
    have := findStart_lt s (s.length - utfMax) (s.length - 1)
    omega
  have hlast : s.getLast? = some c0 := by rw [hsplit, List.getLast?_concat]
  rw [decodeLastRuneInString_of_not_ascii hlast (by rw [lt_iff_toNat]; exact Nat.not_lt.mpr hge) hq]
  by_cases hfit : q + width (s.drop q) = s.length
  · rw [if_pos hfit]
    by_cases hw1 : width (s.drop q) = 1
    · rw [show s.drop q = [c0] by rw [show q = (bytes rs).length by omega, hsplit, List.drop_left]]
      exact (decode_of_mem_decodeAll (show (runeError, [c0]) ∈ decodeAll s by simp [hs])).1
    · obtain ⟨u0, us, hu⟩ := List.exists_cons_of_ne_nil
        (List.ne_nil_of_length_pos (by simp only [List.length_drop]; omega) : s.drop q ≠ [])
      have hget := getD_drop s q 0
      rw [hu, Nat.add_zero] at hget
      have := congrArg (List.length ∘ Prod.snd) (last_eq_of_runeStart hs hqlt
        (hget ▸ runeStart_of_width_ne_one (hu ▸ hw1)) hfit)
      simp only [Function.comp, List.length_singleton, List.length_drop] at this
      omega
  · rw [if_neg hfit]

/-- The last rune is a sequence of two to four bytes: the loop stops at its lead. -/
theorem decodeLastRuneInString_of_lead {s p : List UInt8} {c0 : UInt8} {cs : List UInt8} {r : Nat}
    (hsplit : s = p ++ c0 :: cs) (hdc : decodeRuneInString (c0 :: cs) = (r, cs.length + 1))
    (hst0 : runeStart c0) (h4 : width (c0 :: cs) ≤ utfMax)
    (hcont : ∀ j, 1 ≤ j → j < width (c0 :: cs) → runeStart ((c0 :: cs).getD j 0) = false)
    (h2 : 2 ≤ width (c0 :: cs)) :
    decodeLastRuneInString s = (r, cs.length + 1) := by
  have hwbs : width (c0 :: cs) = cs.length + 1 := congrArg Prod.snd hdc
  have hlen : s.length = p.length + (cs.length + 1) := by rw [hsplit, List.length_append]; rfl
  have hlast : s.getLast? = some ((c0 :: cs).getD cs.length 0) := by
    rw [hsplit, getLast?_append_of_ne_nil _ (List.cons_ne_nil c0 cs)]; rfl
  have hl : ¬(c0 :: cs).getD cs.length 0 < runeSelf := by
    have := hcont cs.length (by omega) (by omega)
    simp only [runeStart_eq, Bool.not_eq_false', Bool.and_eq_true, decide_eq_true_eq] at this
    rw [lt_iff_toNat]; exact Nat.not_lt.mpr this.1
  have hq : (max (findStart s (s.length - utfMax) (s.length - 1)) 0).toNat = p.length := by
    rw [findStart_eq (show p.length < s.length - 1 by omega)
      (show s.length - utfMax ≤ p.length by simp only [utfMax] at h4 ⊢; omega)]
    · omega
    · rwa [hsplit, ← Nat.add_zero p.length, getD_append_right]
    · intro j h1 h2
      rw [hsplit, ← Nat.add_sub_cancel' h1.le, getD_append_right]
      exact hcont _ (by omega) (by omega)
  rw [decodeLastRuneInString_of_not_ascii hlast hl hq,
    show s.drop p.length = c0 :: cs by rw [hsplit, List.drop_left], hwbs, if_pos (by omega), hdc]

/-- `DecodeLastRuneInString` returns the last rune the forward loop visits, with its width,
    on valid and invalid bytes alike. -/
theorem decodeLastRuneInString_eq {s : List UInt8} {rs : List Chunk} {c : Chunk}
    (hs : decodeAll s = rs ++ [c]) : decodeLastRuneInString s = (c.1, c.2.length) := by
  obtain ⟨hdc, hne⟩ := decode_of_mem_decodeAll (show c ∈ decodeAll s by simp [hs])
  obtain ⟨r, bs⟩ := c
  obtain ⟨c0, cs, rfl⟩ := List.exists_cons_of_ne_nil hne
  have hsplit : s = bytes rs ++ c0 :: cs := by
    rw [← bytes_decodeAll s, hs, bytes_append]; simp
  rcases decode_cons_cases c0 cs with ⟨hlt, he⟩ | ⟨hge, he⟩ | ⟨-, hst0, h2, h4, -, hcont⟩
  · -- an ASCII byte is read back at once
    obtain ⟨rfl, hcs⟩ := Prod.mk.inj (hdc.symm.trans he)
    obtain rfl : cs = [] := List.length_eq_zero.mp (by simpa using hcs)
    simp only [decodeLastRuneInString, hsplit, List.getLast?_concat]
    rw [if_pos (show c0 < runeSelf from lt_iff_toNat.mpr hlt)]
    rfl
  · obtain ⟨rfl, hcs⟩ := Prod.mk.inj (hdc.symm.trans he)
    obtain rfl : cs = [] := List.length_eq_zero.mp (by simpa using hcs)
    exact decodeLastRuneInString_of_invalid hs hge
  · exact decodeLastRuneInString_of_lead hsplit hdc hst0 h4 hcont h2

end GoLabs.Utf8

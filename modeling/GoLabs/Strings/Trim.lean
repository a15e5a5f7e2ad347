import Mathlib.Data.List.DropRight
import GoLabs.Strings.Utf8

/-! # `strings.TrimSpace`

`TrimSpace` of Go's `strings` package and the functions it falls back to. It scans ASCII
bytes from the front and then from the back; at the first byte that is not ASCII it hands
what is left to `TrimFunc` or `TrimRightFunc` with `unicode.IsSpace`. `TrimLeftFunc` finds
the first rune to keep with a `for range` loop (`indexFunc`); `TrimRightFunc` the last one
with `DecodeLastRuneInString`, from the end (`lastIndexFunc`).

Whichever path it takes, `TrimSpace` keeps the bytes of the runes that remain when the
space runes are dropped from both ends of the runes the `for range` loop visits
(`trimSpace_eq`); an invalid byte is the rune `RuneError`, which is not a space. So the
result is a fixed point of `TrimSpace`, and it is empty exactly when every rune is a space.
-/

namespace GoLabs.Strings

open Utf8

/-- `unicode.IsSpace`: the Latin-1 spaces, then the `White_Space` table above Latin-1. -/
def isSpace (r : Nat) : Bool :=
  if r ≤ 0xFF then
    r = 0x09 || r = 0x0A || r = 0x0B || r = 0x0C || r = 0x0D || r = 0x20 || r = 0x85 || r = 0xA0
  else
    r = 0x1680 || (0x2000 ≤ r && r ≤ 0x200A) || r = 0x2028 || r = 0x2029 || r = 0x202F ||
      r = 0x205F || r = 0x3000

example : isSpace 0x3000 = true ∧ isSpace runeError = false := by decide

/-- The table `asciiSpace`. -/
def asciiSpace (b : UInt8) : UInt8 :=
  if b = 0x09 || b = 0x0A || b = 0x0B || b = 0x0C || b = 0x0D || b = 0x20 then 1 else 0

/-- `indexFunc(s, f, truth)`: the offset at which the `for range` loop first meets a rune
    `r` with `f(r) == truth`, or `-1`. -/
def indexFunc (s : List UInt8) (f : Nat → Bool) (truth : Bool) : Int :=
  go (decodeAll s) 0
where
  go : List Chunk → Nat → Int
    | [], _ => -1
    | (r, bs) :: rs, i => if f r = truth then i else go rs (i + bs.length)

/-- `lastIndexFunc(s, f, truth)`: from `i = len(s)` down, each turn decodes the last rune of
    `s[0:i]` and steps back over it. Each turn takes a byte at least, so the fuel, `len(s)`,
    never runs out first. -/
def lastIndexFunc (s : List UInt8) (f : Nat → Bool) (truth : Bool) : Int :=
  go s.length s.length
where
  go : Nat → Nat → Int
    | 0, _ => -1
    | fuel + 1, i =>
      if i = 0 then -1 else
      let (r, size) := decodeLastRuneInString (s.take i)
      let i := i - size
      if f r = truth then i else go fuel i

/-- `TrimLeftFunc`. -/
def trimLeftFunc (s : List UInt8) (f : Nat → Bool) : List UInt8 :=
  let i := indexFunc s f false
  if i = -1 then [] else s.drop i.toNat

/-- `TrimRightFunc`: `i` steps over the last rune kept, by its width when it is not ASCII. -/
def trimRightFunc (s : List UInt8) (f : Nat → Bool) : List UInt8 :=
  let i := lastIndexFunc s f false
  let i := if 0 ≤ i ∧ runeSelf ≤ s.getD i.toNat 0 then i + width (s.drop i.toNat) else i + 1
  s.take i.toNat

/-- `TrimFunc`. -/
def trimFunc (s : List UInt8) (f : Nat → Bool) : List UInt8 :=
  trimRightFunc (trimLeftFunc s f) f

/-- The loop of `TrimSpace` from the end, over `s[start:stop]` reversed: it stops at an ASCII
    byte that is not a space, or hands `s[start:stop]` to `TrimRightFunc` at a byte that is
    not ASCII. -/
def trimSpaceRight : List UInt8 → List UInt8
  | [] => []
  | c :: r =>
    if runeSelf ≤ c then trimRightFunc (c :: r).reverse isSpace
    else if asciiSpace c = 0 then (c :: r).reverse
    else trimSpaceRight r

/-- The loop of `TrimSpace` from the front, over `s[start:]`. -/
def trimSpaceLeft : List UInt8 → List UInt8
  | [] => []
  | c :: t =>
    if runeSelf ≤ c then trimFunc (c :: t) isSpace
    else if asciiSpace c = 0 then trimSpaceRight (c :: t).reverse
    else trimSpaceLeft t

/-- `strings.TrimSpace`. -/
def trimSpace (s : List UInt8) : List UInt8 := trimSpaceLeft s

example : trimSpace [0x20, 0x78, 0x20] = [0x78] := by decide
example : trimSpace [0xE3, 0x80, 0x80, 0x78, 0xC2, 0xA0] = [0x78] := by decide

/-! ## What the trim functions keep -/

/-- The runes left when those satisfying `f` are dropped from both ends. -/
def trimRunes (f : Nat → Bool) (rs : List Chunk) : List Chunk :=
  (rs.dropWhile (f ·.1)).rdropWhile (f ·.1)

set_option maxRecDepth 4000 in
/-- On ASCII bytes `unicode.IsSpace` is the table `asciiSpace`. -/
theorem isSpace_ascii {b : UInt8} (hb : b.toNat < 0x80) : isSpace b.toNat = (asciiSpace b != 0) :=
  @forall_byte (fun b => b.toNat < 0x80 → isSpace b.toNat = (asciiSpace b != 0)) (by decide) b hb

theorem not_runeSelf_le {b : UInt8} (h : ¬runeSelf ≤ b) : b.toNat < 0x80 := by
  rw [le_iff_toNat] at h; exact Nat.lt_of_not_le h

theorem indexFunc_go (f : Nat → Bool) (truth : Bool) (rs : List Chunk) (i : Nat) :
    indexFunc.go f truth rs i =
      if rs.dropWhile (fun c => f c.1 != truth) = [] then -1
      else ((i + (bytes (rs.takeWhile fun c => f c.1 != truth)).length : Nat) : Int) := by
  induction rs generalizing i with
  | nil => rfl
  | cons c rs ih =>
    by_cases h : f c.1 = truth
    · simp [indexFunc.go, h]
    · have hp : (fun c : Chunk => f c.1 != truth) c = true := by simpa using h
      rw [@List.dropWhile_cons_of_pos _ (fun c : Chunk => f c.1 != truth) c rs hp,
        @List.takeWhile_cons_of_pos _ (fun c : Chunk => f c.1 != truth) c rs hp]
      simp only [indexFunc.go, h, if_false, ih, bytes_cons, List.length_append, Nat.add_assoc]

/-- `TrimLeftFunc` drops the runes satisfying `f` from the front. -/
theorem trimLeftFunc_eq (s : List UInt8) (f : Nat → Bool) :
    trimLeftFunc s f = bytes ((decodeAll s).dropWhile (f ·.1)) := by
  by_cases h : (decodeAll s).dropWhile (f ·.1) = []
  · simp [trimLeftFunc, indexFunc, indexFunc_go, h]
  have hdrop := List.drop_left (bytes ((decodeAll s).takeWhile (f ·.1)))
    (bytes ((decodeAll s).dropWhile (f ·.1)))
  rw [← bytes_append, List.takeWhile_append_dropWhile, bytes_decodeAll] at hdrop
  simp only [trimLeftFunc, indexFunc, indexFunc_go, Bool.bne_false, h, if_false, Nat.zero_add]
  rw [if_neg (by omega), Int.toNat_ofNat, hdrop]

/-- From the end of a prefix of the loop's runes, `lastIndexFunc` walks back over them one
    by one: it returns where the last rune with `f(r) == truth` begins, or `-1`. -/
theorem lastIndexFunc_go {s : List UInt8} (f : Nat → Bool) (truth : Bool) {P Q : List Chunk}
    (h : decodeAll s = P ++ Q) {fuel : Nat} (hf : P.length ≤ fuel) :
    lastIndexFunc.go s f truth fuel (bytes P).length =
      if P.rdropWhile (fun c => f c.1 != truth) = [] then -1
      else ((bytes (P.rdropWhile fun c => f c.1 != truth).dropLast).length : Int) := by
  induction P using List.reverseRecOn generalizing Q fuel with
  | nil => cases fuel <;> simp [lastIndexFunc.go]
  | append_singleton P c ih =>
    obtain ⟨fuel, rfl⟩ : ∃ n, fuel = n + 1 := ⟨fuel - 1, by simp at hf; omega⟩
    have hne : c.2 ≠ [] := (decode_of_mem_decodeAll (show c ∈ decodeAll s by simp [h])).2
    have htake : s.take (bytes (P ++ [c])).length = bytes (P ++ [c]) := by
      rw [← bytes_decodeAll s, h, bytes_append (P ++ [c]), List.take_left]
    have hdec : decodeAll (bytes (P ++ [c])) = P ++ [c] := by
      have := decodeAll_bytes_take s (P ++ [c]).length
      rwa [h, List.take_left] at this
    have hlen : (bytes (P ++ [c])).length = (bytes P).length + c.2.length := by
      simp [bytes_append]
    have hpos := List.length_pos.mpr hne
    rw [lastIndexFunc.go, if_neg (by omega), htake, decodeLastRuneInString_eq hdec]
    dsimp only
    rw [show (bytes (P ++ [c])).length - c.2.length = (bytes P).length by omega]
    by_cases hc : f c.1 = truth
    · rw [if_pos hc, List.rdropWhile_concat_neg _ _ _ (by simp [hc]), if_neg (by simp),
        List.dropLast_concat]
    · rw [if_neg hc, List.rdropWhile_concat_pos _ _ _ (by simpa using hc)]
      exact ih (show decodeAll s = P ++ c :: Q by simp [h]) (by simp at hf; omega)

/-- `TrimRightFunc` drops the runes satisfying `f` from the back. -/
theorem trimRightFunc_eq (s : List UInt8) (f : Nat → Bool) :
    trimRightFunc s f = bytes ((decodeAll s).rdropWhile (f ·.1)) := by
  have hli := lastIndexFunc_go f false (List.append_nil (decodeAll s)).symm
    (length_decodeAll_le s)
  simp only [bytes_decodeAll, Bool.bne_false] at hli
  simp only [trimRightFunc, lastIndexFunc, hli]
  rcases eq_or_ne ((decodeAll s).rdropWhile (f ·.1)) [] with hR | hR
  · simp [hR]
  obtain ⟨R, c, hRc⟩ : ∃ R c, (decodeAll s).rdropWhile (f ·.1) = R ++ [c] :=
    ⟨_, _, (List.dropLast_append_getLast hR).symm⟩
  obtain ⟨T, hT⟩ : ∃ T, decodeAll s = R ++ c :: T := by
    obtain ⟨T, hT⟩ := List.rdropWhile_prefix (f ·.1) (decodeAll s)
    exact ⟨T, by rw [← hT, hRc]; simp⟩
  have hs : s = bytes R ++ (c.2 ++ bytes T) := by
    rw [← bytes_decodeAll s, hT, bytes_append, bytes_cons]
  obtain ⟨hdc, hne⟩ := decode_of_mem_decodeAll (show c ∈ decodeAll s by simp [hT])
  obtain ⟨c0, cs, hc2⟩ := List.exists_cons_of_ne_nil hne
  have hget : s.getD (bytes R).length 0 = c0 := by
    rw [hs, ← Nat.add_zero (bytes R).length, getD_append_right, hc2]; rfl
  -- past the last rune kept, by its width
  have hstep : (if 0 ≤ ((bytes R).length : Int) ∧ runeSelf ≤ s.getD (bytes R).length 0 then
      ((bytes R).length : Int) + width (s.drop (bytes R).length) else (bytes R).length + 1) =
      ((bytes R).length + c.2.length : Nat) := by
    by_cases ha : runeSelf ≤ c0
    · rw [if_pos ⟨by omega, hget ▸ ha⟩, width_drop_bytes hT]; push_cast; rfl
    · rw [hc2] at hdc
      have := (Prod.mk.inj (hdc.symm.trans (decode_ascii (not_runeSelf_le ha) cs))).2
      rw [if_neg (fun h => ha (hget ▸ h.2)), hc2]
      simp only [List.length_cons] at this ⊢
      omega
  rw [if_neg hR, hRc, List.dropLast_concat, Int.toNat_ofNat, hstep, Int.toNat_ofNat, hs,
    ← List.append_assoc, List.take_left' (by simp), bytes_append, bytes_cons, bytes_nil,
    List.append_nil]

theorem decodeAll_bytes_dropWhile (s : List UInt8) (p : Chunk → Bool) :
    decodeAll (bytes ((decodeAll s).dropWhile p)) = (decodeAll s).dropWhile p := by
  rw [← List.drop_left ((decodeAll s).takeWhile p) ((decodeAll s).dropWhile p),
    List.takeWhile_append_dropWhile, decodeAll_bytes_drop]

theorem trimFunc_eq (s : List UInt8) (f : Nat → Bool) :
    trimFunc s f = bytes (trimRunes f (decodeAll s)) := by
  rw [trimFunc, trimLeftFunc_eq, trimRightFunc_eq, decodeAll_bytes_dropWhile]
  rfl

theorem rdropWhile_append_of_forall {α : Type} (p : α → Bool) (A : List α) {B : List α}
    (hB : ∀ x ∈ B, p x) : (A ++ B).rdropWhile p = A.rdropWhile p := by
  induction B using List.reverseRecOn with
  | nil => rw [List.append_nil]
  | append_singleton B x ih =>
    rw [← List.append_assoc, List.rdropWhile_concat_pos _ _ _ (hB x (by simp))]
    exact ih fun y hy => hB y (by simp [hy])

theorem spaces_of_asciiSpaces {w : List UInt8} (hw : ∀ b ∈ w, b.toNat < 0x80 ∧ asciiSpace b ≠ 0) :
    ∀ c ∈ decodeAll w, isSpace c.1 := by
  rw [decodeAll_of_ascii fun b hb => (hw b hb).1]
  intro c hc
  obtain ⟨b, hb, rfl⟩ := List.mem_map.mp hc
  simp [isSpace_ascii (hw b hb).1, (hw b hb).2]

/-- The loop of `TrimSpace` from the end, with the ASCII spaces `w` it has passed. -/
theorem trimSpaceRight_eq (r : List UInt8) {w : List UInt8}
    (hw : ∀ b ∈ w, b.toNat < 0x80 ∧ asciiSpace b ≠ 0) :
    trimSpaceRight r = bytes ((decodeAll (r.reverse ++ w)).rdropWhile (isSpace ·.1)) := by
  induction r generalizing w with
  | nil => simp [trimSpaceRight, List.rdropWhile_eq_nil_iff.mpr (spaces_of_asciiSpaces hw)]
  | cons c r ih =>
    by_cases ha : runeSelf ≤ c
    · have hstart : ∀ b ∈ w.head?, runeStart b := fun b hb =>
        runeStart_of_lt (hw b (List.mem_of_mem_head? hb)).1
      rw [trimSpaceRight, if_pos ha, trimRightFunc_eq, List.reverse_cons, decodeAll_append hstart,
        rdropWhile_append_of_forall _ _ (spaces_of_asciiSpaces hw)]
    have hc := not_runeSelf_le ha
    rw [List.reverse_cons, List.append_assoc, List.singleton_append]
    by_cases hs : asciiSpace c = 0
    · rw [trimSpaceRight, if_neg ha, if_pos hs, decodeAll_append (by simpa using runeStart_of_lt hc),
        decodeAll_ascii_cons hc, List.append_cons (decodeAll r.reverse),
        rdropWhile_append_of_forall _ _ (spaces_of_asciiSpaces hw),
        List.rdropWhile_concat_neg _ _ _ (by simp [isSpace_ascii hc, hs]), bytes_append,
        bytes_decodeAll, List.reverse_cons]
      rfl
    · rw [trimSpaceRight, if_neg ha, if_neg hs]
      exact ih (List.forall_mem_cons.mpr ⟨⟨hc, hs⟩, hw⟩)

/-- Whichever path it takes, `TrimSpace` keeps the runes left when the spaces are dropped
    from both ends. -/
theorem trimSpace_eq (s : List UInt8) : trimSpace s = bytes (trimRunes isSpace (decodeAll s)) := by
  induction s with
  | nil => rfl
  | cons c t ih =>
    by_cases ha : runeSelf ≤ c
    · rw [trimSpace, trimSpaceLeft, if_pos ha, trimFunc_eq]
    have hc := not_runeSelf_le ha
    rw [decodeAll_ascii_cons hc]
    by_cases hs : asciiSpace c = 0
    · rw [trimSpace, trimSpaceLeft, if_neg ha, if_pos hs, trimSpaceRight_eq _ (List.forall_mem_nil _),
        List.reverse_reverse, List.append_nil, decodeAll_ascii_cons hc, trimRunes,
        List.dropWhile_cons_of_neg (by simp [isSpace_ascii hc, hs])]
    · rw [trimSpace, trimSpaceLeft, if_neg ha, if_neg hs, ← trimSpace, ih]
      simp only [trimRunes]
      rw [List.dropWhile_cons_of_pos (by simp [isSpace_ascii hc, hs])]

theorem decodeAll_bytes_trimRunes (f : Nat → Bool) (s : List UInt8) :
    decodeAll (bytes (trimRunes f (decodeAll s))) = trimRunes f (decodeAll s) := by
  have hM : trimRunes f (decodeAll s) =
      ((decodeAll s).dropWhile (f ·.1)).take (trimRunes f (decodeAll s)).length :=
    List.prefix_iff_eq_take.mp (List.rdropWhile_prefix _ _)
  rw [hM, ← decodeAll_bytes_dropWhile, decodeAll_bytes_take]

theorem decodeAll_trimSpace (s : List UInt8) :
    decodeAll (trimSpace s) = trimRunes isSpace (decodeAll s) := by
  rw [trimSpace_eq, decodeAll_bytes_trimRunes]

/-- Trimmed runes begin and end with runes that are kept. -/
theorem trimRunes_trimRunes (f : Nat → Bool) (rs : List Chunk) :
    trimRunes f (trimRunes f rs) = trimRunes f rs := by
  have hpre := List.rdropWhile_prefix (f ·.1) (rs.dropWhile (f ·.1))
  have hfront : (trimRunes f rs).dropWhile (f ·.1) = trimRunes f rs := by
    rcases hD : rs.dropWhile (f ·.1) with _ | ⟨d, D⟩
    · simp [trimRunes, hD]
    have hd : f d.1 = false := by
      simpa [hD] using List.head_dropWhile_not (f ·.1) rs (by simp [hD])
    rw [hD] at hpre
    rw [trimRunes, hD]
    rcases List.prefix_cons_iff.mp hpre with h | ⟨M, h, -⟩
    · rw [h]; rfl
    · rw [h, List.dropWhile_cons_of_neg (by simp [hd])]
  rw [trimRunes, hfront, trimRunes, List.rdropWhile_idempotent]

/-- `TrimSpace` returns a fixed point of `TrimSpace`. -/
theorem trimSpace_trimSpace (s : List UInt8) : trimSpace (trimSpace s) = trimSpace s := by
  rw [trimSpace_eq (trimSpace s), decodeAll_trimSpace, trimRunes_trimRunes, ← trimSpace_eq]

theorem trimRunes_eq_nil_iff {f : Nat → Bool} {rs : List Chunk} :
    trimRunes f rs = [] ↔ ∀ c ∈ rs, f c.1 := by
  rw [trimRunes, List.rdropWhile_eq_nil_iff]
  constructor
  · intro h
    refine List.dropWhile_eq_nil_iff.mp ?_
    by_contra hne
    exact absurd (h _ (List.head_mem hne)) (by simp [List.head_dropWhile_not (f ·.1) rs hne])
  · intro h
    simp [List.dropWhile_eq_nil_iff.mpr h]

/-- `TrimSpace` is empty exactly when every rune is a space. -/
theorem trimSpace_eq_nil_iff {s : List UInt8} : trimSpace s = [] ↔ ∀ c ∈ decodeAll s, isSpace c.1 := by
  rw [← trimRunes_eq_nil_iff, ← decodeAll_trimSpace]
  exact ⟨fun h => by rw [h, decodeAll_nil], fun h => by rw [← bytes_decodeAll (trimSpace s), h, bytes_nil]⟩

end GoLabs.Strings

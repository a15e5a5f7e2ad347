import GoLabs.Strings.Trim

/-! # `strings.Fields`

`Fields` first counts the fields as if `s` were ASCII and notes whether any byte is not.
If one is, it calls `FieldsFunc(s, unicode.IsSpace)`, which records the span of each field
over the runes of a `for range` loop; if none is, it fills a slice of the counted length
field by field.

On either path it returns the maximal runs of runes that are not spaces, each as the bytes
that hold it (`fields_eq`), an invalid byte counting as a rune that is not a space.
-/

namespace GoLabs.Strings

open Utf8

/-! ## Runs of a list -/

section Runs

variable {α β : Type} (p : α → Bool)

/-- The maximal runs of elements that do not satisfy `p`: the pieces between the elements
    that do, the empty pieces dropped. -/
def words (l : List α) : List (List α) := (l.splitOnP p).filter (!·.isEmpty)

/-- The number of runs of elements not satisfying `p` that begin in `l`; `prev` says
    whether the element before `l` satisfied `p`, or there was none. -/
def runCount : Bool → List α → Nat
  | _, [] => 0
  | prev, a :: l => (if prev && !p a then 1 else 0) + runCount (p a) l

theorem runCount_true_eq (l : List α) :
    runCount p true l = runCount p false l + if l.head?.all p then 0 else 1 := by
  cases l with
  | nil => rfl
  | cons a l => by_cases h : p a <;> simp [runCount, h, Nat.add_comm]

theorem length_words_cons_of_not {a : α} (ha : p a = false) (l : List α) :
    (words p (a :: l)).length = (words p l).length + if l.head?.all p then 1 else 0 := by
  cases l with
  | nil => simp [words, List.splitOnP_cons, List.splitOnP_nil, ha]
  | cons b l =>
    by_cases hb : p b
    · simp [words, List.splitOnP_cons, ha, hb, List.filter_cons]
    · obtain ⟨h, t, ht⟩ := List.exists_cons_of_ne_nil (List.splitOnP_ne_nil p l)
      simp [words, List.splitOnP_cons, ha, hb, ht, List.filter_cons]

/-- Counting where runs begin counts the runs. -/
theorem length_words (l : List α) : (words p l).length = runCount p true l := by
  induction l with
  | nil => simp [words, List.splitOnP_nil, runCount]
  | cons a l ih =>
    by_cases ha : p a
    · simp [words, List.splitOnP_cons, ha, runCount] at ih ⊢; exact ih
    · rw [length_words_cons_of_not p (by simpa using ha), ih, runCount_true_eq]
      by_cases hl : l.head?.all p <;> simp [runCount, ha, hl] <;> omega

/-- A separator ends the runs before it. -/
theorem runCount_append_sep {x : α} (hx : p x) (prev : Bool) (A B : List α) :
    runCount p prev (A ++ x :: B) = runCount p prev A + runCount p true B := by
  induction A generalizing prev with
  | nil => simp [runCount, hx]
  | cons a A ih => rw [List.cons_append, runCount, runCount, ih, Nat.add_assoc]

theorem runCount_of_forall {l : List α} (h : ∀ a ∈ l, p a) (prev : Bool) : runCount p prev l = 0 := by
  induction l generalizing prev with
  | nil => rfl
  | cons a l ih =>
    rw [runCount, h a (List.mem_cons_self a l), ih fun b hb => h b (List.mem_cons_of_mem a hb)]
    simp

theorem runCount_map_congr {q : β → Bool} {g : α → β} {l : List α} (h : ∀ a ∈ l, q (g a) = p a)
    (prev : Bool) : runCount q prev (l.map g) = runCount p prev l := by
  induction l generalizing prev with
  | nil => rfl
  | cons a l ih =>
    simp only [List.map_cons, runCount, h a (List.mem_cons_self a l),
      ih (fun b hb => h b (List.mem_cons_of_mem a hb))]

@[simp] theorem words_nil : words p [] = [] := rfl

/-- A separator in front belongs to no run. -/
theorem words_cons_of_pos {a : α} (ha : p a) (l : List α) : words p (a :: l) = words p l := by
  simp [words, List.splitOnP_cons, ha]

/-- A run ends at the first separator after it. -/
theorem words_append_cons_of_pos {w : List α} (hne : w ≠ []) (hw : ∀ x ∈ w, p x = false) {c : α}
    (hc : p c) (t : List α) : words p (w ++ c :: t) = w :: words p t := by
  rw [words, List.splitOnP_first p w (fun x hx => by simp [hw x hx]) c hc,
    List.filter_cons_of_pos (by simpa using hne)]
  rfl

/-- A run with no separator after it. -/
theorem words_of_forall_neg {w : List α} (hne : w ≠ []) (hw : ∀ x ∈ w, p x = false) :
    words p w = [w] := by
  rw [words, List.splitOnP_eq_single p w (fun x hx => by simp [hw x hx])]
  simp [hne]

theorem splitOnP_map (g : α → β) (q : β → Bool) (l : List α) :
    (l.map g).splitOnP q = (l.splitOnP fun a => q (g a)).map (List.map g) := by
  induction l with
  | nil => rfl
  | cons a l ih =>
    rw [List.map_cons, List.splitOnP_cons, List.splitOnP_cons, ih]
    by_cases h : q (g a)
    · simp [h]
    · obtain ⟨w, ws, hws⟩ := List.exists_cons_of_ne_nil (List.splitOnP_ne_nil (fun a => q (g a)) l)
      simp [h, hws]

theorem words_map (g : α → β) (q : β → Bool) (l : List α) :
    words q (l.map g) = (words (fun a => q (g a)) l).map (List.map g) := by
  have he (w : List α) : (w.map g).isEmpty = w.isEmpty := by cases w <;> rfl
  simp only [words, splitOnP_map, List.filter_map, Function.comp_def, he]

theorem splitOnP_congr {p q : α → Bool} {l : List α} (h : ∀ x ∈ l, p x = q x) :
    l.splitOnP p = l.splitOnP q := by
  induction l with
  | nil => rfl
  | cons a l ih =>
    rw [List.splitOnP_cons, List.splitOnP_cons, h a (List.mem_cons_self a l),
      ih fun x hx => h x (List.mem_cons_of_mem a hx)]

theorem words_congr {p q : α → Bool} {l : List α} (h : ∀ x ∈ l, p x = q x) :
    words p l = words q l := by
  rw [words, words, splitOnP_congr h]

end Runs

/-! ## `Fields` -/

/-- The counting loop of `Fields`: `n`, the number of fields were `s` ASCII, and `setBits`,
    the bits set in any byte. `wasSpace` and `isSpace` hold `asciiSpace` values, `0` or `1`,
    on which the `int` operations `&` and `^` of the source give the same bits as on bytes. -/
def countLoop : List UInt8 → Nat → UInt8 → UInt8 → Nat × UInt8
  | [], n, _, setBits => (n, setBits)
  | r :: rs, n, wasSpace, setBits =>
    let setBits := setBits ||| r
    let isSpace := asciiSpace r
    countLoop rs (n + (wasSpace &&& ~~~isSpace).toNat) isSpace setBits

mutual
/-- The ASCII path of `Fields` inside a field: `field` holds `s[fieldStart:i]`, and at a
    space it is stored at `a[na]`. -/
def fillLoop (a : List (List UInt8)) (na : Nat) (field : List UInt8) :
    List UInt8 → List (List UInt8)
  | [] => a.set na field
  | c :: rest =>
    if asciiSpace c = 0 then fillLoop a na (field ++ [c]) rest
    else skipLoop (a.set na field) (na + 1) rest

/-- The ASCII path of `Fields` between fields: it skips the spaces, and a byte that is not
    one starts the next field. -/
def skipLoop (a : List (List UInt8)) (na : Nat) : List UInt8 → List (List UInt8)
  | [] => a
  | c :: rest => if asciiSpace c ≠ 0 then skipLoop a na rest else fillLoop a na [c] rest
end

/-- The loop of `FieldsFunc` over the runes of a string of length `len`, at their offsets:
    `start` is where the current field began, or negative between fields (`^start` after a
    field, `-1` before the first). -/
def spansLoop (f : Nat → Bool) (len : Nat) :
    List Chunk → Nat → Int → List (Nat × Nat) → List (Nat × Nat)
  | [], _, start, spans => if 0 ≤ start then spans ++ [(start.toNat, len)] else spans
  | (r, bs) :: rs, e, start, spans =>
    if f r then
      if 0 ≤ start then spansLoop f len rs (e + bs.length) (-start - 1) (spans ++ [(start.toNat, e)])
      else spansLoop f len rs (e + bs.length) start spans
    else if start < 0 then spansLoop f len rs (e + bs.length) e spans
    else spansLoop f len rs (e + bs.length) start spans

/-- `strings.FieldsFunc`. -/
def fieldsFunc (s : List UInt8) (f : Nat → Bool) : List (List UInt8) :=
  (spansLoop f s.length (decodeAll s) 0 (-1) []).map fun sp => (s.drop sp.1).take (sp.2 - sp.1)

/-- `strings.Fields`: `make([]string, n)` is `n` empty strings. -/
def fields (s : List UInt8) : List (List UInt8) :=
  let (n, setBits) := countLoop s 0 1 0
  if runeSelf ≤ setBits then fieldsFunc s isSpace
  else skipLoop (List.replicate n []) 0 s

example : fields [0x20, 0x61, 0x20, 0x20, 0x62, 0x63, 0x0A] = [[0x61], [0x62, 0x63]] := by decide
example : fields [0x61, 0xC2, 0xA0, 0xFF, 0xE3, 0x80, 0x80] = [[0x61], [0xFF]] := by decide

theorem asciiSpace_cases (b : UInt8) : asciiSpace b = 0 ∨ asciiSpace b = 1 := by
  unfold asciiSpace; split <;> simp

/-- The counting loop counts where runs of bytes that are not ASCII spaces begin. -/
theorem countLoop_eq (s : List UInt8) (n : Nat) {w : UInt8} (hw : w = 0 ∨ w = 1) (sb : UInt8) :
    countLoop s n w sb = (n + runCount (asciiSpace · != 0) (w == 1) s, s.foldl (· ||| ·) sb) := by
  induction s generalizing n w sb with
  | nil => simp [countLoop, runCount]
  | cons r rs ih =>
    have hbit : (w &&& ~~~asciiSpace r).toNat = if (w == 1) && !(asciiSpace r != 0) then 1 else 0 := by
      rcases hw with rfl | rfl <;> rcases asciiSpace_cases r with h | h <;> rw [h] <;> decide
    have hflag : (asciiSpace r == 1) = (asciiSpace r != 0) := by
      rcases asciiSpace_cases r with h | h <;> rw [h] <;> decide
    rw [countLoop, ih _ (asciiSpace_cases r), hbit, hflag, runCount, List.foldl_cons, Nat.add_assoc]

theorem or_lt_iff {a b : UInt8} : (a ||| b).toNat < 0x80 ↔ a.toNat < 0x80 ∧ b.toNat < 0x80 := by
  have hor : (a ||| b).toNat = a.toNat ||| b.toNat := rfl
  rw [hor]
  refine ⟨fun h => ⟨?_, ?_⟩, fun h => @Nat.or_lt_two_pow _ _ 7 h.1 h.2⟩
  · exact Nat.lt_of_le_of_lt (Nat.le_of_testBit fun i hi => by simp [hi]) h
  · exact Nat.lt_of_le_of_lt (Nat.le_of_testBit fun i hi => by simp [hi]) h

theorem foldl_or_lt_iff (s : List UInt8) (sb : UInt8) :
    (s.foldl (· ||| ·) sb).toNat < 0x80 ↔ sb.toNat < 0x80 ∧ ∀ b ∈ s, b.toNat < 0x80 := by
  induction s generalizing sb with
  | nil => simp
  | cons b s ih => simp [ih, or_lt_iff, and_assoc]

/-! ## What `Fields` returns -/

theorem bytes_map_single (w : List UInt8) : bytes (w.map fun b => (b.toNat, [b])) = w := by
  induction w with
  | nil => rfl
  | cons b w ih => simp [ih]

/-- Over ASCII bytes the runs of runes that are not spaces are the runs of bytes that are not
    ASCII spaces. -/
theorem words_decodeAll_of_ascii {l : List UInt8} (hl : ∀ b ∈ l, b.toNat < 0x80) :
    (words (isSpace ·.1) (decodeAll l)).map bytes = words (asciiSpace · != 0) l := by
  rw [decodeAll_of_ascii hl, words_map, words_congr fun b hb => isSpace_ascii (hl b hb), List.map_map]
  simp only [Function.comp_def, bytes_map_single, List.map_id']

/-- The ASCII path: `a` holds the fields found so far, then empty strings, one for each field
    left; `skipLoop` fills them with the runs of the rest, `fillLoop` likewise with the run it
    is inside counted from where it began. -/
theorem fillLoop_skipLoop_eq (l : List UInt8) :
    (∀ pre field, field ≠ [] → (∀ b ∈ field, asciiSpace b = 0) →
      fillLoop (pre ++ List.replicate (words (asciiSpace · != 0) (field ++ l)).length []) pre.length
        field l = pre ++ words (asciiSpace · != 0) (field ++ l)) ∧
    ∀ pre, skipLoop (pre ++ List.replicate (words (asciiSpace · != 0) l).length []) pre.length l =
      pre ++ words (asciiSpace · != 0) l := by
  induction l with
  | nil =>
    refine ⟨fun pre field hne hf => ?_, fun pre => by simp [skipLoop]⟩
    rw [List.append_nil, words_of_forall_neg _ hne (fun b hb => by simp [hf b hb])]
    simp [fillLoop]
  | cons c rest ih =>
    refine ⟨fun pre field hne hf => ?_, fun pre => ?_⟩
    · rw [fillLoop]
      split
      · next h =>
        rw [show field ++ c :: rest = (field ++ [c]) ++ rest by simp]
        exact ih.1 pre _ (by simp) (by simpa [or_imp, forall_and, h] using hf)
      · next h =>
        rw [words_append_cons_of_pos _ hne (fun b hb => by simp [hf b hb]) (by simpa using h),
          List.length_cons, List.replicate_succ, List.set_append_right _ _ (le_refl _), Nat.sub_self,
          List.set_cons_zero, show pre.length + 1 = (pre ++ [field]).length by simp,
          ← List.singleton_append, ← List.append_assoc, ih.2]
        simp
    · rw [skipLoop]
      split
      · next h =>
        rw [words_cons_of_pos _ (by simpa using h)]
        exact ih.2 pre
      · next h => exact ih.1 pre [c] (List.cons_ne_nil _ _) (by simpa using h)

/-- A span that ends where the bytes `bs` begin grows over them. -/
theorem take_drop_extend {s w bs t : List UInt8} {a e : Nat} (hle : a ≤ e) (he : e ≤ s.length)
    (hw : (s.drop a).take (e - a) = w) (hs : s.drop e = bs ++ t) :
    (s.drop a).take (e + bs.length - a) = w ++ bs := by
  have hlen : w.length = e - a := by rw [← hw, List.length_take, List.length_drop]; omega
  have hsplit : s.drop a = w ++ (bs ++ t) := by
    rw [← List.take_append_drop (e - a) (s.drop a), hw, List.drop_drop, Nat.add_sub_cancel' hle, hs]
  rw [hsplit, show e + bs.length - a = w.length + bs.length by omega, List.take_append, List.take_left]

/-- `FieldsFunc`'s loop: the spans it records cut out of `s` the runs of `cur ++ rs`, where
    `cur` is the field begun at `start`, empty when `start` is negative, and `rs` the runes
    from offset `e` on. -/
theorem spansLoop_map (f : Nat → Bool) (s : List UInt8) (rs : List Chunk) (e : Nat) (start : Int)
    (spans : List (Nat × Nat)) (cur : List Chunk) (he : e ≤ s.length) (hs : s.drop e = bytes rs)
    (hcur : if 0 ≤ start then cur ≠ [] ∧ (∀ c ∈ cur, f c.1 = false) ∧ start.toNat ≤ e ∧
      (s.drop start.toNat).take (e - start.toNat) = bytes cur else cur = []) :
    (spansLoop f s.length rs e start spans).map (fun sp => (s.drop sp.1).take (sp.2 - sp.1)) =
      spans.map (fun sp => (s.drop sp.1).take (sp.2 - sp.1)) ++ (words (f ·.1) (cur ++ rs)).map bytes := by
  induction rs generalizing e start spans cur with
  | nil =>
    have hlen : e = s.length := by
      have := congrArg List.length hs
      simp only [List.length_drop, bytes_nil, List.length_nil] at this
      omega
    by_cases h0 : 0 ≤ start
    · obtain ⟨hne, hf, -, hw⟩ := (if_pos h0 ▸ hcur : _)
      rw [List.append_nil, words_of_forall_neg _ hne hf, spansLoop, if_pos h0]
      simp [← hlen, hw]
    · obtain rfl := (if_neg h0 ▸ hcur : _)
      simp [spansLoop, h0]
  | cons c rs ih =>
    obtain ⟨r, bs⟩ := c
    have hs' : s.drop e = bs ++ bytes rs := hs
    have he' : e + bs.length ≤ s.length := by
      have := congrArg List.length hs'
      simp only [List.length_drop, List.length_append] at this
      omega
    have hnext : s.drop (e + bs.length) = bytes rs := by
      rw [← List.drop_drop, hs', List.drop_left]
    by_cases hf : f r <;> by_cases h0 : 0 ≤ start
    · -- a space ends the field
      obtain ⟨hne, hcf, -, hw⟩ := (if_pos h0 ▸ hcur : _)
      rw [spansLoop, if_pos hf, if_pos h0, ih _ _ _ [] he' hnext (by simp; omega),
        words_append_cons_of_pos _ hne hcf (show f (r, bs).1 from hf)]
      simp [hw]
    · obtain rfl := (if_neg h0 ▸ hcur : _)
      rw [spansLoop, if_pos hf, if_neg h0, ih _ _ _ [] he' hnext (by simp [h0])]
      simp only [List.nil_append, @words_cons_of_pos _ (f ·.1) (r, bs) hf rs]
    · -- a rune that is not a space extends the field
      obtain ⟨hne, hcf, hle, hw⟩ := (if_pos h0 ▸ hcur : _)
      rw [spansLoop, if_neg hf, if_neg (show ¬start < 0 by omega),
        ih _ _ _ (cur ++ [(r, bs)]) he' hnext ?_, List.append_assoc]
      · rfl
      rw [if_pos h0]
      refine ⟨by simp, ?_, by omega, ?_⟩
      · simpa [or_imp, forall_and, hf] using hcf
      · rw [bytes_append, bytes_cons, bytes_nil, List.append_nil]
        exact take_drop_extend (by omega) he hw hs'
    · -- a rune that is not a space starts one
      obtain rfl := (if_neg h0 ▸ hcur : _)
      rw [spansLoop, if_neg hf, if_pos (show start < 0 by omega),
        ih _ _ _ [(r, bs)] he' hnext ?_]
      · rfl
      rw [if_pos (show (0 : Int) ≤ e by omega)]
      refine ⟨by simp, by simpa using hf, by simp, ?_⟩
      simpa using take_drop_extend (le_refl e) he (by simp : (s.drop e).take (e - e) = []) hs'

theorem fieldsFunc_eq (s : List UInt8) (f : Nat → Bool) :
    fieldsFunc s f = (words (f ·.1) (decodeAll s)).map bytes := by
  simpa using spansLoop_map f s (decodeAll s) 0 (-1) [] [] (Nat.zero_le _) (bytes_decodeAll s).symm
    (by simp)

/-- `Fields` returns the maximal runs of runes that are not spaces, as the bytes that hold them,
    on either path. -/
theorem fields_eq (s : List UInt8) : fields s = (words (isSpace ·.1) (decodeAll s)).map bytes := by
  rw [fields, countLoop_eq s 0 (.inr rfl) 0]
  dsimp only
  split_ifs with h
  · exact fieldsFunc_eq s isSpace
  · have hs := ((foldl_or_lt_iff s 0).mp (not_runeSelf_le h)).2
    rw [words_decodeAll_of_ascii hs, Nat.zero_add, show ((1 : UInt8) == 1) = true from rfl, ← length_words]
    simpa using (fillLoop_skipLoop_eq s).2 []

/-- `Fields` returns one field per maximal run of runes that are not spaces. -/
theorem length_fields (s : List UInt8) :
    (fields s).length = (words (isSpace ·.1) (decodeAll s)).length := by
  rw [fields_eq, List.length_map]

end GoLabs.Strings

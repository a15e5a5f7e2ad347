import GoLabs.Runtime

/-! # The tracing header carrier

`HeaderCarrier` of the sarama demo's `tracing` package: OpenTelemetry reads and writes
trace context through it, over a record's header list. `Get` returns the value of the
first header whose key matches case-insensitively, `Set` overwrites the value of that
header or appends a new one, and `Keys` lists the keys in order.

Header keys and values are strings, as elsewhere in the model. `strings.ToLower` is a
parameter `lower`: every fact below holds whatever function it is.
-/

namespace GoLabs.Sarama

/-- A `*sarama.RecordHeader`. -/
structure RecordHeader where
  key : String
  value : String
  deriving Repr, DecidableEq

/-- `HeaderCarrier{Headers}`; `none` is a nil `Headers` pointer. -/
structure HeaderCarrier where
  headers : Option (List RecordHeader)
  deriving Repr, DecidableEq

namespace HeaderCarrier

variable (lower : String → String)

/-- `HeaderCarrier.Get`. -/
def get (c : HeaderCarrier) (key : String) : String :=
  match c.headers with
  | none => ""
  | some hs =>
    match hs.find? (fun h => lower h.key = lower key) with
    | some h => h.value
    | none => ""

/-- The loop of `Set` over the headers: the list with the first header whose lowered key
    is `lk` given the value `val`, or `none` when the loop ends without a match. -/
def setLoop (lk val : String) : List RecordHeader → Option (List RecordHeader)
  | [] => none
  | h :: hs => if lower h.key = lk then some ({ h with value := val } :: hs)
    else (setLoop lk val hs).map (h :: ·)

/-- The header list after `Set(key, val)`: a matching header is updated in place,
    otherwise `RecordHeader{key, val}` is appended. -/
def setHeaders (key val : String) (hs : List RecordHeader) : List RecordHeader :=
  match setLoop lower (lower key) val hs with
  | some hs' => hs'
  | none => hs ++ [⟨key, val⟩]

/-- `HeaderCarrier.Set`; with a nil `Headers` it does nothing. -/
def set (c : HeaderCarrier) (key val : String) : HeaderCarrier :=
  ⟨c.headers.map (setHeaders lower key val)⟩

/-- `HeaderCarrier.Keys`; `none` is the nil slice. -/
def keys (c : HeaderCarrier) : Option (List String) := c.headers.map (·.map (·.key))

/-- The value of the first header whose lowered key is `lk`. -/
def lookup (lk : String) (hs : List RecordHeader) : Option String :=
  (hs.find? (fun h => lower h.key = lk)).map (·.value)

variable {lower}

theorem get_some (hs : List RecordHeader) (key : String) :
    get lower ⟨some hs⟩ key = (lookup lower (lower key) hs).getD "" := by
  cases h : hs.find? (fun h => lower h.key = lower key) <;> simp [get, lookup, h]

theorem setLoop_eq_none {lk val : String} {hs : List RecordHeader} :
    setLoop lower lk val hs = none ↔ ∀ h ∈ hs, lower h.key ≠ lk := by
  induction hs with
  | nil => simp [setLoop]
  | cons h hs ih => by_cases hh : lower h.key = lk <;> simp [setLoop, hh, ih]

/-- The loop changes values only. -/
theorem setLoop_keys {lk val : String} {hs hs' : List RecordHeader}
    (h : setLoop lower lk val hs = some hs') : hs'.map (·.key) = hs.map (·.key) := by
  induction hs generalizing hs' with
  | nil => simp [setLoop] at h
  | cons x hs ih =>
    simp only [setLoop] at h
    split_ifs at h
    · cases h; rfl
    · obtain ⟨hs'', h', rfl⟩ := Option.map_eq_some'.mp h
      simp [ih h']

/-- A second loop over the loop's result matches the same header. -/
theorem setLoop_setLoop {lk v w : String} {hs hs' : List RecordHeader}
    (h : setLoop lower lk v hs = some hs') : setLoop lower lk w hs' = setLoop lower lk w hs := by
  induction hs generalizing hs' with
  | nil => simp [setLoop] at h
  | cons x hs ih =>
    simp only [setLoop] at h
    split_ifs at h with hx
    · cases h; simp [setLoop, hx]
    · obtain ⟨hs'', h', rfl⟩ := Option.map_eq_some'.mp h
      simp [setLoop, hx, ih h']

theorem lookup_setLoop {lk val : String} {hs hs' : List RecordHeader}
    (h : setLoop lower lk val hs = some hs') (k : String) :
    lookup lower k hs' = if k = lk then some val else lookup lower k hs := by
  induction hs generalizing hs' with
  | nil => simp [setLoop] at h
  | cons x hs ih =>
    simp only [setLoop] at h
    split_ifs at h with hx
    · cases h
      by_cases hk : k = lk
      · simp [lookup, List.find?_cons, hx, hk]
      · simp [lookup, List.find?_cons, hx, hk, Ne.symm hk]
    · obtain ⟨hs'', h', rfl⟩ := Option.map_eq_some'.mp h
      by_cases hxk : lower x.key = k
      · subst hxk
        simp [lookup, List.find?_cons, hx]
      · simpa [lookup, List.find?_cons, hxk] using ih h'

/-- After `Set(key, val)`, the first match of any lowered key `k` is the new value when
    `k` is `key`'s, and is as before otherwise. -/
theorem lookup_setHeaders (key val : String) (hs : List RecordHeader) (k : String) :
    lookup lower k (setHeaders lower key val hs) =
      if k = lower key then some val else lookup lower k hs := by
  cases h : setLoop lower (lower key) val hs with
  | some hs' => simpa only [setHeaders, h] using lookup_setLoop h k
  | none =>
    have hno := setLoop_eq_none.mp h
    by_cases hk : k = lower key
    · subst hk
      have hfind : hs.find? (fun h => lower h.key = lower key) = none :=
        List.find?_eq_none.mpr fun h hh => by simpa using hno h hh
      simp [setHeaders, h, lookup, List.find?_append, hfind]
    · simp [setHeaders, h, lookup, List.find?_append, hk, Ne.symm hk]

theorem setHeaders_setHeaders (key v w : String) (hs : List RecordHeader) :
    setHeaders lower key w (setHeaders lower key v hs) = setHeaders lower key w hs := by
  cases h : setLoop lower (lower key) v hs with
  | some hs' =>
    obtain ⟨hs'', hw⟩ : ∃ x, setLoop lower (lower key) w hs = some x :=
      Option.ne_none_iff_exists'.mp fun hw => by
        simp [setLoop_eq_none.mpr (setLoop_eq_none.mp hw)] at h
    simp only [setHeaders, h, setLoop_setLoop h, hw]
  | none =>
    have hno := setLoop_eq_none.mp h
    have hw : setLoop lower (lower key) w (hs ++ [⟨key, v⟩]) = some (hs ++ [⟨key, w⟩]) := by
      clear h
      induction hs with
      | nil => simp [setLoop]
      | cons x hs ih =>
        simp only [List.mem_cons, forall_eq_or_imp] at hno
        simp [setLoop, hno.1, ih hno.2]
    simp [setHeaders, h, hw, setLoop_eq_none.mpr hno]

theorem keys_setHeaders (key val : String) (hs : List RecordHeader) :
    (setHeaders lower key val hs).map (·.key) =
      if hs.any (fun h => lower h.key = lower key) then hs.map (·.key)
      else hs.map (·.key) ++ [key] := by
  cases h : setLoop lower (lower key) val hs with
  | some hs' =>
    have hany : hs.any (fun h => lower h.key = lower key) := by
      by_contra hn
      simp only [Bool.not_eq_true, List.any_eq_false, decide_eq_true_eq] at hn
      simp [setLoop_eq_none.mpr hn] at h
    simp [setHeaders, h, hany, setLoop_keys h]
  | none =>
    have hno := setLoop_eq_none.mp h
    have hany : ¬ ∃ x ∈ hs, lower x.key = lower key := fun ⟨x, hx, he⟩ => hno x hx he
    simp [setHeaders, h, List.any_eq_true, hany]

/-- Over any non-nil header list, the carrier is a case-insensitive map: `Get` reads
    back what `Set` wrote, `Set` leaves the other keys' values alone, a second `Set` of
    a key overrides the first; `Keys` lists the header keys in order, and after `Set` it
    lists them with `key` appended exactly when no header key matches it. -/
theorem headerCarrier_caseInsensitiveMap (hs : List RecordHeader) (k k' v w : String) :
    let c : HeaderCarrier := ⟨some hs⟩
    get lower (set lower c k v) k = v ∧
      (lower k' ≠ lower k → get lower (set lower c k v) k' = get lower c k') ∧
      set lower (set lower c k v) k w = set lower c k w ∧
      keys c = some (hs.map (·.key)) ∧
      keys (set lower c k v) =
        some (if hs.any (fun h => lower h.key = lower k) then hs.map (·.key) else hs.map (·.key) ++ [k]) := by
  refine ⟨?_, fun hk => ?_, ?_, rfl, ?_⟩
  · simp [set, get_some, lookup_setHeaders]
  · simp [set, get_some, lookup_setHeaders, hk]
  · simp [set, setHeaders_setHeaders]
  · simp only [set, keys, Option.map_some', keys_setHeaders]

end HeaderCarrier

end GoLabs.Sarama

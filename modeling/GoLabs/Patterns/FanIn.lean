import GoLabs.Runtime

/-! # Fan-in

`fanIn` merges channels into one. It adds the number of input channels to a `WaitGroup`,
starts for each channel a goroutine that sends every value it receives from the channel on the
unbuffered channel `out` and then calls `wg.Done()`, starts a goroutine that waits for the group
and closes `out`, and returns `out`, over which its caller ranges. The goroutines' steps
interleave in any order.

Each input channel is given by the values its producer sends on it, after which the producer
closes it. A send on `out` is one step of its sender and of the caller, who can receive once
`fanIn` has returned `out`. A panic ends the program: the model records its message, and no run
reaches one, so what the model would do after it never matters.

Over every interleaving, one invariant holds (`Inv`): the `WaitGroup` counter is the number of
channels whose goroutine is not done, `out` is closed only once every forwarding goroutine has
returned, and what the caller has received, followed by any interleaving of what is still in
flight, is an interleaving of the inputs. So no run panics, by a send on the closed `out` or by a
negative counter (`fanIn_no_panic`); every schedule ends with `out` closed after the same number
of steps (`fanIn_run_ends`); and what the caller receives is exactly the interleavings of the
input channels, each channel's values in their order, none lost and none repeated
(`fanIn_outputs`).
-/

namespace GoLabs.FanIn

/-! ## The specification -/

/-- `out` interleaves the lists `ls`: each of its values is the next one of some list, and
    nothing of any list is left over. -/
inductive Interleaving {α : Type} : List (List α) → List α → Prop where
  | nil {ls : List (List α)} : (∀ l ∈ ls, l = []) → Interleaving ls []
  | cons {ls : List (List α)} {i : Nat} {v : α} {rest out : List α} :
    ls[i]? = some (v :: rest) → Interleaving (ls.set i rest) out → Interleaving ls (v :: out)

/-! ## The program -/

/-- Where the goroutine forwarding a channel is: in `for v := range c` with `rest` still to come
    on `c`, blocked on `out <- v` with `rest` after it, or returned, after `wg.Done()`. -/
inductive Fwd (α : Type) where
  | ranging (rest : List α)
  | sending (v : α) (rest : List α)
  | done
  deriving Repr, DecidableEq

/-- The program's state: the `WaitGroup` counter, the forwarding goroutines started, in the
    order of `chs`, whether `fanIn` has started the closing goroutine and returned `out`, whether
    `out` is closed, what the caller has received on it, and the panic, if any. -/
structure Sys (α : Type) where
  wg : Nat
  fs : List (Fwd α)
  returned : Bool
  closed : Bool
  out : List α
  panic : Option String
  deriving Repr, DecidableEq

/-- A step: `fanIn` starting the goroutine of the next channel, or starting the closing
    goroutine and returning; forwarding goroutine `i` receiving a value, leaving its loop and
    calling `wg.Done()`, or sending on `out`; the closing goroutine returning from `wg.Wait()`
    and closing `out`. -/
inductive Act where
  | spawn
  | spawnCloser
  | recv (i : Nat)
  | exit (i : Nat)
  | send (i : Nat)
  | close
  deriving Repr, DecidableEq

variable {α : Type} (chs : List (List α))

/-- One step of the program on the input channels `chs`; `none` when no goroutine can take it. -/
def step (s : Sys α) : Act → Option (Sys α)
  | .spawn =>
    match chs[s.fs.length]? with
    | some c => some { s with fs := s.fs ++ [.ranging c] }
    | none => none
  | .spawnCloser =>
    if s.fs.length = chs.length ∧ s.returned = false then some { s with returned := true } else none
  | .recv i =>
    match s.fs[i]? with
    | some (.ranging (v :: rest)) => some { s with fs := s.fs.set i (.sending v rest) }
    | _ => none
  | .exit i =>
    match s.fs[i]? with
    | some (.ranging []) =>
      if s.wg = 0 then some { s with panic := some "sync: negative WaitGroup counter" }
      else some { s with fs := s.fs.set i .done, wg := s.wg - 1 }
    | _ => none
  | .send i =>
    match s.fs[i]? with
    | some (.sending v rest) =>
      if s.closed then some { s with panic := some "send on closed channel" }
      else if s.returned then some { s with out := s.out ++ [v], fs := s.fs.set i (.ranging rest) }
      else none
    | _ => none
  | .close =>
    if s.returned ∧ s.wg = 0 ∧ s.closed = false then some { s with closed := true } else none

/-- The program after `wg.Add(len(chs))`. -/
def init : Sys α := ⟨chs.length, [], false, false, [], none⟩

/-- The steps of a schedule, one after another. -/
def run (s : Sys α) : List Act → Option (Sys α)
  | [] => some s
  | a :: as => (step chs s a).bind fun s' => run s' as

/-- Whether the goroutine has not yet returned. -/
def Fwd.live : Fwd α → Bool
  | .ranging _ | .sending _ _ => true
  | .done => false

/-- The values the goroutine has still to send. -/
def Fwd.pending : Fwd α → List α
  | .ranging rest => rest
  | .sending v rest => v :: rest
  | .done => []

@[simp] theorem Fwd.live_ranging (rest : List α) : (Fwd.ranging rest).live = true := rfl
@[simp] theorem Fwd.live_sending (v : α) (rest : List α) : (Fwd.sending v rest).live = true := rfl
@[simp] theorem Fwd.live_done : (Fwd.done : Fwd α).live = false := rfl
@[simp] theorem Fwd.pending_ranging (rest : List α) : (Fwd.ranging rest).pending = rest := rfl
@[simp] theorem Fwd.pending_sending (v : α) (rest : List α) : (Fwd.sending v rest).pending = v :: rest := rfl
@[simp] theorem Fwd.pending_done : (Fwd.done : Fwd α).pending = [] := rfl

/-- What each input channel has still to send on `out`, with the goroutines `fs` started: its
    goroutine's pending values, or the whole channel before its goroutine starts. -/
def remaining (fs : List (Fwd α)) : List (List α) := fs.map Fwd.pending ++ chs.drop fs.length

/-! ## One step -/

variable {chs}

/-- Everything a step can do, with its guard. -/
theorem step_cases {s s' : Sys α} {a : Act} (h : step chs s a = some s') :
    (∃ c, chs[s.fs.length]? = some c ∧ s' = { s with fs := s.fs ++ [.ranging c] }) ∨
    (s.fs.length = chs.length ∧ s.returned = false ∧ s' = { s with returned := true }) ∨
    (∃ i v rest, s.fs[i]? = some (.ranging (v :: rest)) ∧ s' = { s with fs := s.fs.set i (.sending v rest) }) ∨
    (∃ i, s.fs[i]? = some (.ranging []) ∧
      (s.wg = 0 ∧ s' = { s with panic := some "sync: negative WaitGroup counter" } ∨
        s.wg ≠ 0 ∧ s' = { s with fs := s.fs.set i .done, wg := s.wg - 1 })) ∨
    (∃ i v rest, s.fs[i]? = some (.sending v rest) ∧
      (s.closed = true ∧ s' = { s with panic := some "send on closed channel" } ∨
        s.closed = false ∧ s.returned = true ∧
          s' = { s with out := s.out ++ [v], fs := s.fs.set i (.ranging rest) })) ∨
    (s.returned = true ∧ s.wg = 0 ∧ s.closed = false ∧ s' = { s with closed := true }) := by
  cases a with
  | spawn =>
    simp only [step] at h
    split at h
    · exact .inl ⟨_, ‹_›, (Option.some.inj h).symm⟩
    · cases h
  | spawnCloser =>
    simp only [step] at h
    split at h
    · next hg => exact .inr (.inl ⟨hg.1, hg.2, (Option.some.inj h).symm⟩)
    · cases h
  | recv i =>
    simp only [step] at h
    split at h
    · exact .inr (.inr (.inl ⟨i, _, _, ‹_›, (Option.some.inj h).symm⟩))
    · cases h
  | exit i =>
    simp only [step] at h
    split at h
    · next hg =>
      refine .inr (.inr (.inr (.inl ⟨i, hg, ?_⟩)))
      split at h
      · exact .inl ⟨‹_›, (Option.some.inj h).symm⟩
      · exact .inr ⟨‹_›, (Option.some.inj h).symm⟩
    · cases h
  | send i =>
    simp only [step] at h
    split at h
    · next hg =>
      refine .inr (.inr (.inr (.inr (.inl ⟨i, _, _, hg, ?_⟩))))
      split at h
      · exact .inl ⟨‹_›, (Option.some.inj h).symm⟩
      · split at h
        · next hc hr => exact .inr ⟨by simpa using hc, hr, (Option.some.inj h).symm⟩
        · cases h
    · cases h
  | close =>
    simp only [step] at h
    split at h
    · next hg => exact .inr (.inr (.inr (.inr (.inr ⟨hg.1, hg.2.1, hg.2.2, (Option.some.inj h).symm⟩))))
    · cases h

/-! ## The invariant -/

@[simp] theorem Fwd.live_eq_false {f : Fwd α} : f.live = false ↔ f = .done := by
  cases f <;> simp

variable (chs) in
/-- What every reachable state keeps: at most one goroutine per channel; the `WaitGroup` counts
    the channels whose goroutine is not done; `fanIn` returns only after starting every
    goroutine; `out` is closed only after `fanIn` returned and every goroutine is done; nothing
    panicked; and what the caller received, followed by any interleaving of what the channels
    have still to send, is an interleaving of the channels. -/
structure Inv (s : Sys α) : Prop where
  len_le : s.fs.length ≤ chs.length
  wg_eq : s.wg = chs.length - s.fs.length + s.fs.countP Fwd.live
  returned_len : s.returned = true → s.fs.length = chs.length
  closed_done : s.closed = true → s.returned = true ∧ ∀ f ∈ s.fs, f = .done
  panic_none : s.panic = none
  merges : ∀ rest, Interleaving (remaining chs s.fs) rest → Interleaving chs (s.out ++ rest)

theorem inv_init (chs : List (List α)) : Inv chs (init chs) where
  len_le := Nat.zero_le _
  wg_eq := by simp [init]
  returned_len := nofun
  closed_done := nofun
  panic_none := rfl
  merges _ h := by simpa [init, remaining] using h

section Live

variable {s : Sys α} {i : Nat} {f : Fwd α}

/-- A goroutine not yet done keeps the `WaitGroup` counter positive. -/
theorem Inv.wg_pos (hi : Inv chs s) (hg : s.fs[i]? = some f) (hf : f.live = true) : 0 < s.wg := by
  have : 0 < s.fs.countP Fwd.live := List.countP_pos_iff.2 ⟨f, List.getElem?_mem hg, hf⟩
  rw [hi.wg_eq]; omega

/-- A goroutine not yet done keeps `out` open. -/
theorem Inv.closed_false (hi : Inv chs s) (hg : s.fs[i]? = some f) (hf : f.live = true) :
    s.closed = false := by
  cases hc : s.closed with
  | false => rfl
  | true => simp [(hi.closed_done hc).2 f (List.getElem?_mem hg)] at hf

end Live

/-- Under the invariant no step panics: a step starts a goroutine, returns from `fanIn`, moves
    one goroutine through its loop, or closes `out` once the counter is zero. -/
theorem Inv.step_cases {s s' : Sys α} {a : Act} (hi : Inv chs s) (h : step chs s a = some s') :
    (∃ c, chs[s.fs.length]? = some c ∧ s' = { s with fs := s.fs ++ [.ranging c] }) ∨
    (s.fs.length = chs.length ∧ s.returned = false ∧ s' = { s with returned := true }) ∨
    (∃ i v rest, s.fs[i]? = some (.ranging (v :: rest)) ∧ s' = { s with fs := s.fs.set i (.sending v rest) }) ∨
    (∃ i, s.fs[i]? = some (.ranging []) ∧ s' = { s with fs := s.fs.set i .done, wg := s.wg - 1 }) ∨
    (∃ i v rest, s.fs[i]? = some (.sending v rest) ∧ s.returned = true ∧
      s' = { s with out := s.out ++ [v], fs := s.fs.set i (.ranging rest) }) ∨
    (s.returned = true ∧ s.wg = 0 ∧ s.closed = false ∧ s' = { s with closed := true }) := by
  rcases FanIn.step_cases h with h | h | h | ⟨i, hg, ⟨hw, -⟩ | ⟨-, rfl⟩⟩ | ⟨i, v, rest, hg, ⟨hc, -⟩ | ⟨-, hr, rfl⟩⟩ | h
  · exact .inl h
  · exact .inr (.inl h)
  · exact .inr (.inr (.inl h))
  · -- `wg.Done()` with the counter at zero
    have := hi.wg_pos hg rfl; omega
  · exact .inr (.inr (.inr (.inl ⟨i, hg, rfl⟩)))
  · -- a send on the closed `out`
    simp [hi.closed_false hg rfl] at hc
  · exact .inr (.inr (.inr (.inr (.inl ⟨i, v, rest, hg, hr, rfl⟩))))
  · exact .inr (.inr (.inr (.inr (.inr h))))

section Remaining

variable {fs : List (Fwd α)} {i : Nat}

/-- Starting a goroutine moves its channel from the channels not started to the goroutines. -/
theorem remaining_spawn {c : List α} (hc : chs[fs.length]? = some c) :
    remaining chs (fs ++ [Fwd.ranging c]) = remaining chs fs := by
  obtain ⟨hlt, rfl⟩ := List.getElem?_eq_some_iff.1 hc
  simp only [remaining, List.map_append, List.map_singleton, Fwd.pending_ranging, List.length_append,
    List.length_singleton, List.append_assoc, List.singleton_append]
  rw [List.drop_eq_getElem_cons hlt]

/-- A goroutine's move that keeps its pending values keeps what remains. -/
theorem remaining_set {f : Fwd α} (g : Fwd α) (hg : fs[i]? = some f) (he : g.pending = f.pending) :
    remaining chs (fs.set i g) = remaining chs fs := by
  rw [remaining, map_set_of_eq Fwd.pending hg he, List.length_set, remaining]

/-- A send takes the value off the front of what its channel has still to send. -/
theorem remaining_send {v : α} {rest : List α} (hg : fs[i]? = some (.sending v rest)) :
    (remaining chs fs)[i]? = some (v :: rest) ∧
      remaining chs (fs.set i (.ranging rest)) = (remaining chs fs).set i rest := by
  have hlt : i < (fs.map Fwd.pending).length := by
    simpa using (List.getElem?_eq_some_iff.1 hg).1
  refine ⟨by rw [remaining, List.getElem?_append_left hlt, List.getElem?_map, hg]; rfl, ?_⟩
  rw [remaining, remaining, List.map_set, List.set_append_left _ _ hlt, List.length_set]
  rfl

end Remaining

/-- Every step keeps the invariant. -/
theorem Inv.step {s s' : Sys α} {a : Act} (hi : Inv chs s) (h : step chs s a = some s') : Inv chs s' := by
  rcases hi.step_cases h with ⟨c, hc, rfl⟩ | ⟨hlen, hr, rfl⟩ | ⟨i, v, rest, hg, rfl⟩ | ⟨i, hg, rfl⟩ |
    ⟨i, v, rest, hg, hr, rfl⟩ | ⟨hr, hw, -, rfl⟩
  · -- `fanIn` starts the goroutine of channel `c`
    have hlt := (List.getElem?_eq_some_iff.1 hc).1
    have hr : s.returned = false := Bool.eq_false_iff.2 fun hr => by
      have := hi.returned_len hr; omega
    refine ⟨by simp; omega, by simp [hi.wg_eq]; omega, by simp [hr],
      fun hc => absurd (hi.closed_done hc).1 (by simp [hr]), hi.panic_none, ?_⟩
    intro r hm
    exact hi.merges r (by rwa [remaining_spawn hc] at hm)
  · -- `fanIn` starts the closing goroutine and returns
    exact ⟨hi.len_le, hi.wg_eq, fun _ => hlen, fun hc => absurd (hi.closed_done hc).1 (by simp [hr]),
      hi.panic_none, hi.merges⟩
  · -- goroutine `i` receives `v`
    have hd := countP_set_add Fwd.live hg (.sending v rest)
    have hc := hi.closed_false hg rfl
    simp at hd
    refine ⟨by simpa using hi.len_le, by simpa [hd] using hi.wg_eq, by simpa using hi.returned_len,
      by simp [hc], hi.panic_none, ?_⟩
    intro r hm
    exact hi.merges r (by rwa [remaining_set (.sending v rest) hg rfl] at hm)
  · -- goroutine `i` leaves its loop and calls `wg.Done()`
    have hd := countP_set_add Fwd.live hg .done
    have hc := hi.closed_false hg rfl
    simp at hd
    refine ⟨by simpa using hi.len_le, by simp only [List.length_set, hi.wg_eq]; omega,
      by simpa using hi.returned_len, by simp [hc], hi.panic_none, ?_⟩
    intro r hm
    exact hi.merges r (by rwa [remaining_set .done hg rfl] at hm)
  · -- goroutine `i` sends `v`, and the caller receives it
    have hd := countP_set_add Fwd.live hg (.ranging rest)
    have hc := hi.closed_false hg rfl
    obtain ⟨hget, hset⟩ := @remaining_send _ chs _ _ _ _ hg
    simp at hd
    refine ⟨by simpa using hi.len_le, by simpa [hd] using hi.wg_eq, by simpa using hi.returned_len,
      by simp [hc], hi.panic_none, ?_⟩
    intro r hm
    have := hi.merges (v :: r) (.cons hget (by rwa [hset] at hm))
    simpa using this
  · -- the closing goroutine returns from `wg.Wait()` and closes `out`
    have hlen := hi.returned_len hr
    have hall : ∀ f ∈ s.fs, f = .done := by
      have := hi.wg_eq
      rw [hw, hlen, Nat.sub_self, Nat.zero_add, eq_comm, List.countP_eq_zero] at this
      simpa using this
    exact ⟨hi.len_le, hi.wg_eq, fun _ => hlen, fun _ => ⟨hr, hall⟩, hi.panic_none, hi.merges⟩

theorem run_append (s : Sys α) (as bs : List Act) :
    run chs s (as ++ bs) = (run chs s as).bind fun s' => run chs s' bs := by
  induction as generalizing s with
  | nil => rfl
  | cons a as ih =>
    simp only [List.cons_append, run]
    cases step chs s a <;> simp [ih]

/-- Every run keeps the invariant. -/
theorem Inv.run {s s' : Sys α} {acts : List Act} (hi : Inv chs s) (h : run chs s acts = some s') :
    Inv chs s' := by
  induction acts generalizing s with
  | nil => cases h; exact hi
  | cons a as ih =>
    simp only [FanIn.run] at h
    cases hs : FanIn.step chs s a with
    | none => simp [hs] at h
    | some s₁ => exact ih (hi.step hs) (by simpa [hs] using h)

/-- Over every interleaving, nothing panics: the counter never goes below zero, and `out` is
    closed only once every forwarding goroutine has returned, so none ever sends on it. -/
theorem fanIn_no_panic {acts : List Act} {s : Sys α} (h : run chs (init chs) acts = some s) :
    s.panic = none ∧ (s.closed = true → ∀ f ∈ s.fs, f = .done) :=
  have hi := (inv_init chs).run h
  ⟨hi.panic_none, fun hc => (hi.closed_done hc).2⟩


theorem fanIn_no_panic_two :
    run [[1], [2]] (init [[1], [2]])
        [.spawn, .spawn, .spawnCloser, .recv 1, .send 1, .recv 0, .send 0, .exit 0, .exit 1, .close] =
      some ⟨0, [.done, .done], true, true, [2, 1], none⟩ ∧
    (⟨0, [.done, .done], true, true, [2, 1], none⟩ : Sys Nat).panic = none ∧
      ((⟨0, [.done, .done], true, true, [2, 1], none⟩ : Sys Nat).closed = true →
        ∀ f ∈ (⟨0, [.done, .done], true, true, [2, 1], none⟩ : Sys Nat).fs, f = .done) :=
  have h : run [[1], [2]] (init [[1], [2]])
      [.spawn, .spawn, .spawnCloser, .recv 1, .send 1, .recv 0, .send 0, .exit 0, .exit 1, .close] =
      some ⟨0, [.done, .done], true, true, [2, 1], none⟩ := rfl
  ⟨h, fanIn_no_panic h⟩

/-- Once `out` is closed, every channel has sent everything... -/
theorem Inv.remaining_nil {s : Sys α} (hi : Inv chs s) (hc : s.closed = true) :
    ∀ l ∈ remaining chs s.fs, l = [] := by
  obtain ⟨hr, hall⟩ := hi.closed_done hc
  simp only [remaining, List.drop_of_length_le (hi.returned_len hr).ge, List.append_nil, List.mem_map]
  rintro l ⟨f, hf, rfl⟩
  rw [hall f hf]; rfl

/-- ... and the caller has received an interleaving of the channels. -/
theorem Inv.interleaving_of_closed {s : Sys α} (hi : Inv chs s) (hc : s.closed = true) :
    Interleaving chs s.out := by
  simpa using hi.merges [] (.nil (hi.remaining_nil hc))

/-! ## Every schedule ends with `out` closed

Each step takes one of the steps left: for each channel not started, the start of its goroutine,
a receive and a send per value, and its `wg.Done()`; the sends and `wg.Done()` still to come of
each started goroutine; `fanIn`'s return and the close. And no reachable state is stuck before
the close: a goroutine not done can move, or waits for `fanIn` to return, and once all are done
the counter is zero. -/

/-- Whether the goroutine waits to receive from its channel. -/
def Fwd.receiving : Fwd α → Bool
  | .ranging _ => true
  | .sending _ _ | .done => false

@[simp] theorem Fwd.receiving_ranging (rest : List α) : (Fwd.ranging rest).receiving = true := rfl
@[simp] theorem Fwd.receiving_sending (v : α) (rest : List α) : (Fwd.sending v rest).receiving = false := rfl
@[simp] theorem Fwd.receiving_done : (Fwd.done : Fwd α).receiving = false := rfl

variable (chs) in
/-- The steps a schedule still has to take: a receive and a send for each value still to send,
    one fewer for a goroutine that holds its value, a `wg.Done()` for each goroutine not done, the
    start of each goroutine not started, and `fanIn`'s return and the close. -/
def stepsLeft (s : Sys α) : Nat :=
  2 * (remaining chs s.fs).flatten.length + s.fs.countP Fwd.receiving + 2 * (chs.length - s.fs.length) +
    (if s.returned then 0 else 1) + (if s.closed then 0 else 1)

theorem stepsLeft_step {s s' : Sys α} {a : Act} (hi : Inv chs s) (h : step chs s a = some s') :
    stepsLeft chs s' + 1 = stepsLeft chs s := by
  rcases hi.step_cases h with ⟨c, hc, rfl⟩ | ⟨-, hr, rfl⟩ | ⟨i, v, rest, hg, rfl⟩ | ⟨i, hg, rfl⟩ |
    ⟨i, v, rest, hg, -, rfl⟩ | ⟨-, -, hc, rfl⟩
  · -- `fanIn` starts the goroutine of `c`
    have hlt := (List.getElem?_eq_some_iff.1 hc).1
    simp only [stepsLeft, remaining_spawn hc, List.countP_append, List.length_append]
    simp
    omega
  · simp [stepsLeft, hr]; omega
  · have := countP_set_add Fwd.receiving hg (.sending v rest)
    simp at this
    simp only [stepsLeft, remaining_set (.sending v rest) hg rfl, List.length_set]
    omega
  · have := countP_set_add Fwd.receiving hg .done
    simp at this
    simp only [stepsLeft, remaining_set .done hg rfl, List.length_set]
    omega
  · have := countP_set_add Fwd.receiving hg (.ranging rest)
    simp at this
    obtain ⟨hget, hset⟩ := @remaining_send _ chs _ _ _ _ hg
    have := length_flatten_set_add hget rest
    simp only [List.length_cons] at this
    simp only [stepsLeft, hset, List.length_set]
    omega
  · simp [stepsLeft, hc]

theorem stepsLeft_run {s s' : Sys α} {acts : List Act} (hi : Inv chs s) (h : run chs s acts = some s') :
    stepsLeft chs s' + acts.length = stepsLeft chs s := by
  induction acts generalizing s with
  | nil => cases h; rfl
  | cons a as ih =>
    simp only [run] at h
    cases hs : FanIn.step chs s a with
    | none => simp [hs] at h
    | some s₁ =>
      have := ih (hi.step hs) (by simpa [hs] using h)
      have := stepsLeft_step hi hs
      simp only [List.length_cons]
      omega

/-- No reachable state is stuck before `out` is closed. -/
theorem step_enabled {s : Sys α} (hi : Inv chs s) (hc : s.closed = false) :
    ∃ a s', step chs s a = some s' := by
  rcases Nat.lt_or_ge s.fs.length chs.length with hlt | hge
  · exact ⟨.spawn, _, by simp only [step, List.getElem?_eq_getElem hlt]; rfl⟩
  have hlen := Nat.le_antisymm hi.len_le hge
  cases hr : s.returned with
  | false => exact ⟨.spawnCloser, _, if_pos ⟨hlen, hr⟩⟩
  | true =>
    by_cases hall : ∀ f ∈ s.fs, f = .done
    · have hwg : s.wg = 0 := by
        rw [hi.wg_eq, hlen, Nat.sub_self, Nat.zero_add, List.countP_eq_zero]
        simpa using hall
      exact ⟨.close, _, if_pos ⟨hr, hwg, hc⟩⟩
    · obtain ⟨f, hf, hne⟩ := not_forall₂.1 hall
      obtain ⟨i, hfi⟩ := List.mem_iff_getElem?.1 hf
      rcases f with ⟨_ | ⟨v, rest⟩⟩ | ⟨v, rest⟩ | _
      · exact ⟨.exit i, _, by simp only [step, hfi, if_neg (Nat.pos_iff_ne_zero.1 (hi.wg_pos hfi rfl))]; rfl⟩
      · exact ⟨.recv i, _, by simp only [step, hfi]; rfl⟩
      · exact ⟨.send i, _, by simp only [step, hfi, hc, hr]; rfl⟩
      · exact absurd rfl hne

/-- Every schedule ends with `out` closed: no run takes more steps than two per value of the
    channels, two per channel and two more, and one that no step extends has taken exactly that
    many, closed `out`, and given the caller an interleaving of the channels. -/
theorem fanIn_run_ends {acts : List Act} {s : Sys α} (h : run chs (init chs) acts = some s) :
    acts.length ≤ 2 * chs.flatten.length + 2 * chs.length + 2 ∧
      ((∀ a, step chs s a = none) →
        acts.length = 2 * chs.flatten.length + 2 * chs.length + 2 ∧ s.closed = true ∧ Interleaving chs s.out) := by
  have hlen := stepsLeft_run (inv_init chs) h
  have hinit : stepsLeft chs (init chs) = 2 * chs.flatten.length + 2 * chs.length + 2 := by
    simp [stepsLeft, init, remaining]
  refine ⟨by omega, fun hstuck => ?_⟩
  have hi := (inv_init chs).run h
  have hc : s.closed = true := Bool.of_not_eq_false fun hc => by
    obtain ⟨a, s', hs⟩ := step_enabled hi hc
    simp [hstuck a] at hs
  obtain ⟨hr, hall⟩ := hi.closed_done hc
  have hzero : stepsLeft chs s = 0 := by
    have hrecv : s.fs.countP Fwd.receiving = 0 := List.countP_eq_zero.2 fun f hf => by simp [hall f hf]
    simp [stepsLeft, List.flatten_eq_nil_iff.2 (hi.remaining_nil hc), hrecv, hi.returned_len hr, hr, hc]
  exact ⟨by omega, hc, hi.interleaving_of_closed hc⟩


theorem fanIn_run_ends_one :
    run [[1]] (init [[1]]) [.spawn, .spawnCloser, .recv 0, .send 0, .exit 0, .close] =
      some ⟨0, [.done], true, true, [1], none⟩ ∧
    (∀ a, step [[1]] ⟨0, [.done], true, true, [1], none⟩ a = none) ∧
      ([Act.spawn, .spawnCloser, .recv 0, .send 0, .exit 0, .close].length =
          2 * [[1]].flatten.length + 2 * [[1]].length + 2 ∧
        (⟨0, [.done], true, true, [1], none⟩ : Sys Nat).closed = true ∧ Interleaving [[1]] [1]) := by
  have hstuck : ∀ a, step [[1]] ⟨0, [.done], true, true, [1], none⟩ a = none := by
    intro a
    rcases a with _ | _ | i | i | i | _ <;> (try cases i) <;> rfl
  have h : run [[1]] (init [[1]]) [.spawn, .spawnCloser, .recv 0, .send 0, .exit 0, .close] =
      some ⟨0, [.done], true, true, [1], none⟩ := rfl
  exact ⟨h, hstuck, (fanIn_run_ends h).2 hstuck⟩

/-! ## Schedules

Every interleaving of the channels is what the caller receives in some schedule: after `fanIn`
has started every goroutine and returned, the goroutine of the channel each next value comes from
receives it and sends it, and once every channel is empty the goroutines return one after
another and `out` is closed. -/

section Steps

variable {w i : Nat} {fs : List (Fwd α)} {r cl : Bool} {out : List α} {p : Option String} {v : α}
  {rest : List α}

theorem step_spawn_mk {c : List α} (h : chs[fs.length]? = some c) :
    step chs ⟨w, fs, r, cl, out, p⟩ .spawn = some ⟨w, fs ++ [.ranging c], r, cl, out, p⟩ := by
  simp only [step, h]

theorem step_recv_mk (h : fs[i]? = some (.ranging (v :: rest))) :
    step chs ⟨w, fs, r, cl, out, p⟩ (.recv i) = some ⟨w, fs.set i (.sending v rest), r, cl, out, p⟩ := by
  simp only [step, h]

theorem step_exit_mk (h : fs[i]? = some (.ranging [])) :
    step chs ⟨w + 1, fs, r, cl, out, p⟩ (.exit i) = some ⟨w, fs.set i .done, r, cl, out, p⟩ := by
  simp only [step, h]; rfl

theorem step_send_mk (h : fs[i]? = some (.sending v rest)) :
    step chs ⟨w, fs, true, false, out, p⟩ (.send i) =
      some ⟨w, fs.set i (.ranging rest), true, false, out ++ [v], p⟩ := by
  simp only [step, h]; rfl

end Steps

theorem run_spawns (j : Nat) : ∀ fs : List (Fwd α), fs.length + j = chs.length →
    run chs ⟨chs.length, fs, false, false, [], none⟩ (List.replicate j .spawn) =
      some ⟨chs.length, fs ++ (chs.drop fs.length).map .ranging, false, false, [], none⟩ := by
  induction j with
  | zero =>
    intro fs h
    simp [run, List.drop_of_length_le (Nat.le_of_eq (Nat.add_zero _ ▸ h).symm)]
  | succ j ih =>
    intro fs h
    have hlt : fs.length < chs.length := by omega
    rw [List.replicate_succ, run, step_spawn_mk (List.getElem?_eq_getElem hlt), Option.some_bind,
      ih _ (by simp; omega), List.drop_eq_getElem_cons hlt]
    simp only [List.length_append, List.length_singleton, List.map_cons, List.append_assoc,
      List.singleton_append]

/-- Once every channel is empty, the goroutines return one after another. -/
theorem run_exits (k : Nat) : ∀ j (out : List α), ∃ acts,
    run chs ⟨k, List.replicate j .done ++ List.replicate k (.ranging []), true, false, out, none⟩ acts =
      some ⟨0, List.replicate (j + k) .done, true, false, out, none⟩ := by
  induction k with
  | zero => exact fun j out => ⟨[], by simp [run]⟩
  | succ k ih =>
    intro j out
    obtain ⟨acts, h⟩ := ih (j + 1) out
    refine ⟨.exit j :: acts, ?_⟩
    rw [List.replicate_succ, run, step_exit_mk (getElem?_replicate_append ..), Option.some_bind,
      set_replicate_append, replicate_append_cons, h, Nat.add_right_comm j 1 k]
    rfl

/-- From the goroutines ranging over `ls`, after `fanIn` returned, a schedule delivers any
    interleaving of `ls` and closes `out`. -/
theorem run_delivers {ls : List (List α)} {o : List α} (hm : Interleaving ls o) : ∀ out : List α, ∃ acts,
    run chs ⟨ls.length, ls.map .ranging, true, false, out, none⟩ acts =
      some ⟨0, List.replicate ls.length .done, true, true, out ++ o, none⟩ := by
  induction hm with
  | @nil ls hall =>
    intro out
    have hls : ls.map Fwd.ranging = List.replicate ls.length (.ranging []) :=
      List.eq_replicate_iff.2 ⟨by simp, by simpa using hall⟩
    obtain ⟨acts, h⟩ := @run_exits _ chs ls.length 0 out
    refine ⟨acts ++ [.close], ?_⟩
    rw [run_append, hls, ← List.nil_append (List.replicate ls.length _), ← List.replicate_zero, h,
      Nat.zero_add, Option.some_bind, List.append_nil]
    rfl
  | @cons ls i v rest o hg _ ih =>
    intro out
    have hi : i < ls.length := (List.getElem?_eq_some_iff.1 hg).1
    have hr : (ls.map Fwd.ranging)[i]? = some (.ranging (v :: rest)) := by simp [hg]
    obtain ⟨acts, h⟩ := ih (out ++ [v])
    refine ⟨.recv i :: .send i :: acts, ?_⟩
    rw [run, step_recv_mk hr, Option.some_bind, run,
      step_send_mk (List.getElem?_set_self (by simpa using hi)), Option.some_bind, List.set_set,
      ← List.map_set, ← List.length_set ls i rest, h, List.length_set, List.append_assoc]
    rfl

/-- What the caller receives, over all schedules that close `out`, is exactly the interleavings
    of the input channels: each channel's values in their order, none lost and none repeated. -/
theorem fanIn_outputs (o : List α) :
    (∃ acts s, run chs (init chs) acts = some s ∧ s.closed = true ∧ s.out = o) ↔ Interleaving chs o := by
  constructor
  · rintro ⟨acts, s, h, hc, rfl⟩
    exact ((inv_init chs).run h).interleaving_of_closed hc
  · intro hm
    obtain ⟨acts, h⟩ := @run_delivers _ chs _ _ hm []
    refine ⟨List.replicate chs.length .spawn ++ .spawnCloser :: acts,
      ⟨0, List.replicate chs.length .done, true, true, [] ++ o, none⟩, ?_, rfl, rfl⟩
    have hsp := @run_spawns _ chs chs.length [] (Nat.zero_add _)
    rw [List.nil_append, List.length_nil, List.drop_zero] at hsp
    rw [init, run_append, hsp, Option.some_bind, run]
    simpa [step] using h

end GoLabs.FanIn

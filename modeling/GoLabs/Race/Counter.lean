import GoLabs.Runtime

/-! # The racy counter

`main` starts `1000` goroutines, each running `x++` then `wg.Done()`, waits for them with
`wg.Wait()` and prints `x`. The increment is not atomic: a goroutine loads `x`, adds one and
stores the sum, and the steps of the goroutines and of `main` interleave in any order.

Over every interleaving, every state keeps one invariant (`Inv`): `x` is at most the number of
stores made, and at least one once a store is made; the `WaitGroup` counter is the number of
goroutines not done. So whatever `main` prints lies between `1` and the number of goroutines
(`printed_bounds`). Each of those values is printed by some schedule (`printed_reachable`):
goroutines that load the same `x` before any of them stores lose all their increments but one.
No schedule is stuck before the print or runs forever (`run_ends_printed`).

The model runs the steps one at a time on one copy of `x`: it is the sequentially consistent
reading of the program, the one its comment has in mind; Go's memory model gives a racy
program no such guarantee.
-/

namespace GoLabs.Race

/-- Where a goroutine is in `x++; wg.Done()`: not started, holding the `x` it loaded, after
    its store, or after `wg.Done()`. -/
inductive GState where
  | ready
  | loaded (v : Nat)
  | stored
  | done
  deriving Repr, DecidableEq

/-- Whether the goroutine has made its store. -/
def GState.finished : GState → Bool
  | .ready | .loaded _ => false
  | .stored | .done => true

@[simp] theorem GState.finished_ready : GState.ready.finished = false := rfl
@[simp] theorem GState.finished_loaded (v : Nat) : (GState.loaded v).finished = false := rfl
@[simp] theorem GState.finished_stored : GState.stored.finished = true := rfl
@[simp] theorem GState.finished_done : GState.done.finished = true := rfl

/-- The program's state: `x`, the goroutines `main` has started, in order, the `WaitGroup`
    counter and what `main` printed. -/
structure Sys where
  x : Nat
  gs : List GState
  wg : Nat
  printed : Option Nat
  deriving Repr, DecidableEq

/-- A step: `main` starting the next goroutine (`wg.Add(1); go ...`) or returning from
    `wg.Wait()` and printing `x`; goroutine `i` loading `x`, storing the sum, or calling
    `wg.Done()`. -/
inductive Act where
  | spawn
  | load (i : Nat)
  | store (i : Nat)
  | done (i : Nat)
  | waitPrint
  deriving Repr, DecidableEq

/-- The loop count of `main`. -/
def goroutines : Nat := 1000

/-- One step of `main` with `n` goroutines to start, or of a goroutine; `none` when the party
    cannot take it. -/
def step (n : Nat) (s : Sys) : Act → Option Sys
  | .spawn => if s.gs.length < n then some { s with gs := s.gs ++ [.ready], wg := s.wg + 1 } else none
  | .load i =>
    match s.gs[i]? with
    | some .ready => some { s with gs := s.gs.set i (.loaded s.x) }
    | _ => none
  | .store i =>
    match s.gs[i]? with
    | some (.loaded v) => some { s with x := v + 1, gs := s.gs.set i .stored }
    | _ => none
  | .done i =>
    match s.gs[i]? with
    | some .stored => some { s with gs := s.gs.set i .done, wg := s.wg - 1 }
    | _ => none
  | .waitPrint =>
    if s.gs.length = n ∧ s.wg = 0 ∧ s.printed = none then some { s with printed := some s.x } else none

/-- The program before `main`'s loop. -/
def init : Sys := ⟨0, [], 0, none⟩

/-- The steps of a schedule, one after another. -/
def run (n : Nat) (s : Sys) : List Act → Option Sys
  | [] => some s
  | a :: as => (step n s a).bind fun s' => run n s' as

/-! ## One step -/

/-- Everything a step can do, with its guard. -/
theorem step_cases {n : Nat} {s s' : Sys} {a : Act} (h : step n s a = some s') :
    (a = .spawn ∧ s.gs.length < n ∧ s' = { s with gs := s.gs ++ [.ready], wg := s.wg + 1 }) ∨
    (∃ i, a = .load i ∧ s.gs[i]? = some .ready ∧ s' = { s with gs := s.gs.set i (.loaded s.x) }) ∨
    (∃ i v, a = .store i ∧ s.gs[i]? = some (.loaded v) ∧
      s' = { s with x := v + 1, gs := s.gs.set i .stored }) ∨
    (∃ i, a = .done i ∧ s.gs[i]? = some .stored ∧ s' = { s with gs := s.gs.set i .done, wg := s.wg - 1 }) ∨
    (a = .waitPrint ∧ s.gs.length = n ∧ s.wg = 0 ∧ s.printed = none ∧ s' = { s with printed := some s.x }) := by
  cases a with
  | spawn =>
    simp only [step] at h
    split at h
    · exact .inl ⟨rfl, ‹_›, (Option.some.inj h).symm⟩
    · cases h
  | load i =>
    simp only [step] at h
    split at h
    · exact .inr (.inl ⟨i, rfl, ‹_›, (Option.some.inj h).symm⟩)
    · cases h
  | store i =>
    simp only [step] at h
    split at h
    · exact .inr (.inr (.inl ⟨i, _, rfl, ‹_›, (Option.some.inj h).symm⟩))
    · cases h
  | done i =>
    simp only [step] at h
    split at h
    · exact .inr (.inr (.inr (.inl ⟨i, rfl, ‹_›, (Option.some.inj h).symm⟩)))
    · cases h
  | waitPrint =>
    simp only [step] at h
    split at h
    · next hg => exact .inr (.inr (.inr (.inr ⟨rfl, hg.1, hg.2.1, hg.2.2, (Option.some.inj h).symm⟩)))
    · cases h

section Steps

variable {n x w i : Nat} {gs : List GState} {p : Option Nat}

theorem step_spawn_mk (h : gs.length < n) : step n ⟨x, gs, w, p⟩ .spawn = some ⟨x, gs ++ [.ready], w + 1, p⟩ := by
  simp only [step, if_pos h]

theorem step_load_mk (h : gs[i]? = some .ready) :
    step n ⟨x, gs, w, p⟩ (.load i) = some ⟨x, gs.set i (.loaded x), w, p⟩ := by
  simp only [step, h]

theorem step_store_mk {v : Nat} (h : gs[i]? = some (.loaded v)) :
    step n ⟨x, gs, w, p⟩ (.store i) = some ⟨v + 1, gs.set i .stored, w, p⟩ := by
  simp only [step, h]

theorem step_done_mk (h : gs[i]? = some .stored) :
    step n ⟨x, gs, w, p⟩ (.done i) = some ⟨x, gs.set i .done, w - 1, p⟩ := by
  simp only [step, h]

end Steps

/-! ## The invariant -/

/-- What every reachable state keeps: at most `n` goroutines started; the `WaitGroup` counts
    those not done; `x`, and every value a goroutine holds, is at most the number of stores
    made, and `x` is at least one once a store is made; once `main` printed, it printed `x` and
    every goroutine is done. -/
structure Inv (n : Nat) (s : Sys) : Prop where
  len_le : s.gs.length ≤ n
  wg_eq : s.wg = s.gs.countP (· != .done)
  x_le : s.x ≤ s.gs.countP GState.finished
  loaded_le : ∀ v, GState.loaded v ∈ s.gs → v ≤ s.gs.countP GState.finished
  x_pos : s.gs.countP GState.finished = 0 ∨ 1 ≤ s.x
  printed_eq : ∀ p, s.printed = some p → p = s.x ∧ s.gs.length = n ∧ ∀ g ∈ s.gs, g = .done

theorem inv_init (n : Nat) : Inv n init :=
  ⟨Nat.zero_le n, rfl, le_refl 0, by simp [init], .inl rfl, by simp [init]⟩

/-- A goroutine that is not done rules out a printed state. -/
theorem printed_none {n : Nat} {s : Sys} (hi : Inv n s) {i : Nat} {g : GState} (hg : s.gs[i]? = some g)
    (hne : g ≠ .done) : s.printed = none := by
  cases hp : s.printed with
  | none => rfl
  | some p => exact absurd ((hi.printed_eq p hp).2.2 g (List.getElem?_mem hg)) hne

/-- Every step keeps the invariant. -/
theorem Inv.step {n : Nat} {s s' : Sys} {a : Act} (hi : Inv n s) (h : step n s a = some s') : Inv n s' := by
  rcases step_cases h with ⟨-, hlt, rfl⟩ | ⟨i, -, hg, rfl⟩ | ⟨i, v, -, hg, rfl⟩ | ⟨i, -, hg, rfl⟩ |
    ⟨-, hlen, hwg, hp, rfl⟩
  · -- `main` starts a goroutine
    have hp : s.printed = none := by
      cases hp : s.printed with
      | none => rfl
      | some p => exact absurd (hi.printed_eq p hp).2.1 (by omega)
    have hf : (s.gs ++ [GState.ready]).countP GState.finished = s.gs.countP GState.finished := by
      simp
    have hd : (s.gs ++ [GState.ready]).countP (· != GState.done) = s.gs.countP (· != GState.done) + 1 := by
      simp
    refine ⟨by simp; omega, by simp only [hd, hi.wg_eq], by simp only [hf]; exact hi.x_le, ?_,
      by simp only [hf]; exact hi.x_pos, by simp [hp]⟩
    intro v hv
    simpa [hf] using hi.loaded_le v (by simpa using hv)
  · -- a goroutine loads `x`
    have hf := countP_set_add GState.finished hg (.loaded s.x)
    have hd := countP_set_add (· != GState.done) hg (.loaded s.x)
    simp at hf hd
    refine ⟨by simpa using hi.len_le, by simp only [hd, hi.wg_eq], by simp only [hf]; exact hi.x_le, ?_,
      by simp only [hf]; exact hi.x_pos, by simp [printed_none hi hg (by decide)]⟩
    intro w hw
    rcases List.mem_or_eq_of_mem_set hw with hw | hw
    · simpa [hf] using hi.loaded_le w hw
    · cases hw; simpa [hf] using hi.x_le
  · -- a goroutine stores its sum
    have hf := countP_set_add GState.finished hg .stored
    have hd := countP_set_add (· != GState.done) hg .stored
    have hv := hi.loaded_le v (List.getElem?_mem hg)
    simp at hf hd
    refine ⟨by simpa using hi.len_le, by simp only [hd, hi.wg_eq], by simp only; omega, ?_, by simp,
      by simp [printed_none hi hg nofun]⟩
    intro w hw
    rcases List.mem_or_eq_of_mem_set hw with hw | hw
    · have := hi.loaded_le w hw; simp only; omega
    · cases hw
  · -- a goroutine calls `wg.Done()`
    have hf := countP_set_add GState.finished hg .done
    have hd := countP_set_add (· != GState.done) hg .done
    simp at hf hd
    refine ⟨by simpa using hi.len_le, by simp only [hi.wg_eq]; omega, by simp only [hf]; exact hi.x_le, ?_,
      by simp only [hf]; exact hi.x_pos, by simp [printed_none hi hg (by decide)]⟩
    intro w hw
    rcases List.mem_or_eq_of_mem_set hw with hw | hw
    · simpa [hf] using hi.loaded_le w hw
    · cases hw
  · -- `main` returns from `wg.Wait()` and prints
    have hall : ∀ g ∈ s.gs, g = .done := by
      have := hi.wg_eq
      rw [hwg, eq_comm, List.countP_eq_zero] at this
      simpa using this
    exact ⟨hi.len_le, hi.wg_eq, hi.x_le, hi.loaded_le, hi.x_pos, fun p hp' => ⟨by simpa using hp'.symm, hlen, hall⟩⟩

/-! ## Runs -/

theorem run_append (n : Nat) (s : Sys) (as bs : List Act) :
    run n s (as ++ bs) = (run n s as).bind fun s' => run n s' bs := by
  induction as generalizing s with
  | nil => rfl
  | cons a as ih =>
    simp only [List.cons_append, run]
    cases step n s a <;> simp [ih]

/-- Every run keeps the invariant. -/
theorem Inv.run {n : Nat} {s s' : Sys} {acts : List Act} (hi : Inv n s) (h : run n s acts = some s') :
    Inv n s' := by
  induction acts generalizing s with
  | nil => cases h; exact hi
  | cons a as ih =>
    simp only [GoLabs.Race.run] at h
    cases hs : Race.step n s a with
    | none => simp [hs] at h
    | some s₁ => exact ih (hi.step hs) (by simpa [hs] using h)

/-- Over every interleaving, what `main` prints is at most the number of goroutines, and at
    least one when there is one. -/
theorem printed_bounds {n p : Nat} {acts : List Act} {s : Sys} (h : run n init acts = some s)
    (hp : s.printed = some p) : p ≤ n ∧ (0 < n → 1 ≤ p) := by
  have hi := (inv_init n).run h
  obtain ⟨rfl, hlen, hall⟩ := hi.printed_eq p hp
  have hc : s.gs.countP GState.finished = n := by
    rw [← hlen, List.countP_eq_length]
    intro g hg
    simp [hall g hg]
  have := hi.x_le
  rcases hi.x_pos with h0 | h1
  · exact ⟨by omega, fun _ => by omega⟩
  · exact ⟨by omega, fun _ => h1⟩

/-! ## Every schedule ends with the print

Each step takes one of the steps left: the four of each goroutine not started, the load, store
and `wg.Done()` still to come of each started one, and `main`'s print. And no reachable state is
stuck before the print: a goroutine not done can move, and once all are done the `WaitGroup`
counter is zero, so `wg.Wait()` returns. -/

/-- The steps a schedule still has to take. -/
def stepsLeft (n : Nat) (s : Sys) : Nat :=
  4 * (n - s.gs.length) + s.gs.countP (· == .ready) + s.gs.countP (!·.finished) + s.gs.countP (· != .done) +
    (if s.printed = none then 1 else 0)

theorem stepsLeft_step {n : Nat} {s s' : Sys} {a : Act} (h : step n s a = some s') :
    stepsLeft n s' + 1 = stepsLeft n s := by
  rcases step_cases h with ⟨-, hlt, rfl⟩ | ⟨i, -, hg, rfl⟩ | ⟨i, v, -, hg, rfl⟩ | ⟨i, -, hg, rfl⟩ |
    ⟨-, -, -, hp, rfl⟩
  · -- `main` starts a goroutine: four steps left become its three and `main`'s
    simp [stepsLeft]
    omega
  · -- a goroutine loads `x`
    have h1 := countP_set_add (· == GState.ready) hg (.loaded s.x)
    have h2 := countP_set_add (!·.finished) hg (.loaded s.x)
    have h3 := countP_set_add (· != GState.done) hg (.loaded s.x)
    simp at h1 h2 h3
    simp only [stepsLeft, List.length_set]
    omega
  · -- a goroutine stores its sum
    have h1 := countP_set_add (· == GState.ready) hg .stored
    have h2 := countP_set_add (!·.finished) hg .stored
    have h3 := countP_set_add (· != GState.done) hg .stored
    simp at h1 h2 h3
    simp only [stepsLeft, List.length_set]
    omega
  · -- a goroutine calls `wg.Done()`
    have h1 := countP_set_add (· == GState.ready) hg .done
    have h2 := countP_set_add (!·.finished) hg .done
    have h3 := countP_set_add (· != GState.done) hg .done
    simp at h1 h2 h3
    simp only [stepsLeft, List.length_set]
    omega
  · -- `main` prints
    simp [stepsLeft, hp]

theorem stepsLeft_run {n : Nat} {s s' : Sys} {acts : List Act} (h : run n s acts = some s') :
    stepsLeft n s' + acts.length = stepsLeft n s := by
  induction acts generalizing s with
  | nil => cases h; rfl
  | cons a as ih =>
    simp only [run] at h
    cases hs : Race.step n s a with
    | none => simp [hs] at h
    | some s₁ =>
      have := ih (by simpa [hs] using h)
      have := stepsLeft_step hs
      simp only [List.length_cons]
      omega

/-- No reachable state is stuck before `main` prints. -/
theorem step_enabled {n : Nat} {s : Sys} (hi : Inv n s) (hp : s.printed = none) : ∃ a s', step n s a = some s' := by
  rcases Nat.lt_or_ge s.gs.length n with hlt | hge
  · exact ⟨.spawn, _, if_pos hlt⟩
  by_cases hall : ∀ g ∈ s.gs, g = .done
  · have hwg : s.wg = 0 := by
      rw [hi.wg_eq, List.countP_eq_zero]
      simpa using hall
    exact ⟨.waitPrint, _, if_pos ⟨Nat.le_antisymm hi.len_le hge, hwg, hp⟩⟩
  · obtain ⟨g, hg, hne⟩ := not_forall₂.1 hall
    obtain ⟨i, hgi⟩ := List.mem_iff_getElem?.1 hg
    cases g with
    | ready => exact ⟨.load i, _, by simp only [step, hgi]; rfl⟩
    | loaded v => exact ⟨.store i, _, by simp only [step, hgi]; rfl⟩
    | stored => exact ⟨.done i, _, by simp only [step, hgi]; rfl⟩
    | done => exact absurd rfl hne

/-- Every schedule ends with `main`'s print: no run takes more than `4 * n + 1` steps, and one
    that no step extends has taken exactly that many and printed. -/
theorem run_ends_printed {n : Nat} {acts : List Act} {s : Sys} (h : run n init acts = some s) :
    acts.length ≤ 4 * n + 1 ∧
      ((∀ a, step n s a = none) → acts.length = 4 * n + 1 ∧ ∃ p, s.printed = some p) := by
  have hlen := stepsLeft_run h
  have hinit : stepsLeft n init = 4 * n + 1 := by simp [stepsLeft, init]
  refine ⟨by omega, fun hstuck => ?_⟩
  have hi := (inv_init n).run h
  cases hp : s.printed with
  | none =>
    obtain ⟨a, s', hs⟩ := step_enabled hi hp
    simp [hstuck a] at hs
  | some p =>
    obtain ⟨-, hn, hall⟩ := hi.printed_eq p hp
    have hgs : s.gs = List.replicate n .done := List.eq_replicate_iff.2 ⟨hn, hall⟩
    have hzero : stepsLeft n s = 0 := by simp [stepsLeft, hgs, hp]
    exact ⟨by omega, p, rfl⟩

theorem run_ends_printed_one :
    run 1 init [.spawn, .load 0, .store 0, .done 0, .waitPrint] = some ⟨1, [.done], 0, some 1⟩ ∧
      (∀ a, step 1 ⟨1, [.done], 0, some 1⟩ a = none) ∧
      ([Act.spawn, .load 0, .store 0, .done 0, .waitPrint].length = 4 * 1 + 1 ∧
        ∃ p, (⟨1, [.done], 0, some 1⟩ : Sys).printed = some p) := by
  have hstuck : ∀ a, step 1 ⟨1, [.done], 0, some 1⟩ a = none := by
    intro a
    rcases a with _ | i | i | i | _ <;> (try cases i) <;> rfl
  have h : run 1 init [.spawn, .load 0, .store 0, .done 0, .waitPrint] = some ⟨1, [.done], 0, some 1⟩ := rfl
  exact ⟨h, hstuck, (run_ends_printed h).2 hstuck⟩

/-! ## Schedules

Each value from one to `n` is printed by some schedule: after every goroutine is started,
`n - k + 1` goroutines load `0` before any stores, so together they add one, and the other
`k - 1` then run one after another. -/

variable {n : Nat}

theorem run_spawns (j : Nat) : ∀ s : Sys, s.gs.length + j ≤ n →
    run n s (List.replicate j .spawn) = some ⟨s.x, s.gs ++ List.replicate j .ready, s.wg + j, s.printed⟩ := by
  induction j with
  | zero => intro s _; simp [run]
  | succ j ih =>
    rintro ⟨x, gs, w, p⟩ h
    simp only [List.length_append] at h
    rw [List.replicate_succ Act.spawn j, run, step_spawn_mk (by omega), Option.some_bind,
      ih _ (by simp; omega)]
    simp [Nat.add_assoc, Nat.add_comm 1 j, List.replicate_succ]

theorem run_loads (w : Nat) (rest : List GState) (c : Nat) : ∀ a,
    run n ⟨0, List.replicate a (.loaded 0) ++ List.replicate c .ready ++ rest, w, none⟩
        ((List.range' a c).map .load) =
      some ⟨0, List.replicate (a + c) (.loaded 0) ++ rest, w, none⟩ := by
  induction c with
  | zero => intro a; simp [run]
  | succ c ih =>
    intro a
    rw [List.range'_succ, List.map_cons, run, List.replicate_succ GState.ready c, List.append_assoc,
      List.cons_append, step_load_mk (getElem?_replicate_append ..), Option.some_bind, set_replicate_append,
      replicate_append_cons, ← List.append_assoc, ih (a + 1), Nat.add_right_comm a 1 c, Nat.add_assoc]

theorem run_stores (w v : Nat) (rest : List GState) (c : Nat) : ∀ a x,
    run n ⟨x, List.replicate a .stored ++ List.replicate (c + 1) (.loaded v) ++ rest, w, none⟩
        ((List.range' a (c + 1)).map .store) =
      some ⟨v + 1, List.replicate (a + c + 1) .stored ++ rest, w, none⟩ := by
  induction c with
  | zero =>
    intro a x
    rw [List.range'_succ, List.map_cons, run, List.replicate_succ (GState.loaded v) 0, List.append_assoc,
      List.cons_append, step_store_mk (getElem?_replicate_append ..), Option.some_bind, set_replicate_append,
      replicate_append_cons]
    rfl
  | succ c ih =>
    intro a x
    rw [List.range'_succ, List.map_cons, run, List.replicate_succ (GState.loaded v) (c + 1), List.append_assoc,
      List.cons_append, step_store_mk (getElem?_replicate_append ..), Option.some_bind, set_replicate_append,
      replicate_append_cons, ← List.append_assoc, ih (a + 1), Nat.add_right_comm a 1 c, Nat.add_assoc a c]

theorem run_serial (w : Nat) (c : Nat) : ∀ a x,
    run n ⟨x, List.replicate a .stored ++ List.replicate c .ready, w, none⟩
        ((List.range' a c).flatMap fun j => [.load j, .store j]) =
      some ⟨x + c, List.replicate (a + c) .stored, w, none⟩ := by
  induction c with
  | zero => intro a x; simp [run]
  | succ c ih =>
    intro a x
    rw [List.range'_succ, List.flatMap_cons, List.cons_append, List.cons_append, List.nil_append, run,
      List.replicate_succ GState.ready c, step_load_mk (getElem?_replicate_append ..), Option.some_bind,
      set_replicate_append, run, step_store_mk (getElem?_replicate_append ..), Option.some_bind,
      set_replicate_append, replicate_append_cons, ih (a + 1), Nat.add_right_comm a 1 c, Nat.add_assoc x 1 c,
      Nat.add_comm 1 c, Nat.add_assoc]

theorem run_dones (x : Nat) (c : Nat) : ∀ a w,
    run n ⟨x, List.replicate a .done ++ List.replicate c .stored, w, none⟩ ((List.range' a c).map .done) =
      some ⟨x, List.replicate (a + c) .done, w - c, none⟩ := by
  induction c with
  | zero => intro a w; simp [run]
  | succ c ih =>
    intro a w
    rw [List.range'_succ, List.map_cons, run, List.replicate_succ GState.stored c,
      step_done_mk (getElem?_replicate_append ..), Option.some_bind, set_replicate_append, replicate_append_cons,
      ih (a + 1), Nat.add_right_comm a 1 c, Nat.sub_sub, Nat.add_comm 1 c, Nat.add_assoc]

/-- Every value from one to `n` is printed by some interleaving. -/
theorem printed_reachable (k : Nat) (h1 : 1 ≤ k) (hk : k ≤ n) :
    ∃ acts s, run n init acts = some s ∧ s.printed = some k := by
  obtain ⟨m, r, rfl, rfl⟩ : ∃ m r, n = m + 1 + r ∧ k = r + 1 := ⟨n - k, k - 1, by omega, by omega⟩
  have hspawn : run (m + 1 + r) init (List.replicate (m + 1 + r) .spawn) = some ⟨0, List.replicate (m + 1 + r) .ready, m + 1 + r, none⟩ := by
    simpa [init] using run_spawns (n := m + 1 + r) (m + 1 + r) init (by simp [init])
  have hload := run_loads (n := m + 1 + r) (m + 1 + r) (List.replicate r .ready) (m + 1) 0
  have hstore := run_stores (n := m + 1 + r) (m + 1 + r) 0 (List.replicate r .ready) m 0 0
  have hserial := run_serial (n := m + 1 + r) (m + 1 + r) r (m + 1) 1
  have hdone := run_dones (n := m + 1 + r) (r + 1) (m + 1 + r) 0 (m + 1 + r)
  simp only [List.replicate_zero, List.nil_append, Nat.zero_add, Nat.sub_self] at hload hstore hdone
  rw [← List.replicate_add] at hload
  rw [Nat.add_comm 1 r] at hserial
  refine ⟨List.replicate (m + 1 + r) .spawn ++ (List.range' 0 (m + 1)).map .load ++
    (List.range' 0 (m + 1)).map .store ++ (List.range' (m + 1) r).flatMap (fun j => [.load j, .store j]) ++
    (List.range' 0 (m + 1 + r)).map .done ++ [.waitPrint], ⟨r + 1, List.replicate (m + 1 + r) .done, 0, some (r + 1)⟩,
    ?_, rfl⟩
  rw [run_append, run_append, run_append, run_append, run_append, hspawn, Option.some_bind, hload,
    Option.some_bind, hstore, Option.some_bind, hserial, Option.some_bind, hdone, Option.some_bind]
  simp [run, step]

/-- With the program's `1000` goroutines, `main` prints exactly the values from `1` to `1000`:
    each of them under some interleaving, and no other under any. -/
theorem racy_counter_prints (p : Nat) :
    (∃ acts s, run goroutines init acts = some s ∧ s.printed = some p) ↔ 1 ≤ p ∧ p ≤ goroutines := by
  constructor
  · rintro ⟨acts, s, h, hp⟩
    obtain ⟨hle, hpos⟩ := printed_bounds h hp
    exact ⟨hpos (by decide), hle⟩
  · rintro ⟨h1, hk⟩
    exact printed_reachable p h1 hk

end GoLabs.Race

import Mathlib.Data.List.Perm.Basic
import GoLabs.Runtime

/-! # The worker pool

`N` workers read tasks from the channel `tasks` and send `do(t)` for each task `t` they receive
on the channel `results`. The loop that starts them adds one to a `WaitGroup` before each; each
worker calls `wg.Done()` when `tasks` is closed and drained, and a last goroutine waits for the
group and closes `results`. The goroutines' steps interleave in any order.

The snippet leaves `N`, `tasks`, `do` and the reader of `results` to its context: `N` is any
number, `tasks` is given by the values its producer sends on it, after which the producer closes
it, `do` is any function (named `work` here, `do` being a keyword of Lean), and the reader ranges
over `results`, so a send completes whenever `results` is open. A panic ends the program: the
model records its message, and no run reaches one.

Over every interleaving, one invariant holds (`Inv`): the counter is the number of workers not
done, `results` is closed only once every worker has returned, the workers have received a
prefix of the tasks, and what the reader received and the results the workers hold are `do` of
that prefix, up to order. A worker holding a result receives no task, so the reader is never
more than `N` results behind the tasks received. So no run panics (`workerPool_no_panic`); every
schedule ends with `results` closed, and with at least one worker the reader has then received
`do` of every task exactly once (`workerPool_run_ends`); the orders it can receive them in are
exactly those in which each first `p + 1` results are `do` of some of the first `p + N` tasks
(`workerPool_outputs`). So one worker keeps the tasks' order (`workerPool_one_worker_order`), and
two may not.
-/

namespace GoLabs.WorkerPool

/-! ## The program -/

/-- Where a worker is: in `for t := range tasks`, blocked on `results <- r`, or returned, after
    `wg.Done()`. -/
inductive Worker (β : Type) where
  | ranging
  | sending (r : β)
  | done
  deriving Repr, DecidableEq

/-- The program's state: the `WaitGroup` counter, the workers started, in order, what `tasks`
    still holds, whether the closing goroutine is started, whether `results` is closed, what the
    reader received on it, and the panic, if any. -/
structure Sys (α β : Type) where
  wg : Nat
  ws : List (Worker β)
  tasks : List α
  closerStarted : Bool
  closed : Bool
  out : List β
  panic : Option String
  deriving Repr, DecidableEq

/-- A step: the loop starting the next worker (`wg.Add(1); go ...`), or starting the closing
    goroutine; worker `i` receiving a task and computing `do` of it, leaving its loop and calling
    `wg.Done()`, or sending its result; the closing goroutine returning from `wg.Wait()` and
    closing `results`. -/
inductive Act where
  | spawn
  | spawnCloser
  | recv (i : Nat)
  | exit (i : Nat)
  | send (i : Nat)
  | close
  deriving Repr, DecidableEq

variable {α β : Type} (N : Nat) (work : α → β)

/-- One step of the program with `N` workers; `none` when no goroutine can take it. -/
def step (s : Sys α β) : Act → Option (Sys α β)
  | .spawn =>
    if s.ws.length < N then some { s with wg := s.wg + 1, ws := s.ws ++ [.ranging] } else none
  | .spawnCloser =>
    if s.ws.length = N ∧ s.closerStarted = false then some { s with closerStarted := true } else none
  | .recv i =>
    match s.ws[i]?, s.tasks with
    | some .ranging, t :: rest => some { s with ws := s.ws.set i (.sending (work t)), tasks := rest }
    | _, _ => none
  | .exit i =>
    match s.ws[i]?, s.tasks with
    | some .ranging, [] =>
      if s.wg = 0 then some { s with panic := some "sync: negative WaitGroup counter" }
      else some { s with ws := s.ws.set i .done, wg := s.wg - 1 }
    | _, _ => none
  | .send i =>
    match s.ws[i]? with
    | some (.sending r) =>
      if s.closed then some { s with panic := some "send on closed channel" }
      else some { s with out := s.out ++ [r], ws := s.ws.set i .ranging }
    | _ => none
  | .close =>
    if s.closerStarted ∧ s.wg = 0 ∧ s.closed = false then some { s with closed := true } else none

/-- The program before the loop, with the tasks `ts` in the channel. -/
def init (ts : List α) : Sys α β := ⟨0, [], ts, false, false, [], none⟩

/-- The steps of a schedule, one after another. -/
def run (s : Sys α β) : List Act → Option (Sys α β)
  | [] => some s
  | a :: as => (step N work s a).bind fun s' => run s' as

/-- Whether the worker has not yet returned. -/
def Worker.live : Worker β → Bool
  | .ranging | .sending _ => true
  | .done => false

/-- The result the worker holds, if it is blocked on the send. -/
def Worker.held : Worker β → Option β
  | .sending r => some r
  | .ranging | .done => none

@[simp] theorem Worker.live_ranging : (Worker.ranging : Worker β).live = true := rfl
@[simp] theorem Worker.live_sending (r : β) : (Worker.sending r).live = true := rfl
@[simp] theorem Worker.live_done : (Worker.done : Worker β).live = false := rfl
@[simp] theorem Worker.held_ranging : (Worker.ranging : Worker β).held = none := rfl
@[simp] theorem Worker.held_sending (r : β) : (Worker.sending r).held = some r := rfl
@[simp] theorem Worker.held_done : (Worker.done : Worker β).held = none := rfl

@[simp] theorem Worker.live_eq_false {w : Worker β} : w.live = false ↔ w = .done := by
  cases w <;> simp

/-! ## One step -/

variable {N work}

/-- Everything a step can do, with its guard. -/
theorem step_cases {s s' : Sys α β} {a : Act} (h : step N work s a = some s') :
    (s.ws.length < N ∧ s' = { s with wg := s.wg + 1, ws := s.ws ++ [.ranging] }) ∨
    (s.ws.length = N ∧ s.closerStarted = false ∧ s' = { s with closerStarted := true }) ∨
    (∃ i t rest, s.ws[i]? = some .ranging ∧ s.tasks = t :: rest ∧
      s' = { s with ws := s.ws.set i (.sending (work t)), tasks := rest }) ∨
    (∃ i, s.ws[i]? = some .ranging ∧ s.tasks = [] ∧
      (s.wg = 0 ∧ s' = { s with panic := some "sync: negative WaitGroup counter" } ∨
        s.wg ≠ 0 ∧ s' = { s with ws := s.ws.set i .done, wg := s.wg - 1 })) ∨
    (∃ i r, s.ws[i]? = some (.sending r) ∧
      (s.closed = true ∧ s' = { s with panic := some "send on closed channel" } ∨
        s.closed = false ∧ s' = { s with out := s.out ++ [r], ws := s.ws.set i .ranging })) ∨
    (s.closerStarted = true ∧ s.wg = 0 ∧ s.closed = false ∧ s' = { s with closed := true }) := by
  cases a with
  | spawn =>
    simp only [step] at h
    split at h
    · exact .inl ⟨‹_›, (Option.some.inj h).symm⟩
    · cases h
  | spawnCloser =>
    simp only [step] at h
    split at h
    · next hg => exact .inr (.inl ⟨hg.1, hg.2, (Option.some.inj h).symm⟩)
    · cases h
  | recv i =>
    simp only [step] at h
    split at h
    · next hw ht => exact .inr (.inr (.inl ⟨i, _, _, hw, ht, (Option.some.inj h).symm⟩))
    · cases h
  | exit i =>
    simp only [step] at h
    split at h
    · next hw ht =>
      refine .inr (.inr (.inr (.inl ⟨i, hw, ht, ?_⟩)))
      split at h
      · exact .inl ⟨‹_›, (Option.some.inj h).symm⟩
      · exact .inr ⟨‹_›, (Option.some.inj h).symm⟩
    · cases h
  | send i =>
    simp only [step] at h
    split at h
    · next hw =>
      refine .inr (.inr (.inr (.inr (.inl ⟨i, _, hw, ?_⟩))))
      split at h
      · exact .inl ⟨‹_›, (Option.some.inj h).symm⟩
      · exact .inr ⟨by simpa using ‹¬s.closed = true›, (Option.some.inj h).symm⟩
    · cases h
  | close =>
    simp only [step] at h
    split at h
    · next hg => exact .inr (.inr (.inr (.inr (.inr ⟨hg.1, hg.2.1, hg.2.2, (Option.some.inj h).symm⟩))))
    · cases h

/-! ## The invariant -/

theorem filterMap_held_cons (w : Worker β) (l : List (Worker β)) :
    (w :: l).filterMap Worker.held = w.held.toList ++ l.filterMap Worker.held := by
  cases w <;> rfl

/-- Replacing the worker `b` at `i` by `a` trades `b`'s held result for `a`'s, up to order. -/
theorem held_set_perm {l : List (Worker β)} {i : Nat} {b : Worker β} (h : l[i]? = some b) (a : Worker β) :
    ((l.set i a).filterMap Worker.held ++ b.held.toList).Perm (l.filterMap Worker.held ++ a.held.toList) := by
  induction l generalizing i with
  | nil => simp at h
  | cons x l ih =>
    cases i with
    | zero =>
      obtain rfl : x = b := by simpa using h
      rw [List.set_cons_zero, filterMap_held_cons, filterMap_held_cons]
      exact List.perm_append_comm.trans ((List.perm_append_comm.append_left _).trans
        (List.Perm.of_eq (List.append_assoc _ _ _).symm))
    | succ i =>
      rw [List.set_cons_succ, filterMap_held_cons, filterMap_held_cons, List.append_assoc, List.append_assoc]
      exact (ih (by simpa using h)).append_left _

section Replace

variable {l : List (Worker β)} {i : Nat}

/-- A worker receiving a task stays live, and its result joins those held. -/
theorem set_sending_of_ranging (h : l[i]? = some .ranging) (r : β) :
    (l.set i (.sending r)).countP Worker.live = l.countP Worker.live ∧
      ((l.set i (.sending r)).filterMap Worker.held).Perm (l.filterMap Worker.held ++ [r]) := by
  simpa using And.intro (countP_set_add Worker.live h (.sending r)) (held_set_perm h (.sending r))

/-- A worker returning is one live worker fewer, and holds nothing. -/
theorem set_done_of_ranging (h : l[i]? = some .ranging) :
    (l.set i .done).countP Worker.live + 1 = l.countP Worker.live ∧
      ((l.set i .done).filterMap Worker.held).Perm (l.filterMap Worker.held) := by
  simpa using And.intro (countP_set_add Worker.live h .done) (held_set_perm h .done)

/-- A worker sending its result stays live, and its result leaves those held. -/
theorem set_ranging_of_sending {r : β} (h : l[i]? = some (.sending r)) :
    (l.set i .ranging).countP Worker.live = l.countP Worker.live ∧
      ((l.set i .ranging).filterMap Worker.held ++ [r]).Perm (l.filterMap Worker.held) := by
  simpa using And.intro (countP_set_add Worker.live h .ranging) (held_set_perm h .ranging)

end Replace

variable (N work) in
/-- What every reachable state keeps, from the tasks `ts`: at most `N` workers; the counter
    counts the workers not done; the closing goroutine starts only after the loop; `results` is
    closed only after it started and every worker is done; nothing panicked; a worker returns only
    once `tasks` is drained; the workers have received a prefix `pre` of the tasks, and what the
    reader received and the results held are `do` of `pre`, up to order; and each first `p + 1`
    results received are `do` of some of the first `p + N` tasks. -/
structure Inv (ts : List α) (s : Sys α β) : Prop where
  len_le : s.ws.length ≤ N
  wg_eq : s.wg = s.ws.countP Worker.live
  started_len : s.closerStarted = true → s.ws.length = N
  closed_done : s.closed = true → s.closerStarted = true ∧ ∀ w ∈ s.ws, w = .done
  panic_none : s.panic = none
  drained : Worker.done ∈ s.ws → s.tasks = []
  recvd : ∃ pre, pre ++ s.tasks = ts ∧ (s.out ++ s.ws.filterMap Worker.held).Perm (pre.map work)
  order : ∀ p, (s.out.take (p + 1)).Subperm ((ts.take (p + N)).map work)

theorem inv_init (N : Nat) (work : α → β) (ts : List α) : Inv N work ts (init ts) where
  len_le := Nat.zero_le _
  wg_eq := rfl
  started_len := nofun
  closed_done := nofun
  panic_none := rfl
  drained := nofun
  recvd := ⟨[], rfl, by simp [init]⟩
  order _ := List.nil_subperm

section Live

variable {ts : List α} {s : Sys α β} {i : Nat} {w : Worker β}

/-- A worker not yet done keeps the counter positive. -/
theorem Inv.wg_pos (hi : Inv N work ts s) (hg : s.ws[i]? = some w) (hw : w.live = true) : 0 < s.wg := by
  have : 0 < s.ws.countP Worker.live := List.countP_pos_iff.2 ⟨w, List.getElem?_mem hg, hw⟩
  rw [hi.wg_eq]; exact this

/-- A worker not yet done keeps `results` open. -/
theorem Inv.closed_false (hi : Inv N work ts s) (hg : s.ws[i]? = some w) (hw : w.live = true) :
    s.closed = false := by
  cases hc : s.closed with
  | false => rfl
  | true => simp [(hi.closed_done hc).2 w (List.getElem?_mem hg)] at hw

/-- What the reader received, the results held and `do` of the queued tasks are `do` of all the
    tasks, up to order. -/
theorem Inv.perm (hi : Inv N work ts s) :
    (s.out ++ s.ws.filterMap Worker.held ++ s.tasks.map work).Perm (ts.map work) := by
  obtain ⟨pre, hpre, hp⟩ := hi.recvd
  rw [← hpre, List.map_append]
  exact hp.append_right _

end Live

/-- Under the invariant no step panics. -/
theorem Inv.step_cases {ts : List α} {s s' : Sys α β} {a : Act} (hi : Inv N work ts s)
    (h : step N work s a = some s') :
    (s.ws.length < N ∧ s' = { s with wg := s.wg + 1, ws := s.ws ++ [.ranging] }) ∨
    (s.ws.length = N ∧ s.closerStarted = false ∧ s' = { s with closerStarted := true }) ∨
    (∃ i t rest, s.ws[i]? = some .ranging ∧ s.tasks = t :: rest ∧
      s' = { s with ws := s.ws.set i (.sending (work t)), tasks := rest }) ∨
    (∃ i, s.ws[i]? = some .ranging ∧ s.tasks = [] ∧ s' = { s with ws := s.ws.set i .done, wg := s.wg - 1 }) ∨
    (∃ i r, s.ws[i]? = some (.sending r) ∧ s.closed = false ∧
      s' = { s with out := s.out ++ [r], ws := s.ws.set i .ranging }) ∨
    (s.closerStarted = true ∧ s.wg = 0 ∧ s.closed = false ∧ s' = { s with closed := true }) := by
  rcases WorkerPool.step_cases h with h | h | h | ⟨i, hg, ht, ⟨hw, -⟩ | ⟨-, rfl⟩⟩ |
    ⟨i, r, hg, ⟨hc, -⟩ | ⟨hc, rfl⟩⟩ | h
  · exact .inl h
  · exact .inr (.inl h)
  · exact .inr (.inr (.inl h))
  · -- `wg.Done()` with the counter at zero
    have := hi.wg_pos hg rfl; omega
  · exact .inr (.inr (.inr (.inl ⟨i, hg, ht, rfl⟩)))
  · -- a send on the closed `results`
    simp [hi.closed_false hg rfl] at hc
  · exact .inr (.inr (.inr (.inr (.inl ⟨i, r, hg, hc, rfl⟩))))
  · exact .inr (.inr (.inr (.inr (.inr h))))

/-- A worker that is not done is still there after another one is replaced by one not done. -/
theorem done_mem_of_mem_set {l : List (Worker β)} {i : Nat} {a : Worker β} (ha : a ≠ .done)
    (h : Worker.done ∈ l.set i a) : Worker.done ∈ l :=
  (List.mem_or_eq_of_mem_set h).resolve_right fun h' => ha h'.symm

section Send

variable {ts pre : List α} {out held : List β} {r : β}

/-- A result held is received after what was received before it, and the workers are at most
    `N`: so the first `out.length + 1` results are `do` of some of the first `out.length + N`
    tasks, when the received tasks `pre` are a prefix of the tasks. -/
theorem subperm_take_of_held (hpre : pre <+: ts) (hp : (out ++ held).Perm (pre.map work))
    (hr : r ∈ held) (hn : held.length ≤ N) : (out ++ [r]).Subperm ((ts.take (out.length + N)).map work) := by
  have hlen : pre.length ≤ out.length + N := by
    have := hp.length_eq
    simp only [List.length_append, List.length_map] at this
    omega
  have hsub : (out ++ [r]).Subperm (out ++ held) := (List.subperm_append_left out).2 (List.singleton_subperm_iff.2 hr)
  refine (hsub.trans hp.subperm).trans (List.Sublist.subperm (List.Sublist.map _ ?_))
  rw [List.prefix_iff_eq_take.1 hpre]
  exact List.take_sublist_take_left _ hlen

/-- A send keeps the bound on how far ahead of the reader the results are. -/
theorem order_send (hpre : pre <+: ts) (hp : (out ++ held).Perm (pre.map work)) (hr : r ∈ held)
    (hn : held.length ≤ N) (ho : ∀ p, (out.take (p + 1)).Subperm ((ts.take (p + N)).map work)) (p : Nat) :
    ((out ++ [r]).take (p + 1)).Subperm ((ts.take (p + N)).map work) := by
  rcases Nat.lt_or_ge p out.length with hlt | hge
  · rw [List.take_append_of_le_length hlt]
    exact ho p
  · rw [List.take_of_length_le (by simp; omega)]
    exact (subperm_take_of_held hpre hp hr hn).trans
      (List.Sublist.subperm (List.Sublist.map _ (List.take_sublist_take_left _ (by omega))))

end Send

/-- Every step keeps the invariant. -/
theorem Inv.step {ts : List α} {s s' : Sys α β} {a : Act} (hi : Inv N work ts s)
    (h : step N work s a = some s') : Inv N work ts s' := by
  rcases hi.step_cases h with ⟨hlt, rfl⟩ | ⟨hlen, hst, rfl⟩ | ⟨i, t, rest, hg, ht, rfl⟩ | ⟨i, hg, ht, rfl⟩ |
    ⟨i, r, hg, hc, rfl⟩ | ⟨hst, hw, -, rfl⟩
  · -- the loop starts a worker
    have hst : s.closerStarted = false := Bool.eq_false_iff.2 fun hst => by
      have := hi.started_len hst; omega
    refine ⟨by simp; omega, by simp [hi.wg_eq], by simp [hst],
      fun hc => absurd (hi.closed_done hc).1 (by simp [hst]), hi.panic_none,
      fun hd => hi.drained (by simpa using hd), by simpa using hi.recvd, hi.order⟩
  · -- the loop ends and starts the closing goroutine
    exact ⟨hi.len_le, hi.wg_eq, fun _ => hlen, fun hc => absurd (hi.closed_done hc).1 (by simp [hst]),
      hi.panic_none, hi.drained, hi.recvd, hi.order⟩
  · -- worker `i` receives `t`
    obtain ⟨hd, hp⟩ := set_sending_of_ranging hg (work t)
    have hc := hi.closed_false hg rfl
    obtain ⟨pre, hpre, hperm⟩ := hi.recvd
    refine ⟨by simpa using hi.len_le, by simpa [hd] using hi.wg_eq, by simpa using hi.started_len,
      by simp [hc], hi.panic_none, fun hd => ?_, ⟨pre ++ [t], by simp [← hpre, ht], ?_⟩, hi.order⟩
    · simp [hi.drained (done_mem_of_mem_set (by simp) hd)] at ht
    · rw [List.map_append, List.map_singleton]
      exact (hp.append_left _).trans (by rw [← List.append_assoc]; exact hperm.append_right _)
  · -- worker `i` leaves its loop and calls `wg.Done()`
    obtain ⟨hd, hp⟩ := set_done_of_ranging hg
    have hc := hi.closed_false hg rfl
    obtain ⟨pre, hpre, hperm⟩ := hi.recvd
    refine ⟨by simpa using hi.len_le, by simp only [hi.wg_eq]; omega, by simpa using hi.started_len,
      by simp [hc], hi.panic_none, fun _ => ht, ⟨pre, hpre, (hp.append_left _).trans hperm⟩, hi.order⟩
  · -- worker `i` sends `r`, and the reader receives it
    obtain ⟨hd, hp⟩ := set_ranging_of_sending hg
    obtain ⟨pre, hpre, hperm⟩ := hi.recvd
    have hr : r ∈ s.ws.filterMap Worker.held := hp.subset (by simp)
    have hn := (List.length_filterMap_le Worker.held s.ws).trans hi.len_le
    refine ⟨by simpa using hi.len_le, by simpa [hd] using hi.wg_eq, by simpa using hi.started_len,
      by simp [hc], hi.panic_none, fun hd => hi.drained (done_mem_of_mem_set (by simp) hd),
      ⟨pre, hpre, ?_⟩, order_send (hpre ▸ List.prefix_append _ _) hperm hr hn hi.order⟩
    rw [List.append_assoc]
    exact ((List.perm_append_comm.trans hp).append_left _).trans hperm
  · -- the closing goroutine returns from `wg.Wait()` and closes `results`
    have hall : ∀ w ∈ s.ws, w = .done := by
      have := hi.wg_eq
      rw [hw, eq_comm, List.countP_eq_zero] at this
      simpa using this
    exact ⟨hi.len_le, hi.wg_eq, hi.started_len, fun _ => ⟨hst, hall⟩, hi.panic_none, hi.drained, hi.recvd,
      hi.order⟩

theorem run_append (s : Sys α β) (as bs : List Act) :
    run N work s (as ++ bs) = (run N work s as).bind fun s' => run N work s' bs := by
  induction as generalizing s with
  | nil => rfl
  | cons a as ih =>
    simp only [List.cons_append, run]
    cases step N work s a <;> simp [ih]

/-- Every run keeps the invariant. -/
theorem Inv.run {ts : List α} {s s' : Sys α β} {acts : List Act} (hi : Inv N work ts s)
    (h : run N work s acts = some s') : Inv N work ts s' := by
  induction acts generalizing s with
  | nil => cases h; exact hi
  | cons a as ih =>
    simp only [WorkerPool.run] at h
    cases hs : WorkerPool.step N work s a with
    | none => simp [hs] at h
    | some s₁ => exact ih (hi.step hs) (by simpa [hs] using h)

/-- Over every interleaving, nothing panics: the counter never goes below zero, and `results` is
    closed only once every worker has returned, so none ever sends on it. -/
theorem workerPool_no_panic {ts : List α} {acts : List Act} {s : Sys α β} (h : run N work (init ts) acts = some s) :
    s.panic = none ∧ (s.closed = true → ∀ w ∈ s.ws, w = .done) :=
  have hi := (inv_init N work ts).run h
  ⟨hi.panic_none, fun hc => (hi.closed_done hc).2⟩

/-- Two workers: the second task's result is received first. -/
theorem workerPool_no_panic_two :
    run 2 (· * 10) (init [1, 2])
        [.spawn, .spawn, .spawnCloser, .recv 0, .recv 1, .send 1, .send 0, .exit 0, .exit 1, .close] =
      some ⟨0, [.done, .done], [], true, true, [20, 10], none⟩ ∧
    (⟨0, [.done, .done], [], true, true, [20, 10], none⟩ : Sys Nat Nat).panic = none ∧
      ((⟨0, [.done, .done], [], true, true, [20, 10], none⟩ : Sys Nat Nat).closed = true →
        ∀ w ∈ (⟨0, [.done, .done], [], true, true, [20, 10], none⟩ : Sys Nat Nat).ws, w = .done) :=
  have h : run 2 (· * 10) (init [1, 2])
      [.spawn, .spawn, .spawnCloser, .recv 0, .recv 1, .send 1, .send 0, .exit 0, .exit 1, .close] =
      some ⟨0, [.done, .done], [], true, true, [20, 10], none⟩ := rfl
  ⟨h, workerPool_no_panic h⟩

section Closed

variable {ts : List α} {s : Sys α β}

/-- Once `results` is closed, no worker holds a result... -/
theorem Inv.held_nil (hi : Inv N work ts s) (hc : s.closed = true) : s.ws.filterMap Worker.held = [] :=
  List.filterMap_eq_nil_iff.2 fun w hw => by rw [(hi.closed_done hc).2 w hw]; rfl

/-- ... and, with at least one worker, every task has been received ... -/
theorem Inv.tasks_nil (hi : Inv N work ts s) (hN : 0 < N) (hc : s.closed = true) : s.tasks = [] := by
  obtain ⟨hst, hall⟩ := hi.closed_done hc
  obtain ⟨w, hw⟩ := List.exists_mem_of_length_pos ((hi.started_len hst).symm ▸ hN)
  exact hi.drained (hall w hw ▸ hw)

/-- ... so the reader has received `do` of every task, in some order. -/
theorem Inv.out_perm (hi : Inv N work ts s) (hN : 0 < N) (hc : s.closed = true) :
    s.out.Perm (ts.map work) := by
  simpa [hi.held_nil hc, hi.tasks_nil hN hc] using hi.perm

/-- Without a worker the reader receives nothing, and no task is read. -/
theorem Inv.out_tasks_of_zero (hi : Inv 0 work ts s) : s.out = [] ∧ s.tasks = ts := by
  have hout : s.out = [] := by
    simpa [List.take_eq_nil_iff] using hi.order 0
  obtain ⟨pre, hpre, hp⟩ := hi.recvd
  have hws : s.ws = [] := List.eq_nil_of_length_eq_zero (Nat.le_zero.1 hi.len_le)
  rw [hout, hws] at hp
  simp only [List.filterMap_nil, List.append_nil, List.nil_perm, List.map_eq_nil_iff] at hp
  exact ⟨hout, by simpa [hp] using hpre⟩

end Closed

/-! ## Every schedule ends with `results` closed

Each step takes one of the steps left: a receive and a send for each task still queued, the send
of each result held, the `wg.Done()` of each worker not done, the start and the `wg.Done()` of
each worker not started, the start of the closing goroutine and the close. And no reachable
state is stuck before the close: a worker not done can move, and once all are done the counter
is zero. -/

variable (N) in
/-- The steps a schedule still has to take. -/
def stepsLeft (s : Sys α β) : Nat :=
  2 * s.tasks.length + (s.ws.filterMap Worker.held).length + s.ws.countP Worker.live +
    2 * (N - s.ws.length) + (if s.closerStarted then 0 else 1) + (if s.closed then 0 else 1)

theorem stepsLeft_step {ts : List α} {s s' : Sys α β} {a : Act} (hi : Inv N work ts s)
    (h : step N work s a = some s') : stepsLeft N s' + 1 = stepsLeft N s := by
  rcases hi.step_cases h with ⟨hlt, rfl⟩ | ⟨-, hst, rfl⟩ | ⟨i, t, rest, hg, ht, rfl⟩ | ⟨i, hg, -, rfl⟩ |
    ⟨i, r, hg, -, rfl⟩ | ⟨-, -, hc, rfl⟩
  · simp [stepsLeft]; omega
  · simp [stepsLeft, hst]; omega
  · obtain ⟨hd, hp⟩ := set_sending_of_ranging hg (work t)
    have := hp.length_eq
    simp only [stepsLeft, ht, List.length_cons, List.length_set, List.length_append, List.length_nil] at this ⊢
    omega
  · obtain ⟨hd, hp⟩ := set_done_of_ranging hg
    simp only [stepsLeft, List.length_set, hp.length_eq]
    omega
  · obtain ⟨hd, hp⟩ := set_ranging_of_sending hg
    have := hp.length_eq
    simp only [stepsLeft, List.length_set, List.length_append, List.length_singleton] at this ⊢
    omega
  · simp [stepsLeft, hc]

theorem stepsLeft_run {ts : List α} {s s' : Sys α β} {acts : List Act} (hi : Inv N work ts s)
    (h : run N work s acts = some s') : stepsLeft N s' + acts.length = stepsLeft N s := by
  induction acts generalizing s with
  | nil => cases h; rfl
  | cons a as ih =>
    simp only [run] at h
    cases hs : WorkerPool.step N work s a with
    | none => simp [hs] at h
    | some s₁ =>
      have := ih (hi.step hs) (by simpa [hs] using h)
      have := stepsLeft_step hi hs
      simp only [List.length_cons]
      omega

/-- No reachable state is stuck before `results` is closed. -/
theorem step_enabled {ts : List α} {s : Sys α β} (hi : Inv N work ts s) (hc : s.closed = false) :
    ∃ a s', step N work s a = some s' := by
  rcases Nat.lt_or_ge s.ws.length N with hlt | hge
  · exact ⟨.spawn, _, if_pos hlt⟩
  have hlen := Nat.le_antisymm hi.len_le hge
  cases hst : s.closerStarted with
  | false => exact ⟨.spawnCloser, _, if_pos ⟨hlen, hst⟩⟩
  | true =>
    by_cases hall : ∀ w ∈ s.ws, w = .done
    · have hwg : s.wg = 0 := by
        rw [hi.wg_eq, List.countP_eq_zero]
        simpa using hall
      exact ⟨.close, _, if_pos ⟨hst, hwg, hc⟩⟩
    · obtain ⟨w, hw, hne⟩ := not_forall₂.1 hall
      obtain ⟨i, hwi⟩ := List.mem_iff_getElem?.1 hw
      rcases w with _ | r | _
      · cases ht : s.tasks with
        | nil =>
          exact ⟨.exit i, _, by
            simp only [step, hwi, ht, if_neg (Nat.pos_iff_ne_zero.1 (hi.wg_pos hwi rfl))]; rfl⟩
        | cons t rest => exact ⟨.recv i, _, by simp only [step, hwi, ht]; rfl⟩
      · exact ⟨.send i, _, by simp only [step, hwi, hc]; rfl⟩
      · exact absurd rfl hne

/-- Every schedule ends with `results` closed: no run takes more steps than two per task, two
    per worker and two more; and one that no step extends has closed `results`, and then, with at
    least one worker, has taken exactly that many steps and given the reader `do` of every task,
    in some order, while with no worker it has taken two steps and given the reader nothing. -/
theorem workerPool_run_ends {ts : List α} {acts : List Act} {s : Sys α β}
    (h : run N work (init ts) acts = some s) :
    acts.length ≤ 2 * ts.length + 2 * N + 2 ∧
      ((∀ a, step N work s a = none) → s.closed = true ∧
        (0 < N → acts.length = 2 * ts.length + 2 * N + 2 ∧ s.out.Perm (ts.map work)) ∧
        (N = 0 → acts.length = 2 ∧ s.out = [])) := by
  have hi := (inv_init N work ts).run h
  have hlen := stepsLeft_run (inv_init N work ts) h
  have hinit : stepsLeft N (init ts : Sys α β) = 2 * ts.length + 2 * N + 2 := by
    simp [stepsLeft, init]
  refine ⟨by omega, fun hstuck => ?_⟩
  have hc : s.closed = true := Bool.of_not_eq_false fun hc => by
    obtain ⟨a, s', hs⟩ := step_enabled hi hc
    simp [hstuck a] at hs
  obtain ⟨hst, hall⟩ := hi.closed_done hc
  have hleft : stepsLeft N s = 2 * s.tasks.length := by
    have hlive : s.ws.countP Worker.live = 0 := List.countP_eq_zero.2 fun w hw => by simp [hall w hw]
    simp [stepsLeft, hi.held_nil hc, hlive, hi.started_len hst, hst, hc]
  refine ⟨hc, fun hN => ⟨?_, hi.out_perm hN hc⟩, fun hN => ?_⟩
  · simp only [hi.tasks_nil hN hc, List.length_nil] at hleft
    omega
  · subst hN
    obtain ⟨hout, hts⟩ := hi.out_tasks_of_zero
    rw [hts] at hleft
    exact ⟨by omega, hout⟩

theorem workerPool_run_ends_one :
    run 1 (· * 10) (init [1]) [.spawn, .spawnCloser, .recv 0, .send 0, .exit 0, .close] =
      some ⟨0, [.done], [], true, true, [10], none⟩ ∧
    (∀ a, step 1 (· * 10) (⟨0, [.done], [], true, true, [10], none⟩ : Sys Nat Nat) a = none) ∧
      ((⟨0, [.done], [], true, true, [10], none⟩ : Sys Nat Nat).closed = true ∧
        (0 < 1 → [Act.spawn, .spawnCloser, .recv 0, .send 0, .exit 0, .close].length = 2 * [1].length + 2 * 1 + 2 ∧
          [10].Perm ([1].map (· * 10))) ∧
        (1 = 0 → [Act.spawn, .spawnCloser, .recv 0, .send 0, .exit 0, .close].length = 2 ∧ [10] = ([] : List Nat))) := by
  have hstuck : ∀ a, step 1 (· * 10) (⟨0, [.done], [], true, true, [10], none⟩ : Sys Nat Nat) a = none := by
    intro a
    rcases a with _ | _ | i | i | i | _ <;> (try cases i) <;> rfl
  have h : run 1 (· * 10) (init [1]) [.spawn, .spawnCloser, .recv 0, .send 0, .exit 0, .close] =
      some ⟨0, [.done], [], true, true, [10], none⟩ := rfl
  exact ⟨h, hstuck, (workerPool_run_ends h).2 hstuck⟩

/-! ## How far ahead of the reader the workers run

A worker receives a task only when it holds no result, so at most `N` tasks are received and
not yet delivered: the `p + 1`-th result the reader receives is `do` of one of the first `p + N`
tasks. With one worker this is the tasks' order. -/

/-- A permutation of `m` whose every first `p + 1` elements are some of the first `p + 1` of `m`
    is `m`. -/
theorem eq_of_perm_of_take_subperm {l m : List β} (hp : l.Perm m)
    (ho : ∀ p, (l.take (p + 1)).Subperm (m.take (p + 1))) : l = m := by
  have htake : ∀ p, l.take p = m.take p := by
    intro p
    induction p with
    | zero => rfl
    | succ p ih =>
      have hperm := (ho p).perm_of_length_le (by simp [hp.length_eq])
      rw [List.take_succ, List.take_succ, ih, List.perm_append_left_iff] at hperm
      rw [List.take_succ, List.take_succ, ih]
      congr 1
      rcases h1 : l[p]? with _ | x <;> rcases h2 : m[p]? with _ | y <;> simp [h1, h2] at hperm ⊢
      exact hperm
  have := htake l.length
  rwa [List.take_of_length_le le_rfl, List.take_of_length_le hp.length_eq.ge] at this

/-- One worker delivers the results in the tasks' order: once `results` is closed, the reader has
    received exactly `do` of each task, in order. -/
theorem workerPool_one_worker_order {ts : List α} {acts : List Act} {s : Sys α β}
    (h : run 1 work (init ts) acts = some s) (hc : s.closed = true) : s.out = ts.map work := by
  have hi := (inv_init 1 work ts).run h
  exact eq_of_perm_of_take_subperm (hi.out_perm Nat.one_pos hc) fun p => by simpa using hi.order p

theorem workerPool_one_worker_order_two :
    run 1 (· * 10) (init [1, 2])
        [.spawn, .spawnCloser, .recv 0, .send 0, .recv 0, .send 0, .exit 0, .close] =
      some ⟨0, [.done], [], true, true, [10, 20], none⟩ ∧
    (⟨0, [.done], [], true, true, [10, 20], none⟩ : Sys Nat Nat).closed = true ∧
      (⟨0, [.done], [], true, true, [10, 20], none⟩ : Sys Nat Nat).out = [1, 2].map (· * 10) :=
  have h : run 1 (· * 10) (init [1, 2])
      [.spawn, .spawnCloser, .recv 0, .send 0, .recv 0, .send 0, .exit 0, .close] =
      some ⟨0, [.done], [], true, true, [10, 20], none⟩ := rfl
  ⟨h, rfl, workerPool_one_worker_order h rfl⟩

/-! ## Schedules

Every order the bound allows is one the reader receives in some schedule: the loop starts every
worker and the closing goroutine; then, for each next result, free workers receive tasks until
one holds it (the bound leaves a worker free and a task queued until then) and that worker sends
it; once every result is sent, the workers return one after another and `results` is closed. -/

section Schedules

variable {ts : List α}

/-- A result that the reader may receive next among `do` of the tasks received is held by a
    worker. -/
theorem mem_held_of_subperm {pre : List α} {out held : List β} {x : β}
    (hp : (out ++ held).Perm (pre.map work)) (hx : (out ++ [x]).Subperm (pre.map work)) : x ∈ held := by
  simpa using (List.subperm_append_left out).1 (hx.trans hp.symm.subperm)

/-- While the workers started hold fewer results than the bound allows and none holds `x`, one of
    them is free and a task is queued. -/
theorem Inv.exists_recv {s : Sys α β} {x : β} (hi : Inv N work ts s) (hst : s.closerStarted = true)
    (hnd : Worker.done ∉ s.ws) (hb : (s.out ++ [x]).Subperm ((ts.take (s.out.length + N)).map work))
    (hx : x ∉ s.ws.filterMap Worker.held) :
    ∃ (i : Nat) (t : α) (rest : List α), s.ws[i]? = some .ranging ∧ s.tasks = t :: rest := by
  obtain ⟨pre, hpre, hp⟩ := hi.recvd
  have hlt : pre.length < s.out.length + N ∧ s.tasks ≠ [] := by
    by_contra hc
    refine hx (mem_held_of_subperm hp (hb.trans (List.Sublist.subperm (List.Sublist.map _ ?_))))
    rcases not_and_or.1 hc with hle | hnil
    · have hpt : pre <+: ts := hpre ▸ List.prefix_append _ _
      rw [List.prefix_iff_eq_take.1 hpt]
      exact List.take_sublist_take_left _ (by omega)
    · rw [← hpre, not_not.1 hnil, List.append_nil]
      exact List.take_sublist _ _
  have hlen := hp.length_eq
  simp only [List.length_append, List.length_map] at hlen
  have hfree : ¬ ∀ w ∈ s.ws, (Worker.held w).isSome := fun hall => by
    have := List.filterMap_length_eq_length.2 hall
    have := hi.started_len hst
    omega
  obtain ⟨w, hw, hnone⟩ := not_forall₂.1 hfree
  obtain ⟨i, hg⟩ := List.mem_iff_getElem?.1 hw
  obtain ⟨t, rest, ht⟩ := List.exists_cons_of_ne_nil hlt.2
  rcases w with _ | r | _
  · exact ⟨i, t, rest, hg, ht⟩
  · simp at hnone
  · exact absurd hw hnd

/-- While `results` is open and no worker has returned, workers receive tasks until one holds
    `x`, if the bound allows `x` next. -/
theorem run_recv_until {x : β} (s : Sys α β) (hi : Inv N work ts s) (hst : s.closerStarted = true)
    (hc : s.closed = false) (hnd : Worker.done ∉ s.ws)
    (hb : (s.out ++ [x]).Subperm ((ts.take (s.out.length + N)).map work)) :
    ∃ acts s', run N work s acts = some s' ∧ Inv N work ts s' ∧ s'.closerStarted = true ∧
      s'.closed = false ∧ Worker.done ∉ s'.ws ∧ s'.out = s.out ∧ x ∈ s'.ws.filterMap Worker.held := by
  by_cases hx : x ∈ s.ws.filterMap Worker.held
  · exact ⟨[], s, rfl, hi, hst, hc, hnd, rfl, hx⟩
  obtain ⟨i, t, rest, hg, ht⟩ := hi.exists_recv hst hnd hb hx
  have hs : step N work s (.recv i) = some { s with ws := s.ws.set i (.sending (work t)), tasks := rest } := by
    simp only [step, hg, ht]
  obtain ⟨acts, s', h, h'⟩ :=
    run_recv_until _ (hi.step hs) hst hc (fun hd => hnd (done_mem_of_mem_set (by simp) hd)) hb
  exact ⟨.recv i :: acts, s', by rw [run, hs, Option.some_bind, h], h'⟩
termination_by s.tasks.length
decreasing_by simp [ht]

/-- Once `tasks` is drained and every result sent, the workers return one after another. -/
theorem run_exits (k : Nat) : ∀ j (out : List β), ∃ acts,
    run N work ⟨k, List.replicate j .done ++ List.replicate k .ranging, ([] : List α), true, false, out, none⟩ acts =
      some ⟨0, List.replicate (j + k) .done, [], true, false, out, none⟩ := by
  induction k with
  | zero => exact fun j out => ⟨[], by simp [run]⟩
  | succ k ih =>
    intro j out
    obtain ⟨acts, h⟩ := ih (j + 1) out
    refine ⟨.exit j :: acts, ?_⟩
    rw [List.replicate_succ, run]
    simp only [step, getElem?_replicate_append, set_replicate_append, replicate_append_cons]
    rw [if_neg (Nat.succ_ne_zero k), Nat.add_sub_cancel, Option.some_bind, h, Nat.add_right_comm j 1 k, Nat.add_assoc]

/-- The loop starts every worker and then the closing goroutine. -/
theorem run_spawns (j : Nat) : ∀ m, m + j = N →
    run N work ⟨m, List.replicate m .ranging, ts, false, false, [], none⟩ (List.replicate j .spawn ++ [.spawnCloser]) =
      some ⟨N, List.replicate N .ranging, ts, true, false, [], none⟩ := by
  induction j with
  | zero =>
    rintro m rfl
    simp [run, step]
  | succ j ih =>
    intro m hm
    rw [List.replicate_succ, List.cons_append, run, step, if_pos (by simp; omega), Option.some_bind,
      ← List.replicate_succ', ih (m + 1) (by omega)]

/-- While `results` is open and no worker has returned, a schedule delivers every order of the
    rest of the results that the bound allows, and closes `results`. -/
theorem run_delivers : ∀ (o : List β) (s : Sys α β), Inv N work ts s → s.closerStarted = true →
    s.closed = false → Worker.done ∉ s.ws → (s.out ++ o).Perm (ts.map work) →
    (∀ p, ((s.out ++ o).take (p + 1)).Subperm ((ts.take (p + N)).map work)) →
    ∃ acts s', run N work s acts = some s' ∧ s'.closed = true ∧ s'.out = s.out ++ o
  | [], ⟨wg, ws, tasks, cs, cl, out, pn⟩, hi, hst, hc, hnd, hperm, _ => by
    simp only at hst hc hnd hperm
    obtain ⟨pre, hpre, hp⟩ := hi.recvd
    have h1 := hp.length_eq
    have h2 := hperm.length_eq
    have h3 := congrArg List.length hpre
    simp only [List.length_append, List.length_map, List.append_nil] at h1 h2 h3
    have hheld : ws.filterMap Worker.held = [] := List.eq_nil_of_length_eq_zero (by omega)
    obtain rfl : tasks = [] := List.eq_nil_of_length_eq_zero (by omega)
    have hall : ∀ w ∈ ws, w = .ranging := fun w hw => by
      have := List.filterMap_eq_nil_iff.1 hheld w hw
      rcases w with _ | r | _
      · rfl
      · simp at this
      · exact absurd hw hnd
    have hws : ws = List.replicate ws.length .ranging := List.eq_replicate_iff.2 ⟨rfl, hall⟩
    have hwg : wg = ws.length := by
      have := hi.wg_eq
      simp only at this
      rw [this]
      exact List.countP_eq_length.2 fun w hw => by rw [hall w hw]; rfl
    obtain ⟨acts, h⟩ := @run_exits α β N work ws.length 0 out
    refine ⟨acts ++ [.close], ⟨0, List.replicate ws.length .done, [], true, true, out, none⟩, ?_, rfl,
      (List.append_nil _).symm⟩
    obtain rfl := hi.panic_none
    subst hst hc hwg
    rw [run_append, hws, List.length_replicate, ← List.nil_append (List.replicate ws.length _),
      ← List.replicate_zero, h, Nat.zero_add]
    rfl
  | x :: o, s, hi, hst, hc, hnd, hperm, hb => by
    have hbx : (s.out ++ [x]).Subperm ((ts.take (s.out.length + N)).map work) := by
      simpa [List.take_append] using hb s.out.length
    obtain ⟨acts₁, s₁, h₁, hi₁, hst₁, hc₁, hnd₁, hout₁, hx⟩ := run_recv_until s hi hst hc hnd hbx
    obtain ⟨w, hw, hwx⟩ := List.mem_filterMap.1 hx
    obtain ⟨i, hg⟩ := List.mem_iff_getElem?.1 hw
    rcases w with _ | r | _ <;> simp at hwx
    subst hwx
    have hs : step N work s₁ (.send i) = some { s₁ with out := s₁.out ++ [r], ws := s₁.ws.set i .ranging } := by
      simp only [step, hg, hc₁]; rfl
    have hrest : s₁.out ++ [r] ++ o = s.out ++ r :: o := by simp [hout₁]
    obtain ⟨acts₂, s', h₂, hc', hout'⟩ := run_delivers o _ (hi₁.step hs) hst₁ hc₁
      (fun hd => hnd₁ (done_mem_of_mem_set (by simp) hd)) (by rw [hrest]; exact hperm) (by rw [hrest]; exact hb)
    refine ⟨acts₁ ++ .send i :: acts₂, s', ?_, hc', by rw [hout', hrest]⟩
    rw [run_append, h₁, Option.some_bind, run, hs, Option.some_bind, h₂]

end Schedules

/-- With at least one worker, what the reader receives over all schedules that close `results`
    is exactly the orders of `do` of the tasks in which each first `p + 1` results are `do` of
    some of the first `p + N` tasks. -/
theorem workerPool_outputs {ts : List α} (hN : 0 < N) (o : List β) :
    (∃ acts s, run N work (init ts) acts = some s ∧ s.closed = true ∧ s.out = o) ↔
      o.Perm (ts.map work) ∧ ∀ p, (o.take (p + 1)).Subperm ((ts.take (p + N)).map work) := by
  constructor
  · rintro ⟨acts, s, h, hc, rfl⟩
    have hi := (inv_init N work ts).run h
    exact ⟨hi.out_perm hN hc, hi.order⟩
  · rintro ⟨hperm, hb⟩
    have hsp : run N work (init ts) (List.replicate N .spawn ++ [.spawnCloser]) =
        some ⟨N, List.replicate N .ranging, ts, true, false, [], none⟩ := run_spawns N 0 (Nat.zero_add N)
    obtain ⟨acts, s, h, hc, hout⟩ :=
      run_delivers o _ ((inv_init N work ts).run hsp) rfl rfl (by simp) hperm hb
    exact ⟨_ ++ acts, s, by rw [run_append, hsp, Option.some_bind, h], hc, by simpa using hout⟩

theorem workerPool_outputs_two :
    0 < 2 ∧ ((∃ acts s, run 2 (· * 10) (init [1, 2]) acts = some s ∧ s.closed = true ∧ s.out = [20, 10]) ↔
      [20, 10].Perm ([1, 2].map (· * 10)) ∧
        ∀ p, ([20, 10].take (p + 1)).Subperm (([1, 2].take (p + 2)).map (· * 10))) :=
  ⟨by decide, workerPool_outputs (by decide) [20, 10]⟩

end GoLabs.WorkerPool

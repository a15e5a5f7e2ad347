import GoLabs.Saga.Step

/-! # The saga lab as one system

The emitter, the five step services and the DLQ replayer of the lab, deployed as its
documentation lays them out: the emitter writes `StartSaga` events to `saga.step1`,
step `n` reads the topic before it and writes `saga.stepn.completed`, step 5 sends its
fatal failures to `saga.dlq`, and the replayer writes them back to their
`x-original-topic`. Each topic has one partition; each service reads it at its group's
committed offset, and the services take turns in any order. An operator may change a
step's `FAIL_MODE` between turns (`kubectl set env`).

In every run, whatever the schedule, the write failures and the failure modes, every
message carries an `Event` whose saga id is its key and one of its `x-saga-id` headers,
the events of `saga.step1` and of `saga.stepk.completed`, `k < 5`, are at step `k + 1`,
those of `saga.dlq` at step 5 with `saga.step4.completed` as replay target, and those of
`saga.step5.completed` are what `Process` returned at step 5 under a mode step 5 had.
So with no retryable or flaky mode at step 5 every completed saga is at step 6, and
while step 5 stays fatal no saga completes, however often the replayer replays it.
-/

namespace GoLabs.Saga

/-- The environment `RunEmitter` reads; `EMIT_EVERY_MS` only sets its ticker's period. -/
structure EmitterConfig where
  brokers : String
  topic : String

def EmitterConfig.valid (cfg : EmitterConfig) : Bool :=
  cfg.brokers ≠ "" ∧ cfg.topic ≠ ""

/-- The message `RunEmitter` writes at one tick, `sagaId` being the id it formatted from
    the clock and `rand.Intn` at that tick: a `StartSaga` event at step 1. -/
def emitMessage (cfg : EmitterConfig) (sagaId : String) : Message :=
  ⟨cfg.topic, 0, sagaId, some ⟨sagaId, 1⟩, [⟨"x-saga-id", sagaId⟩]⟩

/-- The topics' logs, the step services' deployments in step order, and the committed
    offsets of their groups and of the replayer's. -/
structure Bus where
  logs : String → List Message
  steps : List StepConfig
  pos : Nat → Nat
  replayPos : Nat

/-- One turn of the system. -/
inductive Turn where
  /-- A tick of the emitter's ticker, and whether its write succeeds. -/
  | emit (sagaId : String) (writeOk : Bool)
  /-- Step service `i` reads its next message, with the draw of its `Process` call. -/
  | step (i : Nat) (flakyDraw writeOk : Bool)
  /-- The replayer reads its next message. -/
  | replay (writeOk : Bool)
  /-- The operator sets `FAIL_MODE` of step service `i`. -/
  | setFailMode (i : Nat) (mode : String)

/-- The broker appends `o` to its topic, at the next offset. -/
def publishTo (logs : String → List Message) (o : Message) : String → List Message :=
  Function.update logs o.topic (logs o.topic ++ [{ o with offset := (logs o.topic).length }])

/-- The logs once `WriteMessages` has returned for `out`, if there is one. -/
def writeLogs (logs : String → List Message) (out : Option Message) (writeOk : Bool) :
    String → List Message :=
  match out with
  | some o => if writeOk then publishTo logs o else logs
  | none => logs

/-- One turn: `none` when it cannot happen (nothing to read, no such service, or a
    configuration its service refuses at start). `ReadMessage` commits what it returns,
    so a service's offset moves past every message it reads. -/
def Bus.step (emitter : EmitterConfig) (replayer : ReplayConfig) (b : Bus) : Turn → Option Bus
  | .emit sagaId ok =>
    if emitter.valid then
      some { b with logs := writeLogs b.logs (some (emitMessage emitter sagaId)) ok }
    else none
  | .step i draw ok =>
    match b.steps[i]? with
    | some cfg =>
      if cfg.valid then
        match (b.logs cfg.topicIn)[b.pos i]? with
        | some m =>
          some { b with logs := writeLogs b.logs (stepMessage cfg draw m) ok,
                        pos := Function.update b.pos i (b.pos i + 1) }
        | none => none
      else none
    | none => none
  | .replay ok =>
    if replayer.valid then
      match (b.logs replayer.dlqTopic)[b.replayPos]? with
      | some m =>
        some { b with logs := writeLogs b.logs (replayMessage replayer m) ok,
                      replayPos := b.replayPos + 1 }
      | none => none
    else none
  | .setFailMode i mode =>
    match b.steps[i]? with
    | some cfg => some { b with steps := b.steps.set i { cfg with failMode := mode } }
    | none => none

/-- A schedule of turns: `none` if one of them cannot happen. -/
def Bus.run (emitter : EmitterConfig) (replayer : ReplayConfig) (b : Bus) : List Turn → Option Bus
  | [] => some b
  | t :: rest => (b.step emitter replayer t).bind (·.run emitter replayer rest)

/-- The lab's topics: `saga.step1`, then each step's completed topic. -/
def labTopic : Nat → String
  | 0 => "saga.step1"
  | 1 => "saga.step1.completed"
  | 2 => "saga.step2.completed"
  | 3 => "saga.step3.completed"
  | 4 => "saga.step4.completed"
  | _ => "saga.step5.completed"

def labEmitter : EmitterConfig := ⟨"kafka:9092", labTopic 0⟩

/-- The deployment of step `n`, with its `FAIL_MODE`. -/
def labStep (n : Nat) (mode : String) : StepConfig :=
  ⟨"kafka:9092", labTopic (n - 1), labTopic n, "saga.dlq", s!"svc{n}-group", n, mode⟩

/-- The lab as deployed, nothing written yet, step `i + 1` in mode `modes i`. -/
def Bus.init (modes : Nat → String) : Bus :=
  ⟨fun _ => [], (List.range 5).map fun i => labStep (i + 1) (modes i), fun _ => 0, 0⟩

theorem labTopic_injective : ∀ a < 6, ∀ b < 6, labTopic a = labTopic b → a = b := by decide

theorem labTopic_ne_dlq : ∀ a < 6, labTopic a ≠ "saga.dlq" := by decide

/-- `m` carries an event at step `s` whose saga id is `m`'s key and one of its
    `x-saga-id` headers. -/
def Stamped (m : Message) (s : Int) : Prop :=
  ∃ evt, m.value = some evt ∧ evt.step = s ∧ m.key = evt.sagaId ∧
    ⟨"x-saga-id", evt.sagaId⟩ ∈ m.headers

/-- `m` is what step 5 writes to its `TOPIC_OUT` for an event at step 5, in a mode
    satisfying `M`. -/
def FromStep5 (M : String → Prop) (m : Message) : Prop :=
  ∃ mode draw evt, M mode ∧ evt.step = 5 ∧ (process 5 mode draw evt).fatal = false ∧
    m.value = some (process 5 mode draw evt).next ∧ m.key = evt.sagaId ∧
    ⟨"x-saga-id", evt.sagaId⟩ ∈ m.headers

/-- What a message on topic `t` of the lab carries, step 5's modes satisfying `M`. -/
structure Expected (M : String → Prop) (t : String) (m : Message) : Prop where
  dlq : t = "saga.dlq" → Stamped m 5 ∧ replayTopic labReplayer m.headers = labTopic 4
  completed : t = labTopic 5 → FromStep5 M m
  chain : ∀ k < 5, t = labTopic k → Stamped m (k + 1)

section Expected

variable {M : String → Prop} {m : Message}

theorem Expected.of_chain {j : Nat} (hj : j < 5) (h : Stamped m (j + 1)) :
    Expected M (labTopic j) m where
  dlq ht := absurd ht (labTopic_ne_dlq j (by omega))
  completed ht := absurd (labTopic_injective j (by omega) 5 (by omega) ht) (by omega)
  chain k hk ht := by
    obtain rfl := labTopic_injective j (by omega) k (by omega) ht
    exact h

theorem Expected.of_dlq (h : Stamped m 5) (hr : replayTopic labReplayer m.headers = labTopic 4) :
    Expected M "saga.dlq" m where
  dlq _ := ⟨h, hr⟩
  completed ht := absurd ht.symm (labTopic_ne_dlq 5 (by omega))
  chain k hk ht := absurd ht.symm (labTopic_ne_dlq k (by omega))

theorem Expected.of_completed (h : FromStep5 M m) : Expected M (labTopic 5) m where
  dlq ht := absurd ht (labTopic_ne_dlq 5 (by omega))
  completed _ := h
  chain k hk ht := absurd (labTopic_injective 5 (by omega) k (by omega) ht) (by omega)

/-- What a message carries does not depend on its offset. -/
theorem Expected.offset {t : String} (h : Expected M t m) (n : Nat) :
    Expected M t { m with offset := n } :=
  ⟨h.dlq, h.completed, h.chain⟩

end Expected

/-- A property of every message on every topic survives a write of messages that have
    it, at whatever offset. -/
theorem writeLogs_forall {P : String → Message → Prop} {logs : String → List Message}
    (h : ∀ t, ∀ m ∈ logs t, P t m) (out : Option Message) (ok : Bool)
    (hout : ∀ o ∈ out, ok = true → ∀ n, P o.topic { o with offset := n }) :
    ∀ t, ∀ m ∈ writeLogs logs out ok t, P t m := by
  intro t m hm
  match out, ok with
  | none, _ | some _, false => exact h t m hm
  | some o, true =>
    by_cases ht : t = o.topic
    · subst ht
      simp only [writeLogs, if_true, publishTo, Function.update_same, List.mem_append,
        List.mem_singleton] at hm
      rcases hm with hm | rfl
      · exact h _ m hm
      · exact hout o rfl rfl _
    · simp only [writeLogs, if_true, publishTo, Function.update_noteq ht] at hm
      exact h t m hm

/-- The lab's invariant, step 5's modes satisfying `M`: the deployments are the lab's
    steps, and every message on every topic carries what `Expected` says. -/
structure Bus.LabInv (M : String → Prop) (b : Bus) : Prop where
  length : b.steps.length = 5
  steps : ∀ i (h : i < b.steps.length), b.steps[i] = labStep (i + 1) b.steps[i].failMode
  mode5 : ∀ h : 4 < b.steps.length, M b.steps[4].failMode
  logs : ∀ t, ∀ m ∈ b.logs t, Expected M t m

section Turns

variable {M : String → Prop} {b : Bus}

theorem Bus.LabInv.emit (hi : b.LabInv M) (sagaId : String) (ok : Bool) :
    ({ b with logs := writeLogs b.logs (some (emitMessage labEmitter sagaId)) ok } : Bus).LabInv M := by
  refine ⟨hi.length, hi.steps, hi.mode5,
    writeLogs_forall hi.logs (some (emitMessage labEmitter sagaId)) ok fun o ho _ n => ?_⟩
  obtain rfl := Option.mem_some_iff.mp ho
  refine Expected.offset (show Expected M (labTopic 0) _ from ?_) n
  exact Expected.of_chain (by omega) ⟨⟨sagaId, 1⟩, rfl, rfl, rfl, by simp [emitMessage]⟩

/-- What step service `i` reads is at step `i + 1`, and what it writes is at step `i + 2`,
    or, at step 5, is `Process`'s output in its current mode or goes to the DLQ unchanged
    with step 4's completed topic as its last `x-original-topic`. -/
theorem Bus.LabInv.stepService (hi : b.LabInv M) {i : Nat} {cfg : StepConfig} {m : Message}
    (hcfg : b.steps[i]? = some cfg) (hm : (b.logs cfg.topicIn)[b.pos i]? = some m)
    (draw ok : Bool) :
    ({ b with logs := writeLogs b.logs (stepMessage cfg draw m) ok,
              pos := Function.update b.pos i (b.pos i + 1) } : Bus).LabInv M := by
  obtain ⟨hlt, hget⟩ := List.getElem?_eq_some_iff.mp hcfg
  have hi5 : i < 5 := hi.length ▸ hlt
  have hlab : cfg = labStep (i + 1) cfg.failMode := hget ▸ hi.steps i hlt
  have hmode : i = 4 → M cfg.failMode := by rintro rfl; exact hget ▸ hi.mode5 hlt
  generalize cfg.failMode = mode at hlab hmode
  subst hlab
  simp only [labStep, Nat.add_sub_cancel] at hm
  obtain ⟨evt, hv, hstep, hkey, hhdr⟩ :=
    (hi.logs _ m (List.mem_iff_getElem?.mpr ⟨_, hm⟩)).chain i hi5 rfl
  refine ⟨hi.length, hi.steps, hi.mode5,
    writeLogs_forall hi.logs (stepMessage _ draw m) ok fun o ho _ n => ?_⟩
  simp only [stepMessage, hv, labStep, Nat.add_sub_cancel] at ho
  split at ho <;> obtain rfl := Option.mem_some_iff.mp ho <;> refine Expected.offset ?_ n
  · rename_i hfatal
    obtain ⟨h5, hnext⟩ := process_fatal _ _ _ _ hfatal
    obtain rfl : i = 4 := by omega
    exact Expected.of_dlq ⟨evt, by simpa using hnext, by omega, hkey, by simp [hhdr]⟩
      (by simp [replayTopic, List.foldl_append])
  · rename_i hfatal
    by_cases h4 : i = 4
    · subst h4
      rw [show ((4 + 1 : Nat) : Int) = 5 from rfl] at hfatal ⊢
      exact Expected.of_completed ⟨mode, draw, evt, hmode rfl, by omega, by simpa using hfatal, rfl, hkey,
        by simp [hhdr]⟩
    · rw [process_of_ne_five _ _ _ _ (by omega)]
      exact Expected.of_chain (by omega) ⟨_, rfl, by simp, hkey, by simp [hhdr]⟩

/-- The replayer reads a DLQ message, at step 5 with step 4's completed topic as its
    replay target, and writes it back there, where step-5 events belong. -/
theorem Bus.LabInv.replay (hi : b.LabInv M) {m : Message}
    (hm : (b.logs labReplayer.dlqTopic)[b.replayPos]? = some m) (ok : Bool) :
    ({ b with logs := writeLogs b.logs (replayMessage labReplayer m) ok,
              replayPos := b.replayPos + 1 } : Bus).LabInv M := by
  obtain ⟨⟨evt, hv, hstep, hkey, hhdr⟩, hr⟩ :=
    (hi.logs _ m (List.mem_iff_getElem?.mpr ⟨_, hm⟩)).dlq rfl
  refine ⟨hi.length, hi.steps, hi.mode5,
    writeLogs_forall hi.logs (replayMessage labReplayer m) ok fun o ho _ n => ?_⟩
  simp only [replayMessage, hv, hr] at ho
  obtain rfl := Option.mem_some_iff.mp (by simpa [labReplayer, labTopic] using ho)
  refine Expected.offset (show Expected M (labTopic 4) _ from ?_) n
  exact Expected.of_chain (by omega) ⟨evt, rfl, hstep, hkey, hhdr⟩

theorem Bus.LabInv.setFailMode (hi : b.LabInv M) {i : Nat} {cfg : StepConfig}
    (hcfg : b.steps[i]? = some cfg) {mode : String} (hM : i = 4 → M mode) :
    ({ b with steps := b.steps.set i { cfg with failMode := mode } } : Bus).LabInv M where
  length := by simp [hi.length]
  steps j hj := by
    simp only [List.getElem_set]
    split
    · subst j
      obtain ⟨hlt, rfl⟩ := List.getElem?_eq_some_iff.mp hcfg
      rw [hi.steps i hlt]
      rfl
    · exact hi.steps j (by simpa using hj)
  mode5 h := by
    simp only [List.getElem_set]
    split
    · exact hM (by omega)
    · exact hi.mode5 (by simpa using h)
  logs := hi.logs

/-- Every turn keeps the invariant, provided a mode it gives step 5 satisfies `M`. -/
theorem Bus.LabInv.step (hi : b.LabInv M) {t : Turn} {b' : Bus}
    (hM : ∀ mode, t = .setFailMode 4 mode → M mode)
    (h : b.step labEmitter labReplayer t = some b') : b'.LabInv M := by
  cases t with
  | emit sagaId ok =>
    simp only [Bus.step, show labEmitter.valid = true by decide, if_true, Option.some.injEq] at h
    exact h ▸ hi.emit sagaId ok
  | step i draw ok =>
    simp only [Bus.step] at h
    split at h
    · rename_i cfg hcfg
      split at h
      · split at h
        · rename_i m hm
          cases h
          exact hi.stepService hcfg hm draw ok
        · cases h
      · cases h
    · cases h
  | replay ok =>
    simp only [Bus.step] at h
    split at h
    · split at h
      · rename_i m hm
        cases h
        exact hi.replay hm ok
      · cases h
    · cases h
  | setFailMode i mode =>
    simp only [Bus.step] at h
    split at h
    · rename_i cfg hcfg
      cases h
      exact hi.setFailMode hcfg fun h4 => hM mode (h4 ▸ rfl)
    · cases h

theorem Bus.LabInv.run (hi : b.LabInv M) {sched : List Turn} {b' : Bus}
    (hM : ∀ mode, Turn.setFailMode 4 mode ∈ sched → M mode)
    (h : b.run labEmitter labReplayer sched = some b') : b'.LabInv M := by
  induction sched generalizing b with
  | nil => exact Option.some.inj h ▸ hi
  | cons t rest ih =>
    obtain ⟨b₁, h₁, h₂⟩ := Option.bind_eq_some.mp h
    exact ih (hi.step (fun mode ht => hM mode (ht ▸ List.mem_cons_self _ _)) h₁)
      (fun mode hm => hM mode (List.mem_cons_of_mem _ hm)) h₂

theorem Bus.LabInv.init (modes : Nat → String) (h4 : M (modes 4)) : (Bus.init modes).LabInv M where
  length := by simp [Bus.init]
  steps i _ := by simp [Bus.init, labStep]
  mode5 _ := by simpa [Bus.init, labStep] using h4
  logs _ _ h := by simp [Bus.init] at h

end Turns

/-- In every run of the lab, whatever the turns, the write failures and the failure modes:
    every event of `saga.step1` and of `saga.stepk.completed`, `k < 5`, is at step `k + 1`;
    every event of `saga.dlq` is at step 5 and is replayed to `saga.step4.completed`; every
    event of `saga.step5.completed` is at step 6 or, when step 5 failed, 5. Each carries
    its saga id as its key and in an `x-saga-id` header. -/
theorem lab_run_stamped (modes : Nat → String) (sched : List Turn) {b : Bus}
    (h : (Bus.init modes).run labEmitter labReplayer sched = some b) :
    (∀ k < 5, ∀ m ∈ b.logs (labTopic k), Stamped m (k + 1)) ∧
      (∀ m ∈ b.logs "saga.dlq",
        Stamped m 5 ∧ replayTopic labReplayer m.headers = "saga.step4.completed") ∧
      ∀ m ∈ b.logs "saga.step5.completed", Stamped m 6 ∨ Stamped m 5 := by
  have hi : b.LabInv fun _ => True := (Bus.LabInv.init modes trivial).run (fun _ _ => trivial) h
  refine ⟨fun k hk m hm => (hi.logs _ m hm).chain k hk rfl, fun m hm => (hi.logs _ m hm).dlq rfl,
    fun m hm => ?_⟩
  obtain ⟨mode, draw, evt, -, h5, -, hv, hkey, hhdr⟩ := (hi.logs _ m hm).completed rfl
  have hid := process_sagaId 5 mode draw evt
  rcases process_next 5 mode draw evt with hn | hn <;> rw [hn] at hv hid
  · exact .inr ⟨evt, hv, h5, hkey, hhdr⟩
  · exact .inl ⟨_, hv, by simp [h5], hkey, by simpa [hid] using hhdr⟩

/-- A saga emitted and taken through the five steps, each in mode `none`. -/
def oneSaga : List Turn :=
  [.emit "s1" true, .step 0 false true, .step 1 false true, .step 2 false true, .step 3 false true,
    .step 4 false true]

theorem lab_run_stamped_oneSaga :
    ∃ b, (Bus.init fun _ => "none").run labEmitter labReplayer oneSaga = some b ∧
      ((∀ k < 5, ∀ m ∈ b.logs (labTopic k), Stamped m (k + 1)) ∧
        (∀ m ∈ b.logs "saga.dlq",
          Stamped m 5 ∧ replayTopic labReplayer m.headers = "saga.step4.completed") ∧
        ∀ m ∈ b.logs "saga.step5.completed", Stamped m 6 ∨ Stamped m 5) :=
  ⟨_, rfl, lab_run_stamped (fun _ => "none") oneSaga rfl⟩

/-- No retryable or flaky mode. -/
def SafeMode (mode : String) : Prop := hasPrefix mode "flaky:" = false ∧ mode ≠ "retryable"

/-- If step 5 never runs in a retryable or flaky mode, every event of
    `saga.step5.completed` is at step 6. -/
theorem lab_run_safe_completed (modes : Nat → String) (sched : List Turn) {b : Bus}
    (h4 : SafeMode (modes 4)) (hsched : ∀ mode, Turn.setFailMode 4 mode ∈ sched → SafeMode mode)
    (h : (Bus.init modes).run labEmitter labReplayer sched = some b) :
    ∀ m ∈ b.logs "saga.step5.completed", Stamped m 6 := by
  have hi : b.LabInv SafeMode := (Bus.LabInv.init modes h4).run hsched h
  intro m hm
  obtain ⟨mode, draw, evt, ⟨hf, hr⟩, h5, hfatal, hv, hkey, hhdr⟩ := (hi.logs _ m hm).completed rfl
  rw [process_next_of_safe 5 mode draw evt hf hr hfatal] at hv
  exact ⟨_, hv, by simp [h5], hkey, hhdr⟩

theorem lab_run_safe_completed_oneSaga :
    SafeMode "none" ∧ ∃ b, (Bus.init fun _ => "none").run labEmitter labReplayer oneSaga = some b ∧
      ∀ m ∈ b.logs "saga.step5.completed", Stamped m 6 :=
  ⟨⟨rfl, by decide⟩, _, rfl, lab_run_safe_completed (fun _ => "none") oneSaga ⟨rfl, by decide⟩ (by simp [oneSaga]) rfl⟩

/-- While step 5 stays fatal, no saga completes, however often the replayer replays it. -/
theorem lab_run_fatal_never_completes (modes : Nat → String) (sched : List Turn) {b : Bus}
    (h4 : modes 4 = "fatal") (hsched : ∀ mode, Turn.setFailMode 4 mode ∈ sched → mode = "fatal")
    (h : (Bus.init modes).run labEmitter labReplayer sched = some b) :
    b.logs "saga.step5.completed" = [] := by
  have hi : b.LabInv (· = "fatal") := (@Bus.LabInv.init (· = "fatal") modes h4).run hsched h
  refine List.eq_nil_iff_forall_not_mem.mpr fun m hm => ?_
  obtain ⟨mode, draw, evt, rfl, -, hfatal, -⟩ := (hi.logs _ m hm).completed rfl
  simp [process_fatal_mode] at hfatal

/-- Step 5 fails fatally, the replayer sends the saga back, and step 5 fails again. -/
def fatalReplay : List Turn := oneSaga ++ [.replay true, .step 4 false true]

theorem lab_run_fatal_never_completes_fatalReplay :
    ∃ b, (Bus.init fun i => if i = 4 then "fatal" else "none").run labEmitter labReplayer fatalReplay = some b ∧
      b.logs "saga.step5.completed" = [] :=
  ⟨_, rfl, lab_run_fatal_never_completes (fun i => if i = 4 then "fatal" else "none") fatalReplay rfl (by simp [fatalReplay, oneSaga]) rfl⟩

end GoLabs.Saga

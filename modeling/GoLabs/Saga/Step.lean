import GoLabs.Runtime

/-! # Step services and the DLQ replayer of the saga lab

`Process`, `RunStepService` and `RunDLQReplayer` of `pkg/common`. Both services loop
over `Reader.ReadMessage`, which, with a `GroupID`, commits the message's offset before
returning it; each message then gives at most one `WriteMessages`, whose failure is
logged and the loop goes on to the next message.

`Process` returns the input event itself on a retryable failure, and `RunStepService`
writes whatever `Process` returned to `TOPIC_OUT` unless it is fatal.
-/

namespace GoLabs.Saga

/-- `common.Event`. `SchemaVersion`, `Ts` and `Payload` are copied by `Process` and read
    by nothing, so they are left out. -/
structure Event where
  sagaId : String
  step : Int
  deriving Repr, DecidableEq

/-- A kafka-go message. `value` is what `json.Unmarshal` makes of its bytes as an
    `Event` (`none` when it fails); written messages carry the event they encode. The
    offset of a written message is set by the broker, and is `0` here. -/
structure Message where
  topic : String
  offset : Nat
  key : String
  value : Option Event
  headers : List Header
  deriving Repr, DecidableEq

/-- What one call of `Process` does: the event it returns, whether it reports a fatal
    failure, and the reason it counts in `saga_retries_total`, when it counts one. -/
structure Processed where
  next : Event
  fatal : Bool
  retryReason : Option String
  deriving Repr, DecidableEq

/-- `Process(step, failMode, evt)`. `flakyDraw` is whether `rand.Float64() < p` at this
    call, `p` being parsed from a `flaky:<p>` mode. -/
def process (step : Int) (failMode : String) (flakyDraw : Bool) (evt : Event) : Processed :=
  let next := { evt with step := step + 1 }
  if step ≠ 5 ∨ failMode = "" ∨ failMode = "none" then ⟨next, false, none⟩
  else if hasPrefix failMode "flaky:" then
    if flakyDraw then ⟨evt, false, some "flaky"⟩ else ⟨next, false, none⟩
  else if failMode = "retryable" then ⟨evt, false, some "timeout"⟩
  else if failMode = "fatal" then ⟨evt, true, some "fatal"⟩
  else ⟨next, false, none⟩

section Process

variable (n : Int) (mode : String) (draw : Bool) (evt : Event)

/-- What one call of `Process` can return: the event one step on; at step 5 in a flaky
    or retryable mode, the input event, not fatal; at step 5 in the fatal mode, the input
    event, fatal. -/
theorem process_cases :
    process n mode draw evt = ⟨{ evt with step := n + 1 }, false, none⟩ ∨
      n = 5 ∧ (hasPrefix mode "flaky:" = true ∨ mode = "retryable") ∧
        (process n mode draw evt).next = evt ∧ (process n mode draw evt).fatal = false ∨
      n = 5 ∧ mode = "fatal" ∧ process n mode draw evt = ⟨evt, true, some "fatal"⟩ := by
  unfold process
  split_ifs <;> simp_all

theorem process_sagaId : (process n mode draw evt).next.sagaId = evt.sagaId := by
  rcases process_cases n mode draw evt with h | ⟨-, -, h, -⟩ | ⟨-, -, h⟩ <;> simp [h]

/-- `Process` returns the input event or the event one step on. -/
theorem process_next :
    (process n mode draw evt).next = evt ∨
      (process n mode draw evt).next = { evt with step := n + 1 } := by
  rcases process_cases n mode draw evt with h | ⟨-, -, h, -⟩ | ⟨-, -, h⟩ <;> simp [h]

/-- Only step 5 fails fatally, and then it returns the input event. -/
theorem process_fatal (h : (process n mode draw evt).fatal = true) :
    n = 5 ∧ (process n mode draw evt).next = evt := by
  rcases process_cases n mode draw evt with h' | ⟨-, -, -, h'⟩ | ⟨h5, -, h'⟩ <;> simp_all

/-- Without a retryable or flaky mode, a call that does not fail fatally moves the event
    one step on. -/
theorem process_next_of_safe (hf : hasPrefix mode "flaky:" = false) (hr : mode ≠ "retryable")
    (h : (process n mode draw evt).fatal = false) :
    (process n mode draw evt).next = { evt with step := n + 1 } := by
  rcases process_cases n mode draw evt with h' | ⟨-, hm, -⟩ | ⟨-, -, h'⟩ <;> simp_all

theorem process_of_ne_five (h : n ≠ 5) :
    process n mode draw evt = ⟨{ evt with step := n + 1 }, false, none⟩ := by
  simp [process, h]

theorem process_fatal_mode : (process 5 "fatal" draw evt).fatal = true := by
  simp [process, show hasPrefix "fatal" "flaky:" = false by decide]

end Process

/-- The environment `RunStepService` reads. -/
structure StepConfig where
  brokers : String
  topicIn : String
  topicOut : String
  dlqTopic : String
  groupId : String
  step : Int
  failMode : String

/-- The check of `RunStepService` before it starts its loop. `STEP` is parsed with
    `strconv.Atoi`, its error dropped; an empty `STEP` is refused by the check. -/
def StepConfig.valid (cfg : StepConfig) : Bool :=
  cfg.brokers ≠ "" ∧ cfg.topicIn ≠ "" ∧ cfg.topicOut ≠ "" ∧ cfg.groupId ≠ "" ∧ cfg.dlqTopic ≠ ""

/-- The message `RunStepService` hands to `WriteMessages` for `m`, if any: none when the
    payload does not decode, the DLQ record on a fatal failure, else `TOPIC_OUT`. -/
def stepMessage (cfg : StepConfig) (flakyDraw : Bool) (m : Message) : Option Message :=
  match m.value with
  | none => none
  | some evt =>
    let p := process cfg.step cfg.failMode flakyDraw evt
    let headers := m.headers ++ [⟨"x-saga-id", evt.sagaId⟩]
    if p.fatal then
      some ⟨cfg.dlqTopic, 0, m.key, some p.next, headers ++ [⟨"x-original-topic", cfg.topicIn⟩]⟩
    else some ⟨cfg.topicOut, 0, m.key, some p.next, headers⟩

/-- The environment `RunDLQReplayer` reads. -/
structure ReplayConfig where
  brokers : String
  dlqTopic : String
  groupId : String
  replayTarget : String
  sagaIdFilter : String

def ReplayConfig.valid (cfg : ReplayConfig) : Bool :=
  cfg.brokers ≠ "" ∧ cfg.dlqTopic ≠ "" ∧ cfg.groupId ≠ ""

/-- The replay target of a DLQ message: the last `x-original-topic` header, else
    `REPLAY_TARGET`. -/
def replayTopic (cfg : ReplayConfig) (headers : List Header) : String :=
  headers.foldl (fun orig h => if h.key = "x-original-topic" then h.value else orig) cfg.replayTarget

/-- The message `RunDLQReplayer` hands to `WriteMessages` for `m`, if any: the same key,
    value and headers, to the replay target, for a payload that decodes, passes the
    saga filter and has a target. -/
def replayMessage (cfg : ReplayConfig) (m : Message) : Option Message :=
  match m.value with
  | none => none
  | some evt =>
    if cfg.sagaIdFilter ≠ "" ∧ evt.sagaId ≠ cfg.sagaIdFilter then none
    else
      let orig := replayTopic cfg m.headers
      if orig = "" then none else some ⟨orig, 0, m.key, m.value, m.headers⟩

/-- What a read-process-write loop has done: the group's committed offset on its input
    partition, and the messages written, in order. -/
structure LoopState where
  committed : Nat
  written : List Message
  deriving Repr, DecidableEq

/-- The written messages once `WriteMessages` has returned for `out`, if there is one. -/
def afterWrite (written : List Message) (out : Option Message) (writeOk : Bool) :
    List Message :=
  match out with
  | some o => if writeOk then written ++ [o] else written
  | none => written

/-- The loop shared by both services, over the messages `ReadMessage` returns with, for
    each, the oracle `handle` reads and whether `WriteMessages` succeeds. -/
def readLoop {β : Type} (handle : β → Message → Option Message) :
    LoopState → List (Message × β × Bool) → LoopState
  | st, [] => st
  | st, (m, b, writeOk) :: rest =>
    readLoop handle ⟨m.offset + 1, afterWrite st.written (handle b m) writeOk⟩ rest

/-- `RunStepService` on the messages of its input partition, each with the flaky draw of
    its `Process` call and whether its write succeeds. A configuration the check refuses
    reads nothing. -/
def runStepService (cfg : StepConfig) (st : LoopState)
    (input : List (Message × Bool × Bool)) : LoopState :=
  if cfg.valid then readLoop (stepMessage cfg) st input else st

/-- `RunDLQReplayer` on the messages of the DLQ partition, each with whether its write
    succeeds. -/
def runDLQReplayer (cfg : ReplayConfig) (st : LoopState)
    (input : List (Message × Unit × Bool)) : LoopState :=
  if cfg.valid then readLoop (fun _ => replayMessage cfg) st input else st

theorem readLoop_committed {β : Type} (handle : β → Message → Option Message) :
    ∀ (st : LoopState) (input : List (Message × β × Bool)),
      (readLoop handle st input).committed =
        (input.getLast?.map (·.1.offset + 1)).getD st.committed
  | _, [] => rfl
  | _, [_] => rfl
  | st, (m, b, ok) :: x :: rest => by
    rw [readLoop, readLoop_committed handle _ (x :: rest), List.getLast?_cons_cons]
    cases h : (x :: rest).getLast? with
    | none => simp at h
    | some y => rfl

theorem readLoop_written {β : Type} (handle : β → Message → Option Message) :
    ∀ (st : LoopState) (input : List (Message × β × Bool)),
      (readLoop handle st input).written =
        st.written ++ input.filterMap fun (m, b, ok) => if ok then handle b m else none
  | _, [] => by simp [readLoop]
  | st, (m, b, ok) :: rest => by
    rw [readLoop, readLoop_written handle _ rest]
    cases h : handle b m <;> cases ok <;> simp [afterWrite, h]

section StepService

variable {cfg : StepConfig}

/-- At step 5 with `FAIL_MODE=retryable`, `Process` counts a `timeout` retry and hands
    back the input event, and the loop writes that event, unchanged, to `TOPIC_OUT` as
    soon as the write succeeds: the step is published as completed though it failed. -/
theorem retryable_failure_written_completed (hvalid : cfg.valid) (hstep : cfg.step = 5)
    (hmode : cfg.failMode = "retryable") (st : LoopState) (input : List (Message × Bool × Bool))
    {m : Message} {evt : Event} {draw : Bool} (hin : (m, draw, true) ∈ input)
    (hm : m.value = some evt) :
    (process cfg.step cfg.failMode draw evt).retryReason = some "timeout" ∧
      ⟨cfg.topicOut, 0, m.key, some evt, m.headers ++ [⟨"x-saga-id", evt.sagaId⟩]⟩ ∈
        (runStepService cfg st input).written := by
  have hflaky : hasPrefix "retryable" "flaky:" = false := by decide
  have hp : process cfg.step cfg.failMode draw evt = ⟨evt, false, some "timeout"⟩ := by
    simp [process, hstep, hmode, hflaky]
  refine ⟨by rw [hp], ?_⟩
  simp only [runStepService, hvalid, if_true, readLoop_written, List.mem_append,
    List.mem_filterMap]
  exact .inr ⟨(m, draw, true), hin, by simp [stepMessage, hm, hp]⟩

/-- The step-5 service of the lab in its retryable mode. -/
def retryableStep5 : StepConfig :=
  ⟨"kafka:9092", "saga.step4.completed", "saga.step5.completed", "saga.dlq", "step5", 5,
    "retryable"⟩

theorem retryableStep5_publishes_failed_event :
    (process 5 "retryable" false ⟨"s1", 5⟩).retryReason = some "timeout" ∧
      ⟨"saga.step5.completed", 0, "s1", some ⟨"s1", 5⟩, [⟨"x-saga-id", "s1"⟩]⟩ ∈
        (runStepService retryableStep5 ⟨0, []⟩
          [(⟨"saga.step4.completed", 0, "s1", some ⟨"s1", 5⟩, []⟩, false, true)]).written :=
  @retryable_failure_written_completed retryableStep5 (by decide) rfl rfl _ _ _ _ _
    (List.mem_singleton_self _) rfl

end StepService

/-- `ReadMessage` commits each message as it returns it, so over every run both services
    have committed one past the last message read, whatever their writes did; and the
    messages written are, in order, those derived from the messages read whose payload
    decodes (and, for the replayer, passes the saga filter and has a target) and whose
    write succeeded. Any other message read is committed with nothing written for it. -/
theorem services_commit_on_read (cfg : StepConfig) (rcfg : ReplayConfig)
    (hcfg : cfg.valid) (hrcfg : rcfg.valid) (st : LoopState)
    (input : List (Message × Bool × Bool)) (rinput : List (Message × Unit × Bool)) :
    (runStepService cfg st input).committed =
        (input.getLast?.map (·.1.offset + 1)).getD st.committed ∧
      (runStepService cfg st input).written = st.written ++
        input.filterMap (fun (m, draw, ok) => if ok then stepMessage cfg draw m else none) ∧
      (runDLQReplayer rcfg st rinput).committed =
        (rinput.getLast?.map (·.1.offset + 1)).getD st.committed ∧
      (runDLQReplayer rcfg st rinput).written = st.written ++
        rinput.filterMap (fun (m, _, ok) => if ok then replayMessage rcfg m else none) := by
  simp only [runStepService, runDLQReplayer, hcfg, hrcfg, if_true]
  exact ⟨readLoop_committed _ _ _, readLoop_written _ _ _, readLoop_committed _ _ _,
    readLoop_written _ _ _⟩

/-- The lab's DLQ replayer. -/
def labReplayer : ReplayConfig := ⟨"kafka:9092", "saga.dlq", "dlq-replayer", "", ""⟩

theorem lab_services_commit_on_read :
    let input : List (Message × Bool × Bool) :=
      [(⟨"saga.step4.completed", 0, "s1", some ⟨"s1", 5⟩, []⟩, false, false)]
    let rinput : List (Message × Unit × Bool) :=
      [(⟨"saga.dlq", 0, "s1", some ⟨"s1", 5⟩, [⟨"x-original-topic", "saga.step4.completed"⟩]⟩,
        (), false)]
    (runStepService retryableStep5 ⟨0, []⟩ input).committed =
        (input.getLast?.map (·.1.offset + 1)).getD 0 ∧
      (runStepService retryableStep5 ⟨0, []⟩ input).written = [] ++
        input.filterMap (fun (m, draw, ok) => if ok then stepMessage retryableStep5 draw m
          else none) ∧
      (runDLQReplayer labReplayer ⟨0, []⟩ rinput).committed =
        (rinput.getLast?.map (·.1.offset + 1)).getD 0 ∧
      (runDLQReplayer labReplayer ⟨0, []⟩ rinput).written = [] ++
        rinput.filterMap (fun (m, _, ok) => if ok then replayMessage labReplayer m else none) :=
  services_commit_on_read retryableStep5 labReplayer (by decide) (by decide) ⟨0, []⟩ _ _

/-- A step-4 message whose `TOPIC_OUT` write fails, and a DLQ message whose replay write
    fails: each is committed, and nothing derived from it is written. -/
theorem failed_write_still_committed :
    runStepService ⟨"kafka:9092", "saga.step3.completed", "saga.step4.completed", "saga.dlq",
        "step4", 4, "none"⟩ ⟨0, []⟩
        [(⟨"saga.step3.completed", 7, "s1", some ⟨"s1", 4⟩, []⟩, false, false)] = ⟨8, []⟩ ∧
      runDLQReplayer labReplayer ⟨0, []⟩
        [(⟨"saga.dlq", 3, "s1", some ⟨"s1", 5⟩, [⟨"x-original-topic", "saga.step4.completed"⟩]⟩,
          (), false)] = ⟨4, []⟩ := by
  decide

end GoLabs.Saga

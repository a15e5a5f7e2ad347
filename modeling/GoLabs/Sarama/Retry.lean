import GoLabs.Runtime

/-! # Staged retries of the sarama demo

The `retry` package (the stage table and `Next`), the processor's `parseAttempt`,
`publishNextRetry` and `businessLogic`, and the retry worker's requeue. One hop of a
failing record is `publishNextRetry` followed by the worker writing the stage record
back to `events.v1` with its headers.

Iterating the hop shows that the attempt read from the headers stops growing after
the first retry: `parseAttempt` returns the first parseable `x-retry-attempt` header,
and every hop appends a new one after it.
-/

namespace GoLabs.Sarama

namespace Retry

def headerAttempt : String := "x-retry-attempt"

def headerError : String := "x-error"

/-- A delay stage. Its `Delay` is read by nothing modelled here (the worker sleeps by
    its own table), so only the topic is kept. -/
structure Stage where
  topic : String
  deriving Repr, DecidableEq

def stages : List Stage :=
  [⟨"events.v1.retry.5s"⟩, ⟨"events.v1.retry.30s"⟩, ⟨"events.v1.retry.2m"⟩]

/-- `retry.Next`. Indexing `Stages` at a negative attempt panics; the panic is the
    `error`. -/
def next (attempt : Int) : Except String (Option Stage) :=
  if attempt < stages.length then
    if 0 ≤ attempt then .ok stages[attempt.toNat]? else .error "index out of range"
  else .ok none

theorem next_of_lt {k : Nat} (h : k < stages.length) : next k = .ok stages[k]? := by
  simp [next, h, Int.ofNat_zero_le]

theorem next_of_ge {k : Int} (h : (stages.length : Int) ≤ k) : next k = .ok none := by
  simp [next, Int.not_lt.mpr h]

theorem stage_topic_ne_dlq : ∀ s ∈ stages, s.topic ≠ "events.v1.dlq" := by decide

end Retry

/-- A record as a consumer receives it (`sarama.ConsumerMessage`). -/
structure ConsumerMessage where
  topic : String
  partition : Nat
  offset : Nat
  key : String
  value : String
  headers : List Header
  deriving Repr, DecidableEq

/-- A record handed to `SendMessage` (`sarama.ProducerMessage`). -/
structure ProducerMessage where
  topic : String
  key : String
  value : String
  headers : List Header
  deriving Repr, DecidableEq

/-- The attempt carried by one header: an `x-retry-attempt` header whose value parses. -/
def attemptOf (h : Header) : Option Int :=
  if h.key = Retry.headerAttempt then atoi h.value else none

/-- `parseAttempt`: the first `x-retry-attempt` header whose value parses, else `0`.
    It reads nothing of the record but its headers. -/
def parseAttempt (headers : List Header) : Int :=
  (headers.findSome? attemptOf).getD 0

/-- `publishNextRetry`: the record handed to `SendMessage` for a delivery `msg` whose
    `businessLogic` failed with `err`. The `error` is the panic of `retry.Next`. -/
def publishNextRetry (msg : ConsumerMessage) (err : String) : Except String ProducerMessage := do
  let attempt := parseAttempt msg.headers
  match ← Retry.next attempt with
  | some stage => pure ⟨stage.topic, msg.key, msg.value,
      msg.headers ++ [⟨Retry.headerAttempt, itoa (attempt + 1)⟩, ⟨Retry.headerError, err⟩]⟩
  | none => pure ⟨"events.v1.dlq", msg.key, msg.value,
      msg.headers ++ [⟨Retry.headerAttempt, itoa attempt⟩, ⟨Retry.headerError, err⟩]⟩

/-- `businessLogic`: the demo fails a record whose value starts with `fail:` (the test
    `len(msg.Value) >= 5 && string(msg.Value[:5]) == "fail:"`). The span and the sleep
    change nothing observable here. -/
def businessLogic (msg : ConsumerMessage) : Option String :=
  if hasPrefix msg.value "fail:" then some "downstream: simulated failure" else none

/-- The retry worker's record for a stage record: back to `events.v1`, with key,
    value and headers kept. -/
def requeue (msg : ConsumerMessage) : ProducerMessage :=
  ⟨"events.v1", msg.key, msg.value, msg.headers⟩

/-- The delivery of a produced record. Partition and offset are set by the broker and
    read by neither `publishNextRetry` nor the requeue, so the chain below fixes them. -/
def deliver (out : ProducerMessage) : ConsumerMessage :=
  ⟨out.topic, 0, 0, out.key, out.value, out.headers⟩

/-- The records `publishNextRetry` sends for a record of `events.v1` whose
    `businessLogic` fails with `err` at each of `n` deliveries, no send failing: each
    stage record comes back through the worker's requeue, and the chain ends at the
    DLQ or at a panic. -/
def retryChain (err : String) : Nat → ConsumerMessage → List ProducerMessage
  | 0, _ => []
  | n + 1, msg =>
    match publishNextRetry msg err with
    | .error _ => []
    | .ok out => out :: if out.topic = "events.v1.dlq" then [] else
        retryChain err n (deliver (requeue (deliver out)))

section Chain

variable {err : String}

theorem findSome_attemptOf_append (h t : List Header) :
    (h ++ t).findSome? attemptOf = (h.findSome? attemptOf).or (t.findSome? attemptOf) :=
  List.findSome?_append

/-- A hop at a stage appends one header whose attempt parses. -/
theorem publishNextRetry_stage {msg : ConsumerMessage} {k : Nat} (hk : k < Retry.stages.length)
    (hp : parseAttempt msg.headers = k) :
    publishNextRetry msg err = .ok ⟨Retry.stages[k].topic, msg.key, msg.value,
      msg.headers ++ [⟨Retry.headerAttempt, itoa (k + 1)⟩, ⟨Retry.headerError, err⟩]⟩ := by
  simp [publishNextRetry, hp, Retry.next_of_lt hk, List.getElem?_eq_getElem hk, bind,
    Except.bind, pure, Except.pure]

/-- Once a parseable attempt `k` of a stage is in the headers, every later hop goes to
    that same stage: the attempt appended by a hop is never the first one read. -/
theorem retryChain_of_found {k : Nat} (hk : k < Retry.stages.length) :
    ∀ (n : Nat) (msg : ConsumerMessage), msg.headers.findSome? attemptOf = some (k : Int) →
      (retryChain err n msg).map (·.topic) = List.replicate n Retry.stages[k].topic
  | 0, _, _ => rfl
  | n + 1, msg, hf => by
    have hp : parseAttempt msg.headers = k := by simp [parseAttempt, hf]
    have hne := Retry.stage_topic_ne_dlq _ (List.getElem_mem hk)
    have hf' : (deliver (requeue (deliver ⟨Retry.stages[k].topic, msg.key, msg.value,
        msg.headers ++ [⟨Retry.headerAttempt, itoa (k + 1)⟩, ⟨Retry.headerError, err⟩]⟩))).headers.findSome?
          attemptOf = some (k : Int) := by
      simp [deliver, requeue, findSome_attemptOf_append, hf]
    simp [retryChain, publishNextRetry_stage hk hp, hne, retryChain_of_found hk n _ hf',
      List.replicate_succ]

/-- A record that reaches `events.v1` with no parseable `x-retry-attempt` header, as the
    demo producer sends it, goes to the first stage, and from then on to the second
    stage at every hop: the attempt read stays `1`, and the record never reaches the
    DLQ however many hops it makes. -/
theorem fresh_record_cycles_on_second_stage (n : Nat) (msg : ConsumerMessage)
    (hfresh : msg.headers.findSome? attemptOf = none) :
    (retryChain err (n + 1) msg).map (·.topic) =
      "events.v1.retry.5s" :: List.replicate n "events.v1.retry.30s" := by
  have hp : parseAttempt msg.headers = (0 : Nat) := by simp [parseAttempt, hfresh]
  have hf : (deliver (requeue (deliver ⟨"events.v1.retry.5s", msg.key, msg.value,
      msg.headers ++ [⟨Retry.headerAttempt, itoa 1⟩, ⟨Retry.headerError, err⟩]⟩))).headers.findSome?
        attemptOf = some ((1 : Nat) : Int) := by
    have h1 : atoi (itoa 1) = some 1 := by decide
    simp [deliver, requeue, findSome_attemptOf_append, hfresh, attemptOf, h1]
  simp [retryChain, publishNextRetry_stage (show 0 < Retry.stages.length by decide) hp, Retry.stages,
    retryChain_of_found (show 1 < Retry.stages.length by decide) n _ hf]

end Chain

/-- The record the demo producer sends that its processor fails. -/
def demoFailingRecord : ConsumerMessage :=
  ⟨"events.v1", 0, 1, "user-42", "fail: simulate downstream error",
    [⟨"content-type", "text/plain"⟩]⟩

theorem demoFailingRecord_cycles :
    demoFailingRecord.headers.findSome? attemptOf = none ∧
      (retryChain "downstream: simulated failure" 5 demoFailingRecord).map (·.topic) =
        "events.v1.retry.5s" :: List.replicate 4 "events.v1.retry.30s" :=
  ⟨by decide, fresh_record_cycles_on_second_stage 4 _ (by decide)⟩

end GoLabs.Sarama

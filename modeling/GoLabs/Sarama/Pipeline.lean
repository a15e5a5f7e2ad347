import GoLabs.Sarama.Retry
import Mathlib.Logic.Function.Basic

/-! # The processor and the retry worker as consumers

Each topic is reduced to the partition one key hashes to (every topic of the demo has
three partitions and the same partitioner). The processor's group reads `events.v1`,
the retry worker's group reads the three stage topics; each session keeps a read
position and the offset its marks have reached, which `MarkMessage` raises. Sarama's
offset manager holds the marks in memory and commits them to the broker on its
auto-commit tick (every second, the default the demo keeps) and when the session ends
cleanly; the broker's offset is the flushed one. A clean rebalance starts the next
session at the marked offset; a session lost without a flush (the process crashes, or
the group evicts it) is followed by one that starts at the flushed offset and reads
again what was read since.

A record the processor fails to forward is not marked, but the next marked record of
the partition commits past it. As long as no session of the processor is lost without a
flush, records succeed in the partition's order, where a record the worker puts back
on `events.v1` is a new record after the ones already there; a lost session can make a
record succeed twice.
-/

namespace GoLabs.Sarama

open scoped List

/-- A record of a partition: what a producer sent, without the topic. -/
structure Record where
  key : String
  value : String
  headers : List Header
  deriving Repr, DecidableEq

def ProducerMessage.toRecord (out : ProducerMessage) : Record := ⟨out.key, out.value, out.headers⟩

def ConsumerMessage.toRecord (msg : ConsumerMessage) : Record := ⟨msg.key, msg.value, msg.headers⟩

/-- What a consumer did with a record it read. -/
inductive Handling where
  /-- `businessLogic` succeeded; the record is marked. -/
  | processed
  /-- `SendMessage` wrote `out`; the record is marked. -/
  | forwarded (out : ProducerMessage)
  /-- `SendMessage` failed; the record is not marked. -/
  | sendFailed
  deriving Repr, DecidableEq

/-- The partitions of one key, and the sessions of both groups on them. Each topic is
    read by one group only, so offsets per topic suffice: the session's position, the
    offset its marks have reached (`committed`, held by the offset manager), and the
    offset committed to the broker (`flushed`). `handled` lists every record read, with
    what was done with it. -/
structure Pipeline where
  log : String → List Record
  pos : String → Nat
  committed : String → Nat
  flushed : String → Nat
  handled : List (ConsumerMessage × Handling)

/-- One iteration of the processor's or the worker's `ConsumeClaim` loop. -/
inductive Action where
  /-- A producer writes `out`. -/
  | produce (out : ProducerMessage)
  /-- The processor handles its next record: `logic` is what `businessLogic` returned at
      this delivery, `sendOk` whether the retry or DLQ `SendMessage` succeeded. -/
  | process (logic : Option String) (sendOk : Bool)
  /-- The retry worker handles the next record of stage topic `t`. -/
  | requeue (t : String) (sendOk : Bool)
  /-- The offset manager's auto-commit tick flushes the marks of `t` to the broker. -/
  | flush (t : String)
  /-- The group's session on `t` ends cleanly, flushing its marks; the next one reads
      from the marked offset. -/
  | rebalance (t : String)
  /-- The group's session on `t` is lost without a flush; the next one reads from the
      offset last flushed. -/
  | crash (t : String)
  deriving DecidableEq

namespace Pipeline

def init (events : List Record) : Pipeline :=
  ⟨fun t => if t = "events.v1" then events else [], fun _ => 0, fun _ => 0, fun _ => 0, []⟩

/-- The record the session on `t` receives next. -/
def read (s : Pipeline) (t : String) : Option ConsumerMessage :=
  (s.log t)[s.pos t]?.map fun r => ⟨t, 0, s.pos t, r.key, r.value, r.headers⟩

/-- `SendMessage` succeeded: the record is appended to its topic. -/
def send (s : Pipeline) (out : ProducerMessage) : Pipeline :=
  { s with log := Function.update s.log out.topic (s.log out.topic ++ [out.toRecord]) }

/-- The session moves past `msg`, noting what was done with it. -/
def advance (s : Pipeline) (msg : ConsumerMessage) (h : Handling) : Pipeline :=
  { s with pos := Function.update s.pos msg.topic (msg.offset + 1),
           handled := s.handled ++ [(msg, h)] }

/-- `MarkMessage(msg, _)`. -/
def mark (s : Pipeline) (msg : ConsumerMessage) : Pipeline :=
  let c := markMessage (s.committed msg.topic) msg.offset
  { s with committed := Function.update s.committed msg.topic c }

/-- The body of the processor's loop for `msg`. A panic of `publishNextRetry` stops the
    processor, so it has no successor state. -/
def processorClaim (s : Pipeline) (msg : ConsumerMessage) (logic : Option String)
    (sendOk : Bool) : Option Pipeline :=
  match logic with
  | none => some ((s.advance msg .processed).mark msg)
  | some err =>
    match publishNextRetry msg err with
    | .error _ => none
    | .ok out =>
      if sendOk then some (((s.send out).advance msg (.forwarded out)).mark msg)
      else some (s.advance msg .sendFailed)

/-- The body of the retry worker's loop for `msg`; its sleep is not observable here. -/
def workerClaim (s : Pipeline) (msg : ConsumerMessage) (sendOk : Bool) : Pipeline :=
  if sendOk then ((s.send (requeue msg)).advance msg (.forwarded (requeue msg))).mark msg
  else s.advance msg .sendFailed

def step (s : Pipeline) : Action → Option Pipeline
  | .produce out => some (s.send out)
  | .process logic sendOk => (s.read "events.v1").bind fun msg => s.processorClaim msg logic sendOk
  | .requeue t sendOk =>
    if t ∈ Retry.stages.map (·.topic) then (s.read t).map fun msg => s.workerClaim msg sendOk
    else none
  | .flush t => some { s with flushed := Function.update s.flushed t (s.committed t) }
  | .rebalance t =>
    some { s with pos := Function.update s.pos t (s.committed t),
                  flushed := Function.update s.flushed t (s.committed t) }
  | .crash t =>
    some { s with pos := Function.update s.pos t (s.flushed t),
                  committed := Function.update s.committed t (s.flushed t) }

def run (s : Pipeline) : List Action → Option Pipeline
  | [] => some s
  | a :: as => (s.step a).bind fun s' => s'.run as

/-- The records `businessLogic` succeeded on, in the order it did. -/
def succeeded (s : Pipeline) : List ConsumerMessage :=
  s.handled.filterMap fun (msg, h) => if h = .processed then some msg else none

@[simp] theorem log_send (s : Pipeline) (out : ProducerMessage) :
    (s.send out).log = Function.update s.log out.topic (s.log out.topic ++ [out.toRecord]) := rfl
@[simp] theorem pos_send (s : Pipeline) (out : ProducerMessage) : (s.send out).pos = s.pos := rfl
@[simp] theorem committed_send (s : Pipeline) (out : ProducerMessage) :
    (s.send out).committed = s.committed := rfl
@[simp] theorem succeeded_send (s : Pipeline) (out : ProducerMessage) :
    (s.send out).succeeded = s.succeeded := rfl

@[simp] theorem log_advance (s : Pipeline) (msg : ConsumerMessage) (h : Handling) :
    (s.advance msg h).log = s.log := rfl
@[simp] theorem pos_advance (s : Pipeline) (msg : ConsumerMessage) (h : Handling) :
    (s.advance msg h).pos = Function.update s.pos msg.topic (msg.offset + 1) := rfl
@[simp] theorem committed_advance (s : Pipeline) (msg : ConsumerMessage) (h : Handling) :
    (s.advance msg h).committed = s.committed := rfl
@[simp] theorem succeeded_advance (s : Pipeline) (msg : ConsumerMessage) (h : Handling) :
    (s.advance msg h).succeeded = s.succeeded ++ if h = .processed then [msg] else [] := by
  by_cases hp : h = .processed <;> simp [succeeded, advance, hp]

@[simp] theorem log_mark (s : Pipeline) (msg : ConsumerMessage) : (s.mark msg).log = s.log := rfl
@[simp] theorem pos_mark (s : Pipeline) (msg : ConsumerMessage) : (s.mark msg).pos = s.pos := rfl
@[simp] theorem committed_mark (s : Pipeline) (msg : ConsumerMessage) :
    (s.mark msg).committed =
      Function.update s.committed msg.topic (markMessage (s.committed msg.topic) msg.offset) := rfl
@[simp] theorem succeeded_mark (s : Pipeline) (msg : ConsumerMessage) :
    (s.mark msg).succeeded = s.succeeded := rfl

theorem read_eq_some {s : Pipeline} {t : String} {msg : ConsumerMessage}
    (h : s.read t = some msg) :
    msg.topic = t ∧ msg.offset = s.pos t ∧ (s.log t)[s.pos t]? = some msg.toRecord := by
  simp only [read, Option.map_eq_some'] at h
  obtain ⟨r, hr, rfl⟩ := h
  exact ⟨rfl, rfl, hr⟩

theorem read_send {s : Pipeline} {t : String} {msg : ConsumerMessage} (h : s.read t = some msg)
    (out : ProducerMessage) : (s.send out).read t = some msg := by
  have hlt : s.pos t < (s.log t).length := by
    by_contra hge
    simp [read, List.getElem?_eq_none (Nat.le_of_not_lt hge)] at h
  by_cases ht : out.topic = t
  · subst ht
    simpa [read, List.getElem?_append_left hlt] using h
  · simpa [read, Function.update_noteq (Ne.symm ht)] using h

/-- What the processor's sessions keep true of `events.v1`: the records `businessLogic`
    succeeded on are, in order, records of the partition below the committed offset. -/
structure Inv (s : Pipeline) : Prop where
  committed_le : s.committed "events.v1" ≤ s.pos "events.v1"
  pos_le : s.pos "events.v1" ≤ (s.log "events.v1").length
  succeeded_sublist :
    s.succeeded.map (·.toRecord) <+ (s.log "events.v1").take (s.committed "events.v1")

/-- `Inv` reads only the processor's partition and what the processor did. -/
theorem Inv.of_eq {s s' : Pipeline} (hi : Inv s) (hl : s'.log "events.v1" = s.log "events.v1")
    (hp : s'.pos "events.v1" = s.pos "events.v1")
    (hc : s'.committed "events.v1" = s.committed "events.v1")
    (hs : s'.succeeded = s.succeeded) : Inv s' :=
  ⟨hc ▸ hp ▸ hi.1, hp ▸ hl ▸ hi.2, hs ▸ hl ▸ hc ▸ hi.3⟩

theorem inv_init (events : List Record) : Inv (init events) :=
  ⟨Nat.zero_le _, Nat.zero_le _, by simp [init, succeeded]⟩

/-- Appending to a partition keeps the records below any offset. -/
theorem inv_send {s : Pipeline} (hi : Inv s) (out : ProducerMessage) : Inv (s.send out) := by
  by_cases ht : out.topic = "events.v1"
  · have hc := hi.committed_le.trans hi.pos_le
    refine ⟨hi.committed_le, ?_, ?_⟩ <;>
      simp only [log_send, ht, Function.update_apply, if_true, pos_send, committed_send,
        succeeded_send, List.length_append]
    · exact Nat.le_succ_of_le (by simpa using hi.pos_le)
    · simpa [List.take_append_of_le_length hc] using hi.succeeded_sublist
  · exact hi.of_eq (by simp [Function.update_apply, Ne.symm ht]) rfl rfl rfl

theorem pos_lt_of_read {s : Pipeline} {t : String} {msg : ConsumerMessage}
    (h : s.read t = some msg) : s.pos t < (s.log t).length := by
  by_contra hge
  simp [read, List.getElem?_eq_none (Nat.le_of_not_lt hge)] at h

/-- The processor's session reads the record at its position and marks it. -/
theorem inv_advance_mark {s : Pipeline} {msg : ConsumerMessage} (hi : Inv s)
    (hr : s.read "events.v1" = some msg) (h : Handling) : Inv ((s.advance msg h).mark msg) := by
  obtain ⟨ht, ho, hl⟩ := read_eq_some hr
  have htake : (s.log "events.v1").take (s.pos "events.v1" + 1) =
      (s.log "events.v1").take (s.pos "events.v1") ++ [msg.toRecord] := by
    simp [List.take_succ, hl]
  have hsub : s.succeeded.map (·.toRecord) <+ (s.log "events.v1").take (s.pos "events.v1") :=
    hi.succeeded_sublist.trans (List.take_sublist_take_left _ hi.committed_le)
  refine ⟨?_, ?_, ?_⟩ <;> simp only [committed_mark, pos_mark, pos_advance, log_mark,
    log_advance, committed_advance, succeeded_mark, succeeded_advance, ht, ho,
    Function.update_apply, if_true, markMessage_of_le hi.committed_le]
  · exact Nat.le_refl _
  · exact pos_lt_of_read hr
  · rw [htake]
    split
    · simpa using hsub.append (List.Sublist.refl [msg.toRecord])
    · simpa using hsub.trans (List.sublist_append_left _ _)

/-- The processor's session moves past a record it could not forward. -/
theorem inv_advance_sendFailed {s : Pipeline} {msg : ConsumerMessage} (hi : Inv s)
    (hr : s.read "events.v1" = some msg) : Inv (s.advance msg .sendFailed) := by
  obtain ⟨ht, ho, -⟩ := read_eq_some hr
  refine ⟨?_, ?_, ?_⟩ <;> simp only [pos_advance, log_advance, committed_advance,
    succeeded_advance, ht, ho, Function.update_apply, if_true, reduceCtorEq, if_false,
    List.append_nil]
  · exact Nat.le_succ_of_le hi.committed_le
  · exact pos_lt_of_read hr
  · exact hi.succeeded_sublist

/-- The worker's sessions leave the processor's partition as it is, but for appends. -/
theorem inv_workerClaim {s : Pipeline} {msg : ConsumerMessage} (hi : Inv s)
    (ht : msg.topic ≠ "events.v1") (sendOk : Bool) : Inv (s.workerClaim msg sendOk) := by
  have hne := Ne.symm ht
  have hadv : ∀ {s : Pipeline} (h : Handling), h ≠ .processed → Inv s →
      Inv (s.advance msg h) := fun h hp hi =>
    hi.of_eq rfl (by simp [Function.update_apply, hne]) rfl (by simp [hp])
  cases sendOk with
  | false => exact hadv .sendFailed (by simp) hi
  | true =>
    have := hadv (.forwarded (requeue msg)) (by simp) (inv_send hi (requeue msg))
    exact this.of_eq rfl rfl (by simp [workerClaim, Function.update_apply, hne]) rfl

/-- Every step but the loss of the processor's session keeps `Inv`. -/
theorem inv_step {s s' : Pipeline} {a : Action} (hi : Inv s) (ha : a ≠ .crash "events.v1")
    (hs : s.step a = some s') : Inv s' := by
  cases a with
  | produce out => cases hs; exact inv_send hi out
  | process logic sendOk =>
    obtain ⟨msg, hr, hc⟩ := Option.bind_eq_some.mp hs
    unfold processorClaim at hc
    split at hc
    · cases hc; exact inv_advance_mark hi hr _
    · split at hc
      · cases hc
      · split at hc <;> cases hc
        · exact inv_advance_mark (inv_send hi _) (read_send hr _) _
        · exact inv_advance_sendFailed hi hr
  | requeue t sendOk =>
    simp only [step] at hs
    split at hs
    · rename_i hmem
      obtain ⟨msg, hr, rfl⟩ := Option.map_eq_some'.mp hs
      have ht : msg.topic ≠ "events.v1" := by
        rw [(read_eq_some hr).1]
        rintro rfl
        exact absurd hmem (by decide)
      exact inv_workerClaim hi ht sendOk
    · cases hs
  | flush t => cases hs; exact hi.of_eq rfl rfl rfl rfl
  | rebalance t =>
    cases hs
    by_cases ht : t = "events.v1"
    · subst ht
      exact ⟨by simp, by simpa using hi.committed_le.trans hi.pos_le,
        by simpa using hi.succeeded_sublist⟩
    · exact hi.of_eq rfl (by simp [Function.update_apply, Ne.symm ht]) rfl rfl
  | crash t =>
    cases hs
    have ht : t ≠ "events.v1" := fun ht => ha (ht ▸ rfl)
    exact hi.of_eq rfl (by simp [Function.update_apply, Ne.symm ht])
      (by simp [Function.update_apply, Ne.symm ht]) rfl

theorem inv_run {s s' : Pipeline} (hi : Inv s) {acts : List Action}
    (ha : Action.crash "events.v1" ∉ acts) (h : s.run acts = some s') : Inv s' := by
  induction acts generalizing s with
  | nil => cases h; exact hi
  | cons a as ih =>
    obtain ⟨s₁, h₁, h'⟩ := Option.bind_eq_some.mp h
    rw [List.mem_cons, not_or] at ha
    exact ih (inv_step hi (Ne.symm ha.1) h₁) ha.2 h'

/-- Over every run from fresh sessions in which the processor's session is never lost
    without a flush, the records `businessLogic` succeeded on are, in the order it
    succeeded, a subsequence of the `events.v1` partition, where a record the worker puts
    back is a record of its own after those already there. -/
theorem succeeded_sublist_events (events : List Record) (acts : List Action) (s : Pipeline)
    (ha : Action.crash "events.v1" ∉ acts) (h : (init events).run acts = some s) :
    s.succeeded.map (·.toRecord) <+ s.log "events.v1" :=
  (inv_run (inv_init events) ha h).succeeded_sublist.trans (List.take_sublist _ _)

/-- Without that condition it fails: the processor succeeds on `a` and `b`, its session is
    lost before the auto-commit, and the next one reads `a` again. -/
example :
    ((init [⟨"user-42", "a", []⟩, ⟨"user-42", "b", []⟩]).run
        [.process none true, .process none true, .crash "events.v1", .process none true]).map
      (fun s => s.succeeded.map (·.value)) = some ["a", "b", "a"] := by
  decide

/-- Two records of one key where the first fails once and succeeds on its requeued copy. -/
def overtakingRun : List Action :=
  [.process (some "downstream: simulated failure") true, .process none true,
    .requeue "events.v1.retry.5s" true, .process none true]

def overtakingEvents : List Record := [⟨"user-42", "a", []⟩, ⟨"user-42", "b", []⟩]

theorem overtakingRun_succeeded_sublist :
    Action.crash "events.v1" ∉ overtakingRun ∧ ∃ s, (init overtakingEvents).run overtakingRun = some s ∧
      s.succeeded.map (·.toRecord) <+ s.log "events.v1" :=
  match h : (init overtakingEvents).run overtakingRun with
  | some s => ⟨by decide, s, rfl, succeeded_sublist_events _ _ s (by decide) h⟩
  | none => absurd (congrArg Option.isSome h) (by decide)

/-- The first record fails and goes to the first stage, the second succeeds, and the
    first succeeds when the worker has put it back: `businessLogic` succeeds on `b`
    before `a`, which were published as `a`, `b`. -/
theorem overtakingRun_reorders :
    ((init overtakingEvents).run overtakingRun).map (fun s => s.succeeded.map (·.value)) =
      some ["b", "a"] ∧ ¬ ["b", "a"] <+ overtakingEvents.map (·.value) := by
  decide

/-- The demo's processor on `fail: x` then `ok: y`, the retry publish of the first
    failing: the second is marked, and the committed offset passes the first, which was
    neither processed nor forwarded. -/
theorem unforwarded_record_committed_past :
    businessLogic ⟨"events.v1", 0, 0, "user-42", "fail: x", []⟩ =
        some "downstream: simulated failure" ∧
      businessLogic ⟨"events.v1", 0, 1, "user-42", "ok: y", []⟩ = none ∧
      ((init [⟨"user-42", "fail: x", []⟩, ⟨"user-42", "ok: y", []⟩]).run
        [.process (some "downstream: simulated failure") false, .process none true]).map
          (fun s => (s.committed "events.v1", s.handled.map (·.2))) =
        some (2, [.sendFailed, .processed]) := by
  decide

end Pipeline

end GoLabs.Sarama

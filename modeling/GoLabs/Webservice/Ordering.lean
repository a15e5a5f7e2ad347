import GoLabs.Webservice.Gateway
import GoLabs.Webservice.ConsumeLoop

/-! # Order from the gateway to the database

The gateway produces each command to the partition its key hashes to, and the key is a
fresh UUID per command. One consumer per partition runs `ConsumeClaim` over it, in
offset order, and the consumers of different partitions take turns in any order. The
transactions of two partitions are taken here as one after the other; how their
statements can overlap is `Interleaving`'s subject.

So the processor applies the commands of one partition in the order they were submitted,
and commands on different partitions in any order.
-/

namespace GoLabs.Webservice

open Gateway

/-- One request to the gateway, with the two UUIDs `enqueueCommand` would draw and the
    outcome of its `SendMessage`. -/
structure Submission where
  request : Request
  traceId : String
  idemp : String
  sendOk : Bool

/-- The record a request makes the gateway produce, if any: the `ServeMux` sends
    `/v1/messages` to `createMessageHandler` and the paths under `/v1/messages/` to
    `messageByIDHandler`; `/v1/operations/` only reads the cache. -/
def Submission.produced (s : Submission) : Option Produced :=
  if s.request.path = "/v1/messages" then
    (createMessageHandler s.request s.traceId s.idemp s.sendOk).2
  else if hasPrefix s.request.path "/v1/messages/" then
    (messageByIDHandler s.request s.traceId s.idemp s.sendOk).2
  else none

/-- The gateway serving requests one after another, each record appended to partition
    `part key` of the commands topic. -/
def publish (part : String → Nat) (logs : Nat → List Produced) (subs : List Submission) :
    Nat → List Produced :=
  subs.foldl (fun logs s => match s.produced with
    | some m => Function.update logs (part m.key) (logs (part m.key) ++ [m])
    | none => logs) logs

/-- Each partition receives the records produced for it, in submission order. -/
theorem publish_eq (part : String → Nat) (logs : Nat → List Produced)
    (subs : List Submission) (n : Nat) :
    publish part logs subs n = logs n ++ (subs.filterMap Submission.produced).filter (part ·.key = n) := by
  induction subs generalizing logs with
  | nil => simp [publish]
  | cons s subs ih =>
    simp only [publish, List.foldl_cons] at ih ⊢
    rw [ih]
    cases h : s.produced with
    | none => simp [h]
    | some m =>
      by_cases hn : part m.key = n
      · subst hn; simp [h]
      · simp [h, Function.update_noteq (Ne.symm hn), hn]

/-- The processor group: the shared database, every ack send, and for each partition its
    consumer's committed offset and next offset; `applied` lists the records handled,
    with their partitions, in the order their transactions ran. -/
structure Cluster where
  db : Db
  acks : List AckSend
  committed : Nat → Nat
  pos : Nat → Nat
  applied : List (Nat × Produced)

def Cluster.init (db : Db) : Cluster := ⟨db, [], fun _ => 0, fun _ => 0, []⟩

/-- The consumer of partition `n` handles its next record, if there is one. A record the
    gateway produced always decodes. -/
def Cluster.step (logs : Nat → List Produced) (c : Cluster) (n : Nat) (f : Faults) : Cluster :=
  match (logs n)[c.pos n]? with
  | some m =>
    let p := handle ⟨c.db, c.acks, c.committed n⟩ ⟨c.pos n, m.key, some m.value⟩ f
    ⟨p.db, p.acks, Function.update c.committed n p.committed,
      Function.update c.pos n (c.pos n + 1), c.applied ++ [(n, m)]⟩
  | none => c

/-- A schedule of the partitions' consumers, each turn with its faults. -/
def Cluster.run (logs : Nat → List Produced) (c : Cluster) (sched : List (Nat × Faults)) :
    Cluster :=
  sched.foldl (fun c (n, f) => c.step logs n f) c

/-- The records of partition `n` handled so far. -/
def Cluster.appliedFrom (c : Cluster) (n : Nat) : List Produced :=
  (c.applied.filter (·.1 = n)).map (·.2)

/-- What each consumer has handled is the start of its partition, up to its position. -/
def Cluster.InOrder (logs : Nat → List Produced) (c : Cluster) : Prop :=
  ∀ n, c.appliedFrom n = (logs n).take (c.pos n)

theorem Cluster.InOrder.step {logs : Nat → List Produced} {c : Cluster}
    (h : c.InOrder logs) (n : Nat) (f : Faults) : (c.step logs n f).InOrder logs := by
  intro k
  unfold Cluster.step
  cases hm : (logs n)[c.pos n]? with
  | none => exact h k
  | some m =>
    have hk' := h k
    simp only [Cluster.appliedFrom] at hk' ⊢
    by_cases hk : k = n
    · subst hk
      simp [hk', List.take_succ, hm]
    · simp [hk', hk, Ne.symm hk, Function.update_noteq hk]

theorem Cluster.InOrder.run {logs : Nat → List Produced} {c : Cluster}
    (h : c.InOrder logs) (sched : List (Nat × Faults)) : (c.run logs sched).InOrder logs := by
  induction sched generalizing c with
  | nil => exact h
  | cons nf sched ih => exact ih (h.step nf.1 nf.2)

/-- For every partitioner, every series of requests served one after another and every
    turn-taking of the partitions' consumers, the commands the processor has applied
    from a partition are, in order, the first commands the gateway produced to it, in
    submission order. -/
theorem applied_prefix_of_submitted (part : String → Nat) (subs : List Submission) (db : Db)
    (sched : List (Nat × Faults)) (n : Nat) :
    ((Cluster.init db).run (publish part (fun _ => []) subs) sched).appliedFrom n <+:
      (subs.filterMap Submission.produced).filter (part ·.key = n) := by
  have hinit : (Cluster.init db).InOrder (publish part (fun _ => []) subs) := by
    intro k
    simp [Cluster.init, Cluster.appliedFrom]
  rw [hinit.run sched n, publish_eq]
  simpa using List.take_prefix _ _

/-- `Create("a")`, then `Update(1, "b")`, then `Update(1, "c")`, the last one keyed to
    another partition whose consumer runs first: row 1 ends with `"b"`. -/
theorem updates_on_two_partitions_reorder :
    let subs : List Submission :=
      [⟨⟨"POST", "/v1/messages", some "a"⟩, "t1", "u1", true⟩,
       ⟨⟨"PUT", "/v1/messages/1", some "b"⟩, "t2", "u2", true⟩,
       ⟨⟨"PUT", "/v1/messages/1", some "c"⟩, "t3", "u3", true⟩]
    let logs := publish (fun k => if k = "u3" then 1 else 0) (fun _ => []) subs
    let ok : Faults := ⟨fun _ => none, true⟩
    ((Cluster.init Db.empty).run logs [(0, ok), (1, ok), (0, ok)]).db.messages = [⟨1, "b"⟩] := by
  decide

end GoLabs.Webservice

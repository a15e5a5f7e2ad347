import GoLabs.Webservice.Atomicity

/-! # The processor's loop over a partition

What `ConsumeClaim` leaves behind over a whole session: the ack sends, the committed
offset and the idempotency keys. The committed offset follows the messages that decode,
whatever became of their transactions and of their acks; idempotency keys are only
ever added, and a message whose key is there takes the skip path.
-/

namespace GoLabs.Webservice

open Prog

/-- An ack send without the ack: the message it answers and whether it reached the
    broker. -/
def AckSend.attempt (a : AckSend) : Nat × String × Bool := (a.offset, a.key, a.delivered)

section Step

variable (p : Processor) (msg : CommandMessage) (f : Faults)

theorem handle_of_value_none (h : msg.value = none) : handle p msg f = p := by
  simp [handle, h]

theorem handle_attempts :
    (handle p msg f).acks.map AckSend.attempt =
      p.acks.map AckSend.attempt ++ (msg.value.map fun _ => (msg.offset, msg.key, f.ackOk)).toList := by
  cases h : msg.value <;> simp [handle, h, AckSend.attempt]

theorem handle_committed :
    (handle p msg f).committed =
      if msg.value.isSome then markMessage p.committed msg.offset else p.committed := by
  cases h : msg.value <;> simp [handle, h]

end Step

@[simp] theorem consumeClaim_nil (p : Processor) : consumeClaim p [] = p := rfl

@[simp] theorem consumeClaim_cons (p : Processor) (m : CommandMessage × Faults)
    (msgs : List (CommandMessage × Faults)) :
    consumeClaim p (m :: msgs) = consumeClaim (handle p m.1 m.2) msgs := rfl

/-- Over a whole session, every message that decodes has had exactly one ack handed to
    `SendMessage`, in order, whether or not it reached the broker; the others have
    none. The committed offset ends one past the largest offset of a message that
    decodes (or where it was): it passes a message whose ack was lost, and a message
    that did not decode as soon as a later one does. -/
theorem consumeClaim_acks_committed (p : Processor) (msgs : List (CommandMessage × Faults)) :
    let decoded := msgs.filter (·.1.value.isSome)
    (consumeClaim p msgs).acks.map AckSend.attempt =
        p.acks.map AckSend.attempt ++ decoded.map (fun (m, f) => (m.offset, m.key, f.ackOk)) ∧
      (consumeClaim p msgs).committed = (decoded.map (·.1.offset + 1)).foldl max p.committed := by
  induction msgs generalizing p with
  | nil => simp
  | cons m msgs ih =>
    obtain ⟨ihAcks, ihCommitted⟩ := ih (handle p m.1 m.2)
    simp only [consumeClaim_cons, ihAcks, ihCommitted, handle_attempts, handle_committed]
    cases h : m.1.value <;> simp [h, List.filter_cons, markMessage]

theorem Db.hasKey_mono {db db' : Db} {key : String}
    (h : db.idempotencyKeys <+: db'.idempotencyKeys) (hk : db.hasKey key) : db'.hasKey key := by
  obtain ⟨l, hl⟩ := h
  simp only [Db.hasKey, ← hl, List.any_append, Bool.or_eq_true] at hk ⊢
  exact .inl hk

section Keys

variable (f : Stmt → Option String) (db : Db) (msgKey : String) (cmd : Command)

/-- A processing transaction only ever adds idempotency keys. -/
theorem processTx_keys_grow {o : Outcome} {err : Option String} {db' : Db} {tx' : Option Tx}
    (h : (processTx msgKey cmd).run f db none = ((o, err), db', tx')) :
    db.idempotencyKeys <+: db'.idempotencyKeys := by
  rcases processTx_outcome f db msgKey cmd h with ⟨-, ht⟩ | ⟨-, hA⟩
  · simp only [Db.tables, Prod.mk.injEq] at ht
    simp [ht.2.1]
  · by_cases hch : db'.messages ≠ db.messages ∨ db'.idempotencyKeys ≠ db.idempotencyKeys
    · rw [(hA hch).1]
      exact List.prefix_append _ _
    · rw [not_or, not_not, not_not] at hch
      simp [hch.2]

/-- The skip path: with its idempotency key recorded, a message's transaction that
    commits writes nothing and leaves the closure's variables as they started. -/
theorem processTx_of_hasKey (hk : db.hasKey (idempotencyKey msgKey cmd))
    (hb : f .begin = none) (hs : f (.selectIdempotencyKey (idempotencyKey msgKey cmd)) = none)
    (hc : f .commit = none) :
    (processTx msgKey cmd).run f db none = ((Outcome.init, none), db, none) := by
  simp [processTx, withTx, consumeTx, run_checkIdempotent, hk, hb, hs, hc]

end Keys

theorem handle_keys_grow (p : Processor) (msg : CommandMessage) (f : Faults) :
    p.db.idempotencyKeys <+: (handle p msg f).db.idempotencyKeys := by
  unfold handle
  split
  · exact List.prefix_refl _
  · exact processTx_keys_grow f.stmt p.db msg.key _ rfl

/-- Over a whole session, idempotency keys are only ever added. -/
theorem consumeClaim_keys_grow (p : Processor) (msgs : List (CommandMessage × Faults)) :
    p.db.idempotencyKeys <+: (consumeClaim p msgs).db.idempotencyKeys := by
  induction msgs generalizing p with
  | nil => exact List.prefix_refl _
  | cons m msgs ih => exact (handle_keys_grow p m.1 m.2).trans (ih _)

/-- A malformed command at offset 0, then a `Create` whose ack does not reach the
    broker: the session commits offset `2` and no ack ever reached the broker. -/
theorem lostAcks_committed :
    let p := consumeClaim ⟨Db.empty, [], 0⟩
      [(⟨0, "k0", none⟩, ⟨fun _ => none, true⟩),
       (⟨1, "k1", some ⟨"t1", "Create", [("message", .str "hello")]⟩⟩, ⟨fun _ => none, false⟩)]
    p.committed = 2 ∧ p.acks.map AckSend.attempt = [(1, "k1", false)] := by
  intro p
  obtain ⟨hacks, hcommitted⟩ : _ ∧ p.committed = _ := consumeClaim_acks_committed _ _
  exact ⟨hcommitted.trans (by decide), hacks.trans (by decide)⟩

end GoLabs.Webservice

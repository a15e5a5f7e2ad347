import GoLabs.Webservice.ConsumeLoop
import GoLabs.Webservice.Gateway

/-! # Redelivered commands

A command redelivered after its first processing recorded the idempotency key takes the
skip path: its transaction writes nothing and the closure's variables keep their initial
values, so its ack says `SUCCESS` with no event, payload or error, whatever the first
ack said. The gateway keeps the last ack of each trace id, so once it has consumed the
redelivery's ack it serves that one.
-/

namespace GoLabs.Webservice

open Gateway

/-- The ack of a message that takes the skip path and commits. -/
def skipAck (cmd : Command) : Ack := ⟨cmd.traceId, "SUCCESS", "", .empty, none⟩

/-- A message whose idempotency key is recorded is answered with `skipAck` and marked,
    and the database is left as it was. -/
theorem handle_of_hasKey (p : Processor) (msg : CommandMessage) {cmd : Command}
    (hv : msg.value = some cmd) (f : Faults) (hk : p.db.hasKey (idempotencyKey msg.key cmd))
    (hb : f.stmt .begin = none)
    (hs : f.stmt (.selectIdempotencyKey (idempotencyKey msg.key cmd)) = none)
    (hc : f.stmt .commit = none) :
    handle p msg f =
      ⟨p.db, p.acks ++ [⟨msg.offset, msg.key, skipAck cmd, f.ackOk⟩],
        markMessage p.committed msg.offset⟩ := by
  simp [handle, hv, processTx_of_hasKey f.stmt p.db msg.key cmd hk hb hs hc, ackOf, skipAck,
    Outcome.init]

/-- Whatever ran in between, a redelivery of a message whose first processing recorded
    its idempotency key, if its transaction commits, is answered with `skipAck`; once the
    gateway has consumed the acks that reached the broker, interleaved with any sweeper
    ticks, `getAck` serves `skipAck` until `cacheTTL` after it arrived. -/
theorem redelivery_acks_skip (p : Processor) (msg : CommandMessage) {cmd : Command}
    (hv : msg.value = some cmd) (f₁ : Faults) (rest : List (CommandMessage × Faults))
    (offset : Nat) (f₂ : Faults)
    (hrec : (handle p msg f₁).db.hasKey (idempotencyKey msg.key cmd))
    (hb : f₂.stmt .begin = none)
    (hs : f₂.stmt (.selectIdempotencyKey (idempotencyKey msg.key cmd)) = none)
    (hc : f₂.stmt .commit = none) :
    let p' := handle (consumeClaim (handle p msg f₁) rest) ⟨offset, msg.key, msg.value⟩ f₂
    p'.acks.getLast? = some ⟨offset, msg.key, skipAck cmd, f₂.ackOk⟩ ∧
      (f₂.ackOk = true → ∀ (c : AckCache) (evs : List CacheEvent),
        evs.filterMap CacheEvent.consumed = (p'.acks.filter (·.delivered)).map (·.ack) →
        ∃ t, lastAck cmd.traceId evs = some (skipAck cmd, t) ∧
          ∀ now, (∀ e ∈ evs, e.time ≤ now) → now ≤ t + cacheTTL → cmd.traceId ≠ "" →
            getAck (cacheRun c evs) cmd.traceId now = some (skipAck cmd)) := by
  intro p'
  have hk := Db.hasKey_mono (consumeClaim_keys_grow (handle p msg f₁) rest) hrec
  have hp' : p' = _ := handle_of_hasKey _ ⟨offset, msg.key, msg.value⟩ hv f₂ hk hb hs hc
  refine ⟨by simp [hp'], fun hok c evs hcons => ?_⟩
  have hlast : (lastAck cmd.traceId evs).map Prod.fst = some (skipAck cmd) := by
    simp [lastAck_fst, hcons, hp', hok, List.filter_append, skipAck]
  obtain ⟨⟨a, t⟩, hl, rfl⟩ := Option.map_eq_some'.mp hlast
  refine ⟨t, hl, fun now htime hnow hid => ?_⟩
  rw [getAck_cacheRun c evs hid htime, hl]
  simp [Nat.not_lt.mpr hnow]

/-- A command the switch does not know, processed on the empty database and then
    redelivered: the first ack is `FAILURE` with error `UNSUPPORTED`, and the redelivery
    is answered with `skipAck`, `SUCCESS`, which the gateway then serves. -/
theorem unknown_redelivery_acks_success :
    let cmd : Command := ⟨"t1", "Frobnicate", []⟩
    let ok : Faults := ⟨fun _ => none, true⟩
    let p₁ := handle ⟨Db.empty, [], 0⟩ ⟨0, "k1", some cmd⟩ ok
    let p' := handle (consumeClaim p₁ []) ⟨1, "k1", some cmd⟩ ok
    p₁.acks.map (·.ack) = [⟨"t1", "FAILURE", "", .empty, some ⟨"UNSUPPORTED", "unknown command"⟩⟩] ∧
    p'.acks.getLast? = some ⟨1, "k1", skipAck cmd, ok.ackOk⟩ ∧
      (ok.ackOk = true → ∀ (c : AckCache) (evs : List CacheEvent),
        evs.filterMap CacheEvent.consumed = (p'.acks.filter (·.delivered)).map (·.ack) →
        ∃ t, lastAck cmd.traceId evs = some (skipAck cmd, t) ∧
          ∀ now, (∀ e ∈ evs, e.time ≤ now) → now ≤ t + cacheTTL → cmd.traceId ≠ "" →
            getAck (cacheRun c evs) cmd.traceId now = some (skipAck cmd)) :=
  ⟨by decide, redelivery_acks_skip ⟨Db.empty, [], 0⟩ ⟨0, "k1", some ⟨"t1", "Frobnicate", []⟩⟩
    rfl ⟨fun _ => none, true⟩ [] 1 ⟨fun _ => none, true⟩ (by decide) rfl rfl rfl⟩

/-- A `Create` of `"hello"` processed on the empty database, then redelivered: the first
    ack reports the created message, the redelivery's reports nothing, and the gateway,
    having consumed both, serves the second. -/
example :
    let cmd : Command := ⟨"t1", "Create", [("message", .str "hello")]⟩
    let msg : CommandMessage := ⟨0, "k1", some cmd⟩
    let p := handle (handle ⟨Db.empty, [], 0⟩ msg ⟨fun _ => none, true⟩)
      { msg with offset := 1 } ⟨fun _ => none, true⟩
    p.acks.map (·.ack) =
        [⟨"t1", "SUCCESS", "MessageCreated", ⟨some 1, some "hello"⟩, none⟩,
         ⟨"t1", "SUCCESS", "", .empty, none⟩] ∧
      getAck (cacheRun .empty (p.acks.map fun a => .ack (some a.ack) a.offset)) "t1" 2 =
        some ⟨"t1", "SUCCESS", "", .empty, none⟩ := by
  decide

end GoLabs.Webservice

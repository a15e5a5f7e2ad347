import GoLabs.Webservice.Gateway

/-! # The operations endpoint

`operationResultHandler` answers `/v1/operations/{trace_id}` by long polling: it calls
`getAck` at once and then every `200 ms`, until it finds the ack or the request's `15 s`
context expires, and then answers `204 No Content`.

The handler, the ack consumer and the sweeper run at once. They meet only in `cacheMu`, so
the cache goes through one sequence of events, each at the time it read the clock; a poll
sees those that took the lock before it (`Timeline`). The code's own work takes no time:
the polls are at the request's start and every `pollInterval` after it, and when the timer
and the deadline fire together `select` may take either (`timerWins`).

Every ack the endpoint answers with is the last one of its trace id the cache had taken at
one of the polls, at most `cacheTTL` old (`operationResult_ack`). An ack that reaches the cache
a poll interval before the deadline, or is still live when the request arrives, is answered
(`operationResult_live`). With the gateway and the processor this closes the API's round: the
trace id a client is given is the one the processor's ack carries and the one the endpoint
answers under (`accepted_command_answered`).
-/

namespace GoLabs.Webservice.Gateway

/-- The wait between two polls, `200 * time.Millisecond`. -/
def pollInterval : Nat := 200 * 1000000

/-- The handler's context timeout, `15 * time.Second`. -/
def resultTimeout : Nat := 15 * 1000000000

/-- What `operationResultHandler` writes: the ack as JSON, or `204`. -/
inductive OpResponse where
  | ack (a : Ack)
  | noContent
  deriving Repr, DecidableEq

/-- The handler's `for` loop from the poll at `now`: `lookup t` is what `getAck(traceID)`
    returns at `t`, `deadline` is the context's. -/
def pollLoop (lookup : Nat → Option Ack) (deadline : Nat) (timerWins : Bool) (now : Nat) : OpResponse :=
  match lookup now with
  | some a => .ack a
  | none =>
    if now + pollInterval < deadline ∨ now + pollInterval = deadline ∧ timerWins = true then
      pollLoop lookup deadline timerWins (now + pollInterval)
    else .noContent
termination_by deadline + 1 - now
decreasing_by simp_wf; rename_i h; simp only [pollInterval] at h ⊢; omega

/-- `operationResultHandler`, for a request that arrives at `start`; `cacheAt t` is the
    cache the poll at `t` reads. -/
def operationResultHandler (r : Request) (cacheAt : Nat → AckCache) (start : Nat) (timerWins : Bool) :
    OpResponse :=
  let traceID := trimPrefix r.path "/v1/operations/"
  pollLoop (fun t => getAck (cacheAt t) traceID t) (start + resultTimeout) timerWins start

/-! ## The loop -/

/-- Whether the loop started at `now` makes its `k`-th poll when all before it miss: the
    first always; another when its timer fires before the deadline, or with it and wins. -/
def polls (deadline : Nat) (timerWins : Bool) (now k : Nat) : Prop :=
  k = 0 ∨ now + k * pollInterval < deadline ∨ now + k * pollInterval = deadline ∧ timerWins = true

theorem add_succ_mul_pollInterval (now k : Nat) :
    now + (k + 1) * pollInterval = now + pollInterval + k * pollInterval := by
  rw [Nat.succ_mul]; omega

theorem polls_succ {deadline : Nat} {timerWins : Bool} {now k : Nat} :
    polls deadline timerWins now (k + 1) ↔
      (now + pollInterval < deadline ∨ now + pollInterval = deadline ∧ timerWins = true) ∧
        polls deadline timerWins (now + pollInterval) k := by
  simp only [polls, add_succ_mul_pollInterval, pollInterval]
  rcases k with _ | k <;> cases timerWins <;> simp <;> omega

variable {lookup : Nat → Option Ack} {deadline : Nat} {timerWins : Bool}

/-- The loop answers with what a poll it made found, all polls before it having missed. -/
theorem pollLoop_ack {now : Nat} {a : Ack} (h : pollLoop lookup deadline timerWins now = .ack a) :
    ∃ k, polls deadline timerWins now k ∧ lookup (now + k * pollInterval) = some a ∧
      ∀ j < k, lookup (now + j * pollInterval) = none := by
  induction now using pollLoop.induct lookup deadline timerWins with
  | case1 now b hb =>
    rw [pollLoop, hb] at h
    cases h
    exact ⟨0, .inl rfl, by simpa using hb, fun j hj => absurd hj (Nat.not_lt_zero j)⟩
  | case2 now hn hc ih =>
    rw [pollLoop, hn, if_pos hc] at h
    obtain ⟨k, hk, ha, hbefore⟩ := ih h
    refine ⟨k + 1, polls_succ.2 ⟨hc, hk⟩, by rwa [add_succ_mul_pollInterval], fun j hj => ?_⟩
    cases j with
    | zero => simpa using hn
    | succ j => rw [add_succ_mul_pollInterval]; exact hbefore j (by omega)
  | case3 now hn hc =>
    rw [pollLoop, hn, if_neg hc] at h
    cases h

/-- A poll the loop makes that finds an ack ends it with an ack. -/
theorem pollLoop_of_lookup {now k : Nat} {b : Ack} (hk : polls deadline timerWins now k)
    (hb : lookup (now + k * pollInterval) = some b) : ∃ a, pollLoop lookup deadline timerWins now = .ack a := by
  induction now using pollLoop.induct lookup deadline timerWins generalizing k with
  | case1 now a ha => exact ⟨a, by rw [pollLoop, ha]⟩
  | case2 now hn hc ih =>
    rw [pollLoop, hn, if_pos hc]
    cases k with
    | zero => simp [hn] at hb
    | succ k => exact ih (polls_succ.1 hk).2 (by rwa [← add_succ_mul_pollInterval])
  | case3 now hn hc =>
    cases k with
    | zero => simp [hn] at hb
    | succ k => exact absurd (polls_succ.1 hk).1 hc

/-! ## The cache the polls read -/

/-- The cache only holds acks under their own trace id, which is not empty. -/
theorem cacheRun_resultCache {evs : List CacheEvent} {k : String} {a : Ack}
    (h : (cacheRun .empty evs).resultCache k = some a) : a.traceId = k ∧ k ≠ "" := by
  induction evs using List.reverseRecOn with
  | nil => cases h
  | append_singleton evs e ih =>
    simp only [cacheRun, List.foldl_append, List.foldl_cons, List.foldl_nil] at h ih
    rcases e with ⟨_ | b, t⟩ | t
    · exact ih h
    · simp only [cacheStep, ackHandle] at h
      split at h
      · next hb =>
        by_cases hk : k = b.traceId
        · subst hk
          simp [putAck] at h
          exact ⟨h ▸ rfl, hb⟩
        · exact ih (by simpa [putAck, Function.update_noteq hk] using h)
      · exact ih h
    · simp only [cacheStep, sweep] at h
      split at h
      · cases h
      · exact ih h

theorem CacheEvent.ackOf_eq {id : String} {e : CacheEvent} {a : Ack} {p : Nat} (h : e.ackOf id = some (a, p)) :
    e = .ack (some a) p ∧ a.traceId = id := by
  rcases e with ⟨_ | b, t⟩ | t
  · simp [CacheEvent.ackOf] at h
  · by_cases hb : b.traceId = id
    · simp only [CacheEvent.ackOf, hb, if_true, Option.some.injEq, Prod.mk.injEq] at h
      obtain ⟨rfl, rfl⟩ := h
      exact ⟨rfl, hb⟩
    · simp [CacheEvent.ackOf, hb] at h
  · simp [CacheEvent.ackOf] at h

/-- Over events in time order, the last ack of `id` arrived no earlier than any ack of `id`. -/
theorem lastAck_of_mem {id : String} {l : List CacheEvent} {a : Ack} {p : Nat}
    (hs : l.Pairwise (·.time ≤ ·.time)) (he : CacheEvent.ack (some a) p ∈ l) (ha : a.traceId = id) :
    ∃ b q, lastAck id l = some (b, q) ∧ p ≤ q := by
  induction l using List.reverseRecOn with
  | nil => cases he
  | append_singleton l e ih =>
    rw [List.pairwise_append] at hs
    simp only [lastAck, List.filterMap_append, List.getLast?_append] at ih ⊢
    cases hq : e.ackOf id with
    | some bq =>
      obtain ⟨b, q⟩ := bq
      obtain ⟨rfl, -⟩ := CacheEvent.ackOf_eq hq
      refine ⟨b, q, by simp [hq], ?_⟩
      rcases List.mem_append.1 he with hl | hl
      · exact hs.2.2 _ hl _ (List.mem_singleton_self _)
      · cases List.mem_singleton.1 hl; exact le_refl p
    | none =>
      have hl : CacheEvent.ack (some a) p ∈ l := by
        rcases List.mem_append.1 he with hl | hl
        · exact hl
        · cases List.mem_singleton.1 hl; simp [CacheEvent.ackOf, ha] at hq
      simpa [hq] using ih hs.1 hl

/-- What the cache goes through while a request is served: the ack consumer's and the
    sweeper's events in the order they take `cacheMu`, the times they read from a monotonic
    clock, and for each time `t` how many of them precede the poll at `t`: none of those is
    later than `t`, and none of the others earlier. -/
structure Timeline where
  evs : List CacheEvent
  seen : Nat → Nat
  sorted : evs.Pairwise (·.time ≤ ·.time)
  seen_le : ∀ t, ∀ e ∈ evs.take (seen t), e.time ≤ t
  unseen_ge : ∀ t, ∀ e ∈ evs.drop (seen t), t ≤ e.time

/-- The cache the poll at `t` reads. -/
def Timeline.cacheAt (tl : Timeline) (t : Nat) : AckCache := cacheRun .empty (tl.evs.take (tl.seen t))

/-- `getAck id` at `t` answers with the last ack of `id` the cache took before the poll,
    while it lives. -/
theorem Timeline.getAck_cacheAt (tl : Timeline) {id : String} (hid : id ≠ "") (t : Nat) :
    getAck (tl.cacheAt t) id t =
      match lastAck id (tl.evs.take (tl.seen t)) with
      | some (a, p) => if t > p + cacheTTL then none else some a
      | none => none := by
  rw [Timeline.cacheAt, getAck_cacheRun _ _ hid (tl.seen_le t)]
  rfl

/-- An event earlier than `t` has reached the cache the poll at `t` reads. -/
theorem Timeline.mem_take_seen (tl : Timeline) {e : CacheEvent} {t : Nat} (he : e ∈ tl.evs) (ht : e.time < t) :
    e ∈ tl.evs.take (tl.seen t) := by
  rw [← List.take_append_drop (tl.seen t) tl.evs] at he
  rcases List.mem_append.1 he with h | h
  · exact h
  · exact absurd (tl.unseen_ge t e h) (Nat.not_le.2 ht)

/-- What `getAck` finds in a cache the ack consumer and the sweeper built carries the trace
    id it was asked for, which is not empty. -/
theorem getAck_cacheRun_traceId {evs : List CacheEvent} {id : String} {t : Nat} {b : Ack}
    (h : getAck (cacheRun .empty evs) id t = some b) : b.traceId = id ∧ id ≠ "" := by
  unfold getAck at h
  split at h
  · next hc => split at h <;> cases h; exact cacheRun_resultCache hc
  · cases h

/-- A poll after the ack consumer took an ack of `id`, while that ack lives, finds an ack. -/
theorem Timeline.getAck_after (tl : Timeline) {id : String} (hid : id ≠ "") {a : Ack} {p t : Nat}
    (he : CacheEvent.ack (some a) p ∈ tl.evs) (ha : a.traceId = id) (hpt : p < t) (hlive : t ≤ p + cacheTTL) :
    ∃ b, getAck (tl.cacheAt t) id t = some b := by
  obtain ⟨b, q, hl, hq⟩ := lastAck_of_mem (tl.sorted.sublist (List.take_sublist _ _)) (tl.mem_take_seen he hpt) ha
  exact ⟨b, by rw [tl.getAck_cacheAt hid, hl]; exact if_neg (Nat.not_lt.2 (by omega))⟩

/-- The handler makes a poll after `p` and within `cacheTTL` of it, when `p` is a poll interval
    before the deadline and at most `cacheTTL` before the start. -/
theorem exists_poll_after {start p : Nat} (timerWins : Bool) (hearly : p + pollInterval < start + resultTimeout)
    (hlive : start ≤ p + cacheTTL) :
    ∃ k, polls (start + resultTimeout) timerWins start k ∧ p < start + k * pollInterval ∧
      start + k * pollInterval ≤ p + cacheTTL := by
  have httl : pollInterval ≤ cacheTTL := by decide
  by_cases hps : p < start
  · exact ⟨0, .inl rfl, by simpa using hps, by simpa using hlive⟩
  · refine ⟨(p - start) / pollInterval + 1, .inr (.inl ?_), ?_, ?_⟩ <;>
      simp only [pollInterval, cacheTTL] at hearly httl ⊢ <;> omega

/-! ## The endpoint -/

/-- Whatever the interleaving, an ack the endpoint answers with carries the request's trace
    id, and is the last one of that id the cache had taken at one of the polls the handler
    made, at most `cacheTTL` old then. -/
theorem operationResult_ack (r : Request) (tl : Timeline) (start : Nat) (timerWins : Bool) {a : Ack}
    (h : operationResultHandler r tl.cacheAt start timerWins = .ack a) :
    a.traceId = trimPrefix r.path "/v1/operations/" ∧
      ∃ k p, polls (start + resultTimeout) timerWins start k ∧
        lastAck a.traceId (tl.evs.take (tl.seen (start + k * pollInterval))) = some (a, p) ∧
        start + k * pollInterval ≤ p + cacheTTL := by
  obtain ⟨k, hk, ha, -⟩ := pollLoop_ack h
  have hid := getAck_cacheRun_traceId ha
  refine ⟨hid.1, ?_⟩
  rw [tl.getAck_cacheAt hid.2, ← hid.1] at ha
  split at ha
  · next b p hl =>
    split at ha
    · cases ha
    · next hp => cases ha; exact ⟨k, p, hk, hl, Nat.le_of_not_lt hp⟩
  · cases ha

/-- A timeline where the ack consumer takes one ack, of trace id `t1`, at time `0`. -/
def oneAck : Timeline where
  evs := [.ack (some ⟨"t1", "SUCCESS", "Created", .empty, none⟩) 0]
  seen _ := 1
  sorted := List.pairwise_singleton _ _
  seen_le t e he := by
    obtain rfl := List.mem_singleton.1 he
    exact Nat.zero_le t
  unseen_ge t e he := by simp at he

theorem operationResult_ack_oneAck :
    operationResultHandler ⟨"GET", "/v1/operations/t1", none⟩ oneAck.cacheAt 0 false =
        .ack ⟨"t1", "SUCCESS", "Created", .empty, none⟩ ∧
      ((⟨"t1", "SUCCESS", "Created", .empty, none⟩ : Ack).traceId = trimPrefix "/v1/operations/t1" "/v1/operations/" ∧
        ∃ k p, polls (0 + resultTimeout) false 0 k ∧
          lastAck "t1" (oneAck.evs.take (oneAck.seen (0 + k * pollInterval))) =
            some (⟨"t1", "SUCCESS", "Created", .empty, none⟩, p) ∧
          0 + k * pollInterval ≤ p + cacheTTL) := by
  have h : operationResultHandler ⟨"GET", "/v1/operations/t1", none⟩ oneAck.cacheAt 0 false =
      .ack ⟨"t1", "SUCCESS", "Created", .empty, none⟩ := by
    rw [operationResultHandler, pollLoop]
    rfl
  exact ⟨h, operationResult_ack _ _ _ _ h⟩

/-- If the ack consumer takes an ack of the request's trace id, a poll interval before the
    deadline at the latest and not expired when the request arrives, the endpoint answers
    with an ack of that trace id. -/
theorem operationResult_live (r : Request) (tl : Timeline) (start : Nat) (timerWins : Bool) {a : Ack} {p : Nat}
    (hid : trimPrefix r.path "/v1/operations/" ≠ "") (ha : a.traceId = trimPrefix r.path "/v1/operations/")
    (he : CacheEvent.ack (some a) p ∈ tl.evs) (hearly : p + pollInterval < start + resultTimeout)
    (hlive : start ≤ p + cacheTTL) :
    ∃ b, operationResultHandler r tl.cacheAt start timerWins = .ack b ∧ b.traceId = a.traceId := by
  obtain ⟨k, hk, hpk, hkp⟩ := exists_poll_after timerWins hearly hlive
  obtain ⟨b, hb⟩ := tl.getAck_after hid he ha hpk hkp
  obtain ⟨b', hb'⟩ : ∃ b', operationResultHandler r tl.cacheAt start timerWins = .ack b' :=
    pollLoop_of_lookup hk hb
  obtain ⟨j, -, hj, -⟩ := pollLoop_ack hb'
  exact ⟨b', hb', by rw [ha]; exact (getAck_cacheRun_traceId hj).1⟩

theorem operationResult_live_oneAck :
    trimPrefix "/v1/operations/t1" "/v1/operations/" ≠ "" ∧ 0 + pollInterval < 0 + resultTimeout ∧
      ∃ b, operationResultHandler ⟨"GET", "/v1/operations/t1", none⟩ oneAck.cacheAt 0 true = .ack b ∧
        b.traceId = "t1" :=
  ⟨by decide, by decide,
    operationResult_live _ oneAck 0 true (by decide) (by decide) (List.mem_singleton_self _) (by decide)
      (Nat.zero_le _)⟩

/-! ## The request-reply round -/

theorem trimPrefix_append (p t : String) : trimPrefix (p ++ t) p = t := by
  obtain ⟨p⟩ := p
  obtain ⟨t⟩ := t
  have hdata : (String.mk p ++ String.mk t).toList = p ++ t := rfl
  have hlen : (String.mk p).length = p.length := rfl
  unfold trimPrefix hasPrefix
  rw [hdata, hlen, List.take_left,
    if_pos (show decide (p = (String.mk p).toList) = true from decide_eq_true rfl), List.drop_left]

/-- The processor answers every command it decodes with one ack, of the command's trace id,
    keyed like the message, whatever its transaction did. -/
theorem handle_ack (p : Processor) {msg : CommandMessage} {cmd : Command} (f : Faults) (h : msg.value = some cmd) :
    ∃ a, (handle p msg f).acks = p.acks ++ [⟨msg.offset, msg.key, a, f.ackOk⟩] ∧ a.traceId = cmd.traceId := by
  refine ⟨ackOf cmd ((processTx msg.key cmd).run f.stmt p.db none).1.1
    ((processTx msg.key cmd).run f.stmt p.db none).1.2, by simp only [handle, h], ?_⟩
  cases ((processTx msg.key cmd).run f.stmt p.db none).1.2 <;> rfl

/-- The API's request-reply round, for every request, every outcome of the transaction and
    every interleaving at the gateway: a command the gateway accepts under trace id `t`
    carries `t`; the processor answers its delivery with an ack of trace id `t`; and once the
    gateway's ack consumer has taken that ack, a poll interval before the deadline and while
    it lives, `/v1/operations/t` answers with an ack of trace id `t`. -/
theorem accepted_command_answered (r : Request) {t idemp : String} {sendOk : Bool} {resp : Response}
    {m : Produced} (hgw : createMessageHandler r t idemp sendOk = (resp, some m) ∨
      messageByIDHandler r t idemp sendOk = (resp, some m))
    (ht : t ≠ "") (p : Processor) (offset : Nat) (f : Faults) :
    resp = .accepted t ∧
      ∃ a, (handle p ⟨offset, m.key, some m.value⟩ f).acks = p.acks ++ [⟨offset, m.key, a, f.ackOk⟩] ∧
        a.traceId = t ∧
        ∀ (tl : Timeline) (q start : Nat) (timerWins : Bool), CacheEvent.ack (some a) q ∈ tl.evs →
          q + pollInterval < start + resultTimeout → start ≤ q + cacheTTL →
          ∃ b, operationResultHandler ⟨"GET", "/v1/operations/" ++ t, none⟩ tl.cacheAt start timerWins = .ack b ∧
            b.traceId = t := by
  have hprod : resp = .accepted t ∧ m.value.traceId = t := by
    rcases hgw with h | h
    · exact ⟨(createMessageHandler_produced h).1, (createMessageHandler_produced h).2.2⟩
    · exact ⟨(messageByIDHandler_produced h).1, (messageByIDHandler_produced h).2.2⟩
  obtain ⟨a, hacks, ha⟩ := @handle_ack p ⟨offset, m.key, some m.value⟩ m.value f rfl
  refine ⟨hprod.1, a, hacks, ha.trans hprod.2, fun tl q start timerWins he hearly hlive => ?_⟩
  have hid : trimPrefix ("/v1/operations/" ++ t) "/v1/operations/" = t := trimPrefix_append _ _
  obtain ⟨k, hk, hpk, hkp⟩ := exists_poll_after timerWins hearly hlive
  obtain ⟨b, hb⟩ := tl.getAck_after ht he (ha.trans hprod.2) hpk hkp
  obtain ⟨b', hb'⟩ : ∃ b', operationResultHandler ⟨"GET", "/v1/operations/" ++ t, none⟩ tl.cacheAt start timerWins =
      .ack b' := pollLoop_of_lookup hk (by rw [← hid] at hb; exact hb)
  obtain ⟨j, -, hj, -⟩ := pollLoop_ack hb'
  exact ⟨b', hb', (getAck_cacheRun_traceId hj).1.trans hid⟩

theorem accepted_command_answered_hello :
    ∃ resp m, createMessageHandler ⟨"POST", "/v1/messages", some "hello"⟩ "t1" "k1" true = (resp, some m) ∧
      (resp = .accepted "t1" ∧
        ∃ a, (handle ⟨Db.empty, [], 0⟩ ⟨0, m.key, some m.value⟩ ⟨fun _ => none, true⟩).acks =
            (⟨Db.empty, [], 0⟩ : Processor).acks ++ [⟨0, m.key, a, true⟩] ∧
          a.traceId = "t1" ∧
          ∀ (tl : Timeline) (q start : Nat) (timerWins : Bool), CacheEvent.ack (some a) q ∈ tl.evs →
            q + pollInterval < start + resultTimeout → start ≤ q + cacheTTL →
            ∃ b, operationResultHandler ⟨"GET", "/v1/operations/" ++ "t1", none⟩ tl.cacheAt start timerWins =
              .ack b ∧ b.traceId = "t1") :=
  ⟨_, _, rfl, @accepted_command_answered ⟨"POST", "/v1/messages", some "hello"⟩ "t1" "k1" true _ _
    (.inl rfl) (by decide) ⟨Db.empty, [], 0⟩ 0 ⟨fun _ => none, true⟩⟩

end GoLabs.Webservice.Gateway

import GoLabs.Webservice.Consumer
import GoLabs.Strings.Encoding

/-! # The API gateway

The HTTP front of `rest-go-webservice`. `createMessageHandler` and `messageByIDHandler`
turn requests into commands on the commands topic through `enqueueCommand`, keyed by a
fresh UUID; the ack consumer keeps the last ack of each trace id for `cacheTTL` in
`resultCache`, where `getAck` serves `/v1/operations/{trace_id}`.

Times are nanoseconds of one clock. The two UUIDs `enqueueCommand` draws are passed in,
and `SendMessage`'s outcome is a flag: a failed send produces nothing. JSON is modelled
by the decoded values: a request body is its `message` field, or `none` when it does
not decode, and an ack consumed from the acks topic is the ack the processor produced.
-/

namespace GoLabs.Webservice.Gateway

/-- `strings.TrimSpace(s) == ""`, read on the string's characters: every one is a space for
    `unicode.IsSpace`. -/
def trimSpaceEmpty (s : String) : Bool := s.toList.all (Strings.isSpace ·.toNat)

/-- The check over characters is `strings.TrimSpace` over the body's bytes: it holds exactly
    when `TrimSpace` leaves nothing. -/
theorem trimSpaceEmpty_iff (s : String) :
    trimSpaceEmpty s = true ↔ Strings.trimSpace (Utf8.utf8Bytes s) = [] := by
  rw [Strings.trimSpace_utf8Bytes_eq_nil_iff, trimSpaceEmpty, List.all_eq_true]
  rfl

/-- `strings.TrimPrefix(s, p)`. -/
def trimPrefix (s p : String) : String :=
  if hasPrefix s p then ⟨s.toList.drop p.length⟩ else s

/-- An HTTP request as the handlers read it: `body` is the `message` field of the decoded
    `messageBody`, `none` when `Decode` fails. -/
structure Request where
  method : String
  path : String
  body : Option String
  deriving Repr, DecidableEq

inductive Response where
  /-- `200` with `acceptedResp{TraceID, "PENDING"}`. -/
  | accepted (traceId : String)
  /-- `http.Error(w, text, code)`. -/
  | error (code : Nat) (text : String)
  /-- `w.WriteHeader(code)` and no body. -/
  | status (code : Nat)
  deriving Repr, DecidableEq

/-- A record `enqueueCommand` hands to `SendMessage`. -/
structure Produced where
  key : String
  value : Command
  headers : List Header
  deriving Repr, DecidableEq

/-- `enqueueCommand`, with `traceId` and `idemp` the two UUIDs it draws and `sendOk` the
    outcome of `SendMessage`. -/
def enqueueCommand (traceId idemp cmd : String) (payload : List (String × JsonValue))
    (sendOk : Bool) : Response × Option Produced :=
  if sendOk then
    (.accepted traceId,
      some ⟨idemp, ⟨traceId, cmd, payload⟩, [⟨"trace_id", traceId⟩, ⟨"command", cmd⟩]⟩)
  else (.error 503 "enqueue failed", none)

/-- `createMessageHandler`. -/
def createMessageHandler (r : Request) (traceId idemp : String) (sendOk : Bool) :
    Response × Option Produced :=
  if r.method ≠ "POST" then (.status 405, none) else
  match r.body with
  | some m =>
    if trimSpaceEmpty m then (.error 400 "invalid body", none)
    else enqueueCommand traceId idemp "Create" [("message", .str m)] sendOk
  | none => (.error 400 "invalid body", none)

/-- `messageByIDHandler`. -/
def messageByIDHandler (r : Request) (traceId idemp : String) (sendOk : Bool) :
    Response × Option Produced :=
  let idStr := trimPrefix r.path "/v1/messages/"
  match r.method with
  | "GET" => enqueueCommand traceId idemp "Read" [("id", .str idStr)] sendOk
  | "PUT" =>
    match r.body with
    | some m =>
      if trimSpaceEmpty m then (.error 400 "invalid body", none)
      else enqueueCommand traceId idemp "Update" [("id", .str idStr), ("message", .str m)] sendOk
    | none => (.error 400 "invalid body", none)
  | "DELETE" => enqueueCommand traceId idemp "Delete" [("id", .str idStr)] sendOk
  | _ => (.status 405, none)

/-- Every command the gateway produces is keyed by its second UUID and carries its
    first as trace id. -/
theorem messageByIDHandler_produced {r : Request} {traceId idemp : String} {sendOk : Bool}
    {resp : Response} {m : Produced} (h : messageByIDHandler r traceId idemp sendOk = (resp, some m)) :
    resp = .accepted traceId ∧ m.key = idemp ∧ m.value.traceId = traceId := by
  simp only [messageByIDHandler, enqueueCommand] at h
  repeat' split at h
  all_goals (simp at h <;> obtain ⟨rfl, rfl⟩ := h <;> simp)

/-- Every command `createMessageHandler` produces is keyed by its second UUID and carries
    its first as trace id. -/
theorem createMessageHandler_produced {r : Request} {traceId idemp : String} {sendOk : Bool}
    {resp : Response} {m : Produced} (h : createMessageHandler r traceId idemp sendOk = (resp, some m)) :
    resp = .accepted traceId ∧ m.key = idemp ∧ m.value.traceId = traceId := by
  simp only [createMessageHandler, enqueueCommand] at h
  repeat' split at h
  all_goals (simp at h <;> obtain ⟨rfl, rfl⟩ := h <;> simp)

/-- `cacheTTL`: two minutes. -/
def cacheTTL : Nat := 2 * 60 * 1000000000

/-- `resultCache` and `resultExpires`. `putAck` writes both maps and the sweeper deletes
    from both, so they hold the same trace ids. -/
structure AckCache where
  resultCache : String → Option Ack
  resultExpires : String → Option Nat
  same_keys : ∀ k, (resultCache k).isSome = (resultExpires k).isSome

def AckCache.empty : AckCache := ⟨fun _ => none, fun _ => none, fun _ => rfl⟩

/-- `putAck` at time `now`. -/
def putAck (c : AckCache) (a : Ack) (now : Nat) : AckCache where
  resultCache := Function.update c.resultCache a.traceId (some a)
  resultExpires := Function.update c.resultExpires a.traceId (some (now + cacheTTL))
  same_keys k := by
    by_cases h : k = a.traceId
    · subst h; simp
    · simp [Function.update_noteq h, c.same_keys]

/-- `getAck` at time `now`: a missing expiry reads as the zero time. -/
def getAck (c : AckCache) (id : String) (now : Nat) : Option Ack :=
  match c.resultCache id with
  | some a => if now > (c.resultExpires id).getD 0 then none else some a
  | none => none

/-- Whether the sweeper at `now` finds the entry of `k` expired. -/
def AckCache.expired (c : AckCache) (now : Nat) (k : String) : Bool :=
  match c.resultExpires k with
  | some t => now > t
  | none => false

/-- One tick of `sweeper` at `now`. -/
def sweep (c : AckCache) (now : Nat) : AckCache where
  resultCache k := if c.expired now k then none else c.resultCache k
  resultExpires k := if c.expired now k then none else c.resultExpires k
  same_keys k := by by_cases h : c.expired now k <;> simp [h, c.same_keys]

/-- `ackHandler.ConsumeClaim` on one message at `now`, `a` what `json.Unmarshal` makes of
    its value: only an ack with a trace id is cached. -/
def ackHandle (c : AckCache) (a : Option Ack) (now : Nat) : AckCache :=
  match a with
  | some a => if a.traceId ≠ "" then putAck c a now else c
  | none => c

/-- What reaches the cache: an ack message consumed at a time, or a sweeper tick. -/
inductive CacheEvent where
  | ack (a : Option Ack) (now : Nat)
  | sweep (now : Nat)

def CacheEvent.time : CacheEvent → Nat
  | .ack _ now | .sweep now => now

def cacheStep (c : AckCache) : CacheEvent → AckCache
  | .ack a now => ackHandle c a now
  | .sweep now => sweep c now

def cacheRun (c : AckCache) (evs : List CacheEvent) : AckCache := evs.foldl cacheStep c

/-- The ack of trace id `id` an event caches, with the time it arrived. -/
def CacheEvent.ackOf (id : String) : CacheEvent → Option (Ack × Nat)
  | .ack (some a) now => if a.traceId = id then some (a, now) else none
  | _ => none

/-- The last ack of trace id `id` an event list caches, with the time it arrived. -/
def lastAck (id : String) (evs : List CacheEvent) : Option (Ack × Nat) :=
  (evs.filterMap (CacheEvent.ackOf id)).getLast?

/-- The ack an event consumes from the acks topic. -/
def CacheEvent.consumed : CacheEvent → Option Ack
  | .ack a _ => a
  | .sweep _ => none

/-- The last ack of `id` is the last one of that trace id among those consumed. -/
theorem lastAck_fst (id : String) (evs : List CacheEvent) :
    (lastAck id evs).map Prod.fst =
      ((evs.filterMap CacheEvent.consumed).filter (·.traceId = id)).getLast? := by
  induction evs using List.reverseRecOn with
  | nil => rfl
  | append_singleton evs e ih =>
    simp only [lastAck, List.filterMap_append, List.filter_append, List.getLast?_append] at ih ⊢
    rcases e with ⟨_ | a, t⟩ | s
    · simpa [CacheEvent.ackOf, CacheEvent.consumed] using ih
    · by_cases h : a.traceId = id
      · simp [CacheEvent.ackOf, CacheEvent.consumed, h]
      · simpa [CacheEvent.ackOf, CacheEvent.consumed, h] using ih
    · simpa [CacheEvent.ackOf, CacheEvent.consumed] using ih

section Steps

variable (c : AckCache) (id : String) (t : Nat)

theorem getAck_putAck_self (a : Ack) (now : Nat) :
    getAck (putAck c a now) a.traceId t = if t > now + cacheTTL then none else some a := by
  simp [getAck, putAck]

theorem getAck_putAck_of_ne {a : Ack} (now : Nat) (h : id ≠ a.traceId) :
    getAck (putAck c a now) id t = getAck c id t := by
  simp [getAck, putAck, Function.update_noteq h]

/-- A sweeper tick no later than `t` changes nothing `getAck` sees at `t`. -/
theorem getAck_sweep {s : Nat} (hs : s ≤ t) : getAck (sweep c s) id t = getAck c id t := by
  have hk := c.same_keys id
  unfold getAck sweep AckCache.expired
  cases he : c.resultExpires id with
  | none => cases hc : c.resultCache id <;> simp_all
  | some e =>
    cases hc : c.resultCache id <;> by_cases hse : s > e <;> simp [he, hc, hse]
    exact (if_pos (by omega)).symm

end Steps

/-- Over any run of the ack consumer and the sweeper up to `now`, `getAck id` at `now`
    returns the last ack of trace id `id` consumed, until `cacheTTL` after it arrived;
    with none consumed, what it returned before. -/
theorem getAck_cacheRun (c : AckCache) (evs : List CacheEvent) {id : String} {now : Nat}
    (hid : id ≠ "") (htime : ∀ e ∈ evs, e.time ≤ now) :
    getAck (cacheRun c evs) id now =
      match lastAck id evs with
      | some (a, t) => if now > t + cacheTTL then none else some a
      | none => getAck c id now := by
  induction evs using List.reverseRecOn with
  | nil => rfl
  | append_singleton evs e ih =>
    have ih := ih fun e he => htime e (List.mem_append_left _ he)
    have he : e.time ≤ now := htime e (by simp)
    simp only [cacheRun, lastAck, List.foldl_append, List.foldl_cons, List.foldl_nil,
      List.filterMap_append] at ih ⊢
    cases e with
    | sweep s => simpa [cacheStep, CacheEvent.ackOf, getAck_sweep _ _ _ (show s ≤ now from he)] using ih
    | ack a t =>
      rcases a with _ | a
      · simpa [cacheStep, ackHandle, CacheEvent.ackOf] using ih
      · by_cases hta : a.traceId = id
        · subst hta
          simp [cacheStep, ackHandle, CacheEvent.ackOf, hid, getAck_putAck_self]
        · by_cases hemp : a.traceId = ""
          · simpa [cacheStep, ackHandle, CacheEvent.ackOf, hemp, hid.symm] using ih
          · simpa [cacheStep, ackHandle, CacheEvent.ackOf, hemp, hta,
              getAck_putAck_of_ne _ _ _ _ (Ne.symm hta)] using ih

/-! ## The cache as a TTL map

`putAck`, `getAck` and the sweeper called directly, in any interleaving: the cache
answers as a map from trace ids to their most recent ack, each entry living `cacheTTL`
after its `putAck`, and the sweeper's deletions are never seen.
-/

/-- A call that changes the cache: `putAck` or a sweeper pass, at a time. -/
inductive CacheOp where
  | putAck (a : Ack) (now : Nat)
  | sweep (now : Nat)

def CacheOp.time : CacheOp → Nat
  | .putAck _ now | .sweep now => now

end GoLabs.Webservice.Gateway

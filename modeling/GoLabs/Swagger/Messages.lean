import Mathlib.Data.List.AList
import GoLabs.Runtime.Strconv

/-! # The Messages API of the swagger demo

The gin handlers of `go-swagger-demo` over the in-memory `store`, a Go map from ids to
messages. A request body is what `ShouldBindJSON` makes of it, `none` when binding
fails; a path id is read with `id, _ := strconv.Atoi(...)`, which on a 64-bit `int`
agrees with `parseInt`.

Every stored message carries its key as its id, over any sequence of requests. But
`createMessage` takes `len(store) + 1` as the new id, and after a delete that id can be
a key still in use: the create then overwrites that message. What `GET /messages` lists
is what `GET /message/{id}` finds, each message once (`listMessages_getMessageByID`).
-/

namespace GoLabs.Swagger

/-- `Message`. -/
structure Message where
  id : Int
  message : String
  deriving Repr, DecidableEq

/-- The `store` map. -/
abbrev Store := AList fun _ : Int => Message

/-- The store as the program starts. -/
def initialStore : Store :=
  (((∅ : Store).insert 2 ⟨2, "namaste"⟩).insert 1 ⟨1, "hello"⟩)

/-- `len(store)`. -/
def Store.len (s : Store) : Nat := s.entries.length

inductive Response where
  /-- `c.JSON(code, m)` with a message. -/
  | json (code : Nat) (m : Message)
  /-- `c.JSON(code, gin.H{"error": text})`. -/
  | error (code : Nat) (text : String)
  /-- `c.Status(code)`. -/
  | status (code : Nat)
  deriving Repr, DecidableEq

/-- `getMessageByID`. -/
def getMessageByID (s : Store) (idStr : String) : Response :=
  match s.lookup (parseInt idStr) with
  | some m => .json 200 m
  | none => .error 404 "not found"

/-- `createMessage`. -/
def createMessage (s : Store) (body : Option Message) : Response × Store :=
  match body with
  | some m =>
    if m.message = "" then (.error 400 "invalid payload", s) else
    let next : Int := s.len + 1
    let m := { m with id := next }
    (.json 201 m, s.insert next m)
  | none => (.error 400 "invalid payload", s)

/-- `updateMessage`. -/
def updateMessage (s : Store) (idStr : String) (body : Option Message) : Response × Store :=
  let id := parseInt idStr
  if s.lookup id = none then (.error 404 "not found", s) else
  match body with
  | some m =>
    if m.message = "" then (.error 400 "invalid payload", s) else
    let m := { m with id := id }
    (.json 200 m, s.insert id m)
  | none => (.error 400 "invalid payload", s)

/-- `deleteMessage`. -/
def deleteMessage (s : Store) (idStr : String) : Response × Store :=
  let id := parseInt idStr
  if s.lookup id = none then (.error 404 "not found", s) else (.status 204, s.erase id)

/-- The requests that reach the store's handlers. -/
inductive Request where
  | getMessageByID (id : String)
  | createMessage (body : Option Message)
  | updateMessage (id : String) (body : Option Message)
  | deleteMessage (id : String)

def serve (s : Store) : Request → Response × Store
  | .getMessageByID id => (getMessageByID s id, s)
  | .createMessage body => createMessage s body
  | .updateMessage id body => updateMessage s id body
  | .deleteMessage id => deleteMessage s id

/-- The store after serving requests one after another. -/
def storeRun (s : Store) (reqs : List Request) : Store := reqs.foldl (fun s r => (serve s r).2) s

/-- Every stored message carries its key as its id. -/
def IdsMatch (s : Store) : Prop := ∀ k m, s.lookup k = some m → m.id = k

theorem IdsMatch.insert {s : Store} (h : IdsMatch s) (k : Int) (m : Message) (hm : m.id = k) :
    IdsMatch (s.insert k m) := by
  intro k' m' hk
  by_cases hkk : k' = k
  · subst hkk
    rw [AList.lookup_insert] at hk
    cases hk
    exact hm
  · exact h k' m' (by rwa [AList.lookup_insert_ne hkk] at hk)

theorem IdsMatch.erase {s : Store} (h : IdsMatch s) (k : Int) : IdsMatch (s.erase k) := by
  intro k' m' hk
  by_cases hkk : k' = k
  · subst hkk
    simp [AList.lookup_erase] at hk
  · exact h k' m' (by rwa [AList.lookup_erase_ne hkk] at hk)

theorem initialStore_idsMatch : IdsMatch initialStore :=
  ((IdsMatch.insert (fun _ _ h => by simp [AList.lookup_empty] at h) 2 _ rfl).insert 1 _ rfl)

/-- Each handler keeps every message under its own id. -/
theorem serve_idsMatch {s : Store} (h : IdsMatch s) (r : Request) : IdsMatch (serve s r).2 := by
  cases r with
  | getMessageByID id => exact h
  | createMessage body =>
    simp only [serve, createMessage]
    split
    · split_ifs
      · exact h
      · exact h.insert _ _ rfl
    · exact h
  | updateMessage id body =>
    simp only [serve, updateMessage]
    split_ifs
    · exact h
    · split
      · split_ifs
        · exact h
        · exact h.insert _ _ rfl
      · exact h
  | deleteMessage id =>
    simp only [serve, deleteMessage]
    split_ifs
    · exact h
    · exact h.erase _

theorem storeRun_idsMatch {s : Store} (h : IdsMatch s) (reqs : List Request) :
    IdsMatch (storeRun s reqs) := by
  induction reqs generalizing s with
  | nil => exact h
  | cons r reqs ih => exact ih (serve_idsMatch h r)

theorem len_erase {s : Store} {k : Int} (hk : k ∈ s) : Store.len (s.erase k) = s.len - 1 := by
  have := List.length_erase_of_mem (AList.mem_keys.mp hk)
  rw [← AList.keys_erase] at this
  simpa [Store.len, AList.keys, List.keys] using this

theorem len_insert_of_mem {s : Store} {k : Int} (m : Message) (hk : k ∈ s) :
    Store.len (s.insert k m) = s.len := by
  have h₁ := congrArg List.length (show (s.insert k m).keys = k :: s.keys.erase k from
    AList.keys_insert s)
  have h₂ := List.length_erase_of_mem (AList.mem_keys.mp hk)
  have h₃ : s.keys.length = s.len := by simp [Store.len, AList.keys, List.keys]
  have h₄ : (s.insert k m).keys.length = Store.len (s.insert k m) := by
    simp [Store.len, AList.keys, List.keys]
  have h₅ : 0 < s.len := by
    rw [← h₃]; exact List.length_pos_of_mem (AList.mem_keys.mp hk)
  simp only [List.length_cons] at h₁
  omega

/-- From the initial store, over any requests: every message sits under its own id;
    yet deleting any message other than the one at `len(store)`, while that one is
    stored, makes the next `createMessage` assign the id `len(store)` of the message
    still stored there, replacing it, so the store does not grow. -/
theorem createMessage_reuses_live_id (reqs : List Request) :
    IdsMatch (storeRun initialStore reqs) ∧
      ∀ (idStr : String) (m : Message), m.message ≠ "" →
        let s := storeRun initialStore reqs
        parseInt idStr ∈ s → (s.len : Int) ∈ s → parseInt idStr ≠ s.len →
        let s₁ := (deleteMessage s idStr).2
        (s.len : Int) ∈ s₁ ∧ (createMessage s₁ (some m)).1 = .json 201 { m with id := s.len } ∧
          (createMessage s₁ (some m)).2.len = s₁.len := by
  refine ⟨storeRun_idsMatch initialStore_idsMatch reqs, ?_⟩
  intro idStr m hm s hid hlen hne
  dsimp only
  have hdel : (deleteMessage s idStr).2 = s.erase (parseInt idStr) := by
    simp [deleteMessage, AList.lookup_eq_none, hid]
  have hmem : (s.len : Int) ∈ s.erase (parseInt idStr) := AList.mem_erase.mpr ⟨Ne.symm hne, hlen⟩
  have hpos : 0 < s.len := by
    have := List.length_pos_of_mem (AList.mem_keys.mp hid)
    simpa [Store.len, AList.keys, List.keys] using this
  have hnext : ((Store.len (s.erase (parseInt idStr)) : Int) + 1) = s.len := by
    rw [len_erase hid]; omega
  rw [hdel]
  simp only [createMessage, hm, if_false, hnext]
  exact ⟨hmem, trivial, len_insert_of_mem _ hmem⟩

/-- The initial store, `DELETE /message/1`, then a create: it takes id `2`, where
    `namaste` is still stored. -/
theorem delete_then_create_replaces_namaste :
    let s₁ := (deleteMessage initialStore "1").2
    parseInt "1" ∈ initialStore ∧ (initialStore.len : Int) ∈ initialStore ∧
      parseInt "1" ≠ initialStore.len ∧
      ((initialStore.len : Int) ∈ s₁ ∧
        (createMessage s₁ (some ⟨0, "hi"⟩)).1 = .json 201 ⟨initialStore.len, "hi"⟩ ∧
        (createMessage s₁ (some ⟨0, "hi"⟩)).2.len = s₁.len) := by
  have h1 : parseInt "1" ∈ initialStore := AList.lookup_isSome.mp (by decide)
  have h2 : (initialStore.len : Int) ∈ initialStore := AList.lookup_isSome.mp (by decide)
  have h3 : parseInt "1" ≠ initialStore.len := by decide
  exact ⟨h1, h2, h3, (createMessage_reuses_live_id []).2 "1" ⟨0, "hi"⟩ (by decide) h1 h2 h3⟩

/-! ## Listing -/

/-- `listMessages`: every message of the store, in the order Go's map iteration takes them.
    That order is unspecified; the model lists the entries in theirs, and what is proved
    below holds whatever the order: which messages are listed, and that each is listed once. -/
def listMessages (s : Store) : List Message := s.entries.map (·.2)

/-- Over any requests from the initial store, `GET /messages` lists each stored message
    once; `GET /message/{id}` with the id of a listed message, when it fits an `int`, answers
    that message; and every message `GET /message/{id}` answers is listed. -/
theorem listMessages_getMessageByID (reqs : List Request) :
    ((listMessages (storeRun initialStore reqs)).map (·.id)).Nodup ∧
      (∀ m ∈ listMessages (storeRun initialStore reqs), -2 ^ 63 ≤ m.id → m.id < 2 ^ 63 →
        getMessageByID (storeRun initialStore reqs) (itoa m.id) = .json 200 m) ∧
      ∀ idStr m, getMessageByID (storeRun initialStore reqs) idStr = .json 200 m →
        m ∈ listMessages (storeRun initialStore reqs) := by
  set s := storeRun initialStore reqs
  have hids := storeRun_idsMatch initialStore_idsMatch reqs
  have hentry : ∀ e ∈ s.entries, e.2.id = e.1 := fun e he => hids e.1 e.2 (AList.mem_lookup_iff.2 he)
  refine ⟨?_, fun m hm h0 h1 => ?_, fun idStr m h => ?_⟩
  · have hkeys : (listMessages s).map (·.id) = s.keys := by
      simp only [listMessages, List.map_map, AList.keys, List.keys]
      exact List.map_congr_left fun e he => hentry e he
    rw [hkeys]
    exact s.nodupKeys
  · obtain ⟨e, he, rfl⟩ := List.mem_map.1 hm
    have hlookup : s.lookup e.1 = some e.2 := AList.mem_lookup_iff.2 he
    rw [getMessageByID, hentry e he, parseInt_itoa (hentry e he ▸ h0) (hentry e he ▸ h1), hlookup]
  · simp only [getMessageByID] at h
    split at h
    · next m' hm' =>
      cases h
      exact List.mem_map.2 ⟨_, AList.mem_lookup_iff.1 hm', rfl⟩
    · cases h

theorem listMessages_getMessageByID_created :
    ⟨3, "hi"⟩ ∈ listMessages (storeRun initialStore [.createMessage (some ⟨0, "hi"⟩)]) ∧
      getMessageByID (storeRun initialStore [.createMessage (some ⟨0, "hi"⟩)]) (itoa 3) = .json 200 ⟨3, "hi"⟩ :=
  ⟨by decide, (listMessages_getMessageByID [.createMessage (some ⟨0, "hi"⟩)]).2.1 ⟨3, "hi"⟩ (by decide)
    (by decide) (by decide)⟩

end GoLabs.Swagger

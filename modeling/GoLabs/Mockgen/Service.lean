import GoLabs.Strings.Trim

/-! # The message service of the mockgen demo

`message.Service` checks its arguments and passes what is left to its `Repository`. The
repository is an interface the demo does not implement (its tests use a gomock mock), so it
is a parameter: any state `σ` and any function of it for each method. A method returns its
result, the calls it made on the repository, in order, and the repository's state after.

Content is a Go string, its bytes, trimmed with `strings.TrimSpace`. Whatever the
repository does, the service calls it only with a positive id and a content that is
non-empty and already trimmed; a request that fails validation makes no call and leaves
the state as it was.
-/

namespace GoLabs.Mockgen

open Strings

/-- `message.Message`. -/
structure Message where
  id : Int
  content : List UInt8
  deriving Repr, DecidableEq

/-- `Message{}`. -/
def Message.zero : Message := ⟨0, []⟩

/-- The errors a method returns: the two sentinels, or the repository's error as it is. -/
inductive Error where
  | errEmptyContent
  | errInvalidID
  | repo (text : String)
  deriving Repr, DecidableEq

/-- `err.Error()`. -/
def Error.text : Error → String
  | .errEmptyContent => "content cannot be empty"
  | .errInvalidID => "id must be > 0"
  | .repo text => text

/-- An implementation of `Repository`, over its state `σ`. -/
structure Repository (σ : Type) where
  create : Message → σ → (Message × Option Error) × σ
  getByID : Int → σ → (Message × Option Error) × σ
  update : Message → σ → (Message × Option Error) × σ
  delete : Int → σ → Option Error × σ

/-- A call on the repository. -/
inductive Call where
  | create (m : Message)
  | getByID (id : Int)
  | update (m : Message)
  | delete (id : Int)
  deriving Repr, DecidableEq

/-- What a method returns, the calls it made and the repository's state after them. -/
structure Outcome (α σ : Type) where
  result : α
  calls : List Call
  state : σ

variable {σ : Type} (repo : Repository σ)

/-- `Service.Create`. -/
def Service.create (content : List UInt8) (st : σ) : Outcome (Message × Option Error) σ :=
  let content := trimSpace content
  if content = [] then ⟨(.zero, some .errEmptyContent), [], st⟩ else
  let (r, st) := repo.create ⟨0, content⟩ st
  ⟨r, [.create ⟨0, content⟩], st⟩

/-- `Service.Get`. -/
def Service.get (id : Int) (st : σ) : Outcome (Message × Option Error) σ :=
  if id ≤ 0 then ⟨(.zero, some .errInvalidID), [], st⟩ else
  let (r, st) := repo.getByID id st
  ⟨r, [.getByID id], st⟩

/-- `Service.Update`. -/
def Service.update (id : Int) (content : List UInt8) (st : σ) :
    Outcome (Message × Option Error) σ :=
  if id ≤ 0 then ⟨(.zero, some .errInvalidID), [], st⟩ else
  let content := trimSpace content
  if content = [] then ⟨(.zero, some .errEmptyContent), [], st⟩ else
  let (r, st) := repo.update ⟨id, content⟩ st
  ⟨r, [.update ⟨id, content⟩], st⟩

/-- `Service.Delete`. -/
def Service.delete (id : Int) (st : σ) : Outcome (Option Error) σ :=
  if id ≤ 0 then ⟨some .errInvalidID, [], st⟩ else
  let (r, st) := repo.delete id st
  ⟨r, [.delete id], st⟩

/-- A content the repository may be given: non-empty, and trimmed. -/
def contentValid (c : List UInt8) : Bool := c ≠ [] && trimSpace c = c

/-- A call the service may make: a positive id, a valid content. -/
def Call.valid : Call → Bool
  | .create m => contentValid m.content
  | .getByID id => 0 < id
  | .update m => 0 < m.id && contentValid m.content
  | .delete id => 0 < id

theorem contentValid_trimSpace {c : List UInt8} (h : trimSpace c ≠ []) :
    contentValid (trimSpace c) := by
  simp [contentValid, h, trimSpace_trimSpace]

variable {repo}

theorem create_calls (content : List UInt8) (st : σ) :
    (Service.create repo content st).calls =
      if trimSpace content = [] then [] else [.create ⟨0, trimSpace content⟩] := by
  by_cases h : trimSpace content = [] <;> simp [Service.create, h]

theorem update_calls (id : Int) (content : List UInt8) (st : σ) :
    (Service.update repo id content st).calls =
      if 0 < id ∧ trimSpace content ≠ [] then [.update ⟨id, trimSpace content⟩] else [] := by
  by_cases hid : id ≤ 0
  · simp [Service.update, hid, show ¬0 < id by omega]
  · by_cases h : trimSpace content = [] <;> simp [Service.update, hid, h, show 0 < id by omega]

theorem create_calls_valid (content : List UInt8) (st : σ) :
    ∀ c ∈ (Service.create repo content st).calls, c.valid := by
  rw [create_calls]
  split_ifs with h
  · simp
  · simpa [Call.valid] using contentValid_trimSpace h

theorem get_calls_valid (id : Int) (st : σ) : ∀ c ∈ (Service.get repo id st).calls, c.valid := by
  unfold Service.get
  split_ifs with h
  · simp
  · simp [Call.valid]; omega

theorem update_calls_valid (id : Int) (content : List UInt8) (st : σ) :
    ∀ c ∈ (Service.update repo id content st).calls, c.valid := by
  rw [update_calls]
  split_ifs with h
  · simpa [Call.valid, h.1] using contentValid_trimSpace h.2
  · simp

theorem delete_calls_valid (id : Int) (st : σ) :
    ∀ c ∈ (Service.delete repo id st).calls, c.valid := by
  unfold Service.delete
  split_ifs with h
  · simp
  · simp [Call.valid]; omega

/-- For any repository, any state, id and content: each method calls the repository only
    with a positive id and with the trimmed content, which is then non-empty and trimmed
    already; `Create` and `Update` call it exactly when the checks pass; and a request that
    fails a check returns its sentinel error, makes no call and leaves the state as it was. -/
theorem service_validates_before_delegating (repo : Repository σ) (st : σ) (id : Int)
    (content : List UInt8) :
    (∀ c ∈ (Service.create repo content st).calls ++ (Service.get repo id st).calls ++
        (Service.update repo id content st).calls ++ (Service.delete repo id st).calls,
        c.valid) ∧
      (Service.create repo content st).calls =
        (if trimSpace content = [] then [] else [.create ⟨0, trimSpace content⟩]) ∧
      (Service.update repo id content st).calls =
        (if 0 < id ∧ trimSpace content ≠ [] then [.update ⟨id, trimSpace content⟩] else []) ∧
      (id ≤ 0 →
        Service.get repo id st = ⟨(.zero, some .errInvalidID), [], st⟩ ∧
        Service.update repo id content st = ⟨(.zero, some .errInvalidID), [], st⟩ ∧
        Service.delete repo id st = ⟨some .errInvalidID, [], st⟩) ∧
      (trimSpace content = [] →
        Service.create repo content st = ⟨(.zero, some .errEmptyContent), [], st⟩ ∧
        (0 < id → Service.update repo id content st = ⟨(.zero, some .errEmptyContent), [], st⟩)) := by
  refine ⟨fun c hc => ?_, create_calls content st, update_calls id content st,
    fun hid => ⟨?_, ?_, ?_⟩, fun hc => ⟨?_, fun hid => ?_⟩⟩
  · simp only [List.mem_append] at hc
    rcases hc with ((h | h) | h) | h
    exacts [create_calls_valid content st c h, get_calls_valid id st c h,
      update_calls_valid id content st c h, delete_calls_valid id st c h]
  · simp [Service.get, hid]
  · simp [Service.update, hid]
  · simp [Service.delete, hid]
  · simp [Service.create, hc]
  · simp [Service.update, hc, show ¬id ≤ 0 by omega]

end GoLabs.Mockgen

import GoLabs.Webservice.Db

/-! # The processor's `ConsumeClaim`

The command processor of `rest-go-webservice`: decode a command, run it in one
transaction (`withTx` around the idempotency check, the command switch, `logSaga` and
`markIdempotent`), build the ack, produce it, mark the message.

The transaction body is written once, as a program of SQL statements whose
continuation reads each statement's result (`Prog`). Running it with one transaction
at a time gives the processor's own loop; running several programs statement by
statement gives the interleavings of two partition owners (`Interleaving`).
-/

namespace GoLabs.Webservice

/-- A value of the decoded `payload` map: `.(string)` succeeds on a JSON string only. -/
inductive JsonValue where
  | str (s : String)
  /-- A number, boolean, null, array or object. -/
  | other
  deriving Repr, DecidableEq

/-- `Command` as `json.Unmarshal` decodes it. `Resource` is read by nothing here. -/
structure Command where
  traceId : String
  command : String
  payload : List (String × JsonValue)
  deriving Repr, DecidableEq

/-- `v, _ := cmd.Payload[k].(string)`: the string, or `""`. -/
def Command.payloadString (cmd : Command) (k : String) : String :=
  match cmd.payload.lookup k with
  | some (.str s) => s
  | _ => ""

/-- The keys the processor writes to an ack's `payload` map. -/
structure AckPayload where
  id : Option Int
  message : Option String
  deriving Repr, DecidableEq

def AckPayload.empty : AckPayload := ⟨none, none⟩

structure AckError where
  code : String
  detail : String
  deriving Repr, DecidableEq

structure Ack where
  traceId : String
  status : String
  event : String
  payload : AckPayload
  error : Option AckError
  deriving Repr, DecidableEq

/-- A program of SQL statements: each statement's continuation reads its result. -/
inductive Prog (α : Type) where
  | done (a : α)
  | exec (s : Stmt) (k : Res → Prog α)

namespace Prog

def bind {α β : Type} : Prog α → (α → Prog β) → Prog β
  | .done a, f => f a
  | .exec s k, f => .exec s fun r => (k r).bind f

instance : Monad Prog where
  pure := .done
  bind := bind

/-- Issue one statement. -/
def query (s : Stmt) : Prog Res := .exec s .done

/-- Run a program with its session alone on the database: `fault s` is the error
    statement `s` meets, if any. -/
def run {α : Type} (fault : Stmt → Option String) : Prog α → Db → Option Tx → α × Db × Option Tx
  | .done a, db, tx => (a, db, tx)
  | .exec s k, db, tx =>
    let (r, db', tx') := db.session (fault s) tx s
    run fault (k r) db' tx'

variable {α β : Type} (f : Stmt → Option String)

@[simp] theorem bind_eq (p : Prog α) (g : α → Prog β) : p >>= g = p.bind g := rfl
@[simp] theorem pure_eq (a : α) : (pure a : Prog α) = .done a := rfl
@[simp] theorem bind_done (a : α) (g : α → Prog β) : (Prog.done a).bind g = g a := rfl
@[simp] theorem bind_exec (s : Stmt) (k : Res → Prog α) (g : α → Prog β) :
    (Prog.exec s k).bind g = .exec s fun r => (k r).bind g := rfl
@[simp] theorem query_eq (s : Stmt) : query s = .exec s .done := rfl

@[simp] theorem bind_assoc (p : Prog α) (g : α → Prog β) {γ : Type} (h : β → Prog γ) :
    (p.bind g).bind h = p.bind fun a => (g a).bind h := by
  induction p with
  | done a => rfl
  | exec s k ih => simp only [bind_exec, ih]

@[simp] theorem run_done (a : α) (db : Db) (tx : Option Tx) :
    (Prog.done a).run f db tx = (a, db, tx) := rfl

/-- Running `p >>= g` runs `p`, then `g` from where `p` stopped. -/
theorem run_bind (p : Prog α) (g : α → Prog β) (db : Db) (tx : Option Tx) :
    (p.bind g).run f db tx =
      (g (p.run f db tx).1).run f (p.run f db tx).2.1 (p.run f db tx).2.2 := by
  induction p generalizing db tx with
  | done a => rfl
  | exec s k ih => simp only [bind_exec, run, ih]

/-- A data statement of an open transaction either fails and changes nothing, or does
    what `Db.exec` says. -/
@[simp] theorem run_exec_data (s : Stmt) (k : Res → Prog α) (db : Db) (t : Tx)
    (hb : s ≠ .begin) (hc : s ≠ .commit) (hr : s ≠ .rollback) :
    (Prog.exec s k).run f db (some t) = match f s with
      | some e => (k (.error e)).run f db (some t)
      | none => (k (db.exec t s).1).run f (db.exec t s).2.1 (some (db.exec t s).2.2) := by
  cases hfs : f s <;> cases s <;> first | contradiction | simp [run, Db.session, hfs]

@[simp] theorem run_begin (k : Res → Prog α) (db : Db) (tx : Option Tx) :
    (Prog.exec .begin k).run f db tx = match f .begin with
      | some e => (k (.error e)).run f db tx
      | none => (k .done).run f db (some Tx.empty) := by
  cases hf : f .begin <;> simp [run, Db.session, hf]

@[simp] theorem run_commit (k : Res → Prog α) (db : Db) (t : Tx) :
    (Prog.exec .commit k).run f db (some t) = match f .commit with
      | some e => (k (.error e)).run f db none
      | none => (k .done).run f (db.applyAll t.writes) none := by
  cases hf : f .commit <;> simp [run, Db.session, hf]

@[simp] theorem run_rollback (k : Res → Prog α) (db : Db) (tx : Option Tx) :
    (Prog.exec .rollback k).run f db tx = (k .done).run f db none := by
  simp [run, Db.session]

end Prog

open Prog (query)

/-- The variables `ConsumeClaim` sets inside the transaction's closure: they keep what
    the closure set even when the transaction fails. -/
structure Outcome where
  status : String
  event : String
  payload : AckPayload
  e : Option AckError
  deriving Repr, DecidableEq

def Outcome.init : Outcome := ⟨"SUCCESS", "", .empty, none⟩

/-- `withTx(h.db, fn)`: `fn` runs between `Begin` and `Commit` and is rolled back when it
    returns an error. `s₀` is what the caller's variables hold if `Begin` fails. -/
def withTx {σ : Type} (s₀ : σ) (fn : Prog (σ × Option String)) : Prog (σ × Option String) := do
  match ← query .begin with
  | .error err => return (s₀, some err)
  | _ =>
    let (s, r) ← fn
    match r with
    | some err =>
      let _ ← query .rollback
      return (s, some err)
    | none =>
      match ← query .commit with
      | .error err => return (s, some err)
      | _ => return (s, none)

/-- `checkIdempotent`. -/
def checkIdempotent (key : String) : Prog (Except String Bool) := do
  match ← query (.selectIdempotencyKey key) with
  | .noRows => return .ok false
  | .error err => return .error err
  | _ => return .ok true

/-- `markIdempotent`. -/
def markIdempotent (key traceId status : String) : Prog (Option String) := do
  match ← query (.insertIgnoreIdempotencyKey key status traceId) with
  | .error err => return some err
  | _ => return none

/-- `logSaga`; its error is discarded. -/
def logSaga (traceId step status code detail : String) : Prog Unit := do
  let _ ← query (.insertSagaLog ⟨traceId, step, status, code, detail⟩)

section Helpers

variable {β : Type} (f : Stmt → Option String) (db : Db) (t : Tx)

theorem run_checkIdempotent (key : String) (g : Except String Bool → Prog β) :
    ((checkIdempotent key).bind g).run f db (some t) = match f (.selectIdempotencyKey key) with
      | some e => (g (.error e)).run f db (some t)
      | none => (g (.ok (((t.snapshot.getD db).applyAll t.writes).hasKey key))).run f db
          (some { t with snapshot := some (t.snapshot.getD db) }) := by
  cases hf : f (.selectIdempotencyKey key) <;>
    cases hk : ((t.snapshot.getD db).applyAll t.writes).hasKey key <;>
    simp [checkIdempotent, Db.exec, hf, hk]

theorem run_logSaga (traceId step status code detail : String) (g : Unit → Prog β) :
    ((logSaga traceId step status code detail).bind g).run f db (some t) =
      let row : SagaRow := ⟨traceId, step, status, code, detail⟩
      (g ()).run f db (some (if f (.insertSagaLog row) = none then t.write (.insertSagaLog row) else t)) := by
  cases hf : f (.insertSagaLog ⟨traceId, step, status, code, detail⟩) <;>
    simp [logSaga, Db.exec, hf]

theorem run_markIdempotent (key traceId status : String) (g : Option String → Prog β) :
    ((markIdempotent key traceId status).bind g).run f db (some t) =
      match f (.insertIgnoreIdempotencyKey key status traceId) with
      | some e => (g (some e)).run f db (some t)
      | none => (g none).run f db (some (if (db.applyAll t.writes).hasKey key then t
          else t.write (.insertIdempotencyKey ⟨key, status, traceId⟩))) := by
  cases hf : f (.insertIgnoreIdempotencyKey key status traceId) <;>
    cases hk : (db.applyAll t.writes).hasKey key <;>
    simp [markIdempotent, Db.exec, hf, hk]

end Helpers

/-- The closure `ConsumeClaim` passes to `withTx`, for the idempotency key `key`. -/
def consumeTx (key : String) (cmd : Command) : Prog (Outcome × Option String) := do
  let mut o := Outcome.init
  match ← checkIdempotent key with
  | .error err => return (o, some err)
  | .ok true => return (o, none)
  | .ok false => pure ()
  match cmd.command with
  | "Create" =>
    let m := cmd.payloadString "message"
    match ← query (.insertMessage m) with
    | .error err =>
      o := { o with status := "FAILURE", e := some ⟨"DB_ERROR", err⟩ }
      logSaga cmd.traceId "CreateMessage" "FAILURE" "DB_ERROR" err
      return (o, none)
    | r =>
      o := { o with payload := ⟨some r.lastInsertId, some m⟩, event := "MessageCreated" }
      logSaga cmd.traceId "CreateMessage" "SUCCESS" "" ""
  | "Read" =>
    let id := parseInt (cmd.payloadString "id")
    match ← query (.selectMessage id) with
    | .row mid m =>
      o := { o with payload := ⟨some mid, some m⟩, event := "MessageRead" }
      logSaga cmd.traceId "ReadMessage" "SUCCESS" "" ""
    | _ =>
      let detail := "id=" ++ toString id
      o := { o with status := "FAILURE", e := some ⟨"NOT_FOUND", detail⟩ }
      logSaga cmd.traceId "ReadMessage" "FAILURE" "NOT_FOUND" detail
      return (o, none)
  | "Update" =>
    let id := parseInt (cmd.payloadString "id")
    let m := cmd.payloadString "message"
    match ← query (.updateMessage m id) with
    | .error err =>
      o := { o with status := "FAILURE", e := some ⟨"DB_ERROR", err⟩ }
      logSaga cmd.traceId "UpdateMessage" "FAILURE" "DB_ERROR" err
      return (o, none)
    | r =>
      if r.rowsAffected = 0 then
        let detail := "id=" ++ toString id
        o := { o with status := "FAILURE", e := some ⟨"NOT_FOUND", detail⟩ }
        logSaga cmd.traceId "UpdateMessage" "FAILURE" "NOT_FOUND" detail
        return (o, none)
      o := { o with payload := ⟨some id, some m⟩, event := "MessageUpdated" }
      logSaga cmd.traceId "UpdateMessage" "SUCCESS" "" ""
  | "Delete" =>
    let id := parseInt (cmd.payloadString "id")
    match ← query (.deleteMessage id) with
    | .error err =>
      o := { o with status := "FAILURE", e := some ⟨"DB_ERROR", err⟩ }
      logSaga cmd.traceId "DeleteMessage" "FAILURE" "DB_ERROR" err
      return (o, none)
    | r =>
      if r.rowsAffected = 0 then
        let detail := "id=" ++ toString id
        o := { o with status := "FAILURE", e := some ⟨"NOT_FOUND", detail⟩ }
        logSaga cmd.traceId "DeleteMessage" "FAILURE" "NOT_FOUND" detail
        return (o, none)
      o := { o with payload := ⟨some id, none⟩, event := "MessageDeleted" }
      logSaga cmd.traceId "DeleteMessage" "SUCCESS" "" ""
  | _ => o := { o with status := "FAILURE", e := some ⟨"UNSUPPORTED", "unknown command"⟩ }
  return (o, ← markIdempotent key cmd.traceId o.status)

/-- The idempotency key of a message: its Kafka key, or the trace id when that is empty. -/
def idempotencyKey (msgKey : String) (cmd : Command) : String :=
  if msgKey = "" then cmd.traceId else msgKey

/-- The ack `ConsumeClaim` builds once `withTx` returned `err`. -/
def ackOf (cmd : Command) (o : Outcome) : Option String → Ack
  | some err => ⟨cmd.traceId, "FAILURE", "Error", o.payload, some ⟨"INTERNAL", err⟩⟩
  | none => ⟨cmd.traceId, o.status, o.event, o.payload, o.e⟩

/-- The transaction of one command message, with its idempotency key. -/
def processTx (msgKey : String) (cmd : Command) : Prog (Outcome × Option String) :=
  withTx Outcome.init (consumeTx (idempotencyKey msgKey cmd) cmd)

/-- A message of the commands partition: `value` is what `json.Unmarshal` makes of it
    as a `Command` (`none` when it fails). -/
structure CommandMessage where
  offset : Nat
  key : String
  value : Option Command
  deriving Repr, DecidableEq

/-- An ack handed to `SendMessage`, keyed like the message it answers, and whether the
    send succeeded. -/
structure AckSend where
  offset : Nat
  key : String
  ack : Ack
  delivered : Bool
  deriving Repr, DecidableEq

/-- The processor's state on one partition: the database, every ack send in order, and
    the committed offset. -/
structure Processor where
  db : Db
  acks : List AckSend
  committed : Nat
  deriving Repr, DecidableEq

/-- What the environment decides for one message: the error each statement of its
    transaction meets, and whether the ack's `SendMessage` succeeds. -/
structure Faults where
  stmt : Stmt → Option String
  ackOk : Bool

/-- One iteration of `ConsumeClaim`. A message that does not decode is skipped: no
    ack, no mark. Otherwise the ack is sent and the message marked, whether or not the
    send succeeded. -/
def handle (p : Processor) (msg : CommandMessage) (f : Faults) : Processor :=
  match msg.value with
  | none => p
  | some cmd =>
    let ((o, err), db, _) := (processTx msg.key cmd).run f.stmt p.db none
    ⟨db, p.acks ++ [⟨msg.offset, msg.key, ackOf cmd o err, f.ackOk⟩],
      markMessage p.committed msg.offset⟩

/-- `ConsumeClaim` over the messages of one session, each with its faults. -/
def consumeClaim (p : Processor) (msgs : List (CommandMessage × Faults)) : Processor :=
  msgs.foldl (fun p (msg, f) => handle p msg f) p

end GoLabs.Webservice

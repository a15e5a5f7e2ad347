import GoLabs.Runtime

/-! # The processor's MySQL database

The three tables the processor writes, the statements it issues, and what each
statement returns and does under InnoDB. A transaction keeps its writes to itself
until it commits; its plain `SELECT`s read the snapshot taken at its first one (the
default `REPEATABLE READ`), while `INSERT`, `UPDATE` and `DELETE` see the latest
committed rows. `AUTO_INCREMENT` values are handed out at once and never given back.
-/

namespace GoLabs.Webservice

/-- A row of `messages`; `created_at` and `updated_at` are read by nothing modelled. -/
structure MessageRow where
  id : Int
  message : String
  deriving Repr, DecidableEq

/-- A row of `idempotency_keys`; `processed_at` is read by nothing modelled. -/
structure IdempotencyRow where
  idempotencyKey : String
  lastStatus : String
  traceId : String
  deriving Repr, DecidableEq

/-- A row of `saga_log`; rows are kept in insertion order, their ids left out. -/
structure SagaRow where
  traceId : String
  step : String
  status : String
  errorCode : String
  errorDetail : String
  deriving Repr, DecidableEq

structure Db where
  messages : List MessageRow
  idempotencyKeys : List IdempotencyRow
  sagaLog : List SagaRow
  /-- The next `AUTO_INCREMENT` value of `messages.id`. -/
  autoIncrement : Int
  deriving Repr, DecidableEq

/-- The tables as the schema creates them, `AUTO_INCREMENT` at `1`. -/
def Db.empty : Db := ⟨[], [], [], 1⟩

/-- The statements `ConsumeClaim`'s transaction issues, one constructor per SQL text. -/
inductive Stmt where
  | begin
  /-- `SELECT 1 FROM idempotency_keys WHERE idempotency_key=?` -/
  | selectIdempotencyKey (key : String)
  /-- `INSERT INTO messages(message) VALUES(?)` -/
  | insertMessage (message : String)
  /-- `SELECT id, message FROM messages WHERE id=?` -/
  | selectMessage (id : Int)
  /-- `UPDATE messages SET message=? WHERE id=?` -/
  | updateMessage (message : String) (id : Int)
  /-- `DELETE FROM messages WHERE id=?` -/
  | deleteMessage (id : Int)
  /-- `INSERT IGNORE INTO idempotency_keys(idempotency_key, last_status, trace_id) ...` -/
  | insertIgnoreIdempotencyKey (key status traceId : String)
  /-- `INSERT INTO saga_log(trace_id, step, status, error_code, error_detail) ...` -/
  | insertSagaLog (row : SagaRow)
  | commit
  | rollback
  deriving Repr, DecidableEq

/-- What the driver hands back for a statement. -/
inductive Res where
  /-- `Begin`, `Commit` or `Rollback` succeeded. -/
  | done
  | error (err : String)
  /-- `Scan` returned `sql.ErrNoRows`. -/
  | noRows
  /-- `Scan` read a row of `SELECT id, message`. -/
  | row (id : Int) (message : String)
  /-- `Scan` read the `1` of `SELECT 1`. -/
  | one
  /-- An `Exec` succeeded with this `sql.Result`. -/
  | exec (lastInsertId : Int) (rowsAffected : Nat)
  deriving Repr, DecidableEq

/-- `res.LastInsertId()`, its error dropped. -/
def Res.lastInsertId : Res → Int
  | .exec id _ => id
  | _ => 0

/-- `res.RowsAffected()`, its error dropped. -/
def Res.rowsAffected : Res → Nat
  | .exec _ n => n
  | _ => 0

@[simp] theorem Res.lastInsertId_exec (id : Int) (n : Nat) : (Res.exec id n).lastInsertId = id := rfl
@[simp] theorem Res.rowsAffected_exec (id : Int) (n : Nat) : (Res.exec id n).rowsAffected = n := rfl

/-- A write a transaction has made and not yet committed. -/
inductive Write where
  | insertMessage (row : MessageRow)
  | updateMessage (id : Int) (message : String)
  | deleteMessage (id : Int)
  | insertIdempotencyKey (row : IdempotencyRow)
  | insertSagaLog (row : SagaRow)
  deriving Repr, DecidableEq

def Db.apply (db : Db) : Write → Db
  | .insertMessage row => { db with messages := db.messages ++ [row] }
  | .updateMessage id m =>
    { db with messages := db.messages.map fun r => if r.id = id then ⟨id, m⟩ else r }
  | .deleteMessage id => { db with messages := db.messages.filter (·.id ≠ id) }
  | .insertIdempotencyKey row => { db with idempotencyKeys := db.idempotencyKeys ++ [row] }
  | .insertSagaLog row => { db with sagaLog := db.sagaLog ++ [row] }

/-- `db` with `writes` applied in order. -/
def Db.applyAll (db : Db) (writes : List Write) : Db := writes.foldl Db.apply db

@[simp] theorem Db.applyAll_nil (db : Db) : db.applyAll [] = db := rfl

@[simp] theorem Db.applyAll_append (db : Db) (ws ws' : List Write) :
    db.applyAll (ws ++ ws') = (db.applyAll ws).applyAll ws' := List.foldl_append _ _ _ _

@[simp] theorem Db.applyAll_cons (db : Db) (w : Write) (ws : List Write) :
    db.applyAll (w :: ws) = (db.apply w).applyAll ws := rfl

@[simp] theorem Db.apply_autoIncrement (db : Db) (w : Write) :
    (db.apply w).autoIncrement = db.autoIncrement := by
  cases w <;> rfl

@[simp] theorem Db.applyAll_autoIncrement (db : Db) (ws : List Write) :
    (db.applyAll ws).autoIncrement = db.autoIncrement := by
  induction ws generalizing db <;> simp [*]

/-- Only `insertIdempotencyKey` writes `idempotency_keys`. -/
@[simp] theorem Db.apply_idempotencyKeys (db : Db) (w : Write) :
    (db.apply w).idempotencyKeys =
      match w with
      | .insertIdempotencyKey row => db.idempotencyKeys ++ [row]
      | _ => db.idempotencyKeys := by
  cases w <;> rfl

/-- Only `insertSagaLog` writes `saga_log`. -/
@[simp] theorem Db.apply_sagaLog (db : Db) (w : Write) :
    (db.apply w).sagaLog =
      match w with
      | .insertSagaLog row => db.sagaLog ++ [row]
      | _ => db.sagaLog := by
  cases w <;> rfl

/-- A write that is not to `messages` leaves it alone. -/
@[simp] theorem Db.apply_insertIdempotencyKey_messages (db : Db) (row : IdempotencyRow) :
    (db.apply (.insertIdempotencyKey row)).messages = db.messages := rfl

@[simp] theorem Db.apply_insertSagaLog_messages (db : Db) (row : SagaRow) :
    (db.apply (.insertSagaLog row)).messages = db.messages := rfl

/-- Whether `idempotency_keys` holds `key`. -/
def Db.hasKey (db : Db) (key : String) : Bool :=
  db.idempotencyKeys.any (·.idempotencyKey == key)

@[simp] theorem Db.hasKey_apply (db : Db) (w : Write) (key : String) :
    (db.apply w).hasKey key =
      (db.hasKey key || match w with
        | .insertIdempotencyKey row => row.idempotencyKey == key
        | _ => false) := by
  cases w <;> simp [Db.hasKey, Db.apply]

/-- `AUTO_INCREMENT` handing out `db.autoIncrement`. -/
def Db.allocId (db : Db) : Db := { db with autoIncrement := db.autoIncrement + 1 }

@[simp] theorem Db.allocId_messages (db : Db) : db.allocId.messages = db.messages := rfl
@[simp] theorem Db.allocId_idempotencyKeys (db : Db) :
    db.allocId.idempotencyKeys = db.idempotencyKeys := rfl
@[simp] theorem Db.allocId_sagaLog (db : Db) : db.allocId.sagaLog = db.sagaLog := rfl
@[simp] theorem Db.allocId_autoIncrement (db : Db) :
    db.allocId.autoIncrement = db.autoIncrement + 1 := rfl
@[simp] theorem Db.allocId_hasKey (db : Db) (key : String) :
    db.allocId.hasKey key = db.hasKey key := rfl

/-- The row of `messages` with this id. -/
def Db.findMessage (db : Db) (id : Int) : Option MessageRow := db.messages.find? (·.id = id)

/-- An open transaction: its writes in order, and the snapshot of its first plain read. -/
structure Tx where
  writes : List Write
  snapshot : Option Db
  deriving Repr, DecidableEq

def Tx.empty : Tx := ⟨[], none⟩

def Tx.write (tx : Tx) (w : Write) : Tx := { tx with writes := tx.writes ++ [w] }

@[simp] theorem Tx.empty_writes : Tx.empty.writes = [] := rfl
@[simp] theorem Tx.empty_snapshot : Tx.empty.snapshot = none := rfl
@[simp] theorem Tx.write_writes (tx : Tx) (w : Write) : (tx.write w).writes = tx.writes ++ [w] := rfl
@[simp] theorem Tx.write_snapshot (tx : Tx) (w : Write) : (tx.write w).snapshot = tx.snapshot := rfl

/-- What a data statement returns and does when it does not fail, in a transaction `tx`
    over the committed database `db`: the result, the committed database (only
    `AUTO_INCREMENT` moves) and the transaction. -/
def Db.exec (db : Db) (tx : Tx) : Stmt → Res × Db × Tx
  | .selectIdempotencyKey key =>
    let snap := tx.snapshot.getD db
    (if (snap.applyAll tx.writes).hasKey key then .one else .noRows, db,
      { tx with snapshot := some snap })
  | .selectMessage id =>
    let snap := tx.snapshot.getD db
    let res := match (snap.applyAll tx.writes).findMessage id with
      | some r => .row r.id r.message
      | none => .noRows
    (res, db, { tx with snapshot := some snap })
  | .insertMessage m =>
    (.exec db.autoIncrement 1, db.allocId, tx.write (.insertMessage ⟨db.autoIncrement, m⟩))
  | .updateMessage m id =>
    -- MySQL counts a row as affected only when its value changes.
    let changed := ((db.applyAll tx.writes).findMessage id).any (·.message ≠ m)
    (.exec 0 (if changed then 1 else 0), db, if changed then tx.write (.updateMessage id m) else tx)
  | .deleteMessage id =>
    let found := ((db.applyAll tx.writes).findMessage id).isSome
    (.exec 0 (if found then 1 else 0), db, if found then tx.write (.deleteMessage id) else tx)
  | .insertIgnoreIdempotencyKey key status traceId =>
    -- A duplicate key is ignored with a warning, not an error.
    if (db.applyAll tx.writes).hasKey key then
      (.exec 0 0, db, tx)
    else (.exec 0 1, db, tx.write (.insertIdempotencyKey ⟨key, status, traceId⟩))
  | .insertSagaLog row => (.exec 0 1, db, tx.write (.insertSagaLog row))
  | .begin | .commit | .rollback => (.done, db, tx)

/-- One statement of a session, with `fault` the error the statement meets, if any. A
    failed statement has no effect and leaves the transaction open with its earlier
    writes, as a statement-level error such as a duplicate key or a lock-wait timeout
    does (a deadlock victim's whole transaction is not rolled back here); a failed
    `Commit` leaves the transaction rolled back; `Rollback`'s error is dropped by the
    caller. -/
def Db.session (fault : Option String) (db : Db) (tx : Option Tx) (s : Stmt) :
    Res × Db × Option Tx :=
  match s, fault, tx with
  | .begin, some err, tx => (.error err, db, tx)
  | .begin, none, _ => (.done, db, some Tx.empty)
  | .commit, some err, _ => (.error err, db, none)
  | .commit, none, some tx => (.done, db.applyAll tx.writes, none)
  | .rollback, _, _ => (.done, db, none)
  | _, some err, tx => (.error err, db, tx)
  | s, none, some tx => let r := db.exec tx s; (r.1, r.2.1, some r.2.2)
  | _, none, none => (.error "sql: transaction has already been committed or rolled back", db, none)

/-- The tables, without the `AUTO_INCREMENT` counter. -/
def Db.tables (db : Db) : List MessageRow × List IdempotencyRow × List SagaRow :=
  (db.messages, db.idempotencyKeys, db.sagaLog)

end GoLabs.Webservice

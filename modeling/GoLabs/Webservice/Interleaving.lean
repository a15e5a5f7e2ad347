import GoLabs.Webservice.ConsumeLoop

/-! # Two partition owners on one database

After a rebalance the old owner of a commands partition can still be in the transaction
of a message that the new owner has fetched again, so two transactions of one
idempotency key overlap. Each session runs `processTx` statement by statement against
the shared database, and InnoDB's row locks make a statement wait while another open
transaction holds a write on its row. `checkIdempotent`'s `SELECT` is a consistent read
of the session's snapshot, and `INSERT IGNORE` of a key committed since is ignored with
a warning, so both transactions can pass the check and both commit their effect.

A session alone runs its program as `Prog.run` does, so the sequential model of the other
modules is this one with a single session (`Sys.run_single`).
-/

namespace GoLabs.Webservice

/-- Whether a pending write of one transaction makes statement `s` of another wait for
    its row lock. -/
def Write.blocks : Write → Stmt → Bool
  | .insertIdempotencyKey r, .insertIgnoreIdempotencyKey key _ _ => r.idempotencyKey == key
  | .insertMessage r, .updateMessage _ id | .insertMessage r, .deleteMessage id => r.id == id
  | .updateMessage i _, .updateMessage _ id | .updateMessage i _, .deleteMessage id => i == id
  | .deleteMessage i, .updateMessage _ id | .deleteMessage i, .deleteMessage id => i == id
  | _, _ => false

/-- A database session: what remains of its transaction program, and its open
    transaction. -/
structure Session where
  prog : Prog (Outcome × Option String)
  tx : Option Tx

/-- What the session's program returned, once it has. -/
def Session.result (s : Session) : Option (Outcome × Option String) :=
  match s.prog with
  | .done r => some r
  | .exec _ _ => none

/-- Whether an open transaction of `others` holds a lock statement `st` needs. -/
def waits (others : List Session) (st : Stmt) : Bool :=
  others.any fun o => match o.tx with
    | some t => t.writes.any (·.blocks st)
    | none => false

/-- The shared database and its sessions. -/
structure Sys where
  db : Db
  sessions : List Session

/-- Session `i` runs its next statement, which meets `fault`: `none` when it has
    finished or waits for a lock. -/
def Sys.step (sys : Sys) (i : Nat) (fault : Option String) : Option Sys :=
  match sys.sessions[i]? with
  | some ⟨.exec st k, tx⟩ =>
    if waits (sys.sessions.eraseIdx i) st then none
    else
      let r := sys.db.session fault tx st
      some ⟨r.2.1, sys.sessions.set i ⟨k r.1, r.2.2⟩⟩
  | _ => none

/-- A schedule of sessions, each step with the fault its statement meets. -/
def Sys.run (sys : Sys) : List (Nat × Option String) → Option Sys
  | [] => some sys
  | (i, fault) :: rest => (sys.step i fault).bind (·.run rest)

/-- A session alone runs its program as `Prog.run` does: the schedule that gives each of
    its statements the fault `f` assigns it ends where `Prog.run f` does. -/
theorem Sys.run_single (f : Stmt → Option String) (p : Prog (Outcome × Option String))
    (db : Db) (tx : Option Tx) :
    ∃ sched, (Sys.mk db [⟨p, tx⟩]).run sched =
      some ⟨(p.run f db tx).2.1, [⟨.done (p.run f db tx).1, (p.run f db tx).2.2⟩]⟩ := by
  induction p generalizing db tx with
  | done a => exact ⟨[], rfl⟩
  | exec s k ih =>
    obtain ⟨sched, h⟩ := ih (db.session (f s) tx s).1 (db.session (f s) tx s).2.1
      (db.session (f s) tx s).2.2
    exact ⟨(0, f s) :: sched, by simpa [Sys.run, Sys.step, waits, Prog.run] using h⟩

/-- The old and the new owner both processing a delivery of one command message. -/
def twoOwners (db : Db) (msgKey : String) (cmd : Command) : Sys :=
  ⟨db, [⟨processTx msgKey cmd, none⟩, ⟨processTx msgKey cmd, none⟩]⟩

/-- Both owners begin and pass `checkIdempotent`; the first inserts the message, logs,
    records the key and commits; the second then inserts the message, logs, has its
    `INSERT IGNORE` ignored, and commits. No statement waits and none fails. -/
def bothPassCheck : List (Nat × Option String) :=
  [(0, none), (0, none), (1, none), (1, none),
   (0, none), (0, none), (0, none), (0, none),
   (1, none), (1, none), (1, none), (1, none)]

/-- The old and the new owner of `k1` each processing a delivery of `Create("x")`, from
    the empty database. -/
def createTwice : Sys := twoOwners Db.empty "k1" ⟨"t1", "Create", [("message", .str "x")]⟩

/-- Two deliveries of one `Create`, overlapping: both transactions commit, and each has
    inserted a row of `messages`. -/
theorem overlapping_owners_both_create :
    (createTwice.run bothPassCheck).map (·.db.messages) = some [⟨1, "x"⟩, ⟨2, "x"⟩] ∧
      (createTwice.run bothPassCheck).map (·.db.idempotencyKeys) = some [⟨"k1", "SUCCESS", "t1"⟩] ∧
      (createTwice.run bothPassCheck).map (·.sessions.map Session.result) =
        some [some (⟨"SUCCESS", "MessageCreated", ⟨some 1, some "x"⟩, none⟩, none),
          some (⟨"SUCCESS", "MessageCreated", ⟨some 2, some "x"⟩, none⟩, none)] := by
  decide

end GoLabs.Webservice

import GoLabs.Webservice.Consumer

/-! # What one processing transaction commits

`withTx` commits the closure's writes together or not at all, and the closure puts the
command's effect, its `saga_log` row and its idempotency row in the same transaction.
The pairing of the last two has two gaps: the `default` branch of the command switch
records an idempotency row and logs nothing, and `logSaga` drops its own error, so a
failed audit insert still lets the transaction commit.
-/

namespace GoLabs.Webservice

open Prog

/-- What a committed transaction of `cmd` with idempotency key `key` and outcome `o` did
    to the tables, from `db` to `db'`: if it wrote `messages` or `idempotency_keys`, it
    recorded `key` with the outcome's status and logged one `saga_log` row for the trace
    id with the same status, or no row at all when the command is not one the switch
    knows or the `INSERT INTO saga_log` of that row failed. -/
def AuditedEffect (f : Stmt → Option String) (key : String) (cmd : Command) (o : Outcome)
    (db db' : Db) : Prop :=
  (db'.messages ≠ db.messages ∨ db'.idempotencyKeys ≠ db.idempotencyKeys) →
    db'.idempotencyKeys = db.idempotencyKeys ++ [⟨key, o.status, cmd.traceId⟩] ∧
    (db'.sagaLog = db.sagaLog ++ [⟨cmd.traceId, cmd.command ++ "Message", o.status, "", ""⟩] ∨
      db'.sagaLog = db.sagaLog ∧ (cmd.command ∉ ["Create", "Read", "Update", "Delete"] ∨
        (f (.insertSagaLog ⟨cmd.traceId, cmd.command ++ "Message", "SUCCESS", "", ""⟩)).isSome))

variable (f : Stmt → Option String) (db : Db)

/-- What `withTx` can end in: `Begin` failed and nothing ran, or the closure ran in a
    fresh transaction and then either an error left the closure's database (only
    `AUTO_INCREMENT` moved) or the commit applied its writes. -/
theorem run_withTx {σ : Type} (s₀ : σ) (fn : Prog (σ × Option String)) {s : σ}
    {err : Option String} {db' : Db} {tx' : Option Tx}
    (h : (withTx s₀ fn).run f db none = ((s, err), db', tx')) :
    (err.isSome ∧ db' = db) ∨
    ∃ r db₁ tx₁, fn.run f db (some Tx.empty) = ((s, r), db₁, tx₁) ∧
      (err.isSome ∧ db' = db₁ ∨
        err = none ∧ r = none ∧ ∃ t, tx₁ = some t ∧ db' = db₁.applyAll t.writes) := by
  cases hb : f .begin with
  | some e =>
    simp [withTx, hb] at h
    obtain ⟨⟨rfl, rfl⟩, rfl, rfl⟩ := h
    simp
  | none =>
    simp only [withTx, bind_eq, query_eq, bind_exec, run_begin, hb, bind_done, run_bind] at h
    right
    generalize fn.run f db (some Tx.empty) = res at h
    obtain ⟨⟨s₁, r₁⟩, db₁, tx₁⟩ := res
    refine ⟨r₁, db₁, tx₁, ?_⟩
    cases r₁ <;> cases tx₁ <;> cases hc : f .commit <;>
      simp [hc, run, Db.session] at h ⊢ <;> obtain ⟨⟨rfl, rfl⟩, rfl, rfl⟩ := h <;> simp

/-- The closure, from a fresh transaction: its statements move only `AUTO_INCREMENT` of
    the committed database, and when it returns no error its transaction is open and
    committing its writes is an audited effect. The proof runs every path of the switch,
    splitting on each statement's fault and result. -/
theorem consumeTx_audited (key : String) (cmd : Command) {o : Outcome} {r : Option String}
    {db₁ : Db} {tx₁ : Option Tx}
    (h : (consumeTx key cmd).run f db (some Tx.empty) = ((o, r), db₁, tx₁)) :
    db₁.tables = db.tables ∧
      (r = none → ∃ t, tx₁ = some t ∧ AuditedEffect f key cmd o db (db₁.applyAll t.writes)) := by
  simp [consumeTx, run_checkIdempotent, Db.exec] at h
  repeat' (split at h <;> try simp [run_logSaga, run_markIdempotent, Db.exec, *] at h)
  all_goals obtain ⟨⟨rfl, rfl⟩, rfl, rfl⟩ := h
  all_goals refine ⟨rfl, fun hr => ⟨_, rfl, fun hch => ?_⟩⟩
  all_goals simp_all [AuditedEffect, Outcome.init, Option.isSome_iff_ne_none]

/-- A processing transaction either fails and leaves the tables as they were, or
    commits an audited effect. -/
theorem processTx_outcome (msgKey : String) (cmd : Command) {o : Outcome}
    {err : Option String} {db' : Db} {tx' : Option Tx}
    (h : (processTx msgKey cmd).run f db none = ((o, err), db', tx')) :
    err.isSome ∧ db'.tables = db.tables ∨
      err = none ∧ AuditedEffect f (idempotencyKey msgKey cmd) cmd o db db' := by
  rcases run_withTx f db _ _ h with ⟨he, rfl⟩ | ⟨r, db₁, tx₁, hfn, ⟨he, rfl⟩ | ⟨rfl, rfl, t, rfl, rfl⟩⟩
  · exact .inl ⟨he, rfl⟩
  · exact .inl ⟨he, (consumeTx_audited f db _ cmd hfn).1⟩
  · obtain ⟨t', ht', hA⟩ := (consumeTx_audited f db _ cmd hfn).2 rfl
    cases ht'
    exact .inr ⟨rfl, hA⟩

/-- A processing transaction that does not commit leaves `messages`, `idempotency_keys`
    and `saga_log` as they were; one that commits is an audited effect. -/
theorem processTx_atomic (msgKey : String) (cmd : Command) {o : Outcome}
    {err : Option String} {db' : Db} {tx' : Option Tx}
    (h : (processTx msgKey cmd).run f db none = ((o, err), db', tx')) :
    (err.isSome → db'.tables = db.tables) ∧
      (err = none → AuditedEffect f (idempotencyKey msgKey cmd) cmd o db db') := by
  rcases processTx_outcome f db msgKey cmd h with ⟨he, ht⟩ | ⟨rfl, hA⟩
  · exact ⟨fun _ => ht, fun h' => by simp [h'] at he⟩
  · exact ⟨by simp, fun _ => hA⟩

/-- An unknown command commits its idempotency row, with status `FAILURE`, and no
    `saga_log` row: the `default` branch's gap in `processTx_atomic`. -/
theorem unknownCommand_commits_unaudited :
    let cmd : Command := ⟨"t1", "Frobnicate", []⟩
    let r := (processTx "k1" cmd).run (fun _ => none) Db.empty none
    r.1.2 = none ∧ r.2.1.idempotencyKeys = [⟨"k1", "FAILURE", "t1"⟩] ∧ r.2.1.sagaLog = [] ∧
      (r.1.2.isSome → r.2.1.tables = Db.empty.tables) ∧
      (r.1.2 = none → AuditedEffect (fun _ => none) (idempotencyKey "k1" cmd) cmd r.1.1 Db.empty r.2.1) :=
  ⟨by decide, by decide, by decide, processTx_atomic _ Db.empty "k1" _ rfl⟩

end GoLabs.Webservice

import GoLabs.Webservice.Redelivery
import GoLabs.Strings.Trim

/-! # What the processor answers

The ack of each command, against the spec's outcome classes. Three facts of
`ConsumeClaim` decide it: the closure returns `nil` on every domain failure, before
`markIdempotent`, so the transaction commits with a `FAILURE` status; a `Read` takes any
`Scan` error for a missing row; and an `UPDATE` that changes nothing reports no row
affected. Create and Update store the payload's `message` as it came.

`Prog.issued` observes a run: the statements it sends to the database, in order. A
database error is raised inside processing when one of them fails.
-/

namespace GoLabs.Webservice

open Prog

namespace Prog

/-- The statements a run sends to the database, in order. -/
def issued {α : Type} (fault : Stmt → Option String) : Prog α → Db → Option Tx → List Stmt
  | .done _, _, _ => []
  | .exec s k, db, tx =>
    let (r, db', tx') := db.session (fault s) tx s
    s :: issued fault (k r) db' tx'

variable {α β : Type} (f : Stmt → Option String)

@[simp] theorem issued_done (a : α) (db : Db) (tx : Option Tx) :
    (Prog.done a).issued f db tx = [] := rfl

@[simp] theorem issued_exec (s : Stmt) (k : Res → Prog α) (db : Db) (tx : Option Tx) :
    (Prog.exec s k).issued f db tx =
      s :: (k (db.session (f s) tx s).1).issued f (db.session (f s) tx s).2.1
        (db.session (f s) tx s).2.2 := rfl

theorem issued_bind (p : Prog α) (g : α → Prog β) (db : Db) (tx : Option Tx) :
    (p.bind g).issued f db tx = p.issued f db tx ++
      (g (p.run f db tx).1).issued f (p.run f db tx).2.1 (p.run f db tx).2.2 := by
  induction p generalizing db tx with
  | done a => rfl
  | exec s k ih =>
    simp only [bind_exec, issued_exec, ih, List.cons_append]
    rfl

section Helpers

variable (db : Db) (t : Tx)

theorem issued_checkIdempotent (key : String) (g : Except String Bool → Prog β) :
    ((checkIdempotent key).bind g).issued f db (some t) =
      .selectIdempotencyKey key :: match f (.selectIdempotencyKey key) with
      | some e => (g (.error e)).issued f db (some t)
      | none => (g (.ok (((t.snapshot.getD db).applyAll t.writes).hasKey key))).issued f db
          (some { t with snapshot := some (t.snapshot.getD db) }) := by
  cases hf : f (.selectIdempotencyKey key) <;>
    cases hk : ((t.snapshot.getD db).applyAll t.writes).hasKey key <;>
    simp [checkIdempotent, Db.session, Db.exec, hf, hk]

theorem issued_logSaga (traceId step status code detail : String) (g : Unit → Prog β) :
    ((logSaga traceId step status code detail).bind g).issued f db (some t) =
      let row : SagaRow := ⟨traceId, step, status, code, detail⟩
      .insertSagaLog row :: (g ()).issued f db
        (some (if f (.insertSagaLog row) = none then t.write (.insertSagaLog row) else t)) := by
  cases hf : f (.insertSagaLog ⟨traceId, step, status, code, detail⟩) <;>
    simp [logSaga, Db.session, Db.exec, hf]

theorem issued_markIdempotent (key traceId status : String) (g : Option String → Prog β) :
    ((markIdempotent key traceId status).bind g).issued f db (some t) =
      .insertIgnoreIdempotencyKey key status traceId ::
        match f (.insertIgnoreIdempotencyKey key status traceId) with
        | some e => (g (some e)).issued f db (some t)
        | none => (g none).issued f db (some (if (db.applyAll t.writes).hasKey key then t
            else t.write (.insertIdempotencyKey ⟨key, status, traceId⟩))) := by
  cases hf : f (.insertIgnoreIdempotencyKey key status traceId) <;>
    cases hk : (db.applyAll t.writes).hasKey key <;>
    simp [markIdempotent, Db.session, Db.exec, hf, hk]

end Helpers

end Prog

/-- Whether the transaction reads the error a statement meets: `logSaga` drops its own,
    and `withTx` drops `Rollback`'s. -/
def Stmt.errorChecked : Stmt → Bool
  | .insertSagaLog _ | .rollback => false
  | _ => true

/-! ## `NOT_FOUND` -/

/-- Whether the processor answers a `Read`, `Update` or `Delete` of `cmd` on `db` with
    `NOT_FOUND`: no row has the parsed id or, for an `Update`, the row already holds the
    new message, so that MySQL reports no row affected. -/
def answersNotFound (db : Db) (cmd : Command) : Bool :=
  (db.findMessage (parseInt (cmd.payloadString "id"))).all fun r =>
    cmd.command = "Update" && r.message = cmd.payloadString "message"

theorem findMessage_id {db : Db} {id : Int} {r : MessageRow} (h : db.findMessage id = some r) :
    r.id = id := by
  simpa using List.find?_some h

theorem processTx_lookup (db : Db) (msgKey : String) (cmd : Command)
    (hk : db.hasKey (idempotencyKey msgKey cmd) = false)
    (hc : cmd.command = "Read" ∨ cmd.command = "Update" ∨ cmd.command = "Delete") :
    let r := (processTx msgKey cmd).run (fun _ => none) db none
    r.1.2 = none ∧ (r.1.1.e.map (·.code) = some "NOT_FOUND" ↔ answersNotFound db cmd) ∧
      (answersNotFound db cmd = false → r.1.1.status = "SUCCESS" ∧ r.1.1.e = none ∧
        r.1.1.payload.id = some (parseInt (cmd.payloadString "id"))) := by
  rcases hc with hc | hc | hc <;>
  · cases hf : db.findMessage (parseInt (cmd.payloadString "id")) with
    | none =>
      simp [processTx, withTx, consumeTx, run_checkIdempotent, run_logSaga, run_markIdempotent,
        Db.exec, Outcome.init, hk, hc, hf, answersNotFound]
    | some r =>
      have hid := findMessage_id hf
      by_cases hm : r.message = cmd.payloadString "message" <;>
      simp [processTx, withTx, consumeTx, run_checkIdempotent, run_logSaga, run_markIdempotent,
        Db.exec, Outcome.init, hk, hc, hf, hm, hid, answersNotFound]

/-- A `Read`, `Update` or `Delete` whose statements all succeed is answered `NOT_FOUND`
    exactly when its idempotency key is new and `answersNotFound` holds, so also when an
    `Update` finds its row already holding the new message; any other answer is
    `SUCCESS`, with the parsed id when the command was not a redelivery. -/
theorem handle_notFound_iff (p : Processor) (msg : CommandMessage) {cmd : Command}
    (hv : msg.value = some cmd)
    (hc : cmd.command = "Read" ∨ cmd.command = "Update" ∨ cmd.command = "Delete") (ackOk : Bool) :
    ∃ a, (handle p msg ⟨fun _ => none, ackOk⟩).acks = p.acks ++ [⟨msg.offset, msg.key, a, ackOk⟩] ∧
      (a.error.map (·.code) = some "NOT_FOUND" ↔
        p.db.hasKey (idempotencyKey msg.key cmd) = false ∧ answersNotFound p.db cmd) ∧
      (a.error.map (·.code) ≠ some "NOT_FOUND" → a.status = "SUCCESS" ∧ a.error = none ∧
        (p.db.hasKey (idempotencyKey msg.key cmd) = false →
          a.payload.id = some (parseInt (cmd.payloadString "id")))) := by
  cases hk : p.db.hasKey (idempotencyKey msg.key cmd)
  · obtain ⟨herr, hiff, hok⟩ := processTx_lookup p.db msg.key cmd hk hc
    refine ⟨ackOf cmd ((processTx msg.key cmd).run (fun _ => none) p.db none).1.1 none,
      by simp [handle, hv, herr], ?_⟩
    simp only [ackOf, hiff, true_and]
    intro h
    obtain ⟨h1, h2, h3⟩ := hok (by simpa using mt hiff.mpr h)
    exact ⟨h1, h2, fun _ => h3⟩
  · refine ⟨skipAck cmd, by simp [handle_of_hasKey p msg hv ⟨fun _ => none, ackOk⟩ hk rfl rfl rfl], ?_⟩
    simp [skipAck]

/-- The row `1` holds `hello`, and an `Update` of row `1` to `hello` is answered
    `NOT_FOUND`. -/
theorem update_unchanged_row_notFound :
    let p : Processor := ⟨⟨[⟨1, "hello"⟩], [], [], 2⟩, [], 0⟩
    let cmd : Command := ⟨"t1", "Update", [("id", .str "1"), ("message", .str "hello")]⟩
    p.db.findMessage 1 = some ⟨1, "hello"⟩ ∧
      ∃ a, (handle p ⟨0, "k1", some cmd⟩ ⟨fun _ => none, true⟩).acks = [⟨0, "k1", a, true⟩] ∧
        a.error.map (·.code) = some "NOT_FOUND" := by
  intro p cmd
  obtain ⟨a, ha, hiff, -⟩ :=
    @handle_notFound_iff p ⟨0, "k1", some cmd⟩ cmd rfl (.inr (.inl rfl)) true
  exact ⟨rfl, a, ha, hiff.mpr ⟨by decide, by decide⟩⟩

/-! ## Database errors -/

/-- A processing closure that returns no error and either records a status other than
    `FAILURE` or inserts an idempotency row met no error on any statement whose error it
    reads. -/
theorem consumeTx_clean (f : Stmt → Option String) (db : Db) (key : String) (cmd : Command)
    {o : Outcome} {db₁ : Db} {tx₁ : Option Tx}
    (h : (consumeTx key cmd).run f db (some Tx.empty) = ((o, none), db₁, tx₁))
    (hq : o.status ≠ "FAILURE" ∨
      ∃ t, tx₁ = some t ∧ (db₁.applyAll t.writes).idempotencyKeys ≠ db.idempotencyKeys) :
    ∀ s ∈ (consumeTx key cmd).issued f db (some Tx.empty), s.errorChecked → f s = none := by
  generalize htr : (consumeTx key cmd).issued f db (some Tx.empty) = tr
  have H := And.intro h htr
  clear h htr
  simp [consumeTx, run_checkIdempotent, issued_checkIdempotent, Db.exec] at H
  repeat' (split at H <;> try simp [run_logSaga, run_markIdempotent, issued_logSaga,
    issued_markIdempotent, Db.exec, Db.session, *] at H)
  all_goals obtain ⟨⟨rfl, rfl, rfl⟩, rfl⟩ := H
  all_goals simp_all [Stmt.errorChecked, Outcome.init]

/-- The statements of a processing transaction: `Begin`, then, when it succeeds, the
    closure's and its `Rollback` or `Commit`. -/
theorem issued_processTx (f : Stmt → Option String) (db : Db) (msgKey : String) (cmd : Command) :
    (processTx msgKey cmd).issued f db none = .begin :: match f .begin with
      | some _ => []
      | none =>
        let r := (consumeTx (idempotencyKey msgKey cmd) cmd).run f db (some Tx.empty)
        (consumeTx (idempotencyKey msgKey cmd) cmd).issued f db (some Tx.empty) ++
          [if r.1.2.isSome then .rollback else .commit] := by
  cases hb : f .begin with
  | some e => simp [processTx, withTx, Db.session, hb]
  | none =>
    simp only [processTx, withTx, bind_eq, query_eq, bind_exec, issued_exec, Db.session, hb,
      bind_done, issued_bind]
    rcases (consumeTx (idempotencyKey msgKey cmd) cmd).run f db (some Tx.empty) with ⟨⟨o, r⟩, db₁, tx₁⟩
    cases r
    · cases hc : f .commit <;> cases tx₁ <;> simp [Db.session, hc]
    · simp [Db.session]

/-- A processing transaction whose statements met an error the closure or `withTx`
    reads commits no idempotency row, and its ack says `FAILURE`. -/
theorem processTx_fault (f : Stmt → Option String) (db : Db) (msgKey : String) (cmd : Command)
    {o : Outcome} {err : Option String} {db' : Db} {tx' : Option Tx}
    (h : (processTx msgKey cmd).run f db none = ((o, err), db', tx'))
    (hs : ∃ s ∈ (processTx msgKey cmd).issued f db none, s.errorChecked ∧ (f s).isSome) :
    db'.idempotencyKeys = db.idempotencyKeys ∧ (ackOf cmd o err).status = "FAILURE" := by
  obtain ⟨s, hmem, hchk, hfs⟩ := hs
  rw [issued_processTx] at hmem
  rcases run_withTx f db _ _ h with ⟨he, rfl⟩ | ⟨r, db₁, tx₁, hfn, ⟨he, rfl⟩ | ⟨rfl, rfl, t, rfl, rfl⟩⟩
  · obtain ⟨e, rfl⟩ := Option.isSome_iff_exists.mp he
    exact ⟨rfl, rfl⟩
  · obtain ⟨e, rfl⟩ := Option.isSome_iff_exists.mp he
    have := (consumeTx_audited f db _ cmd hfn).1
    simp only [Db.tables, Prod.mk.injEq] at this
    exact ⟨this.2.1, rfl⟩
  · have hb : f .begin = none := by
      cases hb : f .begin
      · rfl
      · simp [processTx, withTx, hb] at h
    have hc : f .commit = none := by
      cases hc : f .commit
      · rfl
      · simp [processTx, withTx, hb, run_bind, hfn, hc] at h
    simp only [hb, hfn, Option.isSome_none, List.mem_cons, List.mem_append, List.mem_singleton,
      Bool.false_eq_true, if_false, List.not_mem_nil, or_false] at hmem
    rcases hmem with rfl | hmem | rfl
    · simp [hb] at hfs
    · by_contra hne
      have hq : o.status ≠ "FAILURE" ∨
          ∃ t', some t = some t' ∧ (db₁.applyAll t'.writes).idempotencyKeys ≠ db.idempotencyKeys := by
        by_cases hst : o.status = "FAILURE"
        · exact .inr ⟨t, rfl, fun hk => hne ⟨hk, hst⟩⟩
        · exact .inl hst
      simp [consumeTx_clean f db _ cmd hfn hq s hmem hchk] at hfs
    · simp [hc] at hfs

/-- Whatever statement of a command's transaction meets a database error, except the
    `saga_log` insert whose error `logSaga` drops, the processor commits no idempotency
    key for it, answers it with a `FAILURE` ack, and marks its offset: the command is
    not delivered again. -/
theorem handle_dbError_terminal (p : Processor) (msg : CommandMessage) {cmd : Command}
    (hv : msg.value = some cmd) (f : Faults)
    (hs : ∃ s ∈ (processTx msg.key cmd).issued f.stmt p.db none,
      s.errorChecked ∧ (f.stmt s).isSome) :
    (handle p msg f).db.idempotencyKeys = p.db.idempotencyKeys ∧
      (∃ a, (handle p msg f).acks = p.acks ++ [⟨msg.offset, msg.key, a, f.ackOk⟩] ∧
        a.status = "FAILURE") ∧
      (handle p msg f).committed = markMessage p.committed msg.offset := by
  rcases hr : (processTx msg.key cmd).run f.stmt p.db none with ⟨⟨o, err⟩, db', tx'⟩
  obtain ⟨hkeys, hst⟩ := processTx_fault f.stmt p.db msg.key cmd hr hs
  simp [handle, hv, hr, hkeys, hst]

/-- A `Create` whose `INSERT INTO messages` meets a deadlock. -/
theorem create_deadlock_terminal :
    let p : Processor := ⟨Db.empty, [], 0⟩
    let msg : CommandMessage := ⟨0, "k1", some ⟨"t1", "Create", [("message", .str "hello")]⟩⟩
    let f : Faults := ⟨fun s => if s = .insertMessage "hello" then some "deadlock" else none, true⟩
    (∃ s ∈ (processTx msg.key ⟨"t1", "Create", [("message", .str "hello")]⟩).issued f.stmt p.db none,
        s.errorChecked ∧ (f.stmt s).isSome) ∧
      (handle p msg f).db.idempotencyKeys = p.db.idempotencyKeys ∧
      (∃ a, (handle p msg f).acks = p.acks ++ [⟨msg.offset, msg.key, a, f.ackOk⟩] ∧
        a.status = "FAILURE") ∧
      (handle p msg f).committed = markMessage p.committed msg.offset := by
  intro p msg f
  have hs : ∃ s ∈ (processTx msg.key ⟨"t1", "Create", [("message", .str "hello")]⟩).issued
      f.stmt p.db none, s.errorChecked ∧ (f.stmt s).isSome :=
    ⟨.insertMessage "hello", by decide, rfl, rfl⟩
  exact ⟨hs, handle_dbError_terminal p msg rfl f hs⟩

/-! ## Stored content -/

/-- A new `Create` whose statements all succeed stores the payload's `message` as it
    came, under the next `AUTO_INCREMENT` id, and is answered `SUCCESS`; so does an
    `Update` that finds its row, over that row. -/
theorem handle_stores_payload (p : Processor) (msg : CommandMessage) {cmd : Command}
    (hv : msg.value = some cmd) (hk : p.db.hasKey (idempotencyKey msg.key cmd) = false)
    (ackOk : Bool) :
    let p' := handle p msg ⟨fun _ => none, ackOk⟩
    (cmd.command = "Create" →
      p'.db.messages = p.db.messages ++ [⟨p.db.autoIncrement, cmd.payloadString "message"⟩] ∧
      (p'.acks.getLast?.map (·.ack.status)) = some "SUCCESS") ∧
    (cmd.command = "Update" → answersNotFound p.db cmd = false →
      p'.db.messages = p.db.messages.map fun r =>
        if r.id = parseInt (cmd.payloadString "id") then
          ⟨parseInt (cmd.payloadString "id"), cmd.payloadString "message"⟩ else r) := by
  refine ⟨fun hc => ?_, fun hc hnf => ?_⟩
  · simp [handle, hv, processTx, withTx, consumeTx, run_checkIdempotent, run_logSaga,
      run_markIdempotent, Db.exec, Outcome.init, ackOf, hk, hc]
    rfl
  · cases hf : p.db.findMessage (parseInt (cmd.payloadString "id")) with
    | none => simp [answersNotFound, hf] at hnf
    | some r =>
      have hm : r.message ≠ cmd.payloadString "message" := by simpa [answersNotFound, hf, hc] using hnf
      simp [handle, hv, processTx, withTx, consumeTx, run_checkIdempotent, run_logSaga,
        run_markIdempotent, Db.exec, Outcome.init, hk, hc, hf, hm]
      rfl

/-- The gateway forwards the body `" x "` as it came, and the processor stores it so with a
    `SUCCESS` ack, though `TrimSpace` changes it; a `Create` from another producer with no
    `message` field stores an empty row, again with `SUCCESS`. -/
theorem untrimmed_and_empty_rows_stored :
    let p : Processor := ⟨Db.empty, [], 0⟩
    let cmd : Command := ⟨"t1", "Create", [("message", .str " x ")]⟩
    let cmd₂ : Command := ⟨"t2", "Create", []⟩
    (Gateway.createMessageHandler ⟨"POST", "/v1/messages", some " x "⟩ "t1" "k1" true).2 =
        some ⟨"k1", cmd, [⟨"trace_id", "t1"⟩, ⟨"command", "Create"⟩]⟩ ∧
      Strings.trimSpace (Utf8.utf8Bytes " x ") ≠ Utf8.utf8Bytes " x " ∧
      ((handle p ⟨0, "k1", some cmd⟩ ⟨fun _ => none, true⟩).db.messages =
          [⟨Db.empty.autoIncrement, " x "⟩] ∧
        (handle p ⟨0, "k1", some cmd⟩ ⟨fun _ => none, true⟩).acks.getLast?.map (·.ack.status) =
          some "SUCCESS") ∧
      ((handle p ⟨0, "k2", some cmd₂⟩ ⟨fun _ => none, true⟩).db.messages =
          [⟨Db.empty.autoIncrement, ""⟩] ∧
        (handle p ⟨0, "k2", some cmd₂⟩ ⟨fun _ => none, true⟩).acks.getLast?.map (·.ack.status) =
          some "SUCCESS") := by
  intro p cmd cmd₂
  exact ⟨by decide, by decide,
    (handle_stores_payload p ⟨0, "k1", some cmd⟩ rfl (by decide) true).1 rfl,
    (handle_stores_payload p ⟨0, "k2", some cmd₂⟩ rfl (by decide) true).1 rfl⟩

end GoLabs.Webservice

import Mathlib.Data.List.Basic

/-! # The order service of the gomock TDD demo

`order.Service.PlaceOrder` checks the amount, charges it through a `PaymentGateway` and, if
the charge succeeds, saves the order through an `OrderRepo`. The two ports are interfaces the
demo does not implement (its tests use gomock mocks), so they are parameters: any state `σ`
and any function of it for each method. A call returns its result, the calls it made on the
ports, in order, and the state after them.

Whatever the ports do, an order is saved only right after a successful charge of its amount in
its currency, and then with status `paid` and the gateway's transaction id
(`placeOrder_cases`). Over any run of calls the port log is a sequence of such blocks
(`placeAll_blocks`), so there are never more saves than charges (`placeAll_saves`). A failed
save is not undone: the customer is charged, and the order returned says `paid`, but the
repository did not store it. The guide's variant that retries transient charge failures keeps
the same shape, with up to three charges before the save (`placeOrderRetry_cases`).
-/

namespace GoLabs.Gomock

/-- `domain.Order`. `AmountCents` is an `int64` the service only compares with `0`. -/
structure Order where
  id : String
  amountCents : Int
  currency : String
  status : String
  paymentTxID : String
  deriving Repr, DecidableEq

/-- The errors `PlaceOrder` returns; the ports' errors are their texts. -/
inductive Error where
  | invalidAmount
  | chargeFailed (err : String)
  | saveFailed (err : String)
  deriving Repr, DecidableEq

/-- `err.Error()`: `%w` prints the wrapped error. -/
def Error.text : Error → String
  | .invalidAmount => "invalid amount"
  | .chargeFailed err => "charge failed: " ++ err
  | .saveFailed err => "save failed: " ++ err

/-- Implementations of `PaymentGateway` and `OrderRepo` over a state `σ`: `charge` returns the
    transaction id or the error, `save` the error if any. -/
structure Ports (σ : Type) where
  charge : Int → String → String → σ → Except String String × σ
  save : Order → σ → Option String × σ

/-- A call on a port. -/
inductive Call where
  | charge (amountCents : Int) (currency source : String)
  | save (o : Order)
  deriving Repr, DecidableEq

/-- What a call returns, the calls it made and the ports' state after them. -/
structure Outcome (α σ : Type) where
  result : α
  calls : List Call
  state : σ

variable {σ : Type} (ports : Ports σ)

/-- `Service.PlaceOrder`. -/
def Service.placeOrder (o : Order) (source : String) (st : σ) : Outcome (Order × Option Error) σ :=
  if o.amountCents ≤ 0 then ⟨(o, some .invalidAmount), [], st⟩ else
  match ports.charge o.amountCents o.currency source st with
  | (.error err, st) =>
    ⟨({ o with status := "failed" }, some (.chargeFailed err)), [.charge o.amountCents o.currency source], st⟩
  | (.ok txID, st) =>
    let o' := { o with status := "paid", paymentTxID := txID }
    match ports.save o' st with
    | (some err, st) => ⟨(o', some (.saveFailed err)), [.charge o.amountCents o.currency source, .save o'], st⟩
    | (none, st) => ⟨(o', none), [.charge o.amountCents o.currency source, .save o'], st⟩

/-- The calls one `PlaceOrder` may make: none, a charge of a positive amount, or such a charge
    followed by the save of a paid order of that amount and currency. -/
def Call.Block : List Call → Prop
  | [] => True
  | [.charge a _ _] => 0 < a
  | [.charge a c _, .save o] => 0 < a ∧ o.amountCents = a ∧ o.currency = c ∧ o.status = "paid"
  | _ => False

variable {ports}

/-- Everything `PlaceOrder` can do, for any ports, order, source and state: refuse a
    non-positive amount with no call and the state unchanged; or charge the amount once and,
    on a failure, return the order `failed`; or, on a success, save the order `paid` with the
    transaction id and return it, with the save's error if there was one. -/
theorem placeOrder_cases (o : Order) (source : String) (st : σ) :
    (o.amountCents ≤ 0 ∧ Service.placeOrder ports o source st = ⟨(o, some .invalidAmount), [], st⟩) ∨
    (0 < o.amountCents ∧ ∃ err st', ports.charge o.amountCents o.currency source st = (.error err, st') ∧
      Service.placeOrder ports o source st =
        ⟨({ o with status := "failed" }, some (.chargeFailed err)), [.charge o.amountCents o.currency source], st'⟩) ∨
    (0 < o.amountCents ∧ ∃ txID st' saved st'', ports.charge o.amountCents o.currency source st = (.ok txID, st') ∧
      ports.save { o with status := "paid", paymentTxID := txID } st' = (saved, st'') ∧
      Service.placeOrder ports o source st =
        ⟨({ o with status := "paid", paymentTxID := txID }, saved.map .saveFailed),
          [.charge o.amountCents o.currency source, .save { o with status := "paid", paymentTxID := txID }], st''⟩) := by
  by_cases h : o.amountCents ≤ 0
  · exact .inl ⟨h, by simp [Service.placeOrder, h]⟩
  rcases hc : ports.charge o.amountCents o.currency source st with ⟨r, st'⟩
  cases r with
  | error err => exact .inr (.inl ⟨by omega, err, st', rfl, by simp [Service.placeOrder, h, hc]⟩)
  | ok txID =>
    rcases hs : ports.save { o with status := "paid", paymentTxID := txID } st' with ⟨saved, st''⟩
    refine .inr (.inr ⟨by omega, txID, st', saved, st'', rfl, hs, ?_⟩)
    cases saved <;> simp [Service.placeOrder, h, hc, hs]

example :
    (Service.placeOrder ⟨fun _ _ _ n => (.ok "tx1", n + 1), fun _ n => (some "db down", n)⟩
      ⟨"o1", 500, "EUR", "pending", ""⟩ "card" (0 : Nat)).result =
      (⟨"o1", 500, "EUR", "paid", "tx1"⟩, some (.saveFailed "db down")) := rfl

/-- The calls of one `PlaceOrder` form a block. -/
theorem placeOrder_block (o : Order) (source : String) (st : σ) :
    Call.Block (Service.placeOrder ports o source st).calls := by
  rcases placeOrder_cases o source st with ⟨-, h⟩ | ⟨hpos, _, _, -, h⟩ | ⟨hpos, _, _, _, _, -, -, h⟩ <;>
    rw [h]
  · trivial
  · exact hpos
  · exact ⟨hpos, rfl, rfl, rfl⟩

/-- A block saves no more orders than it charges, and what it saves is paid for. -/
theorem Call.Block.saves {b : List Call} (h : Call.Block b) :
    b.countP (· matches .save _) ≤ b.countP (· matches .charge ..) ∧
      ∀ o, .save o ∈ b → o.status = "paid" ∧ 0 < o.amountCents := by
  match b, h with
  | [], _ => simp
  | [.charge a _ _], _ => simp
  | [.charge a c _, .save o], ⟨ha, hoa, _, hos⟩ => simp [hos, hoa, ha]

/-! ## Runs of calls -/

/-- The port calls of orders placed one after another, from the state `st`. -/
def placeAll (ports : Ports σ) (st : σ) : List (Order × String) → List Call
  | [] => []
  | (o, source) :: rs =>
    (Service.placeOrder ports o source st).calls ++ placeAll ports (Service.placeOrder ports o source st).state rs

/-- Over any run, against any ports, the port log is a sequence of blocks: every save comes
    right after the successful charge of the order it saves. -/
theorem placeAll_blocks (st : σ) (reqs : List (Order × String)) :
    ∃ blocks : List (List Call), (∀ b ∈ blocks, Call.Block b) ∧ placeAll ports st reqs = blocks.flatten := by
  induction reqs generalizing st with
  | nil => exact ⟨[], by simp, rfl⟩
  | cons r rs ih =>
    obtain ⟨blocks, hb, he⟩ := ih (Service.placeOrder ports r.1 r.2 st).state
    refine ⟨(Service.placeOrder ports r.1 r.2 st).calls :: blocks, ?_, by rw [placeAll, he]; rfl⟩
    simpa [placeOrder_block] using hb

/-- Over any run there are never more saves than charges, and every saved order is paid for
    with a positive amount. -/
theorem placeAll_saves (st : σ) (reqs : List (Order × String)) :
    (placeAll ports st reqs).countP (· matches .save _) ≤ (placeAll ports st reqs).countP (· matches .charge ..) ∧
      ∀ o, .save o ∈ placeAll ports st reqs → o.status = "paid" ∧ 0 < o.amountCents := by
  obtain ⟨blocks, hb, he⟩ := @placeAll_blocks σ ports st reqs
  rw [he]
  clear he
  induction blocks with
  | nil => simp
  | cons b bs ih =>
    have hb1 := (hb b (List.mem_cons_self b bs)).saves
    have ih := ih fun b' hb' => hb b' (List.mem_cons_of_mem b hb')
    simp only [List.flatten_cons, List.countP_append, List.mem_append]
    exact ⟨Nat.add_le_add hb1.1 ih.1, fun o ho => ho.elim (hb1.2 o) (ih.2 o)⟩

/-! ## Retrying the charge

The guide's last example changes `PlaceOrder` to charge up to three times: after a failed
charge it tries again when `isTransient` says the error is transient, and it stops at the first
success or at an error that is not transient. The guide does not define `isTransient`, so it is
a parameter. Whatever the ports do, the charges made are the first of the gateway's answers
up to the first one that is not a transient error, at most three, and the order is saved only
right after the last of them succeeded (`placeOrderRetry_cases`).
-/

/-- The answers of `k` charges of `a` in currency `c` from `source`, one after another. -/
def Ports.chargeRun (ports : Ports σ) (a : Int) (c source : String) : Nat → σ → List (Except String String) × σ
  | 0, st => ([], st)
  | k + 1, st =>
    let r := ports.charge a c source st
    let rs := ports.chargeRun a c source k r.2
    (r.1 :: rs.1, rs.2)

/-- The loop `for i := 0; i < 3; i++` of the retrying `PlaceOrder`, from `i`, the last answer
    `res` (`txID` and `err`) and the calls made so far. -/
def retryLoop (ports : Ports σ) (isTransient : String → Bool) (a : Int) (c source : String) (i : Nat)
    (res : Except String String) (st : σ) (calls : List Call) : Except String String × List Call × σ :=
  if i < 3 then
    match ports.charge a c source st with
    | (.ok txID, st') => (.ok txID, calls ++ [.charge a c source], st')
    | (.error err, st') =>
      if isTransient err then retryLoop ports isTransient a c source (i + 1) (.error err) st' (calls ++ [.charge a c source])
      else (.error err, calls ++ [.charge a c source], st')
  else (res, calls, st)
termination_by 3 - i

/-- The retrying `Service.PlaceOrder`. -/
def Service.placeOrderRetry (ports : Ports σ) (isTransient : String → Bool) (o : Order) (source : String)
    (st : σ) : Outcome (Order × Option Error) σ :=
  if o.amountCents ≤ 0 then ⟨(o, some .invalidAmount), [], st⟩ else
  match retryLoop ports isTransient o.amountCents o.currency source 0 (.ok "") st [] with
  | (.error err, calls, st) => ⟨({ o with status := "failed" }, some (.chargeFailed err)), calls, st⟩
  | (.ok txID, calls, st) =>
    let o' := { o with status := "paid", paymentTxID := txID }
    match ports.save o' st with
    | (some err, st) => ⟨(o', some (.saveFailed err)), calls ++ [.save o'], st⟩
    | (none, st) => ⟨(o', none), calls ++ [.save o'], st⟩

variable {isTransient : String → Bool} {a : Int} {c source : String}

/-- From iteration `i`, the loop makes `k + 1` more charges, `i + k < 3`: all but the last were
    answered with a transient error, and the last with a success, with an error that is not
    transient, or with a transient one at the third iteration. -/
theorem retryLoop_spec (i : Nat) (hi : i < 3) (res : Except String String) (st : σ) (calls : List Call) :
    ∃ k rs r st', i + k < 3 ∧ ports.chargeRun a c source (k + 1) st = (rs ++ [r], st') ∧
      (∀ x ∈ rs, ∃ err, x = .error err ∧ isTransient err = true) ∧
      ((∃ txID, r = .ok txID) ∨ ∃ err, r = .error err ∧ (isTransient err = false ∨ i + k = 2)) ∧
      retryLoop ports isTransient a c source i res st calls =
        (r, calls ++ List.replicate (k + 1) (.charge a c source), st') := by
  induction i, res, st, calls using retryLoop.induct ports isTransient a c source with
  | case1 i res st calls _ txID st' h =>
    refine ⟨0, [], .ok txID, st', by omega, by simp [Ports.chargeRun, h], by simp, .inl ⟨txID, rfl⟩, ?_⟩
    rw [retryLoop, if_pos hi, h]
    rfl
  | case2 i res st calls hi' err st' h ht ih =>
    by_cases hi2 : i + 1 < 3
    · obtain ⟨k, rs, r, st'', hk, hrun, hrs, hr, hloop⟩ := ih hi2
      refine ⟨k + 1, .error err :: rs, r, st'', by omega, ?_, ?_, ?_, ?_⟩
      · rw [Ports.chargeRun, h]
        simp only [hrun, List.cons_append]
      · simpa [ht] using hrs
      · rcases hr with hr | ⟨e, he, hr⟩
        · exact .inl hr
        · exact .inr ⟨e, he, hr.imp_right fun _ => by omega⟩
      · rw [retryLoop, if_pos hi, h]
        simp only [ht, if_true, hloop, List.append_assoc, List.singleton_append, List.replicate_succ]
    · refine ⟨0, [], .error err, st', by omega, by simp [Ports.chargeRun, h], by simp, .inr ⟨err, rfl, .inr (by omega)⟩, ?_⟩
      rw [retryLoop, if_pos hi, h]
      simp only [ht, if_true]
      rw [retryLoop, if_neg hi2]
      rfl
  | case3 i res st calls _ err st' h ht =>
    refine ⟨0, [], .error err, st', by omega, by simp [Ports.chargeRun, h], by simp, .inr ⟨err, rfl, .inl (by simpa using ht)⟩, ?_⟩
    rw [retryLoop, if_pos hi, h]
    simp only [ht]
    rfl
  | case4 i res st calls hi' => exact absurd hi hi'

/-- Everything the retrying `PlaceOrder` can do, for any ports, transience test, order, source
    and state: refuse a non-positive amount with no call; or charge the amount `k + 1 ≤ 3` times,
    every answer but the last a transient error, and then either fail the order with the last
    answer's error, when it is not transient or was the third, or, on a success, save the order
    `paid` with the transaction id right after that charge and return the save's error if any. -/
theorem placeOrderRetry_cases (o : Order) (source : String) (st : σ) :
    (o.amountCents ≤ 0 ∧ Service.placeOrderRetry ports isTransient o source st = ⟨(o, some .invalidAmount), [], st⟩) ∨
    (0 < o.amountCents ∧ ∃ k rs r st', k < 3 ∧ ports.chargeRun o.amountCents o.currency source (k + 1) st = (rs ++ [r], st') ∧
      (∀ x ∈ rs, ∃ err, x = .error err ∧ isTransient err = true) ∧
      ((∃ err, r = .error err ∧ (isTransient err = false ∨ k = 2) ∧
          Service.placeOrderRetry ports isTransient o source st =
            ⟨({ o with status := "failed" }, some (.chargeFailed err)),
              List.replicate (k + 1) (.charge o.amountCents o.currency source), st'⟩) ∨
        (∃ txID saved st'', r = .ok txID ∧ ports.save { o with status := "paid", paymentTxID := txID } st' = (saved, st'') ∧
          Service.placeOrderRetry ports isTransient o source st =
            ⟨({ o with status := "paid", paymentTxID := txID }, saved.map .saveFailed),
              List.replicate (k + 1) (.charge o.amountCents o.currency source) ++
                [.save { o with status := "paid", paymentTxID := txID }], st''⟩))) := by
  by_cases h : o.amountCents ≤ 0
  · exact .inl ⟨h, by simp [Service.placeOrderRetry, h]⟩
  obtain ⟨k, rs, r, st', hk, hrun, hrs, hr, hloop⟩ :=
    @retryLoop_spec σ ports isTransient o.amountCents o.currency source 0 (by decide) (.ok "") st []
  refine .inr ⟨by omega, k, rs, r, st', by omega, hrun, hrs, ?_⟩
  rcases hr with ⟨txID, rfl⟩ | ⟨err, rfl, herr⟩
  · rcases hs : ports.save { o with status := "paid", paymentTxID := txID } st' with ⟨saved, st''⟩
    refine .inr ⟨txID, saved, st'', rfl, hs, ?_⟩
    cases saved <;> simp [Service.placeOrderRetry, h, hloop, hs]
  · exact .inl ⟨err, rfl, herr.imp_right fun _ => by omega, by simp [Service.placeOrderRetry, h, hloop]⟩

/-- The guide's test: two transient failures, then a success, so three charges and the save. -/
example : (Service.placeOrderRetry ⟨fun _ _ _ n => (if n < 2 then .error "transient" else .ok "tx_final", n + 1),
      fun _ n => (none, n)⟩ (· == "transient") ⟨"o1", 4999, "INR", "pending", ""⟩ "card" (0 : Nat)).calls =
    List.replicate 3 (.charge 4999 "INR" "card") ++ [.save ⟨"o1", 4999, "INR", "paid", "tx_final"⟩] := by
  simp [Service.placeOrderRetry, retryLoop]

end GoLabs.Gomock

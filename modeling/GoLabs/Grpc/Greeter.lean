import GoLabs.Runtime

/-! # The gRPC greeter server

`greeterServer` answers the unary `SayHello` and the server-streaming `GreetManyTimes`. `main`
builds the server with `ChainUnaryInterceptor(unaryLoggerInterceptor, authUnaryInterceptor(token))`:
a logger, then, when `GREETER_TOKEN` is set, a check of the `authorization` metadata against
`Bearer <token>`.

A context is what the handlers read of it: the error of a closed `Done()` channel, and the
metadata `FromIncomingContext` finds. A stream's context and the outcome of each `Send` are
given per iteration, so the results hold for any client and any network.

A unary call reaches `SayHello` exactly when it carries the token (`serve_sayHello`). The chain
is one of unary interceptors only, and the server has no stream interceptor, so a stream reaches
`GreetManyTimes` whatever metadata it carries. Its loop sends a prefix of the five greetings,
stopping at the first iteration whose context is done or whose send fails (`greetLoop_spec`).
-/

namespace GoLabs.Grpc

/-- Incoming metadata, `metadata.MD`: keys, in lower case, with their values. -/
abbrev MD := List (String × List String)

/-- `md.Get(k)` for a key in lower case, as the server's is. -/
def MD.get (md : MD) (k : String) : List String := (md.lookup k).getD []

/-- What a handler reads of its context: `Err()` once `Done()` is closed, and the incoming
    metadata, `none` when `FromIncomingContext` finds none. -/
structure Ctx where
  err : Option String
  md : Option MD
  deriving Repr, DecidableEq

/-- A unary handler: from the request's name to the response's message or an error. -/
abbrev Handler := Ctx → String → Except String String

/-- A unary interceptor, given the handler it wraps. -/
abbrev Interceptor := Ctx → String → Handler → Except String String

/-- A stream interceptor, given the stream's metadata and the handler it wraps: the messages
    sent and the error returned. -/
abbrev StreamInterceptor :=
  Option MD → (Unit → List String × Option String) → List String × Option String

/-- `greeterServer.SayHello`. -/
def sayHello : Handler := fun ctx name =>
  match ctx.err with
  | some e => .error e
  | none => .ok ("Hello, " ++ name ++ "! 👋")

/-- The message of `GreetManyTimes`' `i`-th send. -/
def greeting (name : String) (i : Nat) : String := "[" ++ itoa i ++ "/5] Hello, " ++ name ++ "!"

/-- The loop of `GreetManyTimes` from `i`, with `n` iterations left: `ctxErr i` is the
    stream context's error when iteration `i` looks at it, `sendErr i` what its `Send`
    returns. It returns the messages sent and the error. -/
def greetLoop (name : String) (ctxErr sendErr : Nat → Option String) : Nat → Nat → List String × Option String
  | 0, _ => ([], none)
  | n + 1, i =>
    match ctxErr i with
    | some e => ([], some e)
    | none =>
      match sendErr i with
      | some e => ([], some e)
      | none =>
        let r := greetLoop name ctxErr sendErr n (i + 1)
        (greeting name i :: r.1, r.2)

/-- `greeterServer.GreetManyTimes`: `for i := 1; i <= 5; i++`. -/
def greetManyTimes (name : String) (ctxErr sendErr : Nat → Option String) : List String × Option String :=
  greetLoop name ctxErr sendErr 5 1

/-- `unaryLoggerInterceptor`: it calls the handler and logs. -/
def unaryLoggerInterceptor : Interceptor := fun ctx req handler => handler ctx req

/-- `authUnaryInterceptor(validToken)`. -/
def authUnaryInterceptor (validToken : String) : Interceptor := fun ctx req handler =>
  if validToken = "" then handler ctx req else
  match ctx.md with
  | none => .error "missing metadata"
  | some md =>
    let expected := "Bearer " ++ validToken
    match md.get "authorization" with
    | [] => .error "unauthorized"
    | v :: _ => if v ≠ expected then .error "unauthorized" else handler ctx req

/-- A chain of unary interceptors around a handler, the first outermost. -/
def chainUnaryInterceptors : List Interceptor → Handler → Handler
  | [], h => h
  | i :: is, h => fun ctx req => i ctx req (chainUnaryInterceptors is h)

/-- A chain of stream interceptors around a stream handler, the first outermost. -/
def chainStreamInterceptors : List StreamInterceptor → Option MD → (Unit → List String × Option String) →
    List String × Option String
  | [], _, k => k ()
  | i :: is, md, k => i md fun _ => chainStreamInterceptors is md k

/-- The interceptors a server was built with. -/
structure ServerOptions where
  unaryInts : List Interceptor
  streamInts : List StreamInterceptor

/-- `grpc.NewServer(grpc.ChainUnaryInterceptor(unaryLoggerInterceptor, authUnaryInterceptor(token)))`. -/
def mainOptions (token : String) : ServerOptions :=
  ⟨[unaryLoggerInterceptor, authUnaryInterceptor token], []⟩

/-- A call on the greeter service. -/
inductive Request where
  | sayHello (ctx : Ctx) (name : String)
  | greetManyTimes (md : Option MD) (name : String) (ctxErr sendErr : Nat → Option String)

/-- What the client sees: the unary response, or the messages streamed and the error. -/
inductive Response where
  | unary (r : Except String String)
  | stream (sent : List String) (err : Option String)

/-- The server dispatching a call through its interceptors to the greeter. -/
def serve (opts : ServerOptions) : Request → Response
  | .sayHello ctx name => .unary (chainUnaryInterceptors opts.unaryInts sayHello ctx name)
  | .greetManyTimes md name ctxErr sendErr =>
    let r := chainStreamInterceptors opts.streamInts md fun _ => greetManyTimes name ctxErr sendErr
    .stream r.1 r.2

/-! ## Authorization -/

/-- The check the interceptor stands for: no token is set, or the first `authorization`
    value is `Bearer <token>`. -/
def authorized (token : String) (md : Option MD) : Bool :=
  token = "" || md.any fun m => (m.get "authorization").head? = some ("Bearer " ++ token)

/-- The auth interceptor calls the handler exactly when the call is authorized; otherwise it
    answers `missing metadata` when there is none, and `unauthorized`. -/
theorem authUnaryInterceptor_eq (token : String) (ctx : Ctx) (req : String) (h : Handler) :
    authUnaryInterceptor token ctx req h =
      if authorized token ctx.md then h ctx req
      else .error (if ctx.md = none then "missing metadata" else "unauthorized") := by
  by_cases ht : token = ""
  · simp [authUnaryInterceptor, authorized, ht]
  rcases hmd : ctx.md with _ | md
  · simp [authUnaryInterceptor, authorized, ht, hmd]
  rcases hv : md.get "authorization" with _ | ⟨v, vs⟩
  · simp [authUnaryInterceptor, authorized, ht, hmd, hv]
  · by_cases hve : v = "Bearer " ++ token <;> simp [authUnaryInterceptor, authorized, ht, hmd, hv, hve]

/-- `main`'s unary chain is the auth check: the logger passes everything through. -/
theorem chain_mainOptions (token : String) (h : Handler) (ctx : Ctx) (req : String) :
    chainUnaryInterceptors (mainOptions token).unaryInts h ctx req = authUnaryInterceptor token ctx req h :=
  rfl

/-- A unary call is answered with the greeting exactly when it is authorized and its context
    is not done; an unauthorized one never reaches `SayHello`. -/
theorem serve_sayHello (token : String) (ctx : Ctx) (name : String) :
    serve (mainOptions token) (.sayHello ctx name) =
      .unary (if authorized token ctx.md then sayHello ctx name
        else .error (if ctx.md = none then "missing metadata" else "unauthorized")) ∧
    (serve (mainOptions token) (.sayHello ctx name) = .unary (.ok ("Hello, " ++ name ++ "! 👋")) ↔
      authorized token ctx.md ∧ ctx.err = none) := by
  have hs : serve (mainOptions token) (.sayHello ctx name) =
      .unary (if authorized token ctx.md then sayHello ctx name
        else .error (if ctx.md = none then "missing metadata" else "unauthorized")) := by
    rw [serve, chain_mainOptions, authUnaryInterceptor_eq]
  refine ⟨hs, ?_⟩
  rw [hs]
  by_cases ha : authorized token ctx.md <;> rcases he : ctx.err with _ | e <;> simp [ha, sayHello, he]

/-! ## Streams -/

/-- The stream loop sends the greetings of a run of iterations whose context is not done and
    whose send succeeds, and stops at the first that fails, with its error. -/
theorem greetLoop_spec (name : String) (ctxErr sendErr : Nat → Option String) (n i : Nat) :
    ∃ k ≤ n, (greetLoop name ctxErr sendErr n i).1 = (List.range k).map (fun j => greeting name (i + j)) ∧
      (∀ j < k, ctxErr (i + j) = none ∧ sendErr (i + j) = none) ∧
      (greetLoop name ctxErr sendErr n i).2 = (if k = n then none else (ctxErr (i + k) <|> sendErr (i + k))) ∧
      (k < n → (ctxErr (i + k) <|> sendErr (i + k)).isSome) := by
  induction n generalizing i with
  | zero => exact ⟨0, le_refl 0, rfl, fun j hj => absurd hj (Nat.not_lt_zero j), rfl, fun h => absurd h (Nat.lt_irrefl 0)⟩
  | succ n ih =>
    rcases hc : ctxErr i with _ | e
    · rcases hs : sendErr i with _ | e
      · obtain ⟨k, hk, hsent, hok, herr, hstop⟩ := ih (i + 1)
        refine ⟨k + 1, by omega, ?_, ?_, ?_, ?_⟩
        · simp [greetLoop, hc, hs, hsent, List.range_succ_eq_map, Nat.add_assoc, Nat.add_comm 1]
        · intro j hj
          cases j with
          | zero => exact ⟨hc, hs⟩
          | succ j => simpa [Nat.add_assoc, Nat.add_comm 1] using hok j (by omega)
        · simp [greetLoop, hc, hs, herr, Nat.add_assoc, Nat.add_comm 1]
        · intro hlt
          simpa [Nat.add_assoc, Nat.add_comm 1] using hstop (by omega)
      · exact ⟨0, by omega, by simp [greetLoop, hc, hs], fun j hj => absurd hj (Nat.not_lt_zero j),
          by simp [greetLoop, hc, hs], fun _ => by simp [hc, hs]⟩
    · exact ⟨0, by omega, by simp [greetLoop, hc], fun j hj => absurd hj (Nat.not_lt_zero j),
        by simp [greetLoop, hc], fun _ => by simp [hc]⟩

example :
    greetManyTimes "Rahul" (fun i => if i = 3 then some "context canceled" else none) (fun _ => none) =
      (["[1/5] Hello, Rahul!", "[2/5] Hello, Rahul!"], some "context canceled") := by
  decide

end GoLabs.Grpc

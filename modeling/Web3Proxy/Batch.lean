import Web3Proxy.Forbidden

/-! Batches in `Web3ProxyApp::proxy_web3_rpc`. `proxy_web3_rpc_requests` runs one
`proxy_web3_rpc_request` call per request under `join_all`, which keeps the request order, and then
collects the results with `collected.push(response?)`: the batch is answered only when every call
succeeded, and otherwise the first error is returned in place of the whole batch. -/

namespace Web3Proxy
open Proxy

variable {Response : Type}

/-- `JsonRpcForwardedResponseEnum`. -/
inductive JsonRpcForwardedResponseEnum (Response : Type)
  | single (response : Response)
  | batch (responses : List Response)
  deriving DecidableEq, Repr

/-- A request of `proxy_web3_rpc` by the calls of `proxy_web3_rpc_request` that serve it: one for
`JsonRpcRequestEnum::Single`, one per request, in order, for `JsonRpcRequestEnum::Batch`. -/
inductive RpcCalls
  | single (call : Nat)
  | batch (calls : List Nat)

/-- `collected.push(response?)`. -/
def pushResponse (collected : List Response) (response : Except String Response) :
    Except String (List Response) := do
  let response ← response
  pure (collected ++ [response])

/-- The loop of `proxy_web3_rpc_requests` over what `join_all` returned. -/
def proxyWeb3RpcRequests (responses : List (Except String Response)) :
    Except String (List Response) :=
  responses.foldlM pushResponse []

def Phase.result? : Phase Response → Option (Except String Response)
  | .returned r => some r
  | _ => none

/-- `join_all` over the calls of a batch: ready once every call has returned, with their results
in request order. -/
def joinAll (s : Proxy Response) : List Nat → Option (List (Except String Response))
  | [] => some []
  | i :: is => (s.calls i).phase.result?.bind fun r => (joinAll s is).map (r :: ·)

/-- `proxy_web3_rpc` inside its 60 s deadline: ready when the inner future is, `??` passing the
inner error on. -/
def proxyWeb3Rpc (s : Proxy Response) :
    RpcCalls → Option (Except String (JsonRpcForwardedResponseEnum Response))
  | .single i => (s.calls i).phase.result?.map fun r => r.map .single
  | .batch is => (joinAll s is).map fun rs => (proxyWeb3RpcRequests rs).map .batch

theorem foldlM_pushResponse_ok (xs collected : List Response) :
    (xs.map Except.ok).foldlM pushResponse collected = .ok (collected ++ xs) := by
  induction xs generalizing collected with
  | nil => simp; rfl
  | cons x xs ih =>
    rw [List.map_cons, List.foldlM_cons]
    exact (ih (collected ++ [x])).trans (by simp)

theorem foldlM_pushResponse_error (xs collected : List Response) (e : String)
    (rest : List (Except String Response)) :
    (xs.map Except.ok ++ Except.error e :: rest).foldlM pushResponse collected = .error e := by
  induction xs generalizing collected with
  | nil => rfl
  | cons x xs ih => exact ih (collected ++ [x])

theorem ok_or_first_error :
    ∀ rs : List (Except String Response), (∃ xs : List Response, rs = xs.map Except.ok) ∨
      ∃ (xs : List Response) (e : String) (rest : List (Except String Response)),
        rs = xs.map Except.ok ++ Except.error e :: rest
  | [] => .inl ⟨[], rfl⟩
  | .error e :: rest => .inr ⟨[], e, rest, rfl⟩
  | .ok x :: rest =>
    match ok_or_first_error rest with
    | .inl ⟨xs, h⟩ => .inl ⟨x :: xs, by rw [h]; rfl⟩
    | .inr ⟨xs, e, rest', h⟩ => .inr ⟨x :: xs, e, rest', by rw [h]; rfl⟩

theorem proxyWeb3RpcRequests_eq_ok {rs : List (Except String Response)} {xs : List Response} :
    proxyWeb3RpcRequests rs = .ok xs ↔ rs = xs.map Except.ok := by
  constructor
  · intro h
    rcases ok_or_first_error rs with ⟨ys, rfl⟩ | ⟨ys, e, rest, rfl⟩
    · rw [proxyWeb3RpcRequests, foldlM_pushResponse_ok] at h
      cases h; rfl
    · rw [proxyWeb3RpcRequests, foldlM_pushResponse_error] at h
      cases h
  · rintro rfl
    exact foldlM_pushResponse_ok xs []

theorem result?_eq_some {p : Phase Response} {r : Except String Response} :
    p.result? = some r ↔ p = .returned r := by
  cases p <;> simp [Phase.result?]

theorem joinAll_eq_some {s : Proxy Response} :
    ∀ {is : List Nat} {rs : List (Except String Response)},
      joinAll s is = some rs ↔ List.Forall₂ (fun i r => (s.calls i).phase = .returned r) is rs
  | [], rs => by cases rs <;> simp [joinAll]
  | i :: is, [] => by simp [joinAll, Option.bind_eq_some]
  | i :: is, r :: rs => by
    simp [joinAll, Option.bind_eq_some, result?_eq_some, joinAll_eq_some, List.forall₂_cons]

/-- Once the calls of a batch have returned, `proxy_web3_rpc` answers with a `Batch` exactly when
each call returned a response, which then stands in its request's slot. -/
theorem proxyWeb3Rpc_batch_ok {s : Proxy Response} {is : List Nat} {xs : List Response} :
    proxyWeb3Rpc s (.batch is) = some (.ok (.batch xs)) ↔
      List.Forall₂ (fun i x => (s.calls i).phase = .returned (.ok x)) is xs := by
  have hmap : List.Forall₂ (fun i r => (s.calls i).phase = .returned r) is (xs.map Except.ok) ↔
      List.Forall₂ (fun i x => (s.calls i).phase = .returned (.ok x)) is xs :=
    List.forall₂_map_right_iff
  rw [← hmap, ← joinAll_eq_some]
  simp only [proxyWeb3Rpc, Option.map_eq_some']
  constructor
  · rintro ⟨rs, hrs, h⟩
    cases hq : proxyWeb3RpcRequests rs with
    | error e => rw [hq] at h; cases h
    | ok ys => rw [hq] at h; cases h; rwa [← proxyWeb3RpcRequests_eq_ok.mp hq]
  · exact fun h => ⟨_, h, by rw [proxyWeb3RpcRequests_eq_ok.mpr rfl]; rfl⟩

theorem proxyWeb3Rpc_batch_error {s : Proxy Response} {is rest : List Nat} {xs : List Response}
    {i : Nat} {e : String} {rs : List (Except String Response)}
    (hok : List.Forall₂ (fun i x => (s.calls i).phase = .returned (.ok x)) is xs)
    (hi : (s.calls i).phase = .returned (.error e))
    (hrest : List.Forall₂ (fun i r => (s.calls i).phase = .returned r) rest rs) :
    proxyWeb3Rpc s (.batch (is ++ i :: rest)) = some (.error e) := by
  have hoks : List.Forall₂ (fun i r => (s.calls i).phase = .returned r) is (xs.map Except.ok) :=
    List.forall₂_map_right_iff.mpr hok
  have hcons : List.Forall₂ (fun i r => (s.calls i).phase = .returned r) (i :: rest)
      (.error e :: rs) := .cons hi hrest
  have hj : joinAll s (is ++ i :: rest) = some (xs.map Except.ok ++ Except.error e :: rs) :=
    joinAll_eq_some.mpr (List.rel_append hoks hcons)
  simp only [proxyWeb3Rpc, hj, Option.map_some', proxyWeb3RpcRequests, foldlM_pushResponse_error]
  rfl

def batchRequests (i : Nat) : JsonRpcRequest := if i = 0 then blockNumber else personalSign

def batchRun : List (Event String) :=
  [.run 0, .run 0, .run 0, .answer 0 (.ok "0x10"), .run 0, .run 0, .run 0, .run 1]

/-- A batch of a cached request and a forbidden one: the first call returns its response, the
second fails, and `proxy_web3_rpc` returns the error instead of a `Batch` of two. -/
theorem batch_error_drops_responses :
    ∃ s, run (init 0 batchRequests) batchRun = some s ∧
      (s.calls 0).phase = .returned (.ok "0x10") ∧
      (s.calls 1).phase = .returned (.error "unimplemented") ∧
      proxyWeb3Rpc s (.batch [0, 1]) = some (.error "unimplemented") :=
  ⟨_, rfl, by decide, by decide, @proxyWeb3Rpc_batch_error String _ [0] [] ["0x10"] 1 "unimplemented"
    [] (.cons (by decide) .nil) (by decide) .nil⟩

end Web3Proxy

import Web3Proxy.ResponseCache

/-! `Web3ProxyApp::proxy_web3_rpc_request` as a transition system. Every call is a thread with
its own program counter; the calls share the balanced pool's head hash, `response_cache` and
`incoming_requests`. One step is one access to shared state. The upstream awaits complete by
events of their own, and the 60 s timeout of `proxy_web3_rpc` may drop a call at an await. -/

namespace Web3Proxy

instance instDecidableEqExcept {ε α : Type} [DecidableEq ε] [DecidableEq α] :
    DecidableEq (Except ε α)
  | .ok a, .ok b => if h : a = b then isTrue (h ▸ rfl) else isFalse fun e => h (by cases e; rfl)
  | .error a, .error b => if h : a = b then isTrue (h ▸ rfl) else isFalse fun e => h (by cases e; rfl)
  | .ok _, .error _ => isFalse nofun
  | .error _, .ok _ => isFalse nofun

/-- Where a call of `proxy_web3_rpc_request` is. `key` is its local `cache_key`; `owner` is the
call whose watch receiver it cloned out of `incoming_requests`. -/
inductive Phase (Response : Type)
  | start
  | sendingRaw
  | lookup (key : CacheKey)
  | cacheHit (key : CacheKey) (response : Response)
  | entry (key : CacheKey)
  | waiting (key : CacheKey) (owner : Nat)
  | recheck (key : CacheKey)
  | waitHit (key : CacheKey) (response : Response)
  | dispatching (key : CacheKey)
  | caching (key : CacheKey) (response : Response)
  | removing (key : CacheKey) (response : Response)
  | signalling (key : CacheKey) (response : Response)
  | returned (result : Except String Response)
  | dropped
  deriving DecidableEq, Repr

variable {Response : Type}

/-- The call has returned or was dropped, so its watch sender is gone: `changed()` on a clone of
its receiver no longer waits. -/
def Phase.finished : Phase Response → Bool
  | returned _ | dropped => true
  | _ => false

structure Call (Response : Type) where
  request : JsonRpcRequest
  phase : Phase Response

/-- An upstream send made by a call, with the cache key it was made under. -/
structure Dispatch where
  caller : Nat
  upstream : Upstream
  key : Option CacheKey
  deriving DecidableEq, Repr

/-- The shared state. `dispatched` and `answered` are ghost logs, not fields of the source: every
upstream send made, and every response an upstream send of the cached arm returned. -/
structure Proxy (Response : Type) where
  head : H256
  responseCache : ResponseLrcCache Response
  incomingRequests : CacheKey → Option Nat
  calls : Nat → Call Response
  dispatched : List Dispatch
  answered : List (CacheKey × Response)

namespace Proxy

def setPhase (s : Proxy Response) (i : Nat) (p : Phase Response) : Proxy Response :=
  { s with calls := Function.update s.calls i { s.calls i with phase := p } }

def setIncoming (s : Proxy Response) (key : CacheKey) (v : Option Nat) : Proxy Response :=
  { s with incomingRequests := Function.update s.incomingRequests key v }

def dispatch (s : Proxy Response) (d : Dispatch) : Proxy Response :=
  { s with dispatched := s.dispatched ++ [d] }

variable (s : Proxy Response) (i j : Nat) (p : Phase Response)

@[simp] theorem setPhase_head : (s.setPhase i p).head = s.head := rfl
@[simp] theorem setPhase_responseCache : (s.setPhase i p).responseCache = s.responseCache := rfl
@[simp] theorem setPhase_incomingRequests :
    (s.setPhase i p).incomingRequests = s.incomingRequests := rfl
@[simp] theorem setPhase_answered : (s.setPhase i p).answered = s.answered := rfl
@[simp] theorem setPhase_request : ((s.setPhase i p).calls j).request = (s.calls j).request := by
  by_cases h : j = i
  · subst h; simp [setPhase]
  · simp [setPhase, Function.update_noteq h]
theorem setPhase_phase :
    ((s.setPhase i p).calls j).phase = if j = i then p else (s.calls j).phase := by
  by_cases h : j = i
  · subst h; simp [setPhase]
  · simp [setPhase, Function.update_noteq h, h]
@[simp] theorem setPhase_phase_self : ((s.setPhase i p).calls i).phase = p := by
  simp [setPhase_phase]
theorem setPhase_phase_ne {j : Nat} (h : j ≠ i) : ((s.setPhase i p).calls j).phase = (s.calls j).phase := by
  simp [setPhase_phase, h]

variable (key : CacheKey) (v : Option Nat) (d : Dispatch)

@[simp] theorem setIncoming_calls : (s.setIncoming key v).calls = s.calls := rfl
@[simp] theorem setIncoming_head : (s.setIncoming key v).head = s.head := rfl
@[simp] theorem setIncoming_responseCache :
    (s.setIncoming key v).responseCache = s.responseCache := rfl
@[simp] theorem setIncoming_answered : (s.setIncoming key v).answered = s.answered := rfl
@[simp] theorem setIncoming_incomingRequests :
    (s.setIncoming key v).incomingRequests = Function.update s.incomingRequests key v := rfl

@[simp] theorem dispatch_calls : (s.dispatch d).calls = s.calls := rfl
@[simp] theorem dispatch_head : (s.dispatch d).head = s.head := rfl
@[simp] theorem dispatch_responseCache : (s.dispatch d).responseCache = s.responseCache := rfl
@[simp] theorem dispatch_incomingRequests :
    (s.dispatch d).incomingRequests = s.incomingRequests := rfl
@[simp] theorem dispatch_answered : (s.dispatch d).answered = s.answered := rfl

end Proxy

open Proxy

/-- One synchronous step of call `i` of `proxy_web3_rpc_request`; `none` at an await that has
not completed. -/
def proxyWeb3RpcRequest (s : Proxy Response) (i : Nat) : Option (Proxy Response) :=
  let c := s.calls i
  match c.phase with
  | .start =>
    match route c.request.method with
    | .unimplemented => some (s.setPhase i (.returned (.error "unimplemented")))
    | .sendRawTransaction => some ((s.setPhase i .sendingRaw).dispatch ⟨i, .privateSendAll, none⟩)
    | .cached => some (s.setPhase i (.lookup (cacheKey s.head c.request)))
  | .lookup k =>
    match s.responseCache.get k with
    | some r => some (s.setPhase i (.cacheHit k r))
    | none => some (s.setPhase i (.entry k))
  | .cacheHit k r => some ((s.setIncoming k none).setPhase i (.returned (.ok r)))
  | .entry k =>
    match s.incomingRequests k with
    | some j => some (s.setPhase i (.waiting k j))
    | none => some (((s.setIncoming k (some i)).setPhase i (.dispatching k)).dispatch
        ⟨i, cachedUpstream c.request.method, some k⟩)
  | .waiting k j => if (s.calls j).phase.finished then some (s.setPhase i (.recheck k)) else none
  | .recheck k =>
    match s.responseCache.get k with
    | some r => some (s.setPhase i (.waitHit k r))
    | none => some ((s.setPhase i (.dispatching k)).dispatch
        ⟨i, cachedUpstream c.request.method, some k⟩)
  | .waitHit k r => some ((s.setIncoming k none).setPhase i (.returned (.ok r)))
  | .caching k r =>
    some ({ s with responseCache := cacheWrite s.responseCache k r }.setPhase i (.removing k r))
  | .removing k r => some ((s.setIncoming k none).setPhase i (.signalling k r))
  | .signalling _ r => some (s.setPhase i (.returned (.ok r)))
  | .sendingRaw | .dispatching _ | .returned _ | .dropped => none

/-- The upstream send call `i` awaits completes with `result`. -/
def answer (s : Proxy Response) (i : Nat) (result : Except String Response) :
    Option (Proxy Response) :=
  match (s.calls i).phase, result with
  | .sendingRaw, _ => some (s.setPhase i (.returned result))
  | .dispatching k, .ok r => some { s.setPhase i (.caching k r) with answered := s.answered ++ [(k, r)] }
  | .dispatching _, .error e => some (s.setPhase i (.returned (.error e)))
  | _, _ => none

/-- The timeout of `proxy_web3_rpc` drops call `i`, which must be suspended at an await. -/
def timeout (s : Proxy Response) (i : Nat) : Option (Proxy Response) :=
  match (s.calls i).phase with
  | .sendingRaw | .dispatching _ => some (s.setPhase i .dropped)
  | .waiting _ j => if (s.calls j).phase.finished then none else some (s.setPhase i .dropped)
  | _ => none

inductive Event (Response : Type)
  | run (i : Nat)
  | answer (i : Nat) (result : Except String Response)
  | timeout (i : Nat)
  | newHead (head : H256)

def step (s : Proxy Response) : Event Response → Option (Proxy Response)
  | .run i => proxyWeb3RpcRequest s i
  | .answer i result => answer s i result
  | .timeout i => timeout s i
  | .newHead h => some { s with head := h }

def Event.actor : Event Response → Option Nat
  | .run i | .answer i _ | .timeout i => some i
  | .newHead _ => none

variable {s s' : Proxy Response} {e : Event Response}

theorem step_request (h : step s e = some s') (j : Nat) :
    (s'.calls j).request = (s.calls j).request := by
  cases e <;> simp only [step, proxyWeb3RpcRequest, answer, timeout] at h <;>
    (repeat' split at h) <;> simp only [Option.some.injEq, reduceCtorEq] at h <;> subst h <;> simp

theorem step_phase_ne {j : Nat} (h : step s e = some s') (hj : e.actor ≠ some j) :
    (s'.calls j).phase = (s.calls j).phase := by
  cases e <;> simp only [Event.actor, ne_eq, Option.some.injEq] at hj <;>
    simp only [step, proxyWeb3RpcRequest, answer, timeout] at h <;>
    (repeat' split at h) <;> simp only [Option.some.injEq, reduceCtorEq] at h <;> subst h <;>
    first | rfl | simp [setPhase_phase_ne _ _ _ (Ne.symm hj)]

theorem step_responseCache (h : step s e = some s') :
    s'.responseCache = s.responseCache ∨
      ∃ i k r, e = .run i ∧ (s.calls i).phase = .caching k r ∧
        s'.responseCache = cacheWrite s.responseCache k r := by
  cases e <;> simp only [step, proxyWeb3RpcRequest, answer, timeout] at h <;>
    (repeat' split at h) <;> simp only [Option.some.injEq, reduceCtorEq] at h <;> subst h <;>
    first | exact .inl rfl | exact .inr ⟨_, _, _, rfl, ‹_›, rfl⟩

def run (s : Proxy Response) : List (Event Response) → Option (Proxy Response)
  | [] => some s
  | e :: es => (step s e).bind fun s' => run s' es

/-- Calls `requests i`, none of them started, with empty caches and head hash `head`. -/
def init (head : H256) (requests : Nat → JsonRpcRequest) : Proxy Response where
  head := head
  responseCache := ∅
  incomingRequests := fun _ => none
  calls := fun i => ⟨requests i, .start⟩
  dispatched := []
  answered := []

def Reachable (s : Proxy Response) : Prop :=
  ∃ head requests es, run (init head requests) es = some s

theorem run_cons (s : Proxy Response) (e : Event Response) (es : List (Event Response)) :
    run s (e :: es) = (step s e).bind fun s' => run s' es := rfl

theorem run_invariant {Inv : Proxy Response → Prop} {P : Event Response → Prop}
    (hstep : ∀ s e s', Inv s → P e → step s e = some s' → Inv s') :
    ∀ {s s' : Proxy Response} {es : List (Event Response)}, Inv s → (∀ e ∈ es, P e) →
      run s es = some s' → Inv s'
  | _, _, [], hs, _, h => Option.some.inj h ▸ hs
  | s, _, e :: es, hs, hP, h => by
    rw [run_cons] at h
    obtain ⟨t, ht, h⟩ := Option.bind_eq_some.mp h
    exact run_invariant hstep (hstep s e t hs (hP e (List.mem_cons_self e es)) ht)
      (fun e' he' => hP e' (List.mem_cons_of_mem e he')) h

theorem run_append (s : Proxy Response) (es es' : List (Event Response)) :
    run s (es ++ es') = (run s es).bind fun t => run t es' := by
  induction es generalizing s with
  | nil => rfl
  | cons e es ih => simp only [List.cons_append, run_cons, ih, Option.bind_assoc]

theorem Reachable.run {es : List (Event Response)} (hs : Reachable s) (h : run s es = some s') :
    Reachable s' := by
  obtain ⟨head, requests, es₀, h₀⟩ := hs
  exact ⟨head, requests, es₀ ++ es, by rw [run_append, h₀]; exact h⟩

theorem Reachable.of_invariant {Inv : Proxy Response → Prop}
    (hinit : ∀ head requests, Inv (init head requests))
    (hstep : ∀ s e s', Inv s → step s e = some s' → Inv s') {s : Proxy Response}
    (hs : Reachable s) : Inv s := by
  obtain ⟨head, requests, es, h⟩ := hs
  exact @run_invariant _ Inv (fun _ => True) (fun s e s' hs _ => hstep s e s' hs) _ _ _
    (hinit head requests) (fun _ _ => trivial) h

end Web3Proxy

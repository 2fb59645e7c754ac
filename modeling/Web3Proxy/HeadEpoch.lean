import Web3Proxy.SingleFlight

/-! What a cache read of `proxy_web3_rpc_request` returns. A call builds its `cache_key` once,
from the head hash it reads first, and never rebuilds it, also not after waiting on an in-flight
twin; every response in the cache or held by a call was returned by an upstream send made under
the same key. The head hash may move on in between. -/

namespace Web3Proxy
open Proxy

variable {Response : Type} {s s' : Proxy Response} {i : Nat}

def Phase.key : Phase Response → Option CacheKey
  | .lookup k | .cacheHit k _ | .entry k | .waiting k _ | .recheck k | .waitHit k _
  | .dispatching k | .caching k _ | .removing k _ | .signalling k _ => some k
  | .start | .sendingRaw | .returned _ | .dropped => none

def Phase.held : Phase Response → Option (CacheKey × Response)
  | .cacheHit k r | .waitHit k r | .caching k r | .removing k r | .signalling k r => some (k, r)
  | _ => none

def Justified (s : Proxy Response) : Prop :=
  (∀ e ∈ s.responseCache.entries, e ∈ s.answered) ∧
    ∀ i e, (s.calls i).phase.held = some e → e ∈ s.answered

namespace Justified

theorem setPhase {p : Phase Response} (h : Justified s) (hp : ∀ e, p.held = some e → e ∈ s.answered) :
    Justified (s.setPhase i p) := by
  refine ⟨h.1, fun j e hj => ?_⟩
  rw [setPhase_phase] at hj
  split_ifs at hj
  · exact hp e hj
  · exact h.2 j e hj

theorem setPhase_none {p : Phase Response} (h : Justified s) (hp : p.held = none) :
    Justified (s.setPhase i p) :=
  h.setPhase fun e he => by simp [hp] at he

theorem setIncoming (h : Justified s) (k : CacheKey) (v : Option Nat) :
    Justified (s.setIncoming k v) := h

theorem dispatch (h : Justified s) (d : Dispatch) : Justified (s.dispatch d) := h

theorem answer (h : Justified s) (x : CacheKey × Response) :
    Justified { s with answered := s.answered ++ [x] } :=
  ⟨fun e he => List.mem_append_left _ (h.1 e he),
    fun j e hj => List.mem_append_left _ (h.2 j e hj)⟩

end Justified

theorem justified_init (head : H256) (requests : Nat → JsonRpcRequest) :
    Justified (init head requests : Proxy Response) :=
  ⟨fun _ h => by simp [init] at h, fun _ _ h => nomatch h⟩

theorem justified_step {e : Event Response} (h : Justified s) (hs : step s e = some s') :
    Justified s' := by
  cases e with
  | run i =>
    simp only [step, proxyWeb3RpcRequest] at hs
    split at hs <;> rename_i hp
    · split at hs <;> simp only [Option.some.injEq] at hs <;> subst hs <;>
        exact h.setPhase_none (by rfl)
    · split at hs <;> rename_i hr <;> simp only [Option.some.injEq] at hs <;> subst hs
      · exact h.setPhase fun e he => by
          simp only [Phase.held, Option.some.injEq] at he
          exact he ▸ h.1 _ (LinkedHashMap.mem_of_get hr)
      · exact h.setPhase_none (by rfl)
    · simp only [Option.some.injEq] at hs; subst hs
      exact (h.setIncoming _ _).setPhase_none (by rfl)
    · split at hs <;> simp only [Option.some.injEq] at hs <;> subst hs
      · exact h.setPhase_none (by rfl)
      · exact ((h.setIncoming _ _).setPhase_none (by rfl)).dispatch _
    · split at hs <;> simp only [Option.some.injEq, reduceCtorEq] at hs; subst hs
      exact h.setPhase_none (by rfl)
    · split at hs <;> rename_i hr <;> simp only [Option.some.injEq] at hs <;> subst hs
      · exact h.setPhase fun e he => by
          simp only [Phase.held, Option.some.injEq] at he
          exact he ▸ h.1 _ (LinkedHashMap.mem_of_get hr)
      · exact (h.setPhase_none (by rfl)).dispatch _
    · simp only [Option.some.injEq] at hs; subst hs
      exact (h.setIncoming _ _).setPhase_none (by rfl)
    · -- the written response is the one the call holds
      simp only [Option.some.injEq] at hs; subst hs
      have hk := h.2 i _ (by rw [hp]; rfl)
      refine Justified.setPhase ⟨fun e he => ?_, h.2⟩ fun e he => ?_
      · rcases mem_cacheWrite he with he | rfl
        exacts [h.1 e he, hk]
      · simp only [Phase.held, Option.some.injEq] at he
        exact he ▸ hk
    · simp only [Option.some.injEq] at hs; subst hs
      exact (h.setIncoming _ _).setPhase fun e he => h.2 i e (by rw [hp]; exact he)
    · simp only [Option.some.injEq] at hs; subst hs
      exact h.setPhase_none (by rfl)
    all_goals cases hs
  | answer i result =>
    simp only [step, answer] at hs
    split at hs <;> simp only [Option.some.injEq, reduceCtorEq] at hs <;> subst hs
    · exact h.setPhase_none (by rfl)
    · rename_i k r _
      exact (h.answer (k, r)).setPhase fun e he => by
        simp only [Phase.held, Option.some.injEq] at he
        simp [← he]
    · exact h.setPhase_none (by rfl)
  | timeout i =>
    simp only [step, timeout] at hs
    split at hs <;> (try split at hs) <;> simp only [Option.some.injEq, reduceCtorEq] at hs <;>
      subst hs <;> exact h.setPhase_none (by rfl)
  | newHead hd =>
    obtain rfl := Option.some.inj hs
    exact h

theorem Reachable.justified (hs : Reachable s) : Justified s :=
  hs.of_invariant justified_init fun _ _ _ h hs => justified_step h hs

theorem step_key {e : Event Response} (hs : step s e = some s') (hi : (s.calls i).phase ≠ .start) :
    (s'.calls i).phase ≠ .start ∧
      ∀ k, (s'.calls i).phase.key = some k → (s.calls i).phase.key = some k := by
  by_cases ha : e.actor = some i
  · cases e <;> simp only [Event.actor, Option.some.injEq, reduceCtorEq] at ha <;> subst ha <;>
      simp only [step, proxyWeb3RpcRequest, answer, timeout] at hs <;> (repeat' split at hs) <;>
      simp only [Option.some.injEq, reduceCtorEq] at hs <;> subst hs <;> simp_all [Phase.key]
  · rw [step_phase_ne hs ha]
    exact ⟨hi, fun _ => id⟩

theorem run_key {es : List (Event Response)} (h : run s es = some s')
    (hi : (s.calls i).phase ≠ .start) :
    (s'.calls i).phase ≠ .start ∧
      ∀ k, (s'.calls i).phase.key = some k → (s.calls i).phase.key = some k := by
  induction es generalizing s with
  | nil => obtain rfl := Option.some.inj h; exact ⟨hi, fun _ => id⟩
  | cons e es ih =>
    rw [run_cons] at h
    obtain ⟨t, ht, h⟩ := Option.bind_eq_some.mp h
    have h₁ := step_key ht hi
    have h₂ := ih h h₁.1
    exact ⟨h₂.1, fun k hk => h₁.2 k (h₂.2 k hk)⟩

/-- A call whose first step is taken at head hash `s.head` reads the cache only under
`cacheKey s.head` of its request, before or after waiting, and what it reads there is a response
an upstream send under that same key returned. -/
theorem cache_read_key {es : List (Event Response)} {k : CacheKey} {r : Response}
    (hs : Reachable s) (hstart : (s.calls i).phase = .start)
    (hrun : run s (.run i :: es) = some s')
    (hr : (s'.calls i).phase = .cacheHit k r ∨ (s'.calls i).phase = .waitHit k r) :
    k = cacheKey s.head (s.calls i).request ∧ (k, r) ∈ s'.answered := by
  have hheld : (s'.calls i).phase.held = some (k, r) := by rcases hr with hr | hr <;> rw [hr] <;> rfl
  refine ⟨?_, (hs.run hrun).justified.2 i _ hheld⟩
  rw [run_cons] at hrun
  obtain ⟨t, ht, hrun⟩ := Option.bind_eq_some.mp hrun
  simp only [step, proxyWeb3RpcRequest, hstart] at ht
  have hk : (s'.calls i).phase.key = some k := by rcases hr with hr | hr <;> rw [hr] <;> rfl
  split at ht <;> simp only [Option.some.injEq] at ht <;> subst ht <;>
    have hkey := (@run_key _ _ _ i _ hrun (by simp)).2 k hk <;> simp [Phase.key] at hkey
  exact hkey.symm

def warmRun : List (Event String) :=
  [.run 0, .run 0, .run 0, .answer 0 (.ok "0x10"), .run 0, .run 0, .run 0]

theorem cache_read_key_warm :
    ∃ s s', run (init 0 fun _ => blockNumber) warmRun = some s ∧ (s.calls 1).phase = .start ∧
      run s [.run 1, .run 1] = some s' ∧
      (s'.calls 1).phase = .cacheHit (cacheKey 0 blockNumber) "0x10" ∧
      (cacheKey 0 blockNumber = cacheKey s.head (s.calls 1).request ∧
        (cacheKey 0 blockNumber, "0x10") ∈ s'.answered) :=
  ⟨_, _, rfl, rfl, rfl, rfl,
    @cache_read_key _ _ _ 1 [.run 1] _ _ ⟨0, fun _ => blockNumber, warmRun, rfl⟩ rfl rfl
      (.inl rfl)⟩

def headMovesRun : List (Event String) :=
  [.run 0, .run 0, .run 0, .run 1, .run 1, .run 1, .newHead 1, .answer 0 (.ok "0x10"),
    .run 0, .run 0, .run 0, .run 1, .run 1]

/-- The last step of `headMovesRun` reads the cache while the head hash is 1, under a key whose
head hash is 0, and the next step returns what it read. -/
theorem stale_read_after_head_change :
    ∃ s, run (init 0 fun _ => blockNumber) headMovesRun = some s ∧ s.head = 1 ∧
      (s.calls 1).phase = .waitHit (cacheKey 0 blockNumber) "0x10" ∧
      (proxyWeb3RpcRequest s 1).map (fun t => (t.calls 1).phase) = some (.returned (.ok "0x10")) :=
  ⟨_, rfl, rfl, by decide, by decide⟩

end Web3Proxy

import Web3Proxy.Proxy

/-! The in-flight table of `proxy_web3_rpc_request`. Without failed or dropped sends, every entry
of `incoming_requests` belongs to a call that registered it and has not yet removed it. The
single-flight window is still not exclusive: a waiter that misses the cache after its owner ends
sends upstream without registering, and a call that missed the cache before the owner wrote it
registers again after the owner's removal. -/

namespace Web3Proxy
open Proxy

variable {Response : Type} {s s' : Proxy Response} {i : Nat} {key : CacheKey}

/-- The phases of a call between its insert into `incoming_requests` and its own removal. -/
def OwnerPhase (key : CacheKey) : Phase Response → Prop
  | .dispatching k | .caching k _ | .removing k _ => k = key
  | _ => False

/-- Every entry of `incoming_requests` is the receiver of a call in an owner phase for its key. -/
def InFlightOwned (s : Proxy Response) : Prop :=
  ∀ key j, s.incomingRequests key = some j → OwnerPhase key (s.calls j).phase

/-- The steps that do not fail or drop an upstream send. -/
def Event.benign : Event Response → Bool
  | .answer _ (.error _) | .timeout _ => false
  | _ => true

namespace InFlightOwned

theorem setPhase {p : Phase Response} (h : InFlightOwned s)
    (hi : ∀ key, s.incomingRequests key = some i → OwnerPhase key p) :
    InFlightOwned (s.setPhase i p) := by
  intro key j hj
  rw [setPhase_phase]
  split_ifs with hji
  · subst hji; exact hi key hj
  · exact h key j hj

theorem setPhase_of_not_owner {p : Phase Response} (h : InFlightOwned s)
    (hi : ∀ key, ¬OwnerPhase key (s.calls i).phase) : InFlightOwned (s.setPhase i p) :=
  h.setPhase fun key hk => absurd (h key i hk) (hi key)

theorem clear (h : InFlightOwned s) (k : CacheKey) : InFlightOwned (s.setIncoming k none) := by
  intro key j hj
  by_cases hk : key = k
  · simp [hk] at hj
  · exact h key j (by simpa [hk] using hj)

theorem dispatch (h : InFlightOwned s) (d : Dispatch) : InFlightOwned (s.dispatch d) := h

theorem register (h : InFlightOwned s) (hk : s.incomingRequests key = none)
    (hi : ∀ k, ¬OwnerPhase k (s.calls i).phase) :
    InFlightOwned ((s.setIncoming key (some i)).setPhase i (.dispatching key)) := by
  intro k j hj
  rw [setPhase_phase]
  by_cases hkk : k = key
  · subst hkk
    obtain rfl : i = j := by simpa using hj
    simp [OwnerPhase]
  · have hj : s.incomingRequests k = some j := by simpa [hkk] using hj
    split_ifs with hji
    · exact absurd (hji ▸ h k j hj) (hi k)
    · exact h k j hj

end InFlightOwned

theorem inFlightOwned_init (head : H256) (requests : Nat → JsonRpcRequest) :
    InFlightOwned (init head requests : Proxy Response) := fun _ _ h => nomatch h

theorem inFlightOwned_step {e : Event Response} (h : InFlightOwned s) (he : e.benign)
    (hs : step s e = some s') : InFlightOwned s' := by
  cases e with
  | run i =>
    simp only [step, proxyWeb3RpcRequest] at hs
    split at hs <;> rename_i hp
    · split at hs <;> simp only [Option.some.injEq] at hs <;> subst hs <;>
        exact h.setPhase_of_not_owner (by simp [hp, OwnerPhase])
    · split at hs <;> simp only [Option.some.injEq] at hs <;> subst hs <;>
        exact h.setPhase_of_not_owner (by simp [hp, OwnerPhase])
    · simp only [Option.some.injEq] at hs; subst hs
      exact (h.clear _).setPhase_of_not_owner (by simp [hp, OwnerPhase])
    · split at hs <;> rename_i hk <;> simp only [Option.some.injEq] at hs <;> subst hs
      · exact h.setPhase_of_not_owner (by simp [hp, OwnerPhase])
      · exact (h.register hk (by simp [hp, OwnerPhase])).dispatch _
    · split at hs <;> simp only [Option.some.injEq, reduceCtorEq] at hs; subst hs
      exact h.setPhase_of_not_owner (by simp [hp, OwnerPhase])
    · split at hs <;> simp only [Option.some.injEq] at hs <;> subst hs <;>
        exact h.setPhase_of_not_owner (by simp [hp, OwnerPhase])
    · simp only [Option.some.injEq] at hs; subst hs
      exact (h.clear _).setPhase_of_not_owner (by simp [hp, OwnerPhase])
    · -- the cache write keeps the entry: `caching` and `removing` are both owner phases
      simp only [Option.some.injEq] at hs; subst hs
      rename_i k0 r0
      have h' : InFlightOwned { s with responseCache := cacheWrite s.responseCache k0 r0 } := h
      refine h'.setPhase fun k hk => ?_
      simpa only [hp, OwnerPhase] using h k i hk
    · -- after its removal of `k` the call holds no entry
      simp only [Option.some.injEq] at hs; subst hs
      rename_i k0 _
      refine (h.clear _).setPhase fun k hk => ?_
      have hkk : k ≠ k0 := by rintro rfl; simp at hk
      have := h k i (by simpa [hkk] using hk)
      simp only [hp, OwnerPhase] at this
      exact absurd this.symm hkk
    · simp only [Option.some.injEq] at hs; subst hs
      exact h.setPhase_of_not_owner (by simp [hp, OwnerPhase])
    all_goals cases hs
  | answer i result =>
    simp only [step, answer] at hs
    split at hs <;> rename_i hp <;> simp only [Option.some.injEq, reduceCtorEq] at hs <;> subst hs
    · exact h.setPhase_of_not_owner (by simp [hp, OwnerPhase])
    · show InFlightOwned (s.setPhase i _)
      refine h.setPhase fun k hk => ?_
      simpa only [hp, OwnerPhase] using h k i hk
    · exact absurd he (by simp [Event.benign])
  | timeout i => exact absurd he (by simp [Event.benign])
  | newHead hd =>
    obtain rfl := Option.some.inj hs
    exact h

/-- Along a run in which no upstream send fails and no call is dropped, each entry of
`incoming_requests` belongs to the call that inserted it, still running and holding its watch
sender, from its insert until its own removal of the key. -/
theorem inFlight_owned {head : H256} {requests : Nat → JsonRpcRequest} {es : List (Event Response)}
    (hes : ∀ e ∈ es, e.benign) (hrun : run (init head requests) es = some s) :
    InFlightOwned s :=
  run_invariant (fun _ _ _ h he hs => inFlightOwned_step h he hs) (inFlightOwned_init head requests)
    hes hrun

section Races

def blockNumber : JsonRpcRequest := ⟨"1", "eth_blockNumber", none⟩

def soloRun : List (Event String) :=
  [.run 0, .run 0, .run 0, .answer 0 (.ok "0x10"), .run 0]

theorem inFlight_owned_solo : (∀ e ∈ soloRun, e.benign) ∧
    ∃ s, run (init 0 fun _ => blockNumber) soloRun = some s ∧ InFlightOwned s :=
  ⟨by decide, _, rfl, @inFlight_owned String _ 0 (fun _ => blockNumber) soloRun (by decide) rfl⟩

/-- Right after the cache write of `soloRun`, the entry is still registered by a call that has
written its key. -/
theorem entry_outlives_cache_write :
    ∃ s, run (init 0 fun _ => blockNumber) soloRun = some s ∧
      s.incomingRequests (cacheKey 0 blockNumber) = some 0 ∧
      (s.calls 0).phase = .removing (cacheKey 0 blockNumber) "0x10" ∧
      s.responseCache.get (cacheKey 0 blockNumber) = some "0x10" :=
  ⟨_, rfl, by decide, by decide, by decide⟩

def failedOwnerRun : List (Event String) :=
  [.run 0, .run 0, .run 0, .run 1, .run 1, .run 1, .run 2, .run 2, .run 2,
    .answer 0 (.error "upstream error"), .run 1, .run 1, .run 2, .run 2]

theorem waiters_dispatch_together :
    ∃ s, run (init 0 fun _ => blockNumber) failedOwnerRun = some s ∧
      (s.calls 1).phase = .dispatching (cacheKey 0 blockNumber) ∧
      (s.calls 2).phase = .dispatching (cacheKey 0 blockNumber) :=
  ⟨_, rfl, by decide, by decide⟩

def lateRegistrationRun : List (Event String) :=
  [.run 0, .run 0, .run 1, .run 1, .run 0, .answer 0 (.ok "0x10"), .run 0, .run 0, .run 0,
    .run 1, .answer 1 (.ok "0x11"), .run 1, .run 1, .run 1]

theorem second_upstream_send :
    ∃ s, run (init 0 fun _ => blockNumber) lateRegistrationRun = some s ∧
      s.dispatched = [⟨0, .balancedSendBest, some (cacheKey 0 blockNumber)⟩,
        ⟨1, .balancedSendBest, some (cacheKey 0 blockNumber)⟩] ∧
      (s.calls 0).phase = .returned (.ok "0x10") ∧ (s.calls 1).phase = .returned (.ok "0x11") :=
  ⟨_, rfl, by decide, by decide, by decide⟩

/-- After its upstream send fails through `?`, or after the timeout drops it, the owner of an entry
is gone and its sender dropped, while the entry it inserted stays in `incoming_requests`
(app.rs 745, 751, and the removal at 767 that is never reached). -/
theorem finished_owner_keeps_entry :
    (∃ s : Proxy String, run (init 0 fun _ => blockNumber)
        [.run 0, .run 0, .run 0, .answer 0 (.error "upstream error")] = some s ∧
      s.incomingRequests (cacheKey 0 blockNumber) = some 0 ∧
      (s.calls 0).phase = .returned (.error "upstream error")) ∧
    ∃ s : Proxy String, run (init 0 fun _ => blockNumber) [.run 0, .run 0, .run 0, .timeout 0] = some s ∧
      s.incomingRequests (cacheKey 0 blockNumber) = some 0 ∧ (s.calls 0).phase = .dropped :=
  ⟨⟨_, rfl, by decide, by decide⟩, _, rfl, by decide, by decide⟩

def reregisteredRun : List (Event String) := lateRegistrationRun.take 10

def waiterAfterReregistrationRun : List (Event String) :=
  [.run 0, .run 0, .run 1, .run 1, .run 0, .run 2, .run 2, .run 2, .answer 0 (.ok "0x10"), .run 0,
    .run 0, .run 0, .run 1, .run 2, .run 2]

/-- The removal of a cache hit (app.rs 693) and of a waiter's hit after its wait (app.rs 721) takes
out whatever entry the key has, also the one another call inserted and still owns. -/
theorem hit_removes_other_entry :
    (∃ s s', run (init 0 fun _ => blockNumber) (reregisteredRun ++ [.run 2, .run 2]) = some s ∧
      s.incomingRequests (cacheKey 0 blockNumber) = some 1 ∧
      (s.calls 2).phase = .cacheHit (cacheKey 0 blockNumber) "0x10" ∧
      step s (.run 2) = some s' ∧ s'.incomingRequests (cacheKey 0 blockNumber) = none ∧
      (s'.calls 1).phase = .dispatching (cacheKey 0 blockNumber)) ∧
    ∃ s s', run (init 0 fun _ => blockNumber) waiterAfterReregistrationRun = some s ∧
      s.incomingRequests (cacheKey 0 blockNumber) = some 1 ∧
      (s.calls 2).phase = .waitHit (cacheKey 0 blockNumber) "0x10" ∧
      step s (.run 2) = some s' ∧ s'.incomingRequests (cacheKey 0 blockNumber) = none ∧
      (s'.calls 1).phase = .dispatching (cacheKey 0 blockNumber) :=
  ⟨⟨_, _, rfl, by decide, by decide, rfl, by decide, by decide⟩,
    _, _, rfl, by decide, by decide, rfl, by decide, by decide⟩

end Races

end Web3Proxy

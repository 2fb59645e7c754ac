import Web3Proxy.SingleFlight

/-! The size of `response_cache`. Every write of `proxy_web3_rpc_request` inserts and then pops
the front once the length reaches `RESPONSE_CACHE_CAP`, so over every interleaving the cache holds
at most `RESPONSE_CACHE_CAP - 1` entries, and a write never evicts the key it has just written. -/

namespace Web3Proxy
open Proxy

variable {Response : Type} {s s' : Proxy Response}

def CacheBounded (s : Proxy Response) : Prop := s.responseCache.len ≤ responseCacheCap - 1

theorem cacheBounded_step {e : Event Response} (h : CacheBounded s) (hs : step s e = some s') :
    CacheBounded s' := by
  rcases step_responseCache hs with hc | ⟨_, k, r, -, -, hc⟩
  · rwa [CacheBounded, hc]
  · rw [CacheBounded, hc]
    exact len_cacheWrite_le k r h

theorem Reachable.cacheBounded (hs : Reachable s) : CacheBounded s :=
  hs.of_invariant (fun _ _ => Nat.zero_le _) fun _ _ _ h hs => cacheBounded_step h hs

/-- In every reachable state the cache holds at most `RESPONSE_CACHE_CAP - 1` entries, and the
cache-writing step of a call can be taken: afterwards the key it wrote maps to its response, the
write added no entry but its own, and it removed no entry of another key but the front one. -/
theorem response_cache_bounded (hs : Reachable s) :
    s.responseCache.len ≤ responseCacheCap - 1 ∧
      ∀ i k r, (s.calls i).phase = .caching k r →
        ∃ s', step s (.run i) = some s' ∧ s'.responseCache.get k = some r ∧
          (∀ e ∈ s'.responseCache.entries, e ∈ s.responseCache.entries ∨ e = (k, r)) ∧
          ∀ e ∈ s.responseCache.entries.tail, e.1 ≠ k → e ∈ s'.responseCache.entries := by
  have hb := hs.cacheBounded
  refine ⟨hb, fun i k r hi => ?_⟩
  have hw : step s (.run i) =
      some ({ s with responseCache := cacheWrite s.responseCache k r }.setPhase i (.removing k r)) := by
    simp only [step, proxyWeb3RpcRequest, hi]
  exact ⟨_, hw, get_cacheWrite_self k r hb, fun _ => mem_cacheWrite,
    fun _ => mem_cacheWrite_of_mem_tail⟩

def soloAnsweredRun : List (Event String) := [.run 0, .run 0, .run 0, .answer 0 (.ok "0x10")]

theorem response_cache_bounded_solo :
    ∃ s, run (init 0 fun _ => blockNumber) soloAnsweredRun = some s ∧
      (s.calls 0).phase = .caching (cacheKey 0 blockNumber) "0x10" ∧
      (s.responseCache.len ≤ responseCacheCap - 1 ∧
        ∀ i k r, (s.calls i).phase = .caching k r →
          ∃ s', step s (.run i) = some s' ∧ s'.responseCache.get k = some r ∧
            (∀ e ∈ s'.responseCache.entries, e ∈ s.responseCache.entries ∨ e = (k, r)) ∧
            ∀ e ∈ s.responseCache.entries.tail, e.1 ≠ k → e ∈ s'.responseCache.entries) :=
  ⟨_, rfl, rfl, response_cache_bounded ⟨0, fun _ => blockNumber, soloAnsweredRun, rfl⟩⟩

end Web3Proxy

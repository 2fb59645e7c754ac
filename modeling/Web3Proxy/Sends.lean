import Web3Proxy.HeadEpoch
import Web3Proxy.Progress

/-! What each call of `proxy_web3_rpc_request` sends upstream and what it returns. The method
`match` picks the arm once; the cached arm builds its key once from the request and the head hash,
and every later await uses it. So a call sends at most once, to the upstream its method selects,
and every response a call of the cached arm returns was answered under its own method and params. -/

namespace Web3Proxy
open Proxy

variable {Response : Type} {s s' : Proxy Response} {e : Event Response} {i : Nat}

theorem step_logs (h : step s e = some s') :
    (s'.dispatched = s.dispatched ∧ s'.answered = s.answered) ∨
    (∃ i, e = .run i ∧ (s.calls i).phase = .start ∧
      route (s.calls i).request.method = .sendRawTransaction ∧ (s'.calls i).phase = .sendingRaw ∧
      s'.dispatched = s.dispatched ++ [⟨i, .privateSendAll, none⟩] ∧ s'.answered = s.answered) ∨
    (∃ i k, e = .run i ∧ ((s.calls i).phase = .entry k ∨ (s.calls i).phase = .recheck k) ∧
      (s'.calls i).phase = .dispatching k ∧ s'.dispatched = s.dispatched ++ [⟨i, cachedUpstream (s.calls i).request.method, some k⟩] ∧
      s'.answered = s.answered) ∨
    (∃ i k r, e = .answer i (.ok r) ∧ (s.calls i).phase = .dispatching k ∧
      s'.dispatched = s.dispatched ∧ s'.answered = s.answered ++ [(k, r)]) := by
  cases e <;> simp only [step, proxyWeb3RpcRequest, answer, timeout] at h <;>
    (repeat' split at h) <;> simp only [Option.some.injEq, reduceCtorEq] at h <;> subst h <;>
    first
    | exact .inl ⟨rfl, rfl⟩
    | exact .inr (.inl ⟨_, rfl, ‹_›, ‹_›, by simp, rfl, rfl⟩)
    | exact .inr (.inr (.inl ⟨_, _, rfl, .inl ‹_›, by simp, rfl, rfl⟩))
    | exact .inr (.inr (.inl ⟨_, _, rfl, .inr ‹_›, by simp, rfl, rfl⟩))
    | exact .inr (.inr (.inr ⟨_, _, _, rfl, ‹_›, rfl, rfl⟩))

theorem step_start (h : step s e = some s') (ha : e.actor = some i)
    (hp : (s.calls i).phase = .start) :
    (route (s.calls i).request.method = .unimplemented ∧
        (s'.calls i).phase = .returned (.error "unimplemented")) ∨
      (route (s.calls i).request.method = .sendRawTransaction ∧ (s'.calls i).phase = .sendingRaw) ∨
      (route (s.calls i).request.method = .cached ∧
        (s'.calls i).phase = .lookup (cacheKey s.head (s.calls i).request)) := by
  cases e <;> simp only [Event.actor, Option.some.injEq, reduceCtorEq] at ha <;> subst ha <;>
    simp only [step, proxyWeb3RpcRequest, answer, timeout, hp] at h
  · split at h <;> obtain rfl := Option.some.inj h
    · exact .inl ⟨‹_›, by simp⟩
    · exact .inr (.inl ⟨‹_›, by simp⟩)
    · exact .inr (.inr ⟨‹_›, by simp⟩)
  all_goals cases h

theorem answered_mono (hs : step s e = some s') {x : CacheKey × Response} (hx : x ∈ s.answered) :
    x ∈ s'.answered := by
  rcases step_logs hs with ⟨-, ha⟩ | ⟨_, _, _, _, _, _, ha⟩ | ⟨_, _, _, _, _, _, ha⟩ |
    ⟨_, _, _, _, _, _, ha⟩ <;> rw [ha]
  exacts [hx, hx, hx, List.mem_append_left _ hx]

def Phase.PreSend : Phase Response → Prop
  | .start | .lookup _ | .cacheHit _ _ | .entry _ | .waiting _ _ | .recheck _ | .waitHit _ _ => True
  | _ => False

theorem Phase.Next.preSend {p q : Phase Response} (h : p.Next q) (hq : q.PreSend) : p.PreSend := by
  cases h <;> simp_all [Phase.PreSend]

structure CallRoute (s : Proxy Response) (i : Nat) : Prop where
  key : ∀ k, (s.calls i).phase.key = some k →
    route (s.calls i).request.method = .cached ∧ ∃ h, k = cacheKey h (s.calls i).request
  raw : (s.calls i).phase = .sendingRaw → route (s.calls i).request.method = .sendRawTransaction

theorem CallRoute.congr (h : CallRoute s i) (hp : (s'.calls i).phase = (s.calls i).phase)
    (hq : (s'.calls i).request = (s.calls i).request) : CallRoute s' i :=
  ⟨fun k hk => hq ▸ h.key k (hp ▸ hk), fun hr => hq ▸ h.raw (hp ▸ hr)⟩

theorem Phase.Next.eq_start {p : Phase Response} (h : p.Next .sendingRaw) : p = .start := by
  cases h; rfl

theorem CallRoute.step (h : CallRoute s i) (hs : step s e = some s') : CallRoute s' i := by
  have hreq := step_request hs i
  by_cases ha : e.actor = some i
  · by_cases hp : (s.calls i).phase = .start
    · rcases step_start hs ha hp with ⟨-, hq⟩ | ⟨hr, hq⟩ | ⟨hr, hq⟩
      · exact ⟨fun _ hk => (by rw [hq] at hk; cases hk), fun hraw => (by rw [hq] at hraw; cases hraw)⟩
      · exact ⟨fun _ hk => (by rw [hq] at hk; cases hk), fun _ => hreq ▸ hr⟩
      · refine ⟨fun _ hk => ?_, fun hraw => (by rw [hq] at hraw; cases hraw)⟩
        rw [hq] at hk
        cases hk
        rw [hreq]
        exact ⟨hr, _, rfl⟩
    · refine ⟨fun k hq => hreq ▸ h.key k ((step_key hs hp).2 k hq), fun hq => ?_⟩
      have hn := step_next hs ha
      rw [hq] at hn
      exact absurd hn.eq_start hp
  · exact h.congr (step_phase_ne hs ha) hreq

def Proxy.sendsOf (s : Proxy Response) (i : Nat) : List Dispatch :=
  s.dispatched.filter fun d => d.caller = i

/-- The send the code makes for a request: to every private relay for `eth_sendRawTransaction`,
and otherwise to the pool `cachedUpstream` picks, under a key built from the request. -/
def ProperSend (request : JsonRpcRequest) (d : Dispatch) : Prop :=
  (route request.method = .sendRawTransaction ∧ d.upstream = .privateSendAll ∧ d.key = none) ∨
    (route request.method = .cached ∧ d.upstream = cachedUpstream request.method ∧
      ∃ h, d.key = some (cacheKey h request))

structure CallSends (s : Proxy Response) (i : Nat) : Prop where
  unsent : (s.calls i).phase.PreSend → s.sendsOf i = []
  once : (s.sendsOf i).length ≤ 1
  proper : ∀ d ∈ s.sendsOf i, ProperSend (s.calls i).request d

theorem sendsOf_append (s : Proxy Response) (d : Dispatch) (i : Nat) :
    (s.dispatched ++ [d]).filter (fun d => d.caller = i) =
      s.sendsOf i ++ if d.caller = i then [d] else [] := by
  by_cases h : d.caller = i <;> simp [Proxy.sendsOf, List.filter_append, h]

theorem CallSends.of_sendsOf (h : CallSends s i) (hs : step s e = some s')
    (hsends : s'.sendsOf i = s.sendsOf i) : CallSends s' i := by
  refine ⟨fun hq => hsends ▸ h.unsent ?_, hsends ▸ h.once,
    fun d hd => step_request hs i ▸ h.proper d (hsends ▸ hd)⟩
  by_cases ha : e.actor = some i
  · exact (step_next hs ha).preSend hq
  · rwa [step_phase_ne hs ha] at hq

theorem CallSends.send {j : Nat} {d : Dispatch} (h : CallSends s i) (hs : step s e = some s')
    (hd : s'.dispatched = s.dispatched ++ [d]) (hc : d.caller = j) (hp : (s.calls j).phase.PreSend)
    (hq : ¬(s'.calls j).phase.PreSend) (hproper : j = i → ProperSend (s.calls j).request d) :
    CallSends s' i := by
  by_cases hji : j = i
  · subst hji
    have hsends : s'.sendsOf j = [d] := by
      rw [Proxy.sendsOf, hd, sendsOf_append, h.unsent hp]; simp [hc]
    refine ⟨fun hq' => absurd hq' hq, by simp [hsends], fun d' hd' => ?_⟩
    rw [hsends, List.mem_singleton] at hd'
    rw [hd', step_request hs j]
    exact hproper rfl
  · exact h.of_sendsOf hs (by rw [Proxy.sendsOf, hd, sendsOf_append]; simp [hc, hji])

theorem CallSends.step (h : CallSends s i) (hr : CallRoute s i) (hs : step s e = some s') :
    CallSends s' i := by
  rcases step_logs hs with ⟨hd, -⟩ | ⟨j, rfl, hp, hrj, hq, hd, -⟩ | ⟨j, k, rfl, hp, hq, hd, -⟩ |
    ⟨j, k, r, rfl, -, hd, -⟩
  · exact h.of_sendsOf hs (by rw [Proxy.sendsOf, hd]; rfl)
  · -- the first step of `eth_sendRawTransaction`
    exact h.send hs hd rfl (by rw [hp]; trivial) (by rw [hq]; nofun) fun _ => .inl ⟨hrj, rfl, rfl⟩
  · -- the send of the cached arm, after the in-flight check or the recheck
    have hkey : (s.calls j).phase.key = some k := by rcases hp with hp | hp <;> rw [hp] <;> rfl
    refine h.send hs hd rfl (by rcases hp with hp | hp <;> rw [hp] <;> trivial) (by rw [hq]; nofun)
      fun hji => ?_
    subst hji
    obtain ⟨hc, h', hk⟩ := hr.key k hkey
    exact .inr ⟨hc, rfl, h', by rw [hk]⟩
  · exact h.of_sendsOf hs (by rw [Proxy.sendsOf, hd]; rfl)

def CallAnswers (s : Proxy Response) (i : Nat) : Prop :=
  route (s.calls i).request.method = .cached → ∀ r, (s.calls i).phase = .returned (.ok r) →
    ∃ h, (cacheKey h (s.calls i).request, r) ∈ s.answered

theorem CallAnswers.step (h : CallAnswers s i) (hr : CallRoute s i) (hj : Justified s)
    (hs : step s e = some s') : CallAnswers s' i := by
  intro hc r hret
  have hreq := step_request hs i
  rw [hreq] at hc ⊢
  by_cases ha : e.actor = some i
  · -- the call returns what it holds: a cache read, or its own send's answer
    have hn := step_next hs ha
    rw [hret] at hn
    generalize hp : (s.calls i).phase = p at hn
    have hheld : ∀ k, p.held = some (k, r) → p.key = some k →
        ∃ h, (cacheKey h (s.calls i).request, r) ∈ s'.answered := by
      intro k hh hk
      subst hp
      obtain ⟨h', hk'⟩ := (hr.key k hk).2
      exact ⟨h', hk' ▸ answered_mono hs (hj.2 i _ hh)⟩
    cases hn with
    | hitReturn k => exact hheld k rfl rfl
    | waitHitReturn k => exact hheld k rfl rfl
    | signal k => exact hheld k rfl rfl
    | rawAnswer => rw [hr.raw hp] at hc; cases hc
  · rw [step_phase_ne hs ha] at hret
    obtain ⟨h', hm⟩ := h hc r hret
    exact ⟨h', answered_mono hs hm⟩

def CallsLogged (s : Proxy Response) : Prop :=
  Justified s ∧ ∀ i, CallRoute s i ∧ CallSends s i ∧ CallAnswers s i

theorem callsLogged_init (head : H256) (requests : Nat → JsonRpcRequest) :
    CallsLogged (init head requests : Proxy Response) :=
  ⟨justified_init head requests, fun _ =>
    ⟨⟨fun _ h => (nomatch h), nofun⟩, ⟨fun _ => rfl, Nat.zero_le 1, fun _ h => (nomatch h)⟩,
      fun _ _ h => (nomatch h)⟩⟩

theorem CallsLogged.step (h : CallsLogged s) (hs : step s e = some s') : CallsLogged s' :=
  ⟨justified_step h.1 hs, fun i =>
    ⟨(h.2 i).1.step hs, (h.2 i).2.1.step (h.2 i).1 hs, (h.2 i).2.2.step (h.2 i).1 h.1 hs⟩⟩

theorem Reachable.callsLogged (hs : Reachable s) : CallsLogged s :=
  hs.of_invariant callsLogged_init fun _ _ _ h hs => h.step hs

/-- In every reachable state each call has made at most one upstream send, and it is the send its
request asks for: to every private relay for `eth_sendRawTransaction`, and otherwise to the pool
`cachedUpstream` picks, under a key built from the request and a head hash. -/
theorem upstream_sends (hs : Reachable s) (i : Nat) :
    (s.dispatched.filter fun d => d.caller = i).length ≤ 1 ∧
      ∀ d ∈ s.dispatched, d.caller = i → ProperSend (s.calls i).request d :=
  have h := (hs.callsLogged.2 i).2.1
  ⟨h.once, fun d hd hc => h.proper d (List.mem_filter.mpr ⟨hd, decide_eq_true hc⟩)⟩

theorem upstream_sends_longest :
    ∃ s, run (init 0 fun _ => blockNumber) longestRun = some s ∧ s.dispatched.length = 2 ∧
      ((s.dispatched.filter fun d => d.caller = 1).length ≤ 1 ∧
        ∀ d ∈ s.dispatched, d.caller = 1 → ProperSend (s.calls 1).request d) :=
  ⟨_, rfl, rfl, upstream_sends ⟨0, fun _ => blockNumber, longestRun, rfl⟩ 1⟩

/-- In every reachable state, a call of the cached arm that has returned a response returns one
that an upstream send answered under a cache key with the call's own method and params text and
some head hash, whether it read it from the cache, after a wait, or from its own send. The
response is the stored one, with the JSON-RPC id of the request that produced it, which the model
leaves opaque. -/
theorem cached_responses_own (hs : Reachable s) {i : Nat} {r : Response}
    (hc : route (s.calls i).request.method = .cached) (hr : (s.calls i).phase = .returned (.ok r)) :
    ∃ h, (cacheKey h (s.calls i).request, r) ∈ s.answered :=
  (hs.callsLogged.2 i).2.2 hc r hr

theorem cached_responses_own_longest :
    ∃ s, run (init 0 fun _ => blockNumber) longestRun = some s ∧
      route (s.calls 1).request.method = .cached ∧ (s.calls 1).phase = .returned (.ok "0x10") ∧
      ∃ h, (cacheKey h (s.calls 1).request, "0x10") ∈ s.answered :=
  ⟨_, rfl, by decide, rfl, cached_responses_own ⟨0, fun _ => blockNumber, longestRun, rfl⟩
    (by decide) rfl⟩

end Web3Proxy

import Web3Proxy.SingleFlight

/-! Progress of `proxy_web3_rpc_request`. The phases of a call form an acyclic graph, which the
step function refines, so a call takes at most nine steps of its own. A call that finds its key in
flight waits on the call that inserted the entry, and that call never waits itself: from its
insert on it awaits only its own upstream send. So the single-flight waits never deadlock: from
every reachable state, whatever the upstream sends return, a schedule without the timeout brings
every call that was not dropped to its return. -/

namespace Web3Proxy
open Proxy

variable {Response : Type} {s s' : Proxy Response} {e : Event Response} {i j : Nat}

/-- The control flow of `proxy_web3_rpc_request`: the phases a call can move to in one step of
its own. -/
inductive Phase.Next : Phase Response → Phase Response → Prop
  | unimplemented : Phase.Next .start (.returned (.error "unimplemented"))
  | sendRaw : Phase.Next .start .sendingRaw
  | lookup (k : CacheKey) : Phase.Next .start (.lookup k)
  | hit (k : CacheKey) (r : Response) : Phase.Next (.lookup k) (.cacheHit k r)
  | miss (k : CacheKey) : Phase.Next (.lookup k) (.entry k)
  | hitReturn (k : CacheKey) (r : Response) : Phase.Next (.cacheHit k r) (.returned (.ok r))
  | wait (k : CacheKey) (j : Nat) : Phase.Next (.entry k) (.waiting k j)
  | register (k : CacheKey) : Phase.Next (.entry k) (.dispatching k)
  | wake (k : CacheKey) (j : Nat) : Phase.Next (.waiting k j) (.recheck k)
  | waitHit (k : CacheKey) (r : Response) : Phase.Next (.recheck k) (.waitHit k r)
  | resend (k : CacheKey) : Phase.Next (.recheck k) (.dispatching k)
  | waitHitReturn (k : CacheKey) (r : Response) : Phase.Next (.waitHit k r) (.returned (.ok r))
  | rawAnswer (result : Except String Response) : Phase.Next .sendingRaw (.returned result)
  | answered (k : CacheKey) (r : Response) : Phase.Next (.dispatching k) (.caching k r)
  | failed (k : CacheKey) (e : String) : Phase.Next (.dispatching k) (.returned (.error e))
  | write (k : CacheKey) (r : Response) : Phase.Next (.caching k r) (.removing k r)
  | remove (k : CacheKey) (r : Response) : Phase.Next (.removing k r) (.signalling k r)
  | signal (k : CacheKey) (r : Response) : Phase.Next (.signalling k r) (.returned (.ok r))
  | rawDropped : Phase.Next .sendingRaw .dropped
  | dropped (k : CacheKey) : Phase.Next (.dispatching k) .dropped
  | waitDropped (k : CacheKey) (j : Nat) : Phase.Next (.waiting k j) .dropped

def Phase.rank : Phase Response → Nat
  | .start => 9
  | .lookup _ => 8
  | .entry _ => 7
  | .waiting _ _ => 6
  | .recheck _ => 5
  | .dispatching _ => 4
  | .caching _ _ => 3
  | .removing _ _ => 2
  | .signalling _ _ | .cacheHit _ _ | .waitHit _ _ | .sendingRaw => 1
  | .returned _ | .dropped => 0

theorem Phase.Next.rank_lt {p q : Phase Response} (h : p.Next q) : q.rank < p.rank := by
  cases h <;> simp [Phase.rank]

theorem step_next (h : step s e = some s') (hj : e.actor = some j) :
    (s.calls j).phase.Next (s'.calls j).phase := by
  cases e <;> simp only [Event.actor, Option.some.injEq, reduceCtorEq] at hj <;> subst hj <;>
    simp only [step, proxyWeb3RpcRequest, answer, timeout] at h <;> (repeat' split at h) <;>
    simp only [Option.some.injEq, reduceCtorEq] at h <;> subst h <;>
    simp only [dispatch_calls, setIncoming_calls, setPhase_phase_self, *] <;> constructor

theorem Phase.Next.finished {p q : Phase Response} (h : p.Next q) : p.finished = false := by
  cases h <;> rfl

theorem step_incoming {k : CacheKey} (h : step s e = some s') (hk : s'.incomingRequests k = some j) :
    s.incomingRequests k = some j ∨ e.actor = some j ∧ (s'.calls j).phase = .dispatching k := by
  cases e <;> simp only [step, proxyWeb3RpcRequest, answer, timeout] at h <;>
    (repeat' split at h) <;> simp only [Option.some.injEq, reduceCtorEq] at h <;> subst h <;>
    simp only [setPhase_incomingRequests, setIncoming_incomingRequests, dispatch_incomingRequests,
      Function.update_apply] at hk <;>
    (try split_ifs at hk with hkk) <;>
    first
    | exact .inl hk
    | (cases hk; cases hkk; exact .inr ⟨rfl, by simp⟩)

theorem step_waiting {k : CacheKey} (h : step s e = some s') (hi : (s'.calls i).phase = .waiting k j) :
    (s.calls i).phase = .waiting k j ∨
      (s.calls i).phase = .entry k ∧ s.incomingRequests k = some j ∧ s' = s.setPhase i (.waiting k j) := by
  by_cases ha : e.actor = some i
  · cases e <;> simp only [Event.actor, Option.some.injEq, reduceCtorEq] at ha <;> subst ha <;>
      simp only [step, proxyWeb3RpcRequest, answer, timeout] at h <;> (repeat' split at h) <;>
      simp only [Option.some.injEq, reduceCtorEq] at h <;> subst h <;>
      simp only [dispatch_calls, setIncoming_calls, setPhase_phase_self, reduceCtorEq,
        Phase.waiting.injEq] at hi
    obtain ⟨rfl, rfl⟩ := hi
    exact .inr ⟨‹_›, ‹_›, rfl⟩
  · exact .inl (step_phase_ne h ha ▸ hi)

def Phase.Registered (k : CacheKey) : Phase Response → Prop
  | .dispatching k' | .caching k' _ | .removing k' _ | .signalling k' _ => k' = k
  | .returned _ | .dropped => True
  | _ => False

theorem Phase.Registered.next {k : CacheKey} {p q : Phase Response} (hp : p.Registered k)
    (h : p.Next q) : q.Registered k := by
  cases h <;> simp_all [Phase.Registered]

theorem step_registered {k : CacheKey} (h : step s e = some s')
    (hj : (s.calls j).phase.Registered k) : (s'.calls j).phase.Registered k := by
  by_cases ha : e.actor = some j
  · exact hj.next (step_next h ha)
  · rwa [step_phase_ne h ha]

structure WaitsRegistered (s : Proxy Response) : Prop where
  incoming : ∀ k j, s.incomingRequests k = some j → (s.calls j).phase.Registered k
  waiting : ∀ i k j, (s.calls i).phase = .waiting k j → (s.calls j).phase.Registered k

theorem waitsRegistered_init (head : H256) (requests : Nat → JsonRpcRequest) :
    WaitsRegistered (init head requests : Proxy Response) :=
  ⟨fun _ _ h => (nomatch h), fun _ _ _ h => (nomatch h)⟩

theorem WaitsRegistered.step (h : WaitsRegistered s) (hs : step s e = some s') :
    WaitsRegistered s' := by
  refine ⟨fun k j hk => ?_, fun i k j hi => ?_⟩
  · rcases step_incoming hs hk with hk | ⟨-, hp⟩
    · exact step_registered hs (h.incoming k j hk)
    · rw [hp]; rfl
  · rcases step_waiting hs hi with hi | ⟨hentry, hk, rfl⟩
    · exact step_registered hs (h.waiting i k j hi)
    · have hreg := h.incoming k j hk
      have hji : j ≠ i := by rintro rfl; rw [hentry] at hreg; exact hreg
      rwa [setPhase_phase_ne _ _ _ hji]

theorem WaitsRegistered.run {es : List (Event Response)} (h : WaitsRegistered s)
    (hrun : run s es = some s') : WaitsRegistered s' :=
  @run_invariant _ WaitsRegistered (fun _ => True) (fun _ _ _ h _ hs => h.step hs) _ _ _ h
    (fun _ _ => trivial) hrun

theorem run_phase_ne {es : List (Event Response)} (h : run s es = some s')
    (hes : ∀ e ∈ es, e.actor ≠ some i) : (s'.calls i).phase = (s.calls i).phase :=
  @run_invariant _ (fun t => (t.calls i).phase = (s.calls i).phase) (fun e => e.actor ≠ some i)
    (fun _ _ _ ht ha hs => (step_phase_ne hs ha).trans ht) _ _ _ rfl hes h

theorem run_finished {es : List (Event Response)} (h : run s es = some s')
    (hf : (s.calls i).phase.finished) : (s'.calls i).phase = (s.calls i).phase :=
  @run_invariant _ (fun t => (t.calls i).phase = (s.calls i).phase) (fun _ => True)
    (fun _ _ _ ht _ hs => (step_phase_ne hs fun ha => by
      simpa [ht, hf] using (step_next hs ha).finished).trans ht) _ _ _ rfl (fun _ _ => trivial) h

theorem run_rank {es : List (Event Response)} (h : run s es = some s') (i : Nat) :
    (es.filter fun e => e.actor = some i).length + (s'.calls i).phase.rank ≤
      (s.calls i).phase.rank := by
  induction es generalizing s with
  | nil => obtain rfl := Option.some.inj h; simp
  | cons e es ih =>
    rw [run_cons] at h
    obtain ⟨t, ht, h⟩ := Option.bind_eq_some.mp h
    have hrest := ih h
    by_cases ha : e.actor = some i
    · have hlt := (step_next ht ha).rank_lt
      simp only [List.filter_cons, ha, decide_True, ite_true, List.length_cons]
      omega
    · rw [step_phase_ne ht ha] at hrest
      simpa [List.filter_cons, ha] using hrest

/-- In every run, each call takes at most nine steps of its own: the handler has no loop, and a
waiter checks the cache once more and then sends rather than wait again. -/
theorem own_steps_le {head : H256} {requests : Nat → JsonRpcRequest} {es : List (Event Response)}
    (h : run (init head requests) es = some s) (i : Nat) :
    (es.filter fun e => e.actor = some i).length ≤ 9 :=
  Nat.le_trans (Nat.le_add_right _ _) (run_rank h i)

def longestRun : List (Event String) :=
  [.run 0, .run 0, .run 0, .run 1, .run 1, .run 1, .answer 0 (.error "upstream"), .run 1, .run 1,
    .answer 1 (.ok "0x10"), .run 1, .run 1, .run 1]

theorem own_steps_le_longest :
    ∃ s, run (init 0 fun _ => blockNumber) longestRun = some s ∧
      (s.calls 1).phase = .returned (.ok "0x10") ∧
      (longestRun.filter fun e => e.actor = some 1).length = 9 ∧
      (longestRun.filter fun e => e.actor = some 1).length ≤ 9 :=
  ⟨_, rfl, rfl, rfl, @own_steps_le String _ 0 (fun _ => blockNumber) longestRun rfl 1⟩

/-- The events of a schedule without the timeout, in which the upstream send of call `i` returns
`reply i`. -/
def Event.Scheduled (reply : Nat → Except String Response) : Event Response → Prop
  | .run _ => True
  | .answer i r => r = reply i
  | .timeout _ | .newHead _ => False

variable (reply : Nat → Except String Response)

theorem exists_own_step (hf : (s.calls j).phase.finished = false)
    (hw : ∀ k m, (s.calls j).phase = .waiting k m → (s.calls m).phase.finished) :
    ∃ e, e.actor = some j ∧ e.Scheduled reply ∧ (step s e).isSome := by
  cases hp : (s.calls j).phase with
  | returned | dropped => rw [hp] at hf; cases hf
  | sendingRaw | dispatching =>
    exact ⟨.answer j (reply j), rfl, rfl, by cases hr : reply j <;> simp [step, answer, hp, hr]⟩
  | waiting k m =>
    exact ⟨.run j, rfl, trivial, by simp [step, proxyWeb3RpcRequest, hp, hw k m hp]⟩
  | _ => exact ⟨.run j, rfl, trivial, by simp only [step, proxyWeb3RpcRequest, hp]; (try split) <;> rfl⟩

theorem finish_registered {k : CacheKey} (s : Proxy Response) (j : Nat)
    (hreg : (s.calls j).phase.Registered k) :
    ∃ es s', run s es = some s' ∧ (∀ e ∈ es, e.actor = some j ∧ e.Scheduled reply) ∧
      (s'.calls j).phase.finished := by
  cases hf : (s.calls j).phase.finished
  · obtain ⟨e, ha, he, hs⟩ := exists_own_step reply hf fun k m hw => by rw [hw] at hreg; exact hreg.elim
    obtain ⟨s₁, hs⟩ := Option.isSome_iff_exists.mp hs
    have hlt := (step_next hs ha).rank_lt
    obtain ⟨es, s', hrun, hes, hfin⟩ := finish_registered s₁ j (step_registered hs hreg)
    refine ⟨e :: es, s', by rw [run_cons, hs]; exact hrun, ?_, hfin⟩
    rintro e' (_ | ⟨_, he'⟩)
    exacts [⟨ha, he⟩, hes e' he']
  · exact ⟨[], s, rfl, nofun, hf⟩
termination_by (s.calls j).phase.rank

theorem unblock (hinv : WaitsRegistered s) (i : Nat) :
    ∃ es s', run s es = some s' ∧ (∀ e ∈ es, e.Scheduled reply) ∧
      (s'.calls i).phase = (s.calls i).phase ∧
      ∀ k m, (s'.calls i).phase = .waiting k m → (s'.calls m).phase.finished := by
  cases hp : (s.calls i).phase with
  | waiting k m =>
    have hreg := hinv.waiting i k m hp
    have hmi : m ≠ i := by rintro rfl; rw [hp] at hreg; exact hreg
    obtain ⟨es, s', hrun, hes, hfin⟩ := finish_registered reply s m hreg
    have hi : (s'.calls i).phase = (s.calls i).phase :=
      run_phase_ne hrun fun e he ha => hmi (Option.some.inj ((hes e he).1.symm.trans ha))
    refine ⟨es, s', hrun, fun e he => (hes e he).2, hi.trans hp, fun k' m' hw => ?_⟩
    rw [hi, hp, Phase.waiting.injEq] at hw
    exact hw.2 ▸ hfin
  | _ => exact ⟨[], s, rfl, nofun, hp, fun _ _ hw => by rw [hp] at hw; cases hw⟩

theorem finish_call (i : Nat) (s : Proxy Response) (hinv : WaitsRegistered s) :
    ∃ es s', run s es = some s' ∧ (∀ e ∈ es, e.Scheduled reply) ∧ (s'.calls i).phase.finished := by
  obtain ⟨es₁, s₁, hrun₁, hes₁, hp₁, hw₁⟩ := unblock reply hinv i
  cases hf : (s₁.calls i).phase.finished
  · obtain ⟨e, ha, he, hs⟩ := exists_own_step reply hf hw₁
    obtain ⟨s₂, hs⟩ := Option.isSome_iff_exists.mp hs
    have hlt : (s₂.calls i).phase.rank < (s.calls i).phase.rank := hp₁ ▸ (step_next hs ha).rank_lt
    obtain ⟨es₂, s', hrun₂, hes₂, hfin⟩ := finish_call i s₂ ((hinv.run hrun₁).step hs)
    refine ⟨es₁ ++ e :: es₂, s', by rw [run_append, hrun₁]; simp [run_cons, hs, hrun₂], ?_, hfin⟩
    simp only [List.mem_append, List.mem_cons]
    rintro e' (he' | rfl | he')
    exacts [hes₁ e' he', he, hes₂ e' he']
  · exact ⟨es₁, s₁, hrun₁, hes₁, hf⟩
termination_by (s.calls i).phase.rank

theorem finish_calls (is : List Nat) (s : Proxy Response) (hinv : WaitsRegistered s) :
    ∃ es s', run s es = some s' ∧ (∀ e ∈ es, e.Scheduled reply) ∧
      ∀ i ∈ is, (s'.calls i).phase.finished := by
  induction is generalizing s with
  | nil => exact ⟨[], s, rfl, nofun, nofun⟩
  | cons i is ih =>
    obtain ⟨es₁, s₁, hrun₁, hes₁, hf₁⟩ := finish_call reply i s hinv
    obtain ⟨es₂, s', hrun₂, hes₂, hf₂⟩ := ih s₁ (hinv.run hrun₁)
    refine ⟨es₁ ++ es₂, s', by rw [run_append, hrun₁]; exact hrun₂, fun e he => ?_, ?_⟩
    · rcases List.mem_append.mp he with he | he
      exacts [hes₁ e he, hes₂ e he]
    · rintro j (_ | ⟨_, hj⟩)
      exacts [(run_finished hrun₂ hf₁).symm ▸ hf₁, hf₂ j hj]

theorem step_dropped {j : Nat} (he : e.Scheduled reply) (h : step s e = some s')
    (hj : (s'.calls j).phase = .dropped) : (s.calls j).phase = .dropped := by
  by_cases ha : e.actor = some j
  · cases e <;> simp only [Event.actor, Option.some.injEq, reduceCtorEq] at ha <;> subst ha <;>
      simp only [Event.Scheduled] at he <;>
      simp only [step, proxyWeb3RpcRequest, answer] at h <;> (repeat' split at h) <;>
      simp only [Option.some.injEq, reduceCtorEq] at h <;> subst h <;>
      simp [dispatch_calls, setIncoming_calls, setPhase_phase_self] at hj
  · rwa [step_phase_ne h ha] at hj

theorem run_dropped {es : List (Event Response)} {j : Nat} (hes : ∀ e ∈ es, e.Scheduled reply)
    (h : run s es = some s') (hj : (s'.calls j).phase = .dropped) : (s.calls j).phase = .dropped :=
  @run_invariant _ (fun t => (t.calls j).phase = .dropped → (s.calls j).phase = .dropped)
    (fun e => e.Scheduled reply) (fun _ _ _ ht he hs hd => ht (step_dropped reply he hs hd))
    _ _ _ id hes h hj

/-- Whatever the upstream sends return, from every reachable state the calls can be scheduled
without the timeout of `proxy_web3_rpc` so that every call of `is` that was not dropped returns:
the waits of the single-flight path never deadlock. -/
theorem calls_return (hs : Reachable s) (is : List Nat) :
    ∃ es s', run s es = some s' ∧ (∀ e ∈ es, e.Scheduled reply) ∧
      ∀ i ∈ is, (s.calls i).phase ≠ .dropped → ∃ r, (s'.calls i).phase = .returned r := by
  obtain ⟨es, s', hrun, hes, hf⟩ :=
    finish_calls reply is s (hs.of_invariant waitsRegistered_init fun _ _ _ h hs => h.step hs)
  refine ⟨es, s', hrun, hes, fun i hi hd => ?_⟩
  have hf := hf i hi
  cases hp : (s'.calls i).phase with
  | returned r => exact ⟨r, rfl⟩
  | dropped => exact absurd (run_dropped reply hes hrun hp) hd
  | _ => rw [hp] at hf; cases hf

def waitingRun : List (Event String) := [.run 0, .run 0, .run 0, .run 1, .run 1, .run 1]

theorem calls_return_waiting :
    ∃ s, run (init 0 fun _ => blockNumber) waitingRun = some s ∧
      (s.calls 1).phase = .waiting (cacheKey 0 blockNumber) 0 ∧
      ∃ es s', run s es = some s' ∧ (∀ e ∈ es, e.Scheduled fun _ => .ok "0x10") ∧
        ∀ i ∈ [0, 1], (s.calls i).phase ≠ .dropped → ∃ r, (s'.calls i).phase = .returned r :=
  ⟨_, rfl, rfl, calls_return (fun _ => .ok "0x10") ⟨0, fun _ => blockNumber, waitingRun, rfl⟩ [0, 1]⟩

end Web3Proxy

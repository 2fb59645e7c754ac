import Web3Proxy.RateLimit

/-! What the `user_data` of `rate_limit_by_key` rests on, beyond the accepted users. `cache_user_data`
caches user 0 when the query finds no active row of the key, and `user_data.user_id == 0` is then
answered with `UnknownKey` until the entry expires; it caches no count for a `requests_per_minute`
of `u64::MAX`, and the limiter is consulted only with a count. So over any history of `user_keys`
and any interleaving of calls, a key is refused only on a logged query of it that returned at most
60 s before the call was made and found the key without a user, and a call awaits the limiter only
with the finite `requests_per_minute` of an active row of its key that a query read. -/

namespace Web3Proxy
open KeyState

def ZeroQueried (queries : List UserQuery) (key : Uuid) (bound : Nat) : Prop :=
  ∃ q ∈ queries, q.key = key ∧ bound ≤ q.finishedAt + userCacheTtl ∧
    (userCacheValue q.finishedAt q.row).userId = 0

theorem ZeroQueried.mono {queries : List UserQuery} {key : Uuid} {b b' : Nat}
    (h : ZeroQueried queries key b) (hb : b' ≤ b) : ZeroQueried queries key b' :=
  let ⟨q, hq, hk, hle, h0⟩ := h
  ⟨q, hq, hk, Nat.le_trans hb hle, h0⟩

theorem ZeroQueried.append {queries : List UserQuery} {key : Uuid} {b : Nat}
    (h : ZeroQueried queries key b) (more : List UserQuery) : ZeroQueried (queries ++ more) key b :=
  let ⟨q, hq, hk⟩ := h
  ⟨q, List.mem_append_left _ hq, hk⟩

theorem answer_of_zero {table : List UserKeyRow} {key : Uuid} {row : Option UserKeyRow}
    {now : Nat} (hq : queryAnswers table key row = true) (h0 : (userCacheValue now row).userId = 0) :
    (row = none ∧ ∀ r ∈ table, r.apiKey = key → r.active = false) ∨
      ∃ r, row = some r ∧ r ∈ table ∧ r.apiKey = key ∧ r.active = true ∧ r.userId = 0 := by
  cases row with
  | none =>
    refine .inl ⟨rfl, fun r hr hk => ?_⟩
    simpa [hk] using List.all_eq_true.mp hq r hr
  | some r =>
    simp only [queryAnswers, Bool.and_eq_true, decide_eq_true_eq] at hq
    exact .inr ⟨r, rfl, hq.1.1, hq.1.2, hq.2, h0⟩

def LimitOf (reads : List UserRead) (key : Uuid) (v : UserCacheValue) : Prop :=
  v.userId ≠ 0 → ∀ n, v.userCountPerPeriod = some n →
    ∃ r ∈ reads, r.key = key ∧ r.row.userId = v.userId ∧ r.row.requestsPerMinute = n ∧ n ≠ u64Max

theorem LimitOf.append {reads : List UserRead} {key : Uuid} {v : UserCacheValue}
    (h : LimitOf reads key v) (more : List UserRead) : LimitOf (reads ++ more) key v :=
  fun hu n hn => let ⟨r, hr, hk⟩ := h hu n hn; ⟨r, List.mem_append_left _ hr, hk⟩

theorem limitOf_userCacheValue (reads : List UserRead) (q : UserQuery) :
    LimitOf (reads ++ q.read.toList) q.key (userCacheValue q.finishedAt q.row) := by
  obtain ⟨key, row, readAt, finishedAt⟩ := q
  intro hu n hn
  obtain ⟨r, rfl, hid⟩ := userCacheValue_userId hu
  simp only [userCacheValue] at hn
  split_ifs at hn with hmax
  obtain rfl := Option.some.inj hn
  exact ⟨_, List.mem_append_right _ (List.mem_singleton_self _), rfl, hid.symm, rfl, hmax⟩

structure UserDataRead (s : KeyState) : Prop where
  queries : ∀ q ∈ s.queries, queryAnswers (s.userKeys q.readAt) q.key q.row = true ∧
    q.readAt ≤ q.finishedAt ∧ q.finishedAt ≤ s.now
  zeroCache : ∀ k v, s.userCache k = some v → v.userId = 0 → ZeroQueried s.queries k v.expiresAt
  limitCache : ∀ k v, s.userCache k = some v → LimitOf s.reads k v
  started : ∀ i, (s.calls i).phase ≠ .start → (s.calls i).madeAt ≤ s.now
  answered : ∀ i row t, (s.calls i).phase = .answered row t →
    queryAnswers (s.userKeys t) (s.calls i).userKey row = true ∧ t ≤ s.now
  zeroInserting : ∀ i v, (s.calls i).phase = .inserting v → v.userId = 0 →
    (s.calls i).madeAt ≤ v.expiresAt ∧ ZeroQueried s.queries (s.calls i).userKey v.expiresAt
  limitHeld : ∀ i v, (s.calls i).phase.userData = some v → LimitOf s.reads (s.calls i).userKey v
  throttling : ∀ i v, (s.calls i).phase = .throttling v →
    v.userId ≠ 0 ∧ v.userCountPerPeriod.isSome
  unknown : ∀ i, (s.calls i).phase = .returned .unknownKey →
    ZeroQueried s.queries (s.calls i).userKey (s.calls i).madeAt

namespace UserDataRead

variable {s : KeyState} {i : Nat}

theorem setCall (h : UserDataRead s) (c : KeyCall) (hstart : c.phase ≠ .start → c.madeAt ≤ s.now)
    (hans : ∀ row t, c.phase = .answered row t →
      queryAnswers (s.userKeys t) c.userKey row = true ∧ t ≤ s.now)
    (hins : ∀ v, c.phase = .inserting v → v.userId = 0 →
      c.madeAt ≤ v.expiresAt ∧ ZeroQueried s.queries c.userKey v.expiresAt)
    (hheld : ∀ v, c.phase.userData = some v → LimitOf s.reads c.userKey v)
    (hthr : ∀ v, c.phase = .throttling v → v.userId ≠ 0 ∧ v.userCountPerPeriod.isSome)
    (hunk : c.phase = .returned .unknownKey → ZeroQueried s.queries c.userKey c.madeAt) :
    UserDataRead (s.setCall i c) := by
  refine ⟨h.queries, h.zeroCache, h.limitCache, fun j => ?_, fun j => ?_, fun j => ?_, fun j => ?_,
    fun j => ?_, fun j => ?_⟩ <;> rw [setCall_calls] <;> split_ifs
  exacts [hstart, h.started j, hans, h.answered j, hins, h.zeroInserting j, hheld, h.limitHeld j,
    hthr, h.throttling j, hunk, h.unknown j]

theorem setInert (h : UserDataRead s) (c : KeyCall) (hm : c.madeAt ≤ s.now)
    (hp : c.phase = .querying ∨ (∃ m, c.phase = .failed m) ∨ c.phase = .panicked ∨
      ∃ r, c.phase = .returned r ∧ r ≠ .unknownKey) :
    UserDataRead (s.setCall i c) := by
  refine h.setCall c (fun _ => hm) ?_ ?_ ?_ ?_ ?_ <;>
    rcases hp with hp | ⟨_, hp⟩ | hp | ⟨_, hp, hr⟩ <;> simp [*, KeyPhase.userData]

theorem setCheck (h : UserDataRead s) (c : KeyCall) (lim : Bool) (v : UserCacheValue)
    (hm : c.madeAt ≤ s.now) (hv : v.userId = 0 → ZeroQueried s.queries c.userKey c.madeAt)
    (hl : LimitOf s.reads c.userKey v) :
    UserDataRead (s.setCall i { c with phase := checkUserData lim v }) := by
  unfold checkUserData
  split_ifs with h0
  · exact h.setCall _ (fun _ => hm) (fun _ _ h => nomatch h) (fun _ h => nomatch h)
      (fun _ h => nomatch h) (fun _ h => nomatch h) fun _ => hv h0
  · split
    · exact h.setInert _ hm (.inr (.inr (.inr ⟨_, rfl, nofun⟩)))
    · rename_i n hn
      refine h.setCall _ (fun _ => hm) (fun _ _ h => nomatch h) (fun _ h => nomatch h)
        (fun w hw => ?_) (fun w hw => ?_) nofun
      · obtain rfl := Option.some.inj hw; exact hl
      · obtain rfl := KeyPhase.throttling.inj hw; exact ⟨h0, by simp [hn]⟩
  · exact h.setInert _ hm (.inr (.inr (.inl rfl)))

theorem tick (h : UserDataRead s) (d : Nat) : UserDataRead { s with now := s.now + d } :=
  ⟨fun q hq => (h.queries q hq).imp_right (·.imp_right (Nat.le_trans · (Nat.le_add_right _ _))),
    h.zeroCache, h.limitCache, fun i hi => Nat.le_trans (h.started i hi) (Nat.le_add_right _ _),
    fun i row t hr => (h.answered i row t hr).imp_right (Nat.le_trans · (Nat.le_add_right _ _)),
    h.zeroInserting, h.limitHeld, h.throttling, h.unknown⟩

theorem setCache (h : UserDataRead s) (k : Uuid) (w : Option UserCacheValue)
    (hw : ∀ v, w = some v → (v.userId = 0 → ZeroQueried s.queries k v.expiresAt) ∧ LimitOf s.reads k v) :
    UserDataRead { s with userCache := Function.update s.userCache k w } := by
  have hc : ∀ k₁ v, Function.update s.userCache k w k₁ = some v →
      (v.userId = 0 → ZeroQueried s.queries k₁ v.expiresAt) ∧ LimitOf s.reads k₁ v := by
    intro k₁ v hv
    by_cases hk : k₁ = k
    · subst hk; rw [Function.update_same] at hv; exact hw v hv
    · rw [Function.update_noteq hk] at hv; exact ⟨h.zeroCache k₁ v hv, h.limitCache k₁ v hv⟩
  exact ⟨h.queries, fun k v hv => (hc k v hv).1, fun k v hv => (hc k v hv).2, h.started, h.answered,
    h.zeroInserting, h.limitHeld, h.throttling, h.unknown⟩

theorem logQuery (h : UserDataRead s) (q : UserQuery)
    (hq : queryAnswers (s.userKeys q.readAt) q.key q.row = true ∧ q.readAt ≤ q.finishedAt ∧
      q.finishedAt ≤ s.now) :
    UserDataRead { s with queries := s.queries ++ [q] } := by
  have hr := reads_logQuery s q
  refine ⟨fun q' hq' => ?_, fun k v hk h0 => (h.zeroCache k v hk h0).append _,
    fun k v hk => hr ▸ (h.limitCache k v hk).append _, h.started, h.answered,
    fun i v hi h0 => (h.zeroInserting i v hi h0).imp_right (·.append _),
    fun i v hi => hr ▸ (h.limitHeld i v hi).append _, h.throttling,
    fun i hi => (h.unknown i hi).append _⟩
  rcases List.mem_append.mp hq' with hq' | hq'
  exacts [h.queries q' hq', List.mem_singleton.mp hq' ▸ hq]

end UserDataRead

theorem userDataRead_init (userKeys : Nat → List UserKeyRow) (dbConn lim : Bool)
    (keys : Nat → Uuid) : UserDataRead (KeyState.init userKeys dbConn lim keys) :=
  ⟨fun _ h => (nomatch h), fun _ _ h => (nomatch h), fun _ _ h => (nomatch h),
    fun _ h => absurd rfl h, fun _ _ _ h => (nomatch h), fun _ _ h => (nomatch h),
    fun _ _ h => (nomatch h), fun _ _ h => (nomatch h), fun _ h => (nomatch h)⟩

theorem throttleResult_ne_unknownKey (u : Nat) (r : Except String DeferredRateLimitResult) :
    throttleResult u r ≠ .unknownKey := by
  rcases r with _ | (_ | _ | _) <;> nofun

theorem UserDataRead.rateLimitByKey {s s₁ : KeyState} {i : Nat} (h : UserDataRead s)
    (hs : rateLimitByKey s i = some s₁) : UserDataRead s₁ := by
  simp only [Web3Proxy.rateLimitByKey] at hs
  split at hs
  · -- the cache check, and the query on a miss
    obtain rfl := Option.some.inj hs
    have hmiss : ∀ c : KeyCall, c.madeAt ≤ s.now → UserDataRead (s.setCall i { c with phase :=
        (if s.dbConn then KeyPhase.querying
          else KeyPhase.failed "fetching user data for rate limits: no database") }) :=
      fun c hm => by
        split_ifs
        exacts [h.setInert _ hm (.inl rfl), h.setInert _ hm (.inr (.inl ⟨_, rfl⟩))]
    split
    · rename_i v hv
      by_cases hexp : v.expiresAt < s.now
      · rw [if_pos hexp]; exact hmiss { s.calls i with madeAt := s.now } (Nat.le_refl _)
      · rw [if_neg hexp]
        exact h.setCheck { s.calls i with madeAt := s.now } _ v (Nat.le_refl _)
          (fun h0 => (h.zeroCache _ v hv h0).mono (Nat.le_of_not_lt hexp)) (h.limitCache _ v hv)
    · exact hmiss { s.calls i with madeAt := s.now } (Nat.le_refl _)
  · -- the query has returned: it is logged, and the value is the one its answer builds
    rename_i row readAt hp
    obtain rfl := Option.some.inj hs
    have hm := h.started i (by rw [hp]; exact nofun)
    obtain ⟨hq, hread⟩ := h.answered i row readAt hp
    refine (h.logQuery ⟨(s.calls i).userKey, row, readAt, s.now⟩ ⟨hq, hread, Nat.le_refl _⟩).setCall
      _ (fun _ => hm) (fun _ _ h => nomatch h) (fun v hv h0 => ?_) (fun v hv => ?_)
      (fun _ h => nomatch h) nofun
    · obtain rfl := KeyPhase.inserting.inj hv
      have hexp : (userCacheValue s.now row).expiresAt = s.now + userCacheTtl := by
        cases row <;> rfl
      exact ⟨hexp ▸ Nat.le_trans hm (Nat.le_add_right _ _), _,
        List.mem_append_right _ (List.mem_singleton_self _), rfl, Nat.le_of_eq hexp, h0⟩
    · obtain rfl := Option.some.inj hv
      rw [reads_logQuery]
      exact limitOf_userCacheValue _ ⟨(s.calls i).userKey, row, readAt, s.now⟩
  · -- the value is cached, then checked
    rename_i v hp
    obtain rfl := Option.some.inj hs
    have h0 := h.zeroInserting i v hp
    have hl := h.limitHeld i v (by rw [hp]; rfl)
    exact (h.setCache _ _ fun w hw => by cases hw; exact ⟨fun hu => (h0 hu).2, hl⟩).setCheck _ _ v
      (h.started i (by rw [hp]; exact nofun)) (fun hu => (h0 hu).2.mono (h0 hu).1) hl
  · cases hs

theorem userDataRead_step {s s₁ : KeyState} {e : KeyEvent} (h : UserDataRead s)
    (hs : s.step e = some s₁) : UserDataRead s₁ := by
  cases e with
  | tick d => obtain rfl := Option.some.inj hs; exact h.tick d
  | evict k => obtain rfl := Option.some.inj hs; exact h.setCache k none fun _ h => nomatch h
  | run i => exact h.rateLimitByKey hs
  | dbRead i row =>
    simp only [KeyState.step] at hs
    split_ifs at hs with hg
    obtain rfl := Option.some.inj hs
    refine h.setCall _ (fun _ => h.started i (by rw [hg.1]; exact nofun)) (fun r t hr => ?_)
      (fun _ h => nomatch h) (fun _ h => nomatch h) (fun _ h => nomatch h) nofun
    obtain ⟨rfl, rfl⟩ := KeyPhase.answered.inj hr
    exact ⟨hg.2, Nat.le_refl _⟩
  | dbFail i err =>
    simp only [KeyState.step] at hs
    split_ifs at hs with hg
    obtain rfl := Option.some.inj hs
    exact h.setInert _ (h.started i (by rw [hg]; exact nofun)) (.inr (.inl ⟨_, rfl⟩))
  | throttle i r =>
    simp only [KeyState.step] at hs
    split at hs
    · rename_i v hp
      obtain rfl := Option.some.inj hs
      exact h.setInert _ (h.started i (by rw [hp]; exact nofun))
        (.inr (.inr (.inr ⟨_, rfl, throttleResult_ne_unknownKey _ _⟩)))
    · cases hs

theorem KeyState.Reachable.userDataRead {s : KeyState} (hs : s.Reachable) : UserDataRead s :=
  hs.of_invariant userDataRead_init fun _ _ _ h hs => userDataRead_step h hs

/-- For every history of `user_keys` and every interleaving of `rate_limit_by_key` calls, a call
that returned `UnknownKey` rests on a logged query of `cache_user_data` for its key that returned
at most 60 s before the call was made: the database read the table at an instant before the query
returned, and answered no row, when the key had no active row, or an active row of user 0. -/
theorem unknown_key_read_recently {s : KeyState} {i : Nat} (hs : s.Reachable)
    (hu : (s.calls i).phase = .returned .unknownKey) :
    ∃ q ∈ s.queries, q.key = (s.calls i).userKey ∧ q.readAt ≤ q.finishedAt ∧ q.finishedAt ≤ s.now ∧
      (s.calls i).madeAt ≤ q.finishedAt + userCacheTtl ∧
      ((q.row = none ∧ ∀ row ∈ s.userKeys q.readAt, row.apiKey = q.key → row.active = false) ∨
        ∃ row, q.row = some row ∧ row ∈ s.userKeys q.readAt ∧ row.apiKey = q.key ∧
          row.active = true ∧ row.userId = 0) := by
  have h := hs.userDataRead
  obtain ⟨q, hq, hk, hle, h0⟩ := h.unknown i hu
  obtain ⟨ha, hread, hnow⟩ := h.queries q hq
  exact ⟨q, hq, hk, hread, hnow, hle, answer_of_zero ha h0⟩

def unknownKeyRun : List KeyEvent := [.run 0, .dbRead 0 none, .tick 30000000000, .run 0, .run 0, .run 1]

theorem unknown_key_read_recently_empty :
    ∃ s, (KeyState.init (fun _ => []) true true fun _ => 7).run unknownKeyRun = some s ∧
      (s.calls 1).phase = .returned .unknownKey ∧ s.queries = [⟨7, none, 0, 30000000000⟩] ∧
      ∃ q ∈ s.queries, q.key = (s.calls 1).userKey ∧ q.readAt ≤ q.finishedAt ∧
        q.finishedAt ≤ s.now ∧ (s.calls 1).madeAt ≤ q.finishedAt + userCacheTtl ∧
        ((q.row = none ∧ ∀ row ∈ s.userKeys q.readAt, row.apiKey = q.key → row.active = false) ∨
          ∃ row, q.row = some row ∧ row ∈ s.userKeys q.readAt ∧ row.apiKey = q.key ∧
            row.active = true ∧ row.userId = 0) :=
  ⟨_, rfl, rfl, rfl,
    unknown_key_read_recently ⟨fun _ => [], true, true, fun _ => 7, unknownKeyRun, rfl⟩ rfl⟩

end Web3Proxy

import Mathlib.Logic.Function.Basic

/-! `Web3ProxyApp::rate_limit_by_key` and `cache_user_data` over concurrent calls. A call looks its
API key up in `user_cache` and uses the entry unless `expires_at < Instant::now()`; otherwise it
queries `user_keys` for an active row of the key, caches what it read with an expiry 60 s after
the query returned, and then checks the user id and the rate limit. The table may change at any
instant. Every user a call accepts was read from an active row of its key by a query that returned
at most 60 s before the call was made. -/

namespace Web3Proxy

/-- An API key (`uuid::Uuid`). -/
abbrev Uuid := BitVec 128

/-- A row of `user_keys`, by the columns the query selects and filters on. -/
structure UserKeyRow where
  apiKey : Uuid
  userId : Nat
  requestsPerMinute : Nat
  active : Bool
  deriving DecidableEq, Repr

/-- `UserCacheValue`, from the tuple `cache_user_data` builds it from; an `Instant` is nanoseconds
on the process clock. -/
structure UserCacheValue where
  expiresAt : Nat
  userId : Nat
  userCountPerPeriod : Option Nat
  deriving DecidableEq, Repr

/-- `Duration::from_secs(60)`, in nanoseconds. -/
def userCacheTtl : Nat := 60000000000

/-- `u64::MAX`. -/
def u64Max : Nat := 18446744073709551615

/-- The results `rate_limit_by_key` returns. -/
inductive RateLimitResult
  | allowedUser (userId : Nat)
  | rateLimitedUser (userId : Nat) (retryAt : Option Nat)
  | unknownKey
  deriving DecidableEq, Repr

inductive DeferredRateLimitResult
  | allowed
  | retryAt (instant : Nat)
  | retryNever
  deriving DecidableEq, Repr

/-- The `user_data` of `cache_user_data`, from the row the query returned, with the instant its
await returned. -/
def userCacheValue (now : Nat) : Option UserKeyRow → UserCacheValue
  | some row => ⟨now + userCacheTtl, row.userId,
      if row.requestsPerMinute = u64Max then none else some row.requestsPerMinute⟩
  | none => ⟨now + userCacheTtl, 0, some 0⟩

/-- An answer `.one(db)` may give to the query for `key` on `table`: a row with that `api_key`
that is `active`, or none when there is no such row. -/
def queryAnswers (table : List UserKeyRow) (key : Uuid) : Option UserKeyRow → Bool
  | some row => row ∈ table && row.apiKey = key && row.active
  | none => table.all fun row => !(row.apiKey = key && row.active)

/-- Where a call of `rate_limit_by_key` is: at its start, awaiting the query, resumed with its
answer, awaiting `user_cache.insert`, awaiting the throttle, or done. -/
inductive KeyPhase
  | start
  | querying
  | answered (row : Option UserKeyRow) (readAt : Nat)
  | inserting (userData : UserCacheValue)
  | throttling (userData : UserCacheValue)
  | returned (result : RateLimitResult)
  | failed (msg : String)
  | panicked
  deriving DecidableEq, Repr

/-- `rate_limit_by_key` once it has `user_data`: the `user_id == 0` check, then the rate limiter,
whose absence is a `todo!()`. -/
def checkUserData (frontendKeyRateLimiter : Bool) (userData : UserCacheValue) : KeyPhase :=
  if userData.userId = 0 then .returned .unknownKey
  else if frontendKeyRateLimiter then
    match userData.userCountPerPeriod with
    | none => .returned (.allowedUser userData.userId)
    | some _ => .throttling userData
  else .panicked

/-- The `match` on the throttle's result; an error of the limiter lets the user through. -/
def throttleResult (userId : Nat) : Except String DeferredRateLimitResult → RateLimitResult
  | .ok .allowed => .allowedUser userId
  | .ok (.retryAt t) => .rateLimitedUser userId (some t)
  | .ok .retryNever => .rateLimitedUser userId none
  | .error _ => .allowedUser userId

/-- A call of `rate_limit_by_key(user_key)`; `madeAt` is the `Instant::now()` of its cache check. -/
structure KeyCall where
  userKey : Uuid
  madeAt : Nat
  phase : KeyPhase

/-- A query of `cache_user_data` that returned: the key, its answer, the instant the database read
it and the instant the await returned. -/
structure UserQuery where
  key : Uuid
  row : Option UserKeyRow
  readAt : Nat
  finishedAt : Nat

/-- A query that returned a row, with that row. -/
structure UserRead where
  key : Uuid
  row : UserKeyRow
  readAt : Nat
  finishedAt : Nat

def UserQuery.read (q : UserQuery) : Option UserRead :=
  q.row.map fun row => ⟨q.key, row, q.readAt, q.finishedAt⟩

/-- The shared state. `userKeys t` is the table at instant `t`, for any history of it; `dbConn`
and `frontendKeyRateLimiter` say whether the app has them. Modelled from the code that uses
`user_cache`: its type is not among the sources, so an entry may be evicted at any time. `queries`
is a ghost log of the queries that returned, in the order they returned. -/
structure KeyState where
  now : Nat
  userKeys : Nat → List UserKeyRow
  dbConn : Bool
  frontendKeyRateLimiter : Bool
  userCache : Uuid → Option UserCacheValue
  calls : Nat → KeyCall
  queries : List UserQuery

inductive KeyEvent
  | tick (d : Nat)
  | run (i : Nat)
  | dbRead (i : Nat) (row : Option UserKeyRow)
  | dbFail (i : Nat) (err : String)
  | throttle (i : Nat) (result : Except String DeferredRateLimitResult)
  | evict (key : Uuid)

namespace KeyState

def reads (s : KeyState) : List UserRead := s.queries.filterMap UserQuery.read

theorem reads_logQuery (s : KeyState) (q : UserQuery) :
    ({ s with queries := s.queries ++ [q] } : KeyState).reads = s.reads ++ q.read.toList := by
  simp only [reads, List.filterMap_append]
  cases hq : q.read <;> simp [List.filterMap, hq]

def setCall (s : KeyState) (i : Nat) (c : KeyCall) : KeyState :=
  { s with calls := Function.update s.calls i c }

def setPhase (s : KeyState) (i : Nat) (p : KeyPhase) : KeyState :=
  s.setCall i { s.calls i with phase := p }

variable {s : KeyState} {i j : Nat} {c : KeyCall}

@[simp] theorem setCall_now : (s.setCall i c).now = s.now := rfl
@[simp] theorem setCall_userKeys : (s.setCall i c).userKeys = s.userKeys := rfl
@[simp] theorem setCall_userCache : (s.setCall i c).userCache = s.userCache := rfl
@[simp] theorem setCall_queries : (s.setCall i c).queries = s.queries := rfl
@[simp] theorem setCall_reads : (s.setCall i c).reads = s.reads := rfl
theorem setCall_calls : (s.setCall i c).calls j = if j = i then c else s.calls j := by
  by_cases h : j = i
  · subst h; simp [setCall]
  · simp [setCall, Function.update_noteq h, h]

end KeyState

open KeyState

/-- The synchronous part of call `i` from where it is to its next await. -/
def rateLimitByKey (s : KeyState) (i : Nat) : Option KeyState :=
  let c := s.calls i
  match c.phase with
  | .start =>
    let miss := if s.dbConn then KeyPhase.querying
      else .failed "fetching user data for rate limits: no database"
    let p := match s.userCache c.userKey with
      | some v => if v.expiresAt < s.now then miss else checkUserData s.frontendKeyRateLimiter v
      | none => miss
    some (s.setCall i { c with madeAt := s.now, phase := p })
  | .answered row readAt =>
    some { s.setPhase i (.inserting (userCacheValue s.now row)) with
      queries := s.queries ++ [⟨c.userKey, row, readAt, s.now⟩] }
  | .inserting v =>
    some ({ s with userCache := Function.update s.userCache c.userKey (some v) }.setPhase i
      (checkUserData s.frontendKeyRateLimiter v))
  | _ => none

namespace KeyState

def step (s : KeyState) : KeyEvent → Option KeyState
  | .tick d => some { s with now := s.now + d }
  | .run i => rateLimitByKey s i
  | .dbRead i row =>
    if (s.calls i).phase = .querying ∧ queryAnswers (s.userKeys s.now) (s.calls i).userKey row then
      some (s.setPhase i (.answered row s.now))
    else none
  | .dbFail i err =>
    if (s.calls i).phase = .querying then
      some (s.setPhase i (.failed ("fetching user data for rate limits: " ++ err)))
    else none
  | .throttle i result =>
    match (s.calls i).phase with
    | .throttling v => some (s.setPhase i (.returned (throttleResult v.userId result)))
    | _ => none
  | .evict key => some { s with userCache := Function.update s.userCache key none }

def run (s : KeyState) : List KeyEvent → Option KeyState
  | [] => some s
  | e :: es => (step s e).bind fun s' => run s' es

end KeyState

/-- The app at instant 0 with an empty `user_cache`, and calls for `keys`, none started. -/
def KeyState.init (userKeys : Nat → List UserKeyRow) (dbConn frontendKeyRateLimiter : Bool)
    (keys : Nat → Uuid) : KeyState :=
  ⟨0, userKeys, dbConn, frontendKeyRateLimiter, fun _ => none, fun i => ⟨keys i, 0, .start⟩, []⟩

def KeyState.Reachable (s : KeyState) : Prop :=
  ∃ userKeys dbConn limiter keys es, (KeyState.init userKeys dbConn limiter keys).run es = some s

/-! ### Every accepted user is backed by a recent read -/

def Backed (reads : List UserRead) (key : Uuid) (userId bound : Nat) : Prop :=
  ∃ r ∈ reads, r.key = key ∧ r.row.userId = userId ∧ bound ≤ r.finishedAt + userCacheTtl

theorem Backed.append {reads : List UserRead} {key : Uuid} {u b : Nat}
    (h : Backed reads key u b) (more : List UserRead) : Backed (reads ++ more) key u b :=
  let ⟨r, hr, hk⟩ := h
  ⟨r, List.mem_append_left _ hr, hk⟩

theorem Backed.mono {reads : List UserRead} {key : Uuid} {u b b' : Nat}
    (h : Backed reads key u b) (hb : b' ≤ b) : Backed reads key u b' :=
  let ⟨r, hr, hk, hu, hle⟩ := h
  ⟨r, hr, hk, hu, by omega⟩

def KeyPhase.userData : KeyPhase → Option UserCacheValue
  | .inserting v | .throttling v => some v
  | _ => none

def KeyPhase.accepted : KeyPhase → Option Nat
  | .returned (.allowedUser u) | .returned (.rateLimitedUser u _) => some u
  | _ => none

structure Fresh (s : KeyState) : Prop where
  reads : ∀ r ∈ s.reads, r.row ∈ s.userKeys r.readAt ∧ r.row.apiKey = r.key ∧
    r.row.active = true ∧ r.readAt ≤ r.finishedAt
  cache : ∀ k v, s.userCache k = some v → v.userId ≠ 0 → Backed s.reads k v.userId v.expiresAt
  started : ∀ i, (s.calls i).phase ≠ .start → (s.calls i).madeAt ≤ s.now
  answered : ∀ i row t, (s.calls i).phase = .answered (some row) t →
    row ∈ s.userKeys t ∧ row.apiKey = (s.calls i).userKey ∧ row.active = true ∧ t ≤ s.now
  held : ∀ i v, (s.calls i).phase.userData = some v → v.userId ≠ 0 →
    (s.calls i).madeAt ≤ v.expiresAt ∧ Backed s.reads (s.calls i).userKey v.userId v.expiresAt
  throttling : ∀ i v, (s.calls i).phase = .throttling v → v.userId ≠ 0
  accepted : ∀ i u, (s.calls i).phase.accepted = some u →
    u ≠ 0 ∧ Backed s.reads (s.calls i).userKey u (s.calls i).madeAt

namespace Fresh

variable {s : KeyState} {i : Nat}

theorem setCall (h : Fresh s) (c : KeyCall) (hstart : c.phase ≠ .start → c.madeAt ≤ s.now)
    (hans : ∀ row t, c.phase = .answered (some row) t →
      row ∈ s.userKeys t ∧ row.apiKey = c.userKey ∧ row.active = true ∧ t ≤ s.now)
    (hheld : ∀ v, c.phase.userData = some v → v.userId ≠ 0 →
      c.madeAt ≤ v.expiresAt ∧ Backed s.reads c.userKey v.userId v.expiresAt)
    (hthr : ∀ v, c.phase = .throttling v → v.userId ≠ 0)
    (hacc : ∀ u, c.phase.accepted = some u → u ≠ 0 ∧ Backed s.reads c.userKey u c.madeAt) :
    Fresh (s.setCall i c) := by
  refine ⟨h.reads, h.cache, fun j => ?_, fun j => ?_, fun j => ?_, fun j => ?_, fun j => ?_⟩ <;>
    rw [setCall_calls] <;> split_ifs
  exacts [hstart, h.started j, hans, h.answered j, hheld, h.held j, hthr, h.throttling j, hacc,
    h.accepted j]

theorem setInert (h : Fresh s) (c : KeyCall) (hm : c.madeAt ≤ s.now)
    (hp : c.phase = .querying ∨ (∃ m, c.phase = .failed m) ∨ c.phase = .panicked ∨
      c.phase = .returned .unknownKey) :
    Fresh (s.setCall i c) := by
  refine h.setCall c (fun _ => hm) ?_ ?_ ?_ ?_ <;>
    rcases hp with hp | ⟨_, hp⟩ | hp | hp <;> simp [hp, KeyPhase.userData, KeyPhase.accepted]

theorem setCheck (h : Fresh s) (c : KeyCall) (lim : Bool) (v : UserCacheValue)
    (hm : c.madeAt ≤ s.now)
    (hv : v.userId ≠ 0 → c.madeAt ≤ v.expiresAt ∧ Backed s.reads c.userKey v.userId v.expiresAt) :
    Fresh (s.setCall i { c with phase := checkUserData lim v }) := by
  unfold checkUserData
  split_ifs with h0 hl
  · exact h.setInert _ hm (.inr (.inr (.inr rfl)))
  · have hb : Backed s.reads c.userKey v.userId c.madeAt := (hv h0).2.mono (hv h0).1
    cases hp : v.userCountPerPeriod
    · exact h.setCall _ (fun _ => hm) (fun _ _ h => nomatch h) (fun _ h => nomatch h)
        (fun _ h => nomatch h) fun u hu => Option.some.inj hu ▸ ⟨h0, hb⟩
    · exact h.setCall _ (fun _ => hm) (fun _ _ h => nomatch h)
        (fun w hw _ => Option.some.inj hw ▸ hv h0) (fun w hw => by cases hw; exact h0)
        (fun _ h => nomatch h)
  · exact h.setInert _ hm (.inr (.inr (.inl rfl)))

end Fresh

theorem fresh_init (userKeys : Nat → List UserKeyRow) (dbConn lim : Bool) (keys : Nat → Uuid) :
    Fresh (KeyState.init userKeys dbConn lim keys) :=
  ⟨fun _ h => (nomatch h), fun _ _ h => (nomatch h), fun _ h => absurd rfl h,
    fun _ _ _ h => (nomatch h), fun _ _ h => (nomatch h), fun _ _ h => (nomatch h),
    fun _ _ h => (nomatch h)⟩

namespace Fresh

variable {s : KeyState}

theorem tick (h : Fresh s) (d : Nat) : Fresh { s with now := s.now + d } :=
  ⟨h.reads, h.cache, fun i hi => Nat.le_trans (h.started i hi) (Nat.le_add_right _ _),
    fun i row t hr =>
      let ⟨h₁, h₂, h₃, h₄⟩ := h.answered i row t hr
      ⟨h₁, h₂, h₃, Nat.le_trans h₄ (Nat.le_add_right _ _)⟩,
    h.held, h.throttling, h.accepted⟩

theorem setCache (h : Fresh s) (k : Uuid) (w : Option UserCacheValue)
    (hw : ∀ v, w = some v → v.userId ≠ 0 → Backed s.reads k v.userId v.expiresAt) :
    Fresh { s with userCache := Function.update s.userCache k w } := by
  refine ⟨h.reads, fun k₁ v hv => ?_, h.started, h.answered, h.held, h.throttling, h.accepted⟩
  dsimp only at hv
  by_cases hk : k₁ = k
  · subst hk; rw [Function.update_same] at hv; exact hw v hv
  · rw [Function.update_noteq hk] at hv; exact h.cache k₁ v hv

theorem logQuery (h : Fresh s) (q : UserQuery)
    (hq : ∀ r, q.read = some r → r.row ∈ s.userKeys r.readAt ∧ r.row.apiKey = r.key ∧
      r.row.active = true ∧ r.readAt ≤ r.finishedAt) :
    Fresh { s with queries := s.queries ++ [q] } := by
  have hr := reads_logQuery s q
  refine ⟨fun r hr' => ?_, fun k v hk hv => hr ▸ (h.cache k v hk hv).append _, h.started,
    h.answered, fun i v hi hv => (h.held i v hi hv).imp_right (hr ▸ ·.append _), h.throttling,
    fun i u hi => (h.accepted i u hi).imp_right (hr ▸ ·.append _)⟩
  rw [hr] at hr'
  rcases List.mem_append.mp hr' with hr' | hr'
  exacts [h.reads r hr', hq r (Option.mem_toList.mp hr')]

end Fresh

theorem throttleResult_accepted (u : Nat) (r : Except String DeferredRateLimitResult) :
    (KeyPhase.returned (throttleResult u r)).accepted = some u := by
  rcases r with _ | (_ | _ | _) <;> rfl

theorem userCacheValue_userId {now : Nat} {row : Option UserKeyRow}
    (h : (userCacheValue now row).userId ≠ 0) :
    ∃ r, row = some r ∧ (userCacheValue now row).userId = r.userId := by
  cases row with
  | none => exact absurd rfl h
  | some r => exact ⟨r, rfl, rfl⟩

theorem Fresh.rateLimitByKey {s s₁ : KeyState} {i : Nat} (h : Fresh s)
    (hs : rateLimitByKey s i = some s₁) : Fresh s₁ := by
  simp only [Web3Proxy.rateLimitByKey] at hs
  split at hs
  · -- the cache check, and the query on a miss
    obtain rfl := Option.some.inj hs
    have hmiss : ∀ c : KeyCall, c.madeAt ≤ s.now → Fresh (s.setCall i { c with phase :=
        (if s.dbConn then KeyPhase.querying
          else KeyPhase.failed "fetching user data for rate limits: no database") }) :=
      fun c hm => by
        split_ifs
        exacts [h.setInert _ hm (.inl rfl), h.setInert _ hm (.inr (.inl ⟨_, rfl⟩))]
    split
    · rename_i v hv
      by_cases hexp : v.expiresAt < s.now
      · rw [if_pos hexp]; exact hmiss { s.calls i with madeAt := s.now } (Nat.le_refl _)
      · rw [if_neg hexp]
        exact h.setCheck { s.calls i with madeAt := s.now } _ v (Nat.le_refl _)
          fun hu => ⟨Nat.le_of_not_lt hexp, h.cache _ v hv hu⟩
    · exact hmiss { s.calls i with madeAt := s.now } (Nat.le_refl _)
  · -- the query has returned: its read is logged and its value held
    rename_i row readAt hp
    obtain rfl := Option.some.inj hs
    have hm := h.started i (by rw [hp]; exact nofun)
    have hnew : ∀ r, UserQuery.read ⟨(s.calls i).userKey, row, readAt, s.now⟩ = some r →
        r.row ∈ s.userKeys r.readAt ∧ r.row.apiKey = r.key ∧ r.row.active = true ∧
          r.readAt ≤ r.finishedAt := by
      intro r hr
      cases row with
      | none => cases hr
      | some row => cases hr; exact h.answered i row readAt hp
    refine (h.logQuery _ hnew).setCall _ (fun _ => hm) (fun _ _ h => nomatch h)
      (fun v hv hu => ?_) (fun _ h => nomatch h) (fun _ h => nomatch h)
    obtain rfl := Option.some.inj hv
    obtain ⟨r, rfl, hr⟩ := userCacheValue_userId hu
    refine ⟨Nat.le_trans hm (Nat.le_add_right _ _),
      ⟨⟨(s.calls i).userKey, r, readAt, s.now⟩, ?_, rfl, hr.symm, Nat.le_refl _⟩⟩
    rw [reads_logQuery]
    exact List.mem_append_right _ (List.mem_singleton_self _)
  · -- the value is cached, then checked
    rename_i v hp
    obtain rfl := Option.some.inj hs
    have hv := h.held i v (by rw [hp]; rfl)
    exact (h.setCache _ _ fun w hw hu => by cases hw; exact (hv hu).2).setCheck _ _ v
      (h.started i (by rw [hp]; exact nofun)) hv
  · cases hs

theorem fresh_step {s s₁ : KeyState} {e : KeyEvent} (h : Fresh s) (hs : s.step e = some s₁) :
    Fresh s₁ := by
  cases e with
  | tick d => obtain rfl := Option.some.inj hs; exact h.tick d
  | evict k => obtain rfl := Option.some.inj hs; exact h.setCache k none fun _ h => nomatch h
  | run i => exact h.rateLimitByKey hs
  | dbRead i row =>
    simp only [KeyState.step] at hs
    split_ifs at hs with hg
    obtain rfl := Option.some.inj hs
    refine h.setCall _ (fun _ => h.started i (by rw [hg.1]; exact nofun)) (fun r t hr => ?_)
      (fun _ h => nomatch h) (fun _ h => nomatch h) (fun _ h => nomatch h)
    obtain ⟨rfl, rfl⟩ := KeyPhase.answered.inj hr
    have hq := hg.2
    simp only [queryAnswers, Bool.and_eq_true, decide_eq_true_eq] at hq
    exact ⟨hq.1.1, hq.1.2, hq.2, (Nat.le_refl _)⟩
  | dbFail i err =>
    simp only [KeyState.step] at hs
    split_ifs at hs with hg
    obtain rfl := Option.some.inj hs
    exact h.setInert _ (h.started i (by rw [hg]; exact nofun)) (.inr (.inl ⟨_, rfl⟩))
  | throttle i r =>
    simp only [KeyState.step] at hs
    split at hs
    · rename_i v hp
      obtain rfl := Option.some.inj hs
      have hu := h.throttling i v hp
      have hv := h.held i v (by rw [hp]; rfl) hu
      refine h.setCall _ (fun _ => h.started i (by rw [hp]; exact nofun)) (fun _ _ h => nomatch h)
        (fun _ h => nomatch h) (fun _ h => nomatch h) fun u hu' => ?_
      rw [throttleResult_accepted, Option.some.injEq] at hu'
      exact hu' ▸ ⟨hu, hv.2.mono hv.1⟩
    · cases hs

theorem KeyState.Reachable.of_invariant {Inv : KeyState → Prop}
    (hinit : ∀ userKeys dbConn lim keys, Inv (KeyState.init userKeys dbConn lim keys))
    (hstep : ∀ s e s', Inv s → s.step e = some s' → Inv s') {s : KeyState} (hs : s.Reachable) :
    Inv s := by
  obtain ⟨userKeys, dbConn, lim, keys, es, h⟩ := hs
  suffices ∀ (t : KeyState) es, Inv t → t.run es = some s → Inv s from
    this _ es (hinit userKeys dbConn lim keys) h
  intro t es ht hrun
  induction es generalizing t with
  | nil => exact Option.some.inj hrun ▸ ht
  | cons e es ih =>
    obtain ⟨t₁, h₁, hrun⟩ := Option.bind_eq_some.mp hrun
    exact ih t₁ (hstep _ _ _ ht h₁) hrun

theorem KeyState.Reachable.fresh {s : KeyState} (hs : s.Reachable) : Fresh s :=
  hs.of_invariant fresh_init fun _ _ _ h hs => fresh_step h hs

/-- For every history of `user_keys` and every interleaving of `rate_limit_by_key` calls, a call
that accepted user `u`, allowed or rate limited, has `u ≠ 0`, and some query of
`cache_user_data` for its key read an active row of that key with user id `u` and returned at
most 60 s before the call was made. -/
theorem accepted_key_read_recently {s : KeyState} {i u : Nat} (hs : s.Reachable)
    (hu : (s.calls i).phase = .returned (.allowedUser u) ∨
      ∃ retryAt, (s.calls i).phase = .returned (.rateLimitedUser u retryAt)) :
    u ≠ 0 ∧ ∃ r ∈ s.reads, r.key = (s.calls i).userKey ∧ r.row.userId = u ∧
      r.row ∈ s.userKeys r.readAt ∧ r.row.apiKey = (s.calls i).userKey ∧ r.row.active = true ∧
      r.readAt ≤ r.finishedAt ∧ (s.calls i).madeAt ≤ r.finishedAt + userCacheTtl := by
  have h := hs.fresh
  have hacc : (s.calls i).phase.accepted = some u := by
    rcases hu with hu | ⟨_, hu⟩ <;> rw [hu] <;> rfl
  obtain ⟨hu0, r, hr, hk, hid, hle⟩ := h.accepted i u hacc
  obtain ⟨hrow, hkey, hact, hread⟩ := h.reads r hr
  exact ⟨hu0, r, hr, hk, hid, hrow, hkey.trans hk, hact, hread, hle⟩

def staleKeys (t : Nat) : List UserKeyRow :=
  [⟨7, 5, u64Max, decide (t = 0)⟩]

def deactivatedRun : List KeyEvent :=
  [.run 0, .dbRead 0 (some ⟨7, 5, u64Max, true⟩), .run 0, .run 0, .tick 30000000000, .run 1]

theorem accepted_key_read_recently_cached :
    ∃ s, (KeyState.init staleKeys true true fun _ => 7).run deactivatedRun = some s ∧
      (s.calls 1).phase = .returned (.allowedUser 5) ∧
      (s.userKeys (s.calls 1).madeAt).all (fun r => !r.active) ∧
      (5 ≠ 0 ∧ ∃ r ∈ s.reads, r.key = (s.calls 1).userKey ∧ r.row.userId = 5 ∧
        r.row ∈ s.userKeys r.readAt ∧ r.row.apiKey = (s.calls 1).userKey ∧ r.row.active = true ∧
        r.readAt ≤ r.finishedAt ∧ (s.calls 1).madeAt ≤ r.finishedAt + userCacheTtl) :=
  ⟨_, rfl, rfl, by decide,
    accepted_key_read_recently ⟨staleKeys, true, true, fun _ => 7, deactivatedRun, rfl⟩ (.inl rfl)⟩

end Web3Proxy

import Mathlib.Data.List.Nodup
import Web3Proxy.Request

/-! `ResponseLrcCache`: a `LinkedHashMap` from cache keys to responses, oldest entry first, and
the write of `proxy_web3_rpc_request` that evicts the front entry once `RESPONSE_CACHE_CAP` is
reached. -/

namespace Web3Proxy

/-- Modelled from the spec: the `linkedhashmap` crate is not among the sources. Entries are kept
in creation order ("FIFO over creation order"), so inserting a present key replaces its value in
place; `nodup` says that each key is stored once. -/
structure LinkedHashMap (K V : Type) where
  entries : List (K × V)
  nodup : (entries.map Prod.fst).Nodup

namespace LinkedHashMap
variable {K V : Type}

instance : EmptyCollection (LinkedHashMap K V) := ⟨⟨[], List.nodup_nil⟩⟩

def len (m : LinkedHashMap K V) : Nat := m.entries.length

def popFront (m : LinkedHashMap K V) : LinkedHashMap K V :=
  ⟨m.entries.tail, by rw [List.map_tail]; exact m.nodup.sublist (List.tail_sublist _)⟩

@[simp] theorem entries_empty : (∅ : LinkedHashMap K V).entries = [] := rfl

theorem mem_popFront {m : LinkedHashMap K V} {e : K × V} (h : e ∈ m.popFront.entries) :
    e ∈ m.entries :=
  List.mem_of_mem_tail h

@[simp] theorem len_popFront (m : LinkedHashMap K V) : m.popFront.len = m.len - 1 :=
  List.length_tail _

variable [DecidableEq K]

def get (m : LinkedHashMap K V) (k : K) : Option V :=
  (m.entries.find? fun e => e.1 = k).map Prod.snd

theorem map_fst_replace (l : List (K × V)) (k : K) (v : V) :
    (l.map fun e => if e.1 = k then (k, v) else e).map Prod.fst = l.map Prod.fst := by
  induction l with
  | nil => rfl
  | cons e l ih => by_cases h : e.1 = k <;> simp [h, ih]

def insert (m : LinkedHashMap K V) (k : K) (v : V) : LinkedHashMap K V :=
  if hk : k ∈ m.entries.map Prod.fst then
    ⟨m.entries.map fun e => if e.1 = k then (k, v) else e, by rw [map_fst_replace]; exact m.nodup⟩
  else
    ⟨m.entries ++ [(k, v)], by
      rw [List.map_append, List.map_singleton, ← List.concat_eq_append]
      exact m.nodup.concat hk⟩

theorem insert_entries_of_mem {m : LinkedHashMap K V} {k : K} (v : V)
    (hk : k ∈ m.entries.map Prod.fst) :
    (m.insert k v).entries = m.entries.map fun e => if e.1 = k then (k, v) else e := by
  simp [insert, hk]

theorem insert_entries_of_not_mem {m : LinkedHashMap K V} {k : K} (v : V)
    (hk : k ∉ m.entries.map Prod.fst) : (m.insert k v).entries = m.entries ++ [(k, v)] := by
  simp [insert, hk]

theorem len_insert_of_mem {m : LinkedHashMap K V} {k : K} (v : V)
    (hk : k ∈ m.entries.map Prod.fst) : (m.insert k v).len = m.len := by
  simp [len, insert_entries_of_mem v hk]

theorem len_insert_of_not_mem {m : LinkedHashMap K V} {k : K} (v : V)
    (hk : k ∉ m.entries.map Prod.fst) : (m.insert k v).len = m.len + 1 := by
  simp [len, insert_entries_of_not_mem v hk]

theorem len_insert_le (m : LinkedHashMap K V) (k : K) (v : V) : (m.insert k v).len ≤ m.len + 1 := by
  by_cases hk : k ∈ m.entries.map Prod.fst
  · rw [len_insert_of_mem v hk]; omega
  · rw [len_insert_of_not_mem v hk]

theorem find?_replace {l : List (K × V)} {k : K} (v : V) (hk : k ∈ l.map Prod.fst) :
    (l.map fun e => if e.1 = k then (k, v) else e).find? (fun e => e.1 = k) = some (k, v) := by
  induction l with
  | nil => simp at hk
  | cons e l ih =>
    by_cases he : e.1 = k
    · simp [he]
    · rw [List.map_cons, List.mem_cons] at hk
      rw [List.map_cons, if_neg he, List.find?_cons_of_neg _ (by simpa using he)]
      exact ih (hk.resolve_left (Ne.symm he))

theorem find?_append_fresh {l : List (K × V)} {k : K} (v : V) (hk : k ∉ l.map Prod.fst) :
    (l ++ [(k, v)]).find? (fun e => e.1 = k) = some (k, v) := by
  simp only [List.find?_append, List.find?_singleton, decide_True, cond_true]
  rw [List.find?_eq_none.mpr fun e he hek => hk (List.mem_map.mpr ⟨e, he, by simpa using hek⟩)]
  rfl

theorem get_insert_self (m : LinkedHashMap K V) (k : K) (v : V) : (m.insert k v).get k = some v := by
  by_cases hk : k ∈ m.entries.map Prod.fst
  · simp only [get, insert_entries_of_mem v hk, find?_replace v hk, Option.map_some']
  · simp only [get, insert_entries_of_not_mem v hk, find?_append_fresh v hk, Option.map_some']

theorem get_popFront_insert_fresh {m : LinkedHashMap K V} {k : K} (v : V)
    (hk : k ∉ m.entries.map Prod.fst) (hne : m.entries ≠ []) :
    (m.insert k v).popFront.get k = some v := by
  obtain ⟨e, l, he⟩ := List.exists_cons_of_ne_nil hne
  have hl : k ∉ l.map Prod.fst := fun hl => hk (by rw [he]; exact List.mem_cons_of_mem _ hl)
  simp only [get, popFront, insert_entries_of_not_mem v hk, he, List.cons_append, List.tail_cons,
    find?_append_fresh v hl, Option.map_some']

theorem mem_of_get {m : LinkedHashMap K V} {k : K} {v : V} (h : m.get k = some v) :
    (k, v) ∈ m.entries := by
  obtain ⟨⟨k', v'⟩, he, rfl⟩ := Option.map_eq_some'.mp h
  obtain rfl : k' = k := by simpa using List.find?_some he
  exact List.mem_of_find?_eq_some he

theorem mem_tail_insert {m : LinkedHashMap K V} {k : K} {v : V} {e : K × V}
    (he : e ∈ m.entries.tail) (hk : e.1 ≠ k) : e ∈ (m.insert k v).entries.tail := by
  by_cases hm : k ∈ m.entries.map Prod.fst
  · rw [insert_entries_of_mem v hm, ← List.map_tail]
    exact List.mem_map.mpr ⟨e, he, if_neg hk⟩
  · rw [insert_entries_of_not_mem v hm,
      List.tail_append_of_ne_nil (List.ne_nil_of_mem (List.mem_of_mem_tail he))]
    exact List.mem_append_left _ he

theorem mem_insert {m : LinkedHashMap K V} {k : K} {v : V} {e : K × V}
    (h : e ∈ (m.insert k v).entries) : e ∈ m.entries ∨ e = (k, v) := by
  unfold insert at h
  split at h
  · obtain ⟨e', he', rfl⟩ := List.mem_map.mp h
    by_cases hk : e'.1 = k <;> simp [hk, he']
  · simpa using h

end LinkedHashMap

/-- `RESPONSE_CACHE_CAP`. -/
def responseCacheCap : Nat := 1024

/-- `ResponseLrcCache`, without its `RwLock`: each access below is one critical section. -/
abbrev ResponseLrcCache (Response : Type) := LinkedHashMap CacheKey Response

/-- The cache write of `proxy_web3_rpc_request`: `insert`, then `pop_front` once the length
reaches `RESPONSE_CACHE_CAP`. -/
def cacheWrite {Response : Type} (cache : ResponseLrcCache Response) (key : CacheKey)
    (response : Response) : ResponseLrcCache Response :=
  let cache := cache.insert key response
  if cache.len ≥ responseCacheCap then cache.popFront else cache

theorem len_cacheWrite_le {Response : Type} {cache : ResponseLrcCache Response} (key : CacheKey)
    (response : Response) (h : cache.len ≤ responseCacheCap - 1) :
    (cacheWrite cache key response).len ≤ responseCacheCap - 1 := by
  have := cache.len_insert_le key response
  dsimp only [cacheWrite]
  split
  · rw [LinkedHashMap.len_popFront]; omega
  · omega

theorem get_cacheWrite_self {Response : Type} {cache : ResponseLrcCache Response} (key : CacheKey)
    (response : Response) (h : cache.len ≤ responseCacheCap - 1) :
    (cacheWrite cache key response).get key = some response := by
  dsimp only [cacheWrite]
  split
  · rename_i hpop
    have hk : key ∉ cache.entries.map Prod.fst := fun hk => by
      rw [LinkedHashMap.len_insert_of_mem response hk] at hpop
      exact absurd hpop (by unfold responseCacheCap at h ⊢; omega)
    have hne : cache.entries ≠ [] := fun he => by
      rw [LinkedHashMap.len_insert_of_not_mem response hk, LinkedHashMap.len, he] at hpop
      exact absurd hpop (by simp [responseCacheCap])
    exact LinkedHashMap.get_popFront_insert_fresh response hk hne
  · exact LinkedHashMap.get_insert_self _ _ _

theorem mem_cacheWrite {Response : Type} {cache : ResponseLrcCache Response} {key : CacheKey}
    {response : Response} {e : CacheKey × Response}
    (h : e ∈ (cacheWrite cache key response).entries) : e ∈ cache.entries ∨ e = (key, response) := by
  dsimp only [cacheWrite] at h
  split at h
  · exact LinkedHashMap.mem_insert (LinkedHashMap.mem_popFront h)
  · exact LinkedHashMap.mem_insert h

theorem mem_cacheWrite_of_mem_tail {Response : Type} {cache : ResponseLrcCache Response}
    {key : CacheKey} {response : Response} {e : CacheKey × Response} (he : e ∈ cache.entries.tail)
    (hk : e.1 ≠ key) : e ∈ (cacheWrite cache key response).entries := by
  dsimp only [cacheWrite]
  split
  · exact LinkedHashMap.mem_tail_insert he hk
  · exact List.mem_of_mem_tail (LinkedHashMap.mem_tail_insert he hk)

end Web3Proxy

import Mathlib.Data.List.Nodup
import Mathlib.Data.Nat.Digits
import Mathlib.Tactic.Ring
import Web3Proxy.Json
import Web3Proxy.PendingTx

/-! The synchronous part of `Web3ProxyApp::eth_subscribe`: the `fetch_add` on
`next_subscription_id`, the `{:#x}` formatting of its result, and the match of the raw params text
against four literals, after an `unwrap` of the params. Concurrent calls share only the counter. -/

namespace Web3Proxy

section Hex

/-- The value of a lowercase hex digit. -/
def hexDigitValue (c : Char) : Nat :=
  if c.isDigit then c.toNat - '0'.toNat else c.toNat - 'a'.toNat + 10

def isLowerHexDigit (c : Char) : Bool := c.isDigit || ('a' ≤ c && c ≤ 'f')

/-- The number a numeral of hex digits denotes, most significant digit first. -/
def hexValue (ds : List Char) : Nat := ds.foldl (fun n c => 16 * n + hexDigitValue c) 0

/-- `ds` is the lowercase hexadecimal numeral of `n`. -/
structure IsLowerHex (ds : List Char) (n : Nat) : Prop where
  nonempty : ds ≠ []
  digits : ∀ c ∈ ds, isLowerHexDigit c
  value : hexValue ds = n
  noLeadingZero : ds.head? ≠ some '0' ∨ ds = ['0']

/-- `format!("{:#x}", n)`: `0x` and the lowercase hex digits of `n`. -/
def formatHex (n : Nat) : String := "0x" ++ String.mk (Nat.toDigits 16 n)

theorem digitChar_hex {d : Nat} (h : d < 16) : hexDigitValue (Nat.digitChar d) = d ∧
    isLowerHexDigit (Nat.digitChar d) ∧ (0 < d → Nat.digitChar d ≠ '0') :=
  (by decide : ∀ d : Fin 16, hexDigitValue (Nat.digitChar d) = d ∧
    isLowerHexDigit (Nat.digitChar d) ∧ (0 < d.val → Nat.digitChar d ≠ '0')) ⟨d, h⟩

theorem foldl_hex (a : Nat) (ds : List Char) :
    ds.foldl (fun n c => 16 * n + hexDigitValue c) a = a * 16 ^ ds.length + hexValue ds := by
  induction ds generalizing a with
  | nil => simp [hexValue]
  | cons c ds ih =>
    simp only [hexValue, List.foldl_cons, List.length_cons] at ih ⊢
    rw [ih, ih (16 * 0 + hexDigitValue c)]
    ring

theorem hexValue_cons (c : Char) (ds : List Char) :
    hexValue (c :: ds) = hexDigitValue c * 16 ^ ds.length + hexValue ds := by
  rw [hexValue, List.foldl_cons, foldl_hex]
  simp

theorem hexValue_toDigitsCore : ∀ (f n : Nat) (ds : List Char), n < f →
    hexValue (Nat.toDigitsCore 16 f n ds) = n * 16 ^ ds.length + hexValue ds
  | 0, _, _, h => absurd h (Nat.not_lt_zero _)
  | f + 1, n, ds, h => by
    have hd := (digitChar_hex (Nat.mod_lt n (by decide : 16 > 0))).1
    simp only [Nat.toDigitsCore]
    split
    · rw [hexValue_cons, hd, show n % 16 = n by omega]
    · rw [hexValue_toDigitsCore f (n / 16) _ (by omega), hexValue_cons, hd, List.length_cons]
      conv_rhs => rw [← Nat.div_add_mod n 16]
      ring

theorem digits_toDigitsCore : ∀ (f n : Nat) (ds : List Char), (∀ c ∈ ds, isLowerHexDigit c) →
    ∀ c ∈ Nat.toDigitsCore 16 f n ds, isLowerHexDigit c
  | 0, _, _, h => h
  | f + 1, n, ds, h => by
    have hd := (digitChar_hex (Nat.mod_lt n (by decide : 16 > 0))).2.1
    have hds : ∀ c ∈ Nat.digitChar (n % 16) :: ds, isLowerHexDigit c := by
      simpa [hd] using h
    simp only [Nat.toDigitsCore]
    split
    · exact hds
    · exact digits_toDigitsCore f (n / 16) _ hds

theorem head_toDigitsCore : ∀ (f n : Nat) (ds : List Char), 0 < n → n < f →
    ∃ c cs, Nat.toDigitsCore 16 f n ds = c :: cs ∧ c ≠ '0'
  | 0, _, _, _, h => absurd h (Nat.not_lt_zero _)
  | f + 1, n, ds, hn, h => by
    simp only [Nat.toDigitsCore]
    split
    · exact ⟨_, _, rfl, (digitChar_hex (Nat.mod_lt n (by decide : 16 > 0))).2.2 (by omega)⟩
    · exact head_toDigitsCore f (n / 16) _ (by omega) (by omega)

theorem isLowerHex_toDigits (n : Nat) : IsLowerHex (Nat.toDigits 16 n) n := by
  rcases Nat.eq_zero_or_pos n with rfl | hn
  · exact ⟨by decide, by decide, by decide, .inr rfl⟩
  · obtain ⟨c, cs, he, hc⟩ := head_toDigitsCore (n + 1) n [] hn (Nat.lt_succ_self n)
    refine ⟨by simp [Nat.toDigits, he], digits_toDigitsCore _ _ _ (by simp), ?_,
      .inl (by simp [Nat.toDigits, he, hc])⟩
    rw [Nat.toDigits, hexValue_toDigitsCore _ _ _ (Nat.lt_succ_self n)]
    simp [hexValue]

theorem formatHex_injective {a b : Nat} (h : formatHex a = formatHex b) : a = b := by
  have hd : Nat.toDigits 16 a = Nat.toDigits 16 b :=
    List.append_cancel_left (congrArg String.toList h)
  rw [← (isLowerHex_toDigits a).value, ← (isLowerHex_toDigits b).value, hd]

example : formatHex 255 = "0xff" := by decide

end Hex

/-- The kind of subscription `eth_subscribe` starts. -/
inductive SubscriptionKind
  | newHeads
  | pending (kind : PendingKind)
  deriving DecidableEq, Repr

/-- The literal params text of each arm of the match. -/
def SubscriptionKind.params : SubscriptionKind → String
  | .newHeads => "[\"newHeads\"]"
  | .pending .newPendingTransactions => "[\"newPendingTransactions\"]"
  | .pending .newPendingFullTransactions => "[\"newPendingFullTransactions\"]"
  | .pending .newPendingRawTransactions => "[\"newPendingRawTransactions\"]"

/-- `match payload.params.as_deref().unwrap().get()`: the raw text against the four literals. -/
def subscriptionKind : String → Option SubscriptionKind
  | "[\"newHeads\"]" => some .newHeads
  | "[\"newPendingTransactions\"]" => some (.pending .newPendingTransactions)
  | "[\"newPendingFullTransactions\"]" => some (.pending .newPendingFullTransactions)
  | "[\"newPendingRawTransactions\"]" => some (.pending .newPendingRawTransactions)
  | _ => none

/-- How a call of `eth_subscribe` ends: `Ok` with a started subscription and the response built
by `JsonRpcForwardedResponse::from_string(subscription_id, id)`, the `Err` of the fallback arm, or
the panic of `unwrap` on absent params. -/
inductive SubscribeResult
  | ok (kind : SubscriptionKind) (subscriptionId : String) (id : String)
  | err (msg : String)
  | panic
  deriving DecidableEq, Repr

/-- The params match of `eth_subscribe`, after the `unwrap` of its params, with the
`subscription_id` it has formatted and the `id` it has saved. -/
def matchParams (subscriptionId : String) (payload : JsonRpcRequest) : SubscribeResult :=
  match payload.params with
  | none => .panic
  | some params =>
    match subscriptionKind params with
    | some kind => .ok kind subscriptionId payload.id
    | none => .err "unimplemented"

/-- `eth_subscribe` after its `fetch_add` returned `next`: the `{:#x}` formatting, then the
match. -/
def ethSubscribe (next : Nat) (payload : JsonRpcRequest) : SubscribeResult :=
  matchParams (formatHex next) payload

/-- Without params `eth_subscribe` panics in its `unwrap`; with `["newHeads"]` spaced out, which is
the same JSON value, it returns the `Err` of its fallback arm. -/
theorem subscribe_params_by_text :
    (∀ next id method, ethSubscribe next ⟨id, method, none⟩ = .panic) ∧
      JsonEq "[ \"newHeads\" ]" SubscriptionKind.newHeads.params ∧
      ∀ next id method,
        ethSubscribe next ⟨id, method, some "[ \"newHeads\" ]"⟩ = .err "unimplemented" :=
  ⟨fun _ _ _ => rfl, by decide, fun _ _ _ => rfl⟩

section Counter

variable {w : Nat}

/-- Where a call of `eth_subscribe` is: before its `fetch_add`, after it with the
`subscription_id` it formatted, or returned. -/
inductive SubscribePhase
  | start
  | fetched (subscriptionId : String)
  | returned (subscriptionId : String) (result : SubscribeResult)
  deriving DecidableEq, Repr

def SubscribePhase.subscriptionId : SubscribePhase → Option String
  | .start => none
  | .fetched sid | .returned sid _ => some sid

structure SubscribeCall (w : Nat) where
  payload : JsonRpcRequest
  phase : SubscribePhase

/-- Concurrent `eth_subscribe` calls on one app. `nextSubscriptionId` is the `AtomicUsize` as a
`w`-bit word; `order` is a ghost log of the calls in the order of their `fetch_add`. -/
structure Subscribers (w : Nat) where
  nextSubscriptionId : BitVec w
  calls : Nat → SubscribeCall w
  order : List Nat

namespace Subscribers

def setPhase (s : Subscribers w) (i : Nat) (p : SubscribePhase) : Subscribers w :=
  { s with calls := Function.update s.calls i { s.calls i with phase := p } }

variable {s s' : Subscribers w} {i : Nat} {p : SubscribePhase}

@[simp] theorem setPhase_order : (s.setPhase i p).order = s.order := rfl
@[simp] theorem setPhase_nextSubscriptionId :
    (s.setPhase i p).nextSubscriptionId = s.nextSubscriptionId := rfl
@[simp] theorem setPhase_phase_self : ((s.setPhase i p).calls i).phase = p := by simp [setPhase]
theorem setPhase_phase_ne {j : Nat} (h : j ≠ i) : ((s.setPhase i p).calls j).phase = (s.calls j).phase := by
  simp [setPhase, Function.update_noteq h]

/-- One step of call `i`: the `fetch_add(1, SeqCst)`, which wraps, and the `{:#x}` of the value it
read; or the params match and the rest of the call, which touch no shared state. -/
def step (s : Subscribers w) (i : Nat) : Option (Subscribers w) :=
  match (s.calls i).phase with
  | .start => some { s.setPhase i (.fetched (formatHex s.nextSubscriptionId.toNat)) with
      nextSubscriptionId := s.nextSubscriptionId + 1, order := s.order ++ [i] }
  | .fetched sid => some (s.setPhase i (.returned sid (matchParams sid (s.calls i).payload)))
  | .returned _ _ => none

def run (s : Subscribers w) : List Nat → Option (Subscribers w)
  | [] => some s
  | i :: is => (s.step i).bind fun s' => s'.run is

/-- `next_subscription_id: 1.into()` in `Web3ProxyApp::spawn`; no call has started. -/
def init (payloads : Nat → JsonRpcRequest) : Subscribers w :=
  ⟨1, fun i => ⟨payloads i, .start⟩, []⟩

structure Numbered (s : Subscribers w) : Prop where
  next : s.nextSubscriptionId = BitVec.ofNat w (s.order.length + 1)
  nodup : s.order.Nodup
  started : ∀ i, (s.calls i).phase.subscriptionId.isSome ↔ i ∈ s.order
  fetched : ∀ j (hj : j < s.order.length),
    (s.calls s.order[j]).phase.subscriptionId = some (formatHex ((j + 1) % 2 ^ w))

theorem subscriptionId_setPhase {c : Nat}
    (hp : p.subscriptionId = (s.calls i).phase.subscriptionId) :
    ((s.setPhase i p).calls c).phase.subscriptionId = (s.calls c).phase.subscriptionId := by
  by_cases hc : c = i
  · subst hc; rw [setPhase_phase_self, hp]
  · rw [setPhase_phase_ne hc]

theorem numbered_init (payloads : Nat → JsonRpcRequest) : (init payloads : Subscribers w).Numbered :=
  ⟨rfl, List.nodup_nil, fun _ => by simp [init, SubscribePhase.subscriptionId],
    fun _ hj => absurd hj (Nat.not_lt_zero _)⟩

theorem Numbered.step (h : s.Numbered) (hs : s.step i = some s') : s'.Numbered := by
  unfold Subscribers.step at hs
  split at hs
  next hp =>
    -- the `fetch_add`: `i` is appended to the log with the id of the value it read
    obtain rfl := Option.some.inj hs
    have hi : i ∉ s.order := fun hi => by
      simpa [hp, SubscribePhase.subscriptionId] using (h.started i).mpr hi
    refine ⟨?_, h.nodup.append (List.nodup_singleton i) (by simpa using hi), fun c => ?_,
      fun j hj => ?_⟩
    · simp [h.next, BitVec.ofNat_add_ofNat]
    · by_cases hc : c = i
      · subst hc; simp [SubscribePhase.subscriptionId]
      · simp [setPhase_phase_ne hc, h.started c, hc]
    · simp only [List.length_append, List.length_singleton] at hj
      rcases Nat.lt_succ_iff_lt_or_eq.mp hj with hj | rfl
      · have hne : s.order[j] ≠ i := fun e => hi (e ▸ List.getElem_mem hj)
        simp only [List.getElem_append_left hj, setPhase_phase_ne hne]
        exact h.fetched j hj
      · simp [h.next, SubscribePhase.subscriptionId]
  next sid hp =>
    -- the rest of the call keeps the id it formatted
    obtain rfl := Option.some.inj hs
    have hv : ∀ c, ((s.setPhase i (.returned sid (matchParams sid (s.calls i).payload))).calls
        c).phase.subscriptionId = (s.calls c).phase.subscriptionId :=
      fun _ => subscriptionId_setPhase (by rw [hp]; rfl)
    exact ⟨h.next, h.nodup, fun c => by rw [hv]; exact h.started c,
      fun j hj => by rw [hv]; exact h.fetched j hj⟩
  next => cases hs

theorem Numbered.run {is : List Nat} (h : s.Numbered) (hs : s.run is = some s') : s'.Numbered := by
  induction is generalizing s with
  | nil => exact Option.some.inj hs ▸ h
  | cons i is ih =>
    obtain ⟨t, ht, hs⟩ := Option.bind_eq_some.mp hs
    exact ih (h.step ht) hs

theorem Numbered.subscriptionId (h : s.Numbered) (hN : s.order.length < 2 ^ w) {j : Nat}
    (hj : j < s.order.length) : (s.calls s.order[j]).phase.subscriptionId = some (formatHex (j + 1)) := by
  rw [h.fetched j hj, Nat.mod_eq_of_lt (by omega : j + 1 < 2 ^ w)]

theorem Numbered.mem_of_subscriptionId (h : s.Numbered) {a : String}
    (ha : (s.calls i).phase.subscriptionId = some a) : ∃ j, ∃ hj : j < s.order.length, s.order[j] = i :=
  List.mem_iff_getElem.mp ((h.started i).mp (by simp [ha]))

end Subscribers

open Subscribers in
/-- Over every interleaving of fewer than `2 ^ w` calls, the call that performs the `j`-th
`fetch_add` formats `j + 1`; so no two calls share a `subscription_id`, and each is `0x` followed by
the lowercase hex numeral of a positive number. -/
theorem subscription_ids_unique {payloads : Nat → JsonRpcRequest} {is : List Nat}
    {s : Subscribers w} (hrun : (Subscribers.init payloads).run is = some s) (hN : s.order.length < 2 ^ w) :
    (∀ j (hj : j < s.order.length),
      (s.calls s.order[j]).phase.subscriptionId = some (formatHex (j + 1))) ∧
    (∀ i₁ i₂ a b, i₁ ≠ i₂ → (s.calls i₁).phase.subscriptionId = some a →
      (s.calls i₂).phase.subscriptionId = some b → a ≠ b) ∧
    (∀ i a, (s.calls i).phase.subscriptionId = some a →
      ∃ n ds, 0 < n ∧ a = "0x" ++ String.mk ds ∧ IsLowerHex ds n) := by
  have h := (numbered_init payloads).run hrun
  refine ⟨fun j hj => h.subscriptionId hN hj, fun i₁ i₂ a b hne ha hb hab => hne ?_, fun i a ha => ?_⟩
  · obtain ⟨p, hp, rfl⟩ := h.mem_of_subscriptionId ha
    obtain ⟨q, hq, rfl⟩ := h.mem_of_subscriptionId hb
    rw [h.subscriptionId hN hp, Option.some.injEq] at ha
    rw [h.subscriptionId hN hq, Option.some.injEq] at hb
    have hpq : p + 1 = q + 1 := formatHex_injective (ha.trans (hab.trans hb.symm))
    simp only [Nat.add_right_cancel hpq]
  · obtain ⟨p, hp, rfl⟩ := h.mem_of_subscriptionId ha
    rw [h.subscriptionId hN hp, Option.some.injEq] at ha
    exact ⟨p + 1, _, Nat.succ_pos p, ha.symm, isLowerHex_toDigits (p + 1)⟩

def newHeadsRequest : JsonRpcRequest := ⟨"1", "eth_subscribe", some SubscriptionKind.newHeads.params⟩

theorem subscription_ids_unique_interleaved :
    ∃ s : Subscribers 64, (Subscribers.init fun _ => newHeadsRequest).run [1, 0, 0, 1] = some s ∧
      s.order = [1, 0] ∧ (s.calls 1).phase.subscriptionId = some "0x1" ∧
      (s.calls 0).phase.subscriptionId = some "0x2" ∧ s.order.length < 2 ^ 64 ∧
      ((∀ j (hj : j < s.order.length),
        (s.calls s.order[j]).phase.subscriptionId = some (formatHex (j + 1))) ∧
      (∀ i₁ i₂ a b, i₁ ≠ i₂ → (s.calls i₁).phase.subscriptionId = some a →
        (s.calls i₂).phase.subscriptionId = some b → a ≠ b) ∧
      (∀ i a, (s.calls i).phase.subscriptionId = some a →
        ∃ n ds, 0 < n ∧ a = "0x" ++ String.mk ds ∧ IsLowerHex ds n)) :=
  ⟨_, rfl, rfl, rfl, rfl, by decide,
    @subscription_ids_unique 64 (fun _ => newHeadsRequest) [1, 0, 0, 1] _ rfl (by decide)⟩

open Subscribers in
/-- Over every interleaving, the call that performs the `j`-th `fetch_add` formats
`(j + 1) mod 2 ^ w`: the counter wraps, and two calls share a `subscription_id` exactly when their
`fetch_add`s are a multiple of `2 ^ w` apart. -/
theorem subscription_ids_wrap {payloads : Nat → JsonRpcRequest} {is : List Nat}
    {s : Subscribers w} (hrun : (Subscribers.init payloads).run is = some s) :
    (∀ j (hj : j < s.order.length),
      (s.calls s.order[j]).phase.subscriptionId = some (formatHex ((j + 1) % 2 ^ w))) ∧
    ∀ p q (hp : p < s.order.length) (hq : q < s.order.length),
      (s.calls s.order[p]).phase.subscriptionId = (s.calls s.order[q]).phase.subscriptionId ↔
        p % 2 ^ w = q % 2 ^ w := by
  have h := (numbered_init payloads).run hrun
  refine ⟨h.fetched, fun p q hp hq => ?_⟩
  rw [h.fetched p hp, h.fetched q hq, Option.some.injEq]
  constructor
  · exact fun he => Nat.ModEq.add_right_cancel' 1 (formatHex_injective he)
  · exact fun he => by rw [Nat.add_mod, he, ← Nat.add_mod]

theorem subscription_ids_wrap_one :
    ∃ s : Subscribers 1, (Subscribers.init fun _ => newHeadsRequest).run [0, 1, 2] = some s ∧
      s.order = [0, 1, 2] ∧ (s.calls 0).phase.subscriptionId = some "0x1" ∧
      (s.calls 1).phase.subscriptionId = some "0x0" ∧ (s.calls 2).phase.subscriptionId = some "0x1" ∧
      ((∀ j (hj : j < s.order.length),
        (s.calls s.order[j]).phase.subscriptionId = some (formatHex ((j + 1) % 2 ^ 1))) ∧
      ∀ p q (hp : p < s.order.length) (hq : q < s.order.length),
        (s.calls s.order[p]).phase.subscriptionId = (s.calls s.order[q]).phase.subscriptionId ↔
          p % 2 ^ 1 = q % 2 ^ 1) :=
  ⟨_, rfl, rfl, rfl, rfl, rfl, @subscription_ids_wrap 1 (fun _ => newHeadsRequest) [0, 1, 2] _ rfl⟩

end Counter

end Web3Proxy

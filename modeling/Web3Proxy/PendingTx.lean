import Web3Proxy.Request

/-! The pending-transaction subscriptions of `eth_subscribe`. Each one reads `pending_tx_sender`
through a `BroadcastStream` of a `broadcast::channel(16)` receiver wrapped in `Abortable`, and
forwards the `Pending` and `Orphaned` states to the client. The `while let Some(Ok(..))` loop also
ends when the receiver has fallen more than 16 values behind: the stream then yields a lag error. -/

namespace Web3Proxy

/-- `ethers::Transaction`, by what the subscriptions read of it; `rlp` stands for `rlp()`. -/
structure Transaction where
  hash : H256
  rlp : List UInt8
  deriving DecidableEq, Repr

inductive TxState
  | pending (tx : Transaction)
  | confirmed (tx : Transaction)
  | orphaned (tx : Transaction)
  deriving DecidableEq, Repr

/-- The three pending-transaction arms of `eth_subscribe`. -/
inductive PendingKind
  | newPendingTransactions
  | newPendingFullTransactions
  | newPendingRawTransactions
  deriving DecidableEq, Repr

/-- The `result` of a notification. -/
inductive Payload
  | hash (h : H256)
  | transaction (tx : Transaction)
  | raw (bytes : List UInt8)
  deriving DecidableEq, Repr

/-- The `eth_subscription` notification a subscription sends. -/
structure Notification where
  subscription : String
  result : Payload
  deriving DecidableEq, Repr

def PendingKind.result : PendingKind → Transaction → Payload
  | .newPendingTransactions, tx => .hash tx.hash
  | .newPendingFullTransactions, tx => .transaction tx
  | .newPendingRawTransactions, tx => .raw tx.rlp

/-- The `match new_tx_state` of the loops: `Confirmed` is skipped with `continue`. -/
def notification (kind : PendingKind) (id : String) : TxState → Option Notification
  | .pending tx | .orphaned tx => some ⟨id, kind.result tx⟩
  | .confirmed _ => none

/-- The capacity of `broadcast::channel(16)`, already a power of two. -/
def pendingTxCapacity : Nat := 16

inductive EndReason
  | aborted
  | lagged
  | sendFailed (msg : Notification)
  deriving DecidableEq, Repr

inductive SubPhase
  | polling
  | sending (msg : Notification)
  | ended (reason : EndReason)
  deriving DecidableEq, Repr

/-- One subscription task and the channel as it sees it. `sent` is every value stored in the
channel, the last `pendingTxCapacity` of them still in its ring buffer; `next` is the receiver's
position; `out` is what `subscription_tx` has accepted. -/
structure PendingSub where
  kind : PendingKind
  id : String
  sent : List TxState
  next : Nat
  aborted : Bool
  phase : SubPhase
  out : List Notification
  deriving DecidableEq, Repr

/-- `pending_tx_sender.subscribe()`: the receiver starts at the tail. -/
def PendingSub.subscribe (kind : PendingKind) (id : String) (sent : List TxState) : PendingSub :=
  ⟨kind, id, sent, sent.length, false, .polling, []⟩

inductive SubEvent
  | broadcast (v : TxState)
  | poll
  | sendDone (ok : Bool)
  | abort

namespace PendingSub

/-- One poll of the loop: `Abortable` first looks at its flag; the receiver then waits at the
tail, reports a lag once its slot has been overwritten, or reads its value. The receiver is
dropped with the task after a lag, so its moved cursor is not kept. -/
def poll (s : PendingSub) : Option PendingSub :=
  if s.aborted then some { s with phase := .ended .aborted }
  else if s.sent.length ≤ s.next then none
  else if pendingTxCapacity < s.sent.length - s.next then some { s with phase := .ended .lagged }
  else
    match s.sent[s.next]? with
    | some v =>
      match notification s.kind s.id v with
      | some msg => some { s with next := s.next + 1, phase := .sending msg }
      | none => some { s with next := s.next + 1 }
    | none => none

def step (s : PendingSub) : SubEvent → Option PendingSub
  | .broadcast v => some { s with sent := s.sent ++ [v] }
  | .abort => some { s with aborted := true }
  | .poll => if s.phase = .polling then s.poll else none
  | .sendDone ok =>
    match s.phase with
    | .sending msg =>
      if ok then some { s with out := s.out ++ [msg], phase := .polling }
      else some { s with phase := .ended (.sendFailed msg) }
    | _ => none

def run (s : PendingSub) : List SubEvent → Option PendingSub
  | [] => some s
  | e :: es => (s.step e).bind fun s' => run s' es

end PendingSub

def SubPhase.inFlight : SubPhase → List Notification
  | .sending msg | .ended (.sendFailed msg) => [msg]
  | _ => []

def SubEvent.broadcasted : SubEvent → Option TxState
  | .broadcast v => some v
  | _ => none

namespace PendingSub

def Delivered (start : Nat) (s : PendingSub) : Prop :=
  start ≤ s.next ∧ s.next ≤ s.sent.length ∧
    s.out ++ s.phase.inFlight =
      ((s.sent.take s.next).drop start).filterMap (notification s.kind s.id) ∧
    (s.phase = .ended .lagged → pendingTxCapacity < s.sent.length - s.next) ∧
    (s.phase = .ended .aborted → s.aborted = true)

theorem take_succ_drop {l : List TxState} {start n : Nat} (h₁ : start ≤ n)
    (h₂ : n < l.length) :
    (l.take (n + 1)).drop start = (l.take n).drop start ++ [l[n]] := by
  rw [List.take_succ, List.getElem?_eq_getElem h₂, Option.toList_some,
    List.drop_append_of_le_length (by simp; omega)]

theorem delivered_step {start : Nat} {s s' : PendingSub} {e : SubEvent} (h : Delivered start s)
    (hs : s.step e = some s') : Delivered start s' := by
  obtain ⟨h₁, h₂, hout, hlag, habort⟩ := h
  cases e with
  | broadcast v =>
    obtain rfl := Option.some.inj hs
    refine ⟨h₁, by simp; omega, ?_, fun hp => by simp; have := hlag hp; omega, habort⟩
    simpa [List.take_append_of_le_length h₂] using hout
  | abort =>
    obtain rfl := Option.some.inj hs
    exact ⟨h₁, h₂, hout, hlag, fun _ => rfl⟩
  | poll =>
    simp only [step] at hs
    split_ifs at hs with hp
    simp only [poll] at hs
    split_ifs at hs with ha hempty hlagged <;>
      simp only [hp, SubPhase.inFlight, List.append_nil] at hout
    · obtain rfl := Option.some.inj hs
      exact ⟨h₁, h₂, by simpa [SubPhase.inFlight] using hout, by simp, fun _ => ha⟩
    · obtain rfl := Option.some.inj hs
      exact ⟨h₁, h₂, by simpa [SubPhase.inFlight] using hout, fun _ => hlagged, by simp⟩
    · have hn : s.next < s.sent.length := by omega
      rw [List.getElem?_eq_getElem hn] at hs
      simp only at hs
      have hrecv := take_succ_drop h₁ hn
      split at hs <;> rename_i hmsg <;> obtain rfl := Option.some.inj hs
      · exact ⟨Nat.le_succ_of_le h₁, hn,
          by simp [hrecv, List.filterMap_append, hmsg, ← hout, SubPhase.inFlight],
          by simp, by simp⟩
      · exact ⟨Nat.le_succ_of_le h₁, hn,
          by simp [hrecv, List.filterMap_append, hmsg, ← hout, hp, SubPhase.inFlight],
          by simp [hp], by simp [hp]⟩
  | sendDone ok =>
    simp only [step] at hs
    split at hs
    · rename_i msg hp
      simp only [hp, SubPhase.inFlight] at hout
      split_ifs at hs <;> obtain rfl := Option.some.inj hs <;>
        exact ⟨h₁, h₂, by simpa [SubPhase.inFlight] using hout, by simp, by simp⟩
    · cases hs

theorem poll_frame {s t : PendingSub} (h : s.poll = some t) :
    t.sent = s.sent ∧ t.kind = s.kind ∧ t.id = s.id := by
  simp only [poll] at h
  split_ifs at h
  · cases h; exact ⟨rfl, rfl, rfl⟩
  · cases h; exact ⟨rfl, rfl, rfl⟩
  · split at h
    · split at h <;> cases h <;> exact ⟨rfl, rfl, rfl⟩
    · cases h

theorem step_sent {s t : PendingSub} {e : SubEvent} (h : s.step e = some t) :
    t.sent = s.sent ++ e.broadcasted.toList ∧ t.kind = s.kind ∧ t.id = s.id := by
  cases e with
  | broadcast v => cases h; simp [SubEvent.broadcasted]
  | abort => cases h; simp [SubEvent.broadcasted]
  | poll =>
    simp only [step] at h
    split_ifs at h
    simpa [SubEvent.broadcasted] using poll_frame h
  | sendDone ok =>
    simp only [step] at h
    split at h
    · split_ifs at h <;> cases h <;> simp [SubEvent.broadcasted]
    · cases h

theorem run_sent {s s' : PendingSub} {es : List SubEvent} (h : s.run es = some s') :
    s'.sent = s.sent ++ es.filterMap SubEvent.broadcasted ∧ s'.kind = s.kind ∧
      s'.id = s.id := by
  induction es generalizing s with
  | nil => obtain rfl := Option.some.inj h; simp
  | cons e es ih =>
    obtain ⟨t, ht, h⟩ := Option.bind_eq_some.mp h
    obtain ⟨hsent, hk, hi⟩ := ih h
    obtain ⟨hsent', hk', hi'⟩ := step_sent ht
    refine ⟨?_, hk.trans hk', hi.trans hi'⟩
    rw [hsent, hsent']
    cases e <;> simp [SubEvent.broadcasted]

theorem run_delivered {start : Nat} {s s' : PendingSub} {es : List SubEvent} (h : Delivered start s)
    (hrun : s.run es = some s') : Delivered start s' := by
  induction es generalizing s with
  | nil => exact Option.some.inj hrun ▸ h
  | cons e es ih =>
    obtain ⟨t, ht, hrun⟩ := Option.bind_eq_some.mp hrun
    exact ih (delivered_step h ht) hrun

end PendingSub

open PendingSub

/-- Along every interleaving of broadcasts with a pending-transaction subscription of any kind:
the channel holds the values sent before the subscribe and then every broadcast in order; the
notifications delivered, followed by the one taken and not delivered, are those of the `Pending`
and `Orphaned` values among the broadcasts from the subscribe up to the receiver's cursor, in
order, each once, with the hash, the transaction or its RLP as the kind says; the task ends by a
lag only when more than 16 values are ahead of its cursor, and by the abort only once aborted. -/
theorem pendingTx_delivery (kind : PendingKind) (id : String) (sent₀ : List TxState)
    {es : List SubEvent} {s : PendingSub} (h : (subscribe kind id sent₀).run es = some s) :
    s.sent = sent₀ ++ es.filterMap SubEvent.broadcasted ∧ sent₀.length ≤ s.next ∧
      s.next ≤ s.sent.length ∧
      s.out ++ s.phase.inFlight = ((s.sent.take s.next).drop sent₀.length).filterMap
        (notification kind id) ∧
      (s.phase = .ended .lagged → pendingTxCapacity < s.sent.length - s.next) ∧
      (s.phase = .ended .aborted → s.aborted = true) := by
  obtain ⟨hsent, hk, hi⟩ := run_sent h
  have hd : Delivered sent₀.length (subscribe kind id sent₀) := by
    simp [Delivered, subscribe, SubPhase.inFlight]
  obtain ⟨h₁, h₂, hout, hlag, habort⟩ := run_delivered hd h
  rw [hk, hi] at hout
  exact ⟨hsent, h₁, h₂, hout, hlag, habort⟩

def txA : Transaction := ⟨0xaa, [0xf8, 0x6b]⟩

theorem pendingTx_delivery_one :
    ∃ s, (subscribe .newPendingTransactions "0x1" []).run
        [.broadcast (.pending txA), .broadcast (.confirmed txA), .poll, .sendDone true, .poll] = some s ∧
      (s.sent = [] ++ [SubEvent.broadcast (.pending txA), .broadcast (.confirmed txA), .poll,
          .sendDone true, .poll].filterMap SubEvent.broadcasted ∧ ([] : List TxState).length ≤ s.next ∧
        s.next ≤ s.sent.length ∧
        s.out ++ s.phase.inFlight = ((s.sent.take s.next).drop ([] : List TxState).length).filterMap
          (notification .newPendingTransactions "0x1") ∧
        (s.phase = .ended .lagged → pendingTxCapacity < s.sent.length - s.next) ∧
        (s.phase = .ended .aborted → s.aborted = true)) :=
  ⟨_, rfl, pendingTx_delivery .newPendingTransactions "0x1" [] rfl⟩

/-- Seventeen `Pending` broadcasts before the task's first poll: the stream yields a lag error
and the loop ends, though nothing aborted it and no send failed, and none of them is sent. -/
theorem lagging_subscription_ends :
    ∃ s, (subscribe .newPendingTransactions "0x1" []).run
        (List.replicate 17 (.broadcast (.pending txA)) ++ [.poll]) = some s ∧
      s.phase = .ended .lagged ∧ s.aborted = false ∧ s.out = [] :=
  ⟨_, rfl, rfl, rfl, rfl⟩

end Web3Proxy

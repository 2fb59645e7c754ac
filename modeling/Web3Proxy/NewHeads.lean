import Web3Proxy.Subscribe

/-! The `newHeads` arm of `eth_subscribe`. The task reads a clone of `head_block_receiver`, the
receiver of `watch::channel(Block::default())`, through a `WatchStream` wrapped in `Abortable`.
The stream yields the channel's current value at its first poll, and afterwards the latest value
each time the version has moved; it ends when the sender is gone. Its notifications are the
channel's values in order, each at most once, and the first of them is the placeholder when the
client subscribed before the first head was published. -/

namespace Web3Proxy

/-- `ethers::Block<TxHash>`, by the fields that tell heads apart. -/
structure Block where
  hash : Option H256
  number : Option Nat
  deriving DecidableEq, Repr

/-- `Block::default()`. -/
def Block.default : Block := ⟨none, none⟩

/-- The `eth_subscription` notification of a head. -/
structure HeadNotification where
  subscription : String
  result : Block
  deriving DecidableEq, Repr

inductive HeadsPhase
  | polling
  | sending (msg : HeadNotification)
  | ended
  deriving DecidableEq, Repr

/-- The notification a task has taken from the stream and not yet handed to `subscription_tx`. -/
def HeadsPhase.held : HeadsPhase → List HeadNotification
  | .sending msg => [msg]
  | _ => []

/-- A `newHeads` task and the watch channel as it sees it. `published` is every value sent on
`head_block_sender`: the channel's version is its length. `seen` is the version the stream last
yielded, `none` before its first item; `out` is what `subscription_tx` has accepted. -/
structure HeadsSub where
  id : String
  published : List Block
  closed : Bool
  seen : Option Nat
  aborted : Bool
  phase : HeadsPhase
  out : List HeadNotification
  deriving DecidableEq, Repr

inductive HeadsEvent
  | publish (b : Block)
  | close
  | poll
  | sendDone (ok : Bool)
  | abort

def HeadsEvent.published : HeadsEvent → Option Block
  | .publish b => some b
  | _ => none

namespace HeadsSub

/-- The channel's value at each version: the placeholder it was created with, then every value
sent. -/
def values (s : HeadsSub) : List Block := Block.default :: s.published

/-- The value at the newest version, which `borrow_and_update` reads. -/
def current (s : HeadsSub) : Block := s.values.getLast (List.cons_ne_nil _ _)

def yielded (s : HeadsSub) : Nat :=
  match s.seen with
  | none => 0
  | some v => v + 1

/-- `head_block_receiver.clone()` and `WatchStream::new`, on a channel that has been sent
`published`. -/
def subscribe (id : String) (published : List Block) (closed : Bool) : HeadsSub :=
  ⟨id, published, closed, none, false, .polling, []⟩

/-- One poll of the loop. `Abortable` looks at its flag first. The stream's first item is ready at
once; later items wait on `changed()`, which returns once the version has moved past the one seen
and fails once the sender is dropped. Modelled from the spec (last-value semantics, the current
value at once for a new subscriber): `tokio-stream` is not among the sources, and an item is
taken to mark its version seen. -/
def poll (s : HeadsSub) : Option HeadsSub :=
  let next := some { s with seen := some s.published.length, phase := .sending ⟨s.id, s.current⟩ }
  if s.aborted then some { s with phase := .ended }
  else
    match s.seen with
    | none => next
    | some v =>
      if v < s.published.length then next
      else if s.closed then some { s with phase := .ended }
      else none

/-- A step of the task or of the sender; a send ends the loop when the client is gone. -/
def step (s : HeadsSub) : HeadsEvent → Option HeadsSub
  | .publish b => if s.closed then none else some { s with published := s.published ++ [b] }
  | .close => some { s with closed := true }
  | .abort => some { s with aborted := true }
  | .poll => if s.phase = .polling then s.poll else none
  | .sendDone ok =>
    match s.phase with
    | .sending msg =>
      if ok then some { s with out := s.out ++ [msg], phase := .polling }
      else some { s with phase := .ended }
    | _ => none

def run (s : HeadsSub) : List HeadsEvent → Option HeadsSub
  | [] => some s
  | e :: es => (s.step e).bind fun s' => run s' es

theorem values_eq (s : HeadsSub) : s.values = s.values.take s.published.length ++ [s.current] := by
  have h := @List.dropLast_append_getLast _ s.values (List.cons_ne_nil _ _)
  rw [List.dropLast_eq_take] at h
  exact h.symm

structure Delivered (s : HeadsSub) : Prop where
  seen_le : ∀ v, s.seen = some v → v ≤ s.published.length
  sublist : ((s.out ++ s.phase.held).map HeadNotification.result).Sublist (s.values.take s.yielded)
  subscription : ∀ m ∈ s.out ++ s.phase.held, m.subscription = s.id

theorem yielded_le {s : HeadsSub} (h : Delivered s) : s.yielded ≤ s.published.length + 1 := by
  unfold yielded
  split
  · omega
  · rename_i v hv; have := h.seen_le v hv; omega

theorem Delivered.yield {s : HeadsSub} (h : Delivered s) (hp : s.phase = .polling)
    (hy : s.yielded ≤ s.published.length) :
    Delivered { s with seen := some s.published.length, phase := .sending ⟨s.id, s.current⟩ } := by
  have hsub := h.sublist
  simp only [hp, HeadsPhase.held, List.append_nil] at hsub
  refine ⟨fun v hv => by cases hv; exact le_rfl, ?_, ?_⟩
  · simp only [HeadsPhase.held, List.map_append, List.map_cons, List.map_nil, yielded]
    show List.Sublist _ (List.take (s.published.length + 1) s.values)
    rw [List.take_of_length_le (by simp [values]), values_eq s]
    exact (hsub.trans (List.take_sublist_take_left _ hy)).append (List.Sublist.refl _)
  · intro m hm
    simp only [HeadsPhase.held, List.mem_append, List.mem_singleton] at hm
    rcases hm with hm | rfl
    · exact h.subscription m (by simp [hp, HeadsPhase.held, hm])
    · rfl

theorem Delivered.ended {s : HeadsSub} (h : Delivered s) (hp : s.phase = .polling) :
    Delivered { s with phase := .ended } :=
  ⟨h.seen_le, by simpa [hp, HeadsPhase.held] using h.sublist,
    fun m hm => h.subscription m (by simpa [hp, HeadsPhase.held] using hm)⟩

theorem delivered_step {s s' : HeadsSub} {e : HeadsEvent} (h : Delivered s)
    (hs : s.step e = some s') : Delivered s' := by
  cases e with
  | publish b =>
    simp only [step] at hs
    split_ifs at hs
    obtain rfl := Option.some.inj hs
    refine ⟨fun v hv => by simp; have := h.seen_le v hv; omega, ?_, h.subscription⟩
    show (_ : List Block).Sublist (List.take s.yielded (s.values ++ [b]))
    rw [List.take_append_of_le_length (by simpa [values] using yielded_le h)]
    exact h.sublist
  | close => obtain rfl := Option.some.inj hs; exact ⟨h.seen_le, h.sublist, h.subscription⟩
  | abort => obtain rfl := Option.some.inj hs; exact ⟨h.seen_le, h.sublist, h.subscription⟩
  | poll =>
    simp only [step] at hs
    split_ifs at hs with hp
    simp only [poll] at hs
    split at hs
    · exact Option.some.inj hs ▸ h.ended hp
    · split at hs
      · rename_i hseen
        exact Option.some.inj hs ▸ h.yield hp (by simp [yielded, hseen])
      · rename_i v hseen
        split at hs
        · exact Option.some.inj hs ▸ h.yield hp (by simp [yielded, hseen]; omega)
        · split at hs
          · exact Option.some.inj hs ▸ h.ended hp
          · cases hs
  | sendDone ok =>
    simp only [step] at hs
    split at hs
    · rename_i msg hp
      have hsub := h.sublist
      have hid := h.subscription
      simp only [hp, HeadsPhase.held] at hsub hid
      split_ifs at hs <;> obtain rfl := Option.some.inj hs
      · exact ⟨h.seen_le, by simpa [HeadsPhase.held] using hsub, by simpa [HeadsPhase.held] using hid⟩
      · refine ⟨h.seen_le, ?_, fun m hm =>
          hid m (List.mem_append_left _ (by simpa [HeadsPhase.held] using hm))⟩
        simp only [HeadsPhase.held, List.append_nil]
        exact (List.map_append _ _ _ ▸ List.sublist_append_left _ _).trans hsub
    · cases hs

theorem step_published {s t : HeadsSub} {e : HeadsEvent} (h : s.step e = some t) :
    t.published = s.published ++ e.published.toList ∧ t.id = s.id := by
  cases e with
  | publish b => simp only [step] at h; split_ifs at h; cases h; simp [HeadsEvent.published]
  | close | abort => cases h; simp [HeadsEvent.published]
  | poll =>
    simp only [step, poll] at h
    split_ifs at h <;> (try split at h) <;> (try split_ifs at h) <;> cases h <;>
      simp [HeadsEvent.published]
  | sendDone ok =>
    simp only [step] at h
    split at h
    · split_ifs at h <;> cases h <;> simp [HeadsEvent.published]
    · cases h

theorem run_delivered {s s' : HeadsSub} {es : List HeadsEvent} (h : Delivered s)
    (hrun : s.run es = some s') :
    Delivered s' ∧ s'.published = s.published ++ es.filterMap HeadsEvent.published ∧ s'.id = s.id := by
  induction es generalizing s with
  | nil => obtain rfl := Option.some.inj hrun; simpa using h
  | cons e es ih =>
    obtain ⟨t, ht, hrun⟩ := Option.bind_eq_some.mp hrun
    obtain ⟨hd, hpub, hid⟩ := ih (delivered_step h ht) hrun
    obtain ⟨hpub', hid'⟩ := step_published ht
    refine ⟨hd, ?_, hid.trans hid'⟩
    rw [hpub, hpub']
    cases e <;> simp [HeadsEvent.published]

end HeadsSub

open HeadsSub

/-- Along every interleaving of publications with a `newHeads` task subscribed at any point, the
notifications sent are, in order and each at most once, values of the channel: the placeholder
it was created with, then the heads published before the subscribe and after it. -/
theorem newHeads_delivery (id : String) (published₀ : List Block) (closed : Bool)
    {es : List HeadsEvent} {s : HeadsSub} (h : (subscribe id published₀ closed).run es = some s) :
    s.published = published₀ ++ es.filterMap HeadsEvent.published ∧
      (s.out.map HeadNotification.result).Sublist (Block.default :: s.published) ∧
      ∀ m ∈ s.out, m.subscription = id := by
  have h₀ : Delivered (subscribe id published₀ closed) := by
    refine ⟨fun _ hv => (by cases hv), ?_, ?_⟩ <;> simp [subscribe, yielded, HeadsPhase.held]
  obtain ⟨hd, hpub, hid⟩ := run_delivered h₀ h
  refine ⟨hpub, ?_, fun m hm => ?_⟩
  · exact ((List.map_append _ _ _ ▸ List.sublist_append_left _ _).trans hd.sublist).trans
      (List.take_sublist _ _)
  · exact (hd.subscription m (List.mem_append_left _ hm)).trans hid

def headA : Block := ⟨some 0xab, some 1⟩

theorem newHeads_delivery_placeholder :
    ∃ s, (subscribe "0x1" [] false).run [.poll, .sendDone true, .publish headA, .poll, .sendDone true] =
        some s ∧ s.out = [⟨"0x1", Block.default⟩, ⟨"0x1", headA⟩] ∧
      (s.published = [headA] ∧
        (s.out.map HeadNotification.result).Sublist (Block.default :: s.published) ∧
        ∀ m ∈ s.out, m.subscription = "0x1") :=
  ⟨_, rfl, rfl, @newHeads_delivery "0x1" [] false
    [.poll, .sendDone true, .publish headA, .poll, .sendDone true] _ rfl⟩

namespace HeadsSub

theorem step_cases {s t : HeadsSub} {e : HeadsEvent} (h : s.step e = some t) :
    (∃ b, t = { s with published := s.published ++ [b] }) ∨ t = { s with closed := true } ∨
      t = { s with aborted := true } ∨ (s.phase = .polling ∧ t = { s with phase := .ended }) ∨
      (s.phase = .polling ∧ s.yielded ≤ s.published.length ∧
        t = { s with seen := some s.published.length, phase := .sending ⟨s.id, s.current⟩ }) ∨
      ∃ msg, s.phase = .sending msg ∧
        (t = { s with out := s.out ++ [msg], phase := .polling } ∨ t = { s with phase := .ended }) := by
  cases e with
  | publish b => simp only [step] at h; split_ifs at h; exact .inl ⟨b, (Option.some.inj h).symm⟩
  | close => exact .inr (.inl (Option.some.inj h).symm)
  | abort => exact .inr (.inr (.inl (Option.some.inj h).symm))
  | poll =>
    simp only [step] at h
    split_ifs at h with hp
    simp only [poll] at h
    split at h
    · exact .inr (.inr (.inr (.inl ⟨hp, (Option.some.inj h).symm⟩)))
    · split at h
      · rename_i hseen
        exact .inr (.inr (.inr (.inr (.inl ⟨hp, by simp [yielded, hseen], (Option.some.inj h).symm⟩))))
      · rename_i v hseen
        split at h
        · exact .inr (.inr (.inr (.inr (.inl ⟨hp, by simp [yielded, hseen]; omega,
            (Option.some.inj h).symm⟩))))
        · split at h
          · exact .inr (.inr (.inr (.inl ⟨hp, (Option.some.inj h).symm⟩)))
          · cases h
  | sendDone ok =>
    simp only [step] at h
    split at h
    · rename_i msg hp
      split_ifs at h
      exacts [.inr (.inr (.inr (.inr (.inr ⟨msg, hp, .inl (Option.some.inj h).symm⟩)))),
        .inr (.inr (.inr (.inr (.inr ⟨msg, hp, .inr (Option.some.inj h).symm⟩))))]
    · cases h

structure DeliveredHeads (s : HeadsSub) : Prop where
  published : s.published ≠ []
  seen_le : ∀ v, s.seen = some v → v ≤ s.published.length
  sublist : ((s.out ++ s.phase.held).map HeadNotification.result).Sublist
    (s.published.take (s.yielded - 1))

theorem current_eq_getLast {s : HeadsSub} (h : s.published ≠ []) :
    s.current = s.published.getLast h := by
  simp only [current, values]
  exact List.getLast_cons h

theorem deliveredHeads_step {s t : HeadsSub} {e : HeadsEvent} (h : DeliveredHeads s)
    (hs : s.step e = some t) : DeliveredHeads t := by
  have hy : s.yielded - 1 ≤ s.published.length := by
    unfold yielded; split
    · omega
    · rename_i v hv; have := h.seen_le v hv; omega
  rcases step_cases hs with ⟨b, rfl⟩ | rfl | rfl | ⟨hp, rfl⟩ | ⟨hp, hle, rfl⟩ | ⟨msg, hp, rfl | rfl⟩
  · -- a publication leaves the versions already yielded where they are
    refine ⟨by simp, fun v hv => by simp; have := h.seen_le v hv; omega, ?_⟩
    show (_ : List Block).Sublist ((s.published ++ [b]).take (s.yielded - 1))
    rw [List.take_append_of_le_length hy]
    exact h.sublist
  · exact ⟨h.published, h.seen_le, h.sublist⟩
  · exact ⟨h.published, h.seen_le, h.sublist⟩
  · exact ⟨h.published, h.seen_le, by simpa [hp, HeadsPhase.held] using h.sublist⟩
  · -- the item is the newest published head, after everything taken before
    have hsub := h.sublist
    simp only [hp, HeadsPhase.held, List.append_nil] at hsub
    refine ⟨h.published, fun v hv => by cases hv; exact Nat.le_refl _, ?_⟩
    simp only [HeadsPhase.held, List.map_append, List.map_cons, List.map_nil, yielded,
      Nat.add_sub_cancel, List.take_length]
    rw [current_eq_getLast h.published]
    have hpre : (s.published.take (s.yielded - 1)).Sublist
        (s.published.take (s.published.length - 1)) := List.take_sublist_take_left _ (by omega)
    have key := (hsub.trans hpre).append (List.Sublist.refl [s.published.getLast h.published])
    rwa [← List.dropLast_eq_take, List.dropLast_append_getLast] at key
  · have hsub := h.sublist
    simp only [hp, HeadsPhase.held] at hsub
    exact ⟨h.published, h.seen_le, by simpa [HeadsPhase.held] using hsub⟩
  · have hsub := h.sublist
    simp only [hp, HeadsPhase.held, List.map_append] at hsub
    exact ⟨h.published, h.seen_le, by
      simpa [HeadsPhase.held] using (List.sublist_append_left _ _).trans hsub⟩

theorem DeliveredHeads.run {s t : HeadsSub} {es : List HeadsEvent} (h : DeliveredHeads s)
    (hrun : s.run es = some t) : DeliveredHeads t := by
  induction es generalizing s with
  | nil => exact Option.some.inj hrun ▸ h
  | cons e es ih =>
    obtain ⟨s₁, h₁, hrun⟩ := Option.bind_eq_some.mp hrun
    exact ih (deliveredHeads_step h h₁) hrun

end HeadsSub

/-- A client that subscribes once a head has been published is sent only published heads, in
order and each at most once: the placeholder only if it was itself published. -/
theorem newHeads_after_first_head (id : String) {published₀ : List Block} (closed : Bool)
    (h₀ : published₀ ≠ []) {es : List HeadsEvent} {s : HeadsSub}
    (h : (subscribe id published₀ closed).run es = some s) :
    (s.out.map HeadNotification.result).Sublist s.published := by
  have hd := HeadsSub.DeliveredHeads.run
    ⟨h₀, fun _ hv => (by cases hv), by simp [subscribe, HeadsPhase.held]⟩ h
  exact ((List.map_append _ _ _ ▸ List.sublist_append_left _ _).trans hd.sublist).trans
    (List.take_sublist _ _)

theorem newHeads_after_first_head_sent :
    ∃ s, (subscribe "0x1" [Block.default, ⟨none, some 1⟩] false).run [.poll, .sendDone true] = some s ∧
      s.out = [⟨"0x1", ⟨none, some 1⟩⟩] ∧
      (s.out.map HeadNotification.result).Sublist s.published :=
  ⟨_, rfl, rfl, @newHeads_after_first_head "0x1" [Block.default, ⟨none, some 1⟩] false
    (List.cons_ne_nil _ _) [.poll, .sendDone true] _ rfl⟩

/-- The first `eth_subscribe` call, with `["newHeads"]`, gets id `0x1`; its task polls before the
first head is published, and the client is sent the placeholder, which was never published, and
then the head. -/
theorem placeholder_head_notified :
    ethSubscribe 1 newHeadsRequest = .ok .newHeads "0x1" "1" ∧
      ∃ s, (subscribe "0x1" [] false).run
          [.poll, .sendDone true, .publish headA, .poll, .sendDone true] = some s ∧
        s.out = [⟨"0x1", Block.default⟩, ⟨"0x1", headA⟩] ∧ s.published = [headA] ∧
        Block.default ∉ s.published :=
  ⟨by decide, _, rfl, by decide, rfl, by decide⟩

end Web3Proxy

import Mathlib.Logic.Function.Basic

/-! `Web3ProxyApp::spawn` and `update_config` over the two pool handles. The pools are
`Arc<Web3Connections>`s: an app spawned without private relays holds one `Arc` in both fields,
and each `swap_rpcs` on either field replaces the upstream set of that one pool. -/

namespace Web3Proxy

structure Web3ConnectionConfig where
  url : String
  softLimit : UInt32
  hardLimit : Option UInt32
  deriving DecidableEq, Repr

/-- `HashMap<String, Web3ConnectionConfig>`, by its entries. -/
abbrev RpcMap := List (String × Web3ConnectionConfig)

structure RpcSharedConfig where
  chainId : UInt64
  rateLimitRedis : Option String
  deriving DecidableEq, Repr

structure RpcConfig where
  shared : RpcSharedConfig
  balancedRpcs : RpcMap
  privateRpcs : RpcMap
  deriving DecidableEq, Repr

/-- The app's pool handles. `rpcs a` is the upstream set the pool behind `Arc` `a` serves;
`nextArc` is the first `Arc` not yet allocated. -/
structure App where
  chainId : UInt64
  balancedRpcs : Nat
  privateRpcs : Nat
  rpcs : Nat → RpcMap
  nextArc : Nat

namespace App

/-- `Web3Connections::spawn` when it succeeds: a fresh pool serving `rpcs`. -/
def spawnConnections (app : App) (rpcs : RpcMap) : App × Nat :=
  ({ app with rpcs := Function.update app.rpcs app.nextArc rpcs, nextArc := app.nextArc + 1 },
    app.nextArc)

/-- Modelled from the spec: `Web3Connections::swap_rpcs` is not among the sources. "A new set S'
replaces the current set S atomically": the pool `dst` serves the upstream set of `src`. -/
def swapRpcs (app : App) (dst src : Nat) : App :=
  { app with rpcs := Function.update app.rpcs dst (app.rpcs src) }

def served (app : App) : RpcMap × RpcMap := (app.rpcs app.balancedRpcs, app.rpcs app.privateRpcs)

def WellFormed (app : App) : Prop := app.balancedRpcs < app.nextArc ∧ app.privateRpcs < app.nextArc

end App

open App

/-- The app `Web3ProxyApp::spawn` returns when its awaits succeed. Without private relays the
private handle is `balanced_rpcs.clone()`, the same `Arc`. -/
def spawn (chainId : UInt64) (balancedRpcs privateRpcs : RpcMap) : App :=
  let (app, balanced) := spawnConnections ⟨chainId, 0, 0, fun _ => [], 0⟩ balancedRpcs
  if privateRpcs.isEmpty then { app with balancedRpcs := balanced, privateRpcs := balanced }
  else
    let (app, privateArc) := spawnConnections app privateRpcs
    { app with balancedRpcs := balanced, privateRpcs := privateArc }

/-- The results of the awaits of one `update_config`, none of them among the sources:
`Web3Connections::spawn` of the balanced and of the private set, then the two `swap_rpcs`. -/
structure Outcomes where
  spawnBalanced : Except String Unit
  spawnPrivate : Except String Unit
  swapBalanced : Except String Unit
  swapPrivate : Except String Unit

def Outcomes.allOk : Outcomes := ⟨.ok (), .ok (), .ok (), .ok ()⟩

/-- `Web3ProxyApp::update_config`: the app after the call, and its result, the `Arc`s whose join
handles it returns. An error after the first `swap_rpcs` keeps that swap. -/
def updateConfig (app : App) (newConfig : RpcConfig) (o : Outcomes) :
    App × Except String (List Nat) :=
  if newConfig.shared.chainId ≠ app.chainId then (app, .error "cannot change chain id!") else
  match o.spawnBalanced with
  | .error e => (app, .error e)
  | .ok () =>
    let (app, balancedRpcs) := spawnConnections app newConfig.balancedRpcs
    let spawned : Except String (App × Nat × List Nat) :=
      if newConfig.privateRpcs.isEmpty then .ok (app, balancedRpcs, [balancedRpcs])
      else match o.spawnPrivate with
        | .error e => .error e
        | .ok () =>
          let (app, privateRpcs) := spawnConnections app newConfig.privateRpcs
          .ok (app, privateRpcs, [balancedRpcs, privateRpcs])
    match spawned with
    | .error e => (app, .error e)
    | .ok (app, privateRpcs, handles) =>
      match o.swapBalanced with
      | .error e => (app, .error e)
      | .ok () =>
        let app := app.swapRpcs app.balancedRpcs balancedRpcs
        match o.swapPrivate with
        | .error e => (app, .error e)
        | .ok () => (app.swapRpcs app.privateRpcs privateRpcs, .ok handles)

def updateConfigs (app : App) : List (RpcConfig × Outcomes) → Except String App
  | [] => .ok app
  | (c, o) :: cs =>
    match updateConfig app c o with
    | (app', .ok _) => updateConfigs app' cs
    | (_, .error e) => .error e

def privateSet (config : RpcConfig) : RpcMap :=
  if config.privateRpcs.isEmpty then config.balancedRpcs else config.privateRpcs

theorem spawn_served (chainId : UInt64) (balancedRpcs privateRpcs : RpcMap) :
    (spawn chainId balancedRpcs privateRpcs).served =
      (balancedRpcs, if privateRpcs.isEmpty then balancedRpcs else privateRpcs) := by
  by_cases hp : privateRpcs.isEmpty <;> simp [spawn, spawnConnections, served, hp]

theorem spawn_wellFormed (chainId : UInt64) (balancedRpcs privateRpcs : RpcMap) :
    (spawn chainId balancedRpcs privateRpcs).WellFormed := by
  by_cases hp : privateRpcs.isEmpty <;> simp [spawn, spawnConnections, WellFormed, hp]

theorem spawn_shared (chainId : UInt64) (balancedRpcs privateRpcs : RpcMap) :
    (spawn chainId balancedRpcs privateRpcs).balancedRpcs =
      (spawn chainId balancedRpcs privateRpcs).privateRpcs ↔ privateRpcs.isEmpty := by
  by_cases hp : privateRpcs.isEmpty <;> simp [spawn, spawnConnections, hp]

theorem updateConfig_ok {app app' : App} {c : RpcConfig} {o : Outcomes} {handles : List Nat}
    (h : updateConfig app c o = (app', .ok handles)) (hwf : app.WellFormed) :
    app'.chainId = app.chainId ∧ app'.balancedRpcs = app.balancedRpcs ∧
      app'.privateRpcs = app.privateRpcs ∧ app'.WellFormed ∧
      app'.served = (if app.balancedRpcs = app.privateRpcs then privateSet c else c.balancedRpcs,
        privateSet c) := by
  obtain ⟨hb, hp⟩ := hwf
  obtain ⟨sb, sp, wb, wp⟩ := o
  by_cases hc : c.shared.chainId = app.chainId <;>
    by_cases hpe : c.privateRpcs.isEmpty <;> cases sb <;> cases sp <;> cases wb <;> cases wp <;>
    simp [updateConfig, hc, hpe, spawnConnections, swapRpcs] at h
  all_goals
    obtain ⟨rfl, -⟩ := h
    refine ⟨rfl, rfl, rfl, by simp only [WellFormed]; omega, ?_⟩
    simp only [served, privateSet, hpe, Function.update_apply, Prod.mk.injEq]
    split_ifs <;> simp_all <;> omega

theorem updateConfigs_served {app app' : App} {cs : List (RpcConfig × Outcomes)}
    (h : updateConfigs app cs = .ok app') (hwf : app.WellFormed) :
    app'.balancedRpcs = app.balancedRpcs ∧ app'.privateRpcs = app.privateRpcs ∧ app'.WellFormed ∧
      app'.served = match cs.getLast? with
        | none => app.served
        | some (c, _) => (if app.balancedRpcs = app.privateRpcs then privateSet c else c.balancedRpcs,
            privateSet c) := by
  induction cs generalizing app with
  | nil => cases h; exact ⟨rfl, rfl, hwf, rfl⟩
  | cons co cs ih =>
    obtain ⟨c, o⟩ := co
    simp only [updateConfigs] at h
    split at h
    · rename_i app₁ handles h₁
      obtain ⟨-, hb, hp, hwf₁, hs⟩ := updateConfig_ok h₁ hwf
      obtain ⟨hb', hp', hwf', hs'⟩ := ih h hwf₁
      refine ⟨hb'.trans hb, hp'.trans hp, hwf', ?_⟩
      cases hcs : cs.getLast? with
      | none =>
        obtain rfl := List.getLast?_eq_none_iff.mp hcs
        simpa [hcs, hs] using hs'
      | some c' =>
        rw [hcs, hb, hp] at hs'
        simpa [List.getLast?_cons, hcs] using hs'
    · cases h

theorem spawn_updateConfigs_served {chainId : UInt64} {balancedRpcs privateRpcs : RpcMap}
    {cs : List (RpcConfig × Outcomes)} {app : App}
    (h : updateConfigs (spawn chainId balancedRpcs privateRpcs) cs = .ok app) :
    app.served = match cs.getLast? with
      | none => (balancedRpcs, if privateRpcs.isEmpty then balancedRpcs else privateRpcs)
      | some (c, _) => (if privateRpcs.isEmpty then privateSet c else c.balancedRpcs, privateSet c) := by
  rw [(updateConfigs_served h (spawn_wellFormed ..)).2.2.2]
  cases cs.getLast? <;> simp [spawn_served, spawn_shared]

def relayA : Web3ConnectionConfig := ⟨"http://a:8545", 100, none⟩
def relayP : Web3ConnectionConfig := ⟨"http://p:8545", 10, none⟩

/-- Spawned without private relays, then reloaded with one: the balanced pool serves the private
relay. -/
theorem private_relays_take_balanced_pool :
    ∃ app, updateConfigs (spawn 1 [("a", relayA)] [])
        [(⟨⟨1, none⟩, [("a", relayA)], [("p", relayP)]⟩, .allOk)] = .ok app ∧
      app.served = ([("p", relayP)], [("p", relayP)]) :=
  ⟨_, rfl, (@spawn_updateConfigs_served 1 [("a", relayA)] []
    [(⟨⟨1, none⟩, [("a", relayA)], [("p", relayP)]⟩, .allOk)] _ rfl).trans rfl⟩

end Web3Proxy

import Web3Proxy.Config

/-! Configuration reloads after startup. The watcher thread of `main` parses each changed file
and sends it on the config channel, the config task of `spawn_with_watched_config` applies each
config it receives with `update_config`, and `main` ends when `flatten_handles(app_handles)`
returns. -/

namespace Web3Proxy
open App

/-- One file event of the watcher: the file fails to parse, or parses to `config`; `outcomes`
are the results of the awaits of the `update_config` that applies it. -/
inductive Reload
  | malformed
  | parsed (config : RpcConfig) (outcomes : Outcomes)

/-- The watcher thread of `main`: it sends each parsed file in order. The `unwrap` on a file that
fails to parse panics the thread, which drops the only sender of the config channel; the flag
says whether the channel is disconnected. -/
def watcherSends : List Reload → List (RpcConfig × Outcomes) × Bool
  | [] => ([], false)
  | .malformed :: _ => ([], true)
  | .parsed c o :: rs => ((c, o) :: (watcherSends rs).1, (watcherSends rs).2)

/-- The config task of `spawn_with_watched_config` once it has received `configs`: the app, and
the task's result if it has ended (`none` while it awaits the next config). The `?` after
`update_config` ends it at the first error; a disconnected channel ends the loop with `Ok(())`. -/
def configTask (app : App) : List (RpcConfig × Outcomes) → Bool → App × Option (Except String Unit)
  | [], disconnected => (app, if disconnected then some (.ok ()) else none)
  | (c, o) :: cs, disconnected =>
    match updateConfig app c o with
    | (app', .ok _) => configTask app' cs disconnected
    | (app', .error e) => (app', some (.error e))

/-- `flatten_handles` over the results of the handles in the order they end (the outer error is
a `JoinError`): it returns at the first error, and with `Ok(())` once every handle has ended. -/
def flattenHandles : List (Except String (Except String Unit)) → Bool → Option (Except String Unit)
  | [], allEnded => if allEnded then some (.ok ()) else none
  | .error e :: _, _ => some (.error e)
  | .ok (.error e) :: _, _ => some (.error e)
  | .ok (.ok ()) :: rs, allEnded => flattenHandles rs allEnded

/-- The reloads after startup and what `main` sees: the app, and the return of
`flatten_handles(app_handles)` while the pool handles run, whose return ends `main`'s `select!`. -/
def watchedConfig (app : App) (reloads : List Reload) : App × Option (Except String Unit) :=
  let (app', result) := configTask app (watcherSends reloads).1 (watcherSends reloads).2
  (app', result.bind fun r => flattenHandles [.ok r] false)

/-- `update_config` fails before its first swap takes effect: a different chain id, a failed
`Web3Connections::spawn`, or a failed swap of the balanced pool. -/
def RejectedBeforeSwap (app : App) (c : RpcConfig) (o : Outcomes) : Prop :=
  c.shared.chainId ≠ app.chainId ∨ o.spawnBalanced ≠ .ok () ∨
    (c.privateRpcs.isEmpty = false ∧ o.spawnPrivate ≠ .ok ()) ∨ o.swapBalanced ≠ .ok ()

theorem updateConfig_rejected {app : App} {c : RpcConfig} {o : Outcomes}
    (hr : RejectedBeforeSwap app c o) (hwf : app.WellFormed) :
    ∃ e, (updateConfig app c o).2 = .error e ∧ (updateConfig app c o).1.served = app.served := by
  obtain ⟨hb, hp⟩ := hwf
  have hb₁ : app.balancedRpcs ≠ app.nextArc := by omega
  have hb₂ : app.balancedRpcs ≠ app.nextArc + 1 := by omega
  have hp₁ : app.privateRpcs ≠ app.nextArc := by omega
  have hp₂ : app.privateRpcs ≠ app.nextArc + 1 := by omega
  obtain ⟨sb, sp, wb, wp⟩ := o
  unfold RejectedBeforeSwap at hr
  by_cases hc : c.shared.chainId = app.chainId <;>
    by_cases hpe : c.privateRpcs.isEmpty <;> cases sb <;> cases sp <;> cases wb <;>
    simp_all [updateConfig, spawnConnections, served, Function.update_apply]

theorem updateConfig_private_swap_failed {app : App} {c : RpcConfig} {o : Outcomes} {e : String}
    (hwf : app.WellFormed) (hchain : c.shared.chainId = app.chainId)
    (hsb : o.spawnBalanced = .ok ()) (hsp : c.privateRpcs.isEmpty = false → o.spawnPrivate = .ok ())
    (hswb : o.swapBalanced = .ok ()) (hswp : o.swapPrivate = .error e) :
    (updateConfig app c o).2 = .error e ∧
      (updateConfig app c o).1.served = (c.balancedRpcs,
        if app.balancedRpcs = app.privateRpcs then c.balancedRpcs else app.rpcs app.privateRpcs) := by
  obtain ⟨hb, hp⟩ := hwf
  cases hpe : c.privateRpcs.isEmpty <;>
    simp [updateConfig, hchain, hpe, hsb, hsp, hswb, hswp, spawnConnections, swapRpcs, served,
      Function.update_apply] <;>
    split_ifs <;> first | rfl | omega

theorem updateConfig_error_served {app : App} {c : RpcConfig} {o : Outcomes} {e : String}
    (hwf : app.WellFormed) (he : (updateConfig app c o).2 = .error e) :
    (RejectedBeforeSwap app c o ∧ (updateConfig app c o).1.served = app.served) ∨
      (¬RejectedBeforeSwap app c o ∧ (updateConfig app c o).1.served =
        (c.balancedRpcs,
          if app.balancedRpcs = app.privateRpcs then c.balancedRpcs else app.served.2)) := by
  by_cases hr : RejectedBeforeSwap app c o
  · obtain ⟨_, -, hs⟩ := updateConfig_rejected hr hwf
    exact .inl ⟨hr, hs⟩
  · refine .inr ⟨hr, ?_⟩
    simp only [RejectedBeforeSwap, not_or, ne_eq, not_not, not_and] at hr
    obtain ⟨hchain, hsb, hsp, hswb⟩ := hr
    cases hwp : o.swapPrivate with
    | error e' => exact (updateConfig_private_swap_failed hwf hchain hsb hsp hswb hwp).2
    | ok u =>
      obtain ⟨sb, sp, wb, wp⟩ := o
      cases hpe : c.privateRpcs.isEmpty <;> simp_all [updateConfig, spawnConnections, swapRpcs]

theorem configTask_cons_ok {app app' : App} {c : RpcConfig} {o : Outcomes} {handles : List Nat}
    (h : updateConfig app c o = (app', .ok handles)) (cs : List (RpcConfig × Outcomes)) (d : Bool) :
    configTask app ((c, o) :: cs) d = configTask app' cs d := by
  simp only [configTask, h]

theorem configTask_updateConfigs {app app₁ : App} {pre : List (RpcConfig × Outcomes)}
    (hpre : updateConfigs app pre = .ok app₁) (cs : List (RpcConfig × Outcomes)) (d : Bool) :
    configTask app (pre ++ cs) d = configTask app₁ cs d := by
  induction pre generalizing app with
  | nil => cases hpre; rfl
  | cons co pre ih =>
    obtain ⟨c, o⟩ := co
    simp only [updateConfigs] at hpre
    split at hpre
    · rename_i h
      rw [List.cons_append, configTask_cons_ok h]
      exact ih hpre
    · cases hpre

theorem watcherSends_parsed (pre : List (RpcConfig × Outcomes)) (rs : List Reload) :
    watcherSends (pre.map (fun p => .parsed p.1 p.2) ++ rs) =
      (pre ++ (watcherSends rs).1, (watcherSends rs).2) := by
  induction pre with
  | nil => rfl
  | cons p pre ih => simp [watcherSends, ih]

/-- Along any reloads after startup, once configs `pre` have been applied: a config whose
`update_config` returns an error makes `flatten_handles` return that error, which ends `main`,
whatever follows; the balanced pool then serves its previous set when the error came before its
swap, and the new balanced set when only the private swap failed; a private pool of its own serves
its previous set, and a pool both handles share serves what the balanced pool serves. A file that
fails to parse leaves the app as `pre` left it, whatever follows, and `flatten_handles` never
returns. -/
theorem reload_failure_outcome {app app₁ : App} {pre : List (RpcConfig × Outcomes)}
    (hwf : app.WellFormed) (hpre : updateConfigs app pre = .ok app₁) (post : List Reload) :
    (∀ c o e, (updateConfig app₁ c o).2 = .error e →
      (watchedConfig app (pre.map (fun p => .parsed p.1 p.2) ++ .parsed c o :: post)).2 =
        some (.error e) ∧
      ((RejectedBeforeSwap app₁ c o ∧
          (watchedConfig app (pre.map (fun p => .parsed p.1 p.2) ++ .parsed c o :: post)).1.served =
            app₁.served) ∨
        (¬RejectedBeforeSwap app₁ c o ∧
          (watchedConfig app (pre.map (fun p => .parsed p.1 p.2) ++ .parsed c o :: post)).1.served =
            (c.balancedRpcs,
              if app₁.balancedRpcs = app₁.privateRpcs then c.balancedRpcs
              else app₁.served.2)))) ∧
    watchedConfig app (pre.map (fun p => .parsed p.1 p.2) ++ .malformed :: post) = (app₁, none) := by
  have hwf₁ := (updateConfigs_served hpre hwf).2.2.1
  refine ⟨fun c o e he => ?_, ?_⟩
  · have hs := updateConfig_error_served hwf₁ he
    simp only [watchedConfig, watcherSends_parsed, watcherSends, configTask_updateConfigs hpre,
      configTask]
    rcases h : updateConfig app₁ c o with ⟨app₂, _ | handles⟩
    · rw [h] at he hs; cases he
      exact ⟨by simp [flattenHandles], hs⟩
    · rw [h] at he; cases he
  · simp only [watchedConfig, watcherSends_parsed, watcherSends]
    rw [configTask_updateConfigs hpre]
    simp [configTask, flattenHandles]

def splitApp : App := spawn 1 [("a", relayA)] [("p", relayP)]

def reloadB : RpcConfig := ⟨⟨1, none⟩, [("b", relayA)], [("a", relayA)]⟩

def privateSwapFails : Outcomes := ⟨.ok (), .ok (), .ok (), .error "swap"⟩

theorem reload_failure_outcome_split :
    (watchedConfig splitApp [.parsed reloadB privateSwapFails]).1.served =
        ([("b", relayA)], [("p", relayP)]) ∧
      ((∀ c o e, (updateConfig splitApp c o).2 = .error e →
        (watchedConfig splitApp [.parsed c o]).2 =
          some (.error e) ∧
        ((RejectedBeforeSwap splitApp c o ∧
            (watchedConfig splitApp [.parsed c o]).1.served =
              splitApp.served) ∨
          (¬RejectedBeforeSwap splitApp c o ∧
            (watchedConfig splitApp [.parsed c o]).1.served =
              (c.balancedRpcs, if splitApp.balancedRpcs = splitApp.privateRpcs then c.balancedRpcs
                else splitApp.served.2)))) ∧
      watchedConfig splitApp [.malformed] = (splitApp, none)) :=
  ⟨by decide, @reload_failure_outcome splitApp splitApp [] (spawn_wellFormed ..) rfl []⟩

def chainTwo : RpcConfig := ⟨⟨2, none⟩, [("a", relayA)], []⟩
def balancedP : RpcConfig := ⟨⟨1, none⟩, [("p", relayP)], []⟩

/-- A reload with another chain id, then a valid one: the task ends at the first, the second is
never applied, and `flatten_handles` returns the error, which ends `main`. -/
theorem rejected_reload_ends_process :
    watchedConfig (spawn 1 [("a", relayA)] []) [.parsed chainTwo .allOk, .parsed balancedP .allOk] =
      (spawn 1 [("a", relayA)] [], some (.error "cannot change chain id!")) :=
  rfl

end Web3Proxy

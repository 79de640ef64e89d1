import AgentStudio.Gateway.Service

/-!
# Which calls the parts of the gateway make

For any `P` that holds of the calls a part is made of, every run of the part
makes such calls only.
-/

namespace AgentStudio.Gateway
open Async Quota

section
variable {σ : Type} {P : Op → Prop}

theorem suppress_emits {c : Coro Calls Raised σ Unit} (calls : Coro.Emits P c) :
    Coro.Emits P (suppress c) := by
  apply calls.tryCatch
  intro e
  split
  · exact Coro.emits_pure ()
  · exact Coro.emits_throw e

theorem snapshot_emits (available : ∀ d, P (.isAvailable d)) (ds : List Deployment) :
    Coro.Emits P (snapshot ds : Coro Calls Raised σ _) := by
  induction ds with
  | nil => exact Coro.emits_pure []
  | cons d ds ih =>
    apply Coro.Emits.bind (Coro.emits_call (available d))
    exact fun up => ih.bind fun rest => Coro.emits_pure _

theorem decide_emits (available : ∀ d, P (.isAvailable d)) (gw : Service) (request : Request)
    (cfg : Cfg) : Coro.Emits P (decide gw request cfg : Coro Calls Raised σ _) :=
  (snapshot_emits available _).bind fun _ => Coro.emits_pure _

theorem afterSuccess_emits (gw : Service) (request : Request) (cfg : Cfg) (result : Result)
    (ledger : P (.ledger (usageRecord gw request result)))
    (store : P (.setExact request.tenantId cfg.promptVersion (requestKey request) (toCached result))) :
    Coro.Emits P (afterSuccess gw request cfg result : Coro Calls Raised σ _) := by
  apply Coro.Emits.bind (suppress_emits (Coro.emits_call ledger))
  intro _
  split
  · exact suppress_emits (Coro.emits_call store)
  · exact Coro.emits_pure ()

end

section
variable {P : Op → Prop}

theorem releaseOnce_emits (release : ∀ r, P (.release r)) : Coro.Emits P releaseOnce := by
  apply Coro.Emits.bind Coro.emits_get
  intro v
  split
  · apply Coro.Emits.bind (Coro.emits_modify _)
    exact fun _ => Coro.emits_get.bind fun v => Coro.emits_call (release _)
  · exact Coro.emits_pure _

theorem abandon_emits {α : Type} (close : P .aclose) (release : ∀ r, P (.release r)) (e : Raised) :
    Coro.Emits P (abandon e : Coro Calls Raised StreamVars α) := by
  have closed : Coro.Emits P closeUpstream := by
    apply Coro.Emits.bind Coro.emits_get
    intro v
    split
    · exact suppress_emits (Coro.emits_call close)
    · exact Coro.emits_pure _
  exact closed.bind fun _ => (releaseOnce_emits release).bind fun _ => Coro.emits_throw e

theorem onStreamRaise_emits (close : P .aclose) (release : ∀ r, P (.release r))
    (error : ∀ event : StreamEvent, event.type = .error → P (.emit event)) (e : Raised) :
    Coro.Emits P (onStreamRaise e) := by
  have report (e : Raised) (failureClass : String) :
      Coro.Emits P (releaseAndReport e failureClass) :=
    (releaseOnce_emits release).bind fun _ => Coro.emits_call (error _ rfl)
  cases e with
  | quotaExceeded => exact report _ _
  | configuration => exact report _ _
  | chainExhausted => exact Coro.emits_call (error _ rfl)
  | cancelled => exact abandon_emits close release _
  | generatorExit => exact abandon_emits close release _
  | outOfFuel => exact abandon_emits close release _
  | _ => exact report _ _

end

end AgentStudio.Gateway

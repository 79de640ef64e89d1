import AgentStudio.Orchestration.Registry

/-!
# The tool gate

`governance/toolgate.py`, and the authorizer that `_build_governance_wiring` makes of
it: a denial is stored as evidence, and nothing that goes wrong there changes the
decision.
-/

namespace AgentStudio.Governance
open Async Gateway Orchestration

structure ToolAuthorization where
  toolName : String
  allowed : Bool
  reason : Option String := none
  surfaceId : Option String := none

/-- `registered` is the tenant's registry as it was when the request came in. -/
structure ToolAuthorizationGate where
  registered : String → Option Bool := fun _ => none
  allowlist : List String := []
  surfaceId : Option String := none

/-- The columns of a surface that the gate reads. -/
structure Surface where
  id : String
  toolAllowlist : Option (List String) := none

/-- `build_authorizer`, on the rows of the tenant's registry. Of two rows with one name
the later counts. -/
def buildAuthorizer (rows : List (String × Bool)) (surface : Option Surface) :
    ToolAuthorizationGate where
  registered := fun name => rows.reverse.lookup name
  allowlist := (surface.bind Surface.toolAllowlist).getD []
  surfaceId := surface.map Surface.id

/-! ## The decision -/

namespace ToolAuthorizationGate

variable (gate : ToolAuthorizationGate)

/-- `_deny`. -/
def deny (name reason : String) : ToolAuthorization := ⟨name, false, some reason, gate.surfaceId⟩

def authorize (call : ToolCall) : ToolAuthorization :=
  if call.name = "" then ⟨call.name, false, some "missing tool name", gate.surfaceId⟩
  else if (gate.registered call.name).getD false = false then
    gate.deny call.name "tool not enabled for tenant"
  else if call.name ∉ gate.allowlist then gate.deny call.name "tool not in surface allowlist"
  else ⟨call.name, true, none, gate.surfaceId⟩

/-- A named tool that the tenant has enabled and the surface allows. -/
def permits (call : ToolCall) : Bool :=
  call.name != "" && gate.registered call.name == some true && gate.allowlist.contains call.name

theorem permits_iff (call : ToolCall) : gate.permits call = true ↔
    call.name ≠ "" ∧ gate.registered call.name = some true ∧ call.name ∈ gate.allowlist := by
  simp [permits, and_assoc]

theorem authorize_allowed (call : ToolCall) :
    (gate.authorize call).allowed = gate.permits call := by
  rw [Bool.eq_iff_iff, permits_iff, authorize]
  by_cases missing : call.name = ""
  · simp [missing]
  · rw [if_neg missing]
    cases registered : gate.registered call.name with
    | none => simp [deny]
    | some enabled =>
      cases enabled with
      | false => simp [deny]
      | true =>
        by_cases listed : call.name ∈ gate.allowlist
        · simp [listed, missing]
        · simp [listed, deny]

/-- Every denial says why. -/
theorem authorize_reason (call : ToolCall) :
    (gate.authorize call).allowed = false ↔ (gate.authorize call).reason.isSome := by
  unfold authorize
  split
  · simp
  · split
    · simp [deny]
    · split <;> simp [deny]

end ToolAuthorizationGate

/-- Deny by default: without a surface, or on one that allows no tools, or for a tenant
who has enabled none, every call is denied. -/
theorem build_denies {rows : List (String × Bool)} {surface : Option Surface}
    (bare : (surface.bind Surface.toolAllowlist).getD [] = [] ∨ ∀ row ∈ rows, row.2 = false)
    (call : ToolCall) : ((buildAuthorizer rows surface).authorize call).allowed = false := by
  rw [ToolAuthorizationGate.authorize_allowed, Bool.eq_false_iff, ne_eq,
    ToolAuthorizationGate.permits_iff]
  rintro ⟨-, enabled, listed⟩
  rcases bare with none_ | disabled
  · rw [buildAuthorizer, none_] at listed
    cases listed
  · obtain ⟨before, after, split_, -⟩ := List.lookup_eq_some_iff.mp enabled
    have row : (call.name, true) ∈ rows := by
      rw [← List.mem_reverse, split_]
      simp
    exact absurd (disabled _ row) (by simp)

/-! ## The authorizer -/

/-- Who the evidence of a denial is about. -/
structure EvidenceIds where
  tenantId : String
  sessionId : String
  conversationId : Option String

/-- `try: c except Exception: log`. -/
def logged (c : Coro Wire Raised Unit Unit) : Coro Wire Raised Unit Unit :=
  tryCatch c fun e => if e.isException then pure () else throw e

/-- `_audit_denial`. -/
def auditDenial (ids : EvidenceIds) (record : ToolAuthorization) : Coro Wire Raised Unit Unit :=
  logged (Coro.call (I := Wire) (.addEvidence {
    tenantId := ids.tenantId
    sessionId := ids.sessionId
    conversationId := ids.conversationId
    toolName := record.toolName
    reason := record.reason.getD ""
    surfaceId := record.surfaceId.getD "" }))

/-- `if self._audit and not decision.allowed:`. -/
def auditWith (audit : Option (ToolAuthorization → Coro Wire Raised Unit Unit))
    (decision : ToolAuthorization) : Coro Wire Raised Unit Unit :=
  match audit with
  | some record => if decision.allowed then pure () else logged (record decision)
  | none => pure ()

/-- `authorize_async`. -/
def ToolAuthorizationGate.authorizeAsync (gate : ToolAuthorizationGate)
    (audit : Option (ToolAuthorization → Coro Wire Raised Unit Unit)) (call : ToolCall) :
    Coro Wire Raised Unit ToolAuthorization := do
  auditWith audit (gate.authorize call)
  pure (gate.authorize call)

/-- `_tool_authorizer`. -/
def toolAuthorizer (ids : EvidenceIds) (gate : ToolAuthorizationGate) (call : ToolCall) :
    Coro Wire Raised Unit Bool := do
  let decision ← gate.authorizeAsync (some (auditDenial ids)) call
  pure decision.allowed

theorem emits_logged {P : WireOp → Prop} {c : Coro Wire Raised Unit Unit}
    (body : Coro.Emits (I := Wire) P c) : Coro.Emits (I := Wire) P (logged c) := by
  apply body.tryCatch
  intro e
  split
  · exact Coro.emits_pure ()
  · exact Coro.emits_throw e

/-- The authorizer stores evidence, whatever comes of it, and answers as the gate does. -/
theorem toolAuthorizer_spec (ids : EvidenceIds) (gate : ToolAuthorizationGate) (call : ToolCall) :
    (toolAuthorizer ids gate call).All () fun d o _ =>
      (∀ ev ∈ d, ev.op.isEvidence = true) ∧ ∀ b, o = .ok b → b = gate.permits call := by
  have evidence : Coro.Emits (I := Wire) (fun op => op.isEvidence = true)
      (auditWith (some (auditDenial ids)) (gate.authorize call)) := by
    unfold auditWith
    dsimp only
    split
    · exact Coro.emits_pure ()
    · exact emits_logged (emits_logged (Coro.emits_call (I := Wire) rfl))
  unfold toolAuthorizer ToolAuthorizationGate.authorizeAsync
  rw [Coro.bind_assoc]
  apply (evidence ()).bind
  · intro d _ _ made
    rw [Coro.all_pure_bind, Coro.all_pure, List.append_nil]
    refine ⟨made, fun b answer => ?_⟩
    rw [← gate.authorize_allowed call]
    exact (Except.ok.inj answer).symm
  · intro d e _ made
    exact ⟨made, fun _ answer => by cases answer⟩

end AgentStudio.Governance

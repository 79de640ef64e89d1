import AgentStudio.Log.Numbered
import AgentStudio.Gateway.Types

/-!
# Config versions

`TenantConfigVersionRepository` and the bucketing of `governance/promotion.py`.
Every query filters by tenant, so the table is the rows of each tenant. The
first two bytes of the SHA-256 of a key are a parameter.
-/

namespace AgentStudio.Promotion

abbrev TenantId := String

inductive Status where
  | draft | published | superseded
  deriving DecidableEq, Repr

/-- `VALIDATION_*`. -/
inductive Validation where
  | pending | validated | failed | regressed
  deriving DecidableEq, Repr

structure Row where
  version : Nat
  status : Status := .draft
  canaryPercent : Option Int := none
  validationStatus : Option Validation := none
  promotedBy : Option String := none
  deriving DecidableEq, Repr

/-! ## Bucketing -/

/-- `canary_bucket`. -/
def canaryBucket (digest : String → Nat) (requestKey : Option String) (canaryPercent : Option Int) :
    Bool :=
  match canaryPercent with
  | none => true
  | some percent =>
    if 100 ≤ percent then true
    else
      match requestKey with
      | none => false
      | some key => ¬ (percent ≤ 0 ∨ key = "") ∧ ((digest key % 100 : Nat) : Int) < percent

/-! ## Queries -/

/-- `order_by(version.desc()).limit(1)`. -/
def newest : List Row → Option Row
  | [] => none
  | r :: rest =>
    match newest rest with
    | none => some r
    | some best => if best.version ≤ r.version then some r else some best

/-- `get_latest_published`. -/
def getLatestPublished (rows : List Row) : Option Row :=
  newest (rows.filter fun r => r.status = .published)

/-- `get_previous_published`. -/
def getPreviousPublished (rows : List Row) (beforeVersion : Nat) : Option Row :=
  newest (rows.filter fun r =>
    (r.status = .published ∨ r.status = .superseded) ∧ r.version ≠ beforeVersion)

/-- `get_effective`. -/
def getEffective (digest : String → Nat) (rows : List Row) (requestKey : Option String) :
    Option Row :=
  match getLatestPublished rows with
  | none => none
  | some latest =>
    match latest.canaryPercent with
    | none => some latest
    | some percent =>
      if 100 ≤ percent then some latest
      else if requestKey.any (· ≠ "") ∧ ¬ canaryBucket digest requestKey (some percent) then
        match getPreviousPublished rows latest.version with
        | some baseline => some baseline
        | none => some latest
      else some latest

/-! ## Operations -/

/-- `create_draft`. -/
def createDraft (rows : List Row) (promotedBy : Option String) : List Row :=
  rows ++ [{ version := Log.top Row.version rows + 1, promotedBy }]

/-- `update(...).where(status == published).values(status=superseded)`. -/
def supersede (rows : List Row) : List Row :=
  rows.map fun r => if r.status = .published then { r with status := .superseded } else r

def setRow (rows : List Row) (version : Nat) (f : Row → Row) : List Row :=
  rows.map fun r => if r.version = version then f r else r

/-- `canary_percent is None or canary_percent >= 100`. -/
def isFull : Option Int → Bool
  | none => true
  | some percent => 100 ≤ percent

/-- `promote`; the rows as they were where it returns `None`. -/
def promote (rows : List Row) (version : Nat) (promotedBy : Option String)
    (canaryPercent : Option Int) : List Row :=
  if ∃ r ∈ rows, r.version = version then
    let kept := if isFull canaryPercent then supersede rows else rows
    setRow kept version fun r => { r with
      status := .published
      promotedBy := promotedBy
      canaryPercent := if isFull canaryPercent then none else canaryPercent }
  else rows

/-- The version that `auto_rollback` returns to. -/
def rollbackTo (rows : List Row) (failingVersion : Nat) : Option Row :=
  if ∃ r ∈ rows, r.version = failingVersion ∧ r.status = .published then
    getPreviousPublished rows failingVersion
  else none

/-- `auto_rollback`; the rows as they were where it returns `None`. -/
def autoRollback (rows : List Row) (failingVersion : Nat) (rolledBackBy : Option String) :
    List Row :=
  match rollbackTo rows failingVersion with
  | none => rows
  | some previous =>
    let marked := setRow rows failingVersion fun r => { r with validationStatus := some .regressed }
    setRow (supersede marked) previous.version fun r => { r with
      status := .published
      canaryPercent := none
      promotedBy := (rolledBackBy.filter (· ≠ "")).or r.promotedBy }

end AgentStudio.Promotion

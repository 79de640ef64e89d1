import Mathlib.Data.List.Perm.Basic
import Mathlib.Data.List.Sort
import Mathlib.Data.List.Nodup

/-!
# Policy sets

`PolicyRepository`: sets with a version and a status, and the table of their rules.

* `step_published`: no call changes a published set or its rules;
* `edited_iff`, `published_iff`: when an edit keeps the rules, and when the runtime gets the set
  that was published;
* `sound_iff`: the two over any sequence of calls.
-/

namespace AgentStudio.Governance.PolicySets

structure PolicySet where
  id : Nat
  tenantId : String
  name : String
  version : Nat := 1
  status : String
  deriving DecidableEq

/-- What a rule says; `conditions` are data of the caller. -/
structure Rule (Conditions : Type) where
  name : String
  policyType : String
  action : String
  conditions : Conditions
  priority : ℤ
  enabled : Bool
  deriving DecidableEq

/-- The dict of a rule as a caller gives it. -/
structure RuleData (Conditions : Type) where
  name : Option String := none
  policyType : Option String := none
  action : Option String := none
  conditions : Option Conditions := none
  priority : Option ℤ := none
  enabled : Option Bool := none

variable {Conditions : Type} [EmptyCollection Conditions]

/-- `PolicyRuleModel` of a dict. -/
def RuleData.rule (data : RuleData Conditions) : Rule Conditions where
  name := data.name.getD ""
  policyType := data.policyType.getD "topic_filter"
  action := data.action.getD "allow"
  conditions := data.conditions.getD ∅
  priority := data.priority.getD 0
  enabled := data.enabled.getD true

/-- The two tables; the rows of the rules with their `policy_set_id`. `uuid4` gives `next`, an id
that no set has. -/
structure Store (Conditions : Type) where
  sets : List PolicySet := []
  rules : List (Nat × Rule Conditions) := []
  next : Nat := 0

namespace Store

variable (store : Store Conditions)

/-- The rules of a set. -/
def rulesOf (setId : Nat) : List (Rule Conditions) :=
  (store.rules.filter fun row => row.1 = setId).map Prod.snd

def insert (policySet : PolicySet) : Store Conditions :=
  { store with sets := store.sets ++ [policySet], next := store.next + 1 }

def addRules (setId : Nat) (rules : List (RuleData Conditions)) : Store Conditions :=
  { store with rules := store.rules ++ rules.map fun data => (setId, data.rule) }

def deleteRules (setId : Nat) : Store Conditions :=
  { store with rules := store.rules.filter fun row => row.1 ≠ setId }

def update (setId : Nat) (f : PolicySet → PolicySet) : Store Conditions :=
  { store with sets := store.sets.map fun s => if s.id = setId then f s else s }

def createSet (tenantId name : String) (rules : List (RuleData Conditions))
    (status : String := "published") : Store Conditions :=
  (store.insert { id := store.next, tenantId, name, status }).addRules store.next rules

/-- The row of `set_id`, if the tenant has it. -/
def find (setId : Nat) (tenantId : String) : Option PolicySet :=
  store.sets.find? fun s => s.id = setId ∧ s.tenantId = tenantId

/-- `max(version)` over the sets of the tenant. -/
def maxVersion (tenantId : String) : Nat :=
  ((store.sets.filter fun s => s.tenantId = tenantId).map PolicySet.version).foldr max 0

/-- The set that an edit of `row` changes: `row` if it is a draft, and otherwise a new one. -/
def target (row : PolicySet) (name : Option String) : PolicySet × Store Conditions :=
  if row.status = "draft" then (row, store)
  else
    let copy : PolicySet := {
      id := store.next, tenantId := row.tenantId
      name := if name.getD "" = "" then row.name else name.getD ""
      version := store.maxVersion row.tenantId + 1, status := "draft" }
    (copy, store.insert copy)

/-- `update_set_rules`. -/
def updateSetRules (setId : Nat) (tenantId : String) (name : Option String := none)
    (rules : Option (List (RuleData Conditions)) := none) :
    Option PolicySet × Store Conditions :=
  match store.find setId tenantId with
  | none => (none, store)
  | some row =>
    let (target, store) := store.target row name
    let renamed := { target with name := name.getD target.name }
    let store := store.update target.id fun _ => renamed
    let store := match rules with
      | some rules => (store.deleteRules target.id).addRules target.id rules
      | none => store
    (some renamed, store)

/-- `publish_set`. -/
def publishSet (setId : Nat) (tenantId : String) : Option PolicySet × Store Conditions :=
  match store.find setId tenantId with
  | none => (none, store)
  | some row =>
    let row := { row with status := "published" }
    (some row, store.update row.id fun _ => row)

/-- A set that `get_by_tenant` may read: one of the highest version among the published. Which of
several the database gives is not said. -/
def Governing (tenantId : String) (s : PolicySet) : Prop :=
  s ∈ store.sets ∧ s.tenantId = tenantId ∧ s.status = "published" ∧
    ∀ other ∈ store.sets, other.tenantId = tenantId → other.status = "published" →
      other.version ≤ s.version

/-- An answer of `get_by_tenant` that is not `None`: the set and its rules by priority. -/
def GetByTenant (tenantId : String) (answer : PolicySet × List (Rule Conditions)) : Prop :=
  store.Governing tenantId answer.1 ∧ answer.2.Perm (store.rulesOf answer.1.id) ∧
    answer.2.Pairwise fun a b => b.priority ≤ a.priority

end Store

inductive Op (Conditions : Type) where
  | createSet (tenantId name : String) (rules : List (RuleData Conditions)) (status : String)
  | updateSetRules (setId : Nat) (tenantId : String) (name : Option String)
      (rules : Option (List (RuleData Conditions)))
  | publishSet (setId : Nat) (tenantId : String)

def step (store : Store Conditions) : Op Conditions → Store Conditions
  | .createSet tenantId name rules status => store.createSet tenantId name rules status
  | .updateSetRules setId tenantId name rules => (store.updateSetRules setId tenantId name rules).2
  | .publishSet setId tenantId => (store.publishSet setId tenantId).2

def run (ops : List (Op Conditions)) : Store Conditions := ops.foldl step {}

/-! ## What the calls should do -/

/-- The published sets of `store` are as they were, and so are their rules. -/
def Unmodified (store store' : Store Conditions) : Prop :=
  ∀ s ∈ store.sets, s.status = "published" →
    s ∈ store'.sets ∧ store'.rulesOf s.id = store.rulesOf s.id

/-- `get_by_tenant` returns `s` with `rules`, whichever answer the database gives. -/
def Returns (store : Store Conditions) (tenantId : String) (s : PolicySet)
    (rules : List (Rule Conditions)) : Prop :=
  (∃ answer, store.GetByTenant tenantId answer) ∧
    ∀ answer, store.GetByTenant tenantId answer → answer.1 = s ∧ answer.2.Perm rules

/-- An edit of a published set produces a draft with the rules of the set, but for the parts that
the edit replaces; after `publish_set` the runtime gets the set that was published. -/
def Right (store : Store Conditions) : Op Conditions → Prop
  | .createSet _ _ _ _ => True
  | .updateSetRules setId tenantId name rules => ∀ row ∈ store.find setId tenantId,
      row.status = "published" →
        ∃ draft, (store.updateSetRules setId tenantId name rules).1 = some draft ∧
          draft ∈ (store.updateSetRules setId tenantId name rules).2.sets ∧
          draft.status = "draft" ∧ draft.name = name.getD row.name ∧
          ((store.updateSetRules setId tenantId name rules).2.rulesOf draft.id).Perm
            ((rules.map fun rules => rules.map RuleData.rule).getD (store.rulesOf row.id))
  | .publishSet setId tenantId => ∀ row ∈ store.find setId tenantId,
      Returns (store.publishSet setId tenantId).2 tenantId { row with status := "published" }
        (store.rulesOf row.id)

/-- An edit of a published set that has rules gives all its rules; and a set that is published
has a higher version than every published set of its tenant. -/
def Fits (store : Store Conditions) : Op Conditions → Prop
  | .createSet _ _ _ _ => True
  | .updateSetRules setId tenantId _ rules => ∀ row ∈ store.find setId tenantId,
      row.status = "published" → rules = none → store.rulesOf row.id = []
  | .publishSet setId tenantId => ∀ row ∈ store.find setId tenantId,
      ∀ other ∈ store.sets, other.tenantId = tenantId → other.status = "published" →
        other.id ≠ row.id → other.version < row.version

/-- In a sequence of calls no published set is ever modified, and each call does what it should. -/
def Sound (ops : List (Op Conditions)) : Prop :=
  (∀ before after, ops = before ++ after → Unmodified (run before) (run ops)) ∧
    ∀ before op after, ops = before ++ op :: after → Right (run before) op

/-! ## The tables -/

/-- Ids are given once, and each rule is of a set that was made. -/
structure Valid (store : Store Conditions) : Prop where
  ids : (store.sets.map PolicySet.id).Nodup
  below : ∀ s ∈ store.sets, s.id < store.next
  rules : ∀ row ∈ store.rules, row.1 < store.next

section

variable {C : Type} {store : Store C} {setId : Nat} {tenantId : String} {s row : PolicySet}

theorem find_some (found : store.find setId tenantId = some row) :
    row ∈ store.sets ∧ row.id = setId ∧ row.tenantId = tenantId := by
  have fits := List.find?_some found
  exact ⟨List.mem_of_find?_eq_some found, of_decide_eq_true fits⟩

theorem Valid.eq_of_id (h : Valid store) {t : PolicySet} (s_in : s ∈ store.sets)
    (t_in : t ∈ store.sets) (same : s.id = t.id) : s = t :=
  List.inj_on_of_nodup_map h.ids s_in t_in same

theorem mem_update {f : PolicySet → PolicySet} :
    s ∈ (store.update setId f).sets ↔
      ∃ t ∈ store.sets, (if t.id = setId then f t else t) = s := List.mem_map

theorem rulesOf_deleteRules (id : Nat) :
    (store.deleteRules setId).rulesOf id = if setId = id then [] else store.rulesOf id := by
  unfold Store.deleteRules Store.rulesOf
  rw [List.filter_filter]
  by_cases same : setId = id
  · rw [if_pos same, List.filter_eq_nil_iff.mpr]
    · rfl
    · intro row _
      rw [same, ← Bool.decide_and, decide_eq_true_iff]
      exact fun both => both.2 both.1
  · rw [if_neg same]
    congr 1
    apply List.filter_congr
    intro row _
    rw [← Bool.decide_and, decide_eq_decide]
    exact and_iff_left_of_imp fun is_id eq => same (eq.symm.trans is_id)

theorem Valid.rulesOf_next (h : Valid store) : store.rulesOf store.next = [] := by
  unfold Store.rulesOf
  rw [List.filter_eq_nil_iff.mpr]
  · rfl
  · intro row row_in is_next
    have below := h.rules row row_in
    rw [of_decide_eq_true is_next] at below
    exact Nat.lt_irrefl _ below

theorem Valid.insert (h : Valid store) (fresh : s.id = store.next) : Valid (store.insert s) := by
  refine ⟨?_, ?_, ?_⟩
  · unfold Store.insert
    rw [List.map_append, List.nodup_append]
    refine ⟨h.ids, List.nodup_singleton _, ?_⟩
    rintro id id_in _ new rfl
    obtain ⟨t, t_in, rfl⟩ := List.mem_map.mp id_in
    have below := h.below t t_in
    rw [List.mem_singleton.mp new, fresh] at below
    exact Nat.lt_irrefl _ below
  · intro t t_in
    rcases List.mem_append.mp t_in with old | new
    · exact Nat.lt_succ_of_lt (h.below t old)
    · rw [List.mem_singleton.mp new, fresh]
      exact Nat.lt_succ_self _
  · exact fun row row_in => Nat.lt_succ_of_lt (h.rules row row_in)

theorem Valid.deleteRules (h : Valid store) : Valid (store.deleteRules setId) :=
  ⟨h.ids, h.below, fun row row_in => h.rules row (List.mem_filter.mp row_in).1⟩

theorem Valid.update (h : Valid store) (new : PolicySet) (same : new.id = setId) :
    Valid (store.update setId fun _ => new) := by
  have ids : ∀ t : PolicySet, (if t.id = setId then new else t).id = t.id := by
    intro t
    split
    · rename_i is_id
      exact same.trans is_id.symm
    · rfl
  refine ⟨?_, ?_, h.rules⟩
  · have kept : (store.update setId fun _ => new).sets.map PolicySet.id =
        store.sets.map PolicySet.id := by
      unfold Store.update
      rw [List.map_map]
      exact List.map_congr_left fun t _ => ids t
    rw [kept]
    exact h.ids
  · intro t t_in
    obtain ⟨u, u_in, rfl⟩ := mem_update.mp t_in
    rw [ids u]
    exact h.below u u_in

theorem Valid.target (h : Valid store) (row_in : row ∈ store.sets) (name : Option String) :
    Valid (store.target row name).2 ∧
      (store.target row name).1.id < (store.target row name).2.next := by
  unfold Store.target
  split
  · exact ⟨h, h.below row row_in⟩
  · exact ⟨h.insert rfl, Nat.lt_succ_self _⟩

/-- A draft is no published set. -/
theorem Valid.draft_ne (h : Valid store) (s_in : s ∈ store.sets) (draft : s.status = "draft") :
    ∀ t ∈ store.sets, t.status = "published" → s.id ≠ t.id := by
  intro t t_in published same
  rw [← h.eq_of_id s_in t_in same, draft] at published
  exact absurd published (by decide)

theorem Valid.publishSet (h : Valid store) : Valid (store.publishSet setId tenantId).2 := by
  unfold Store.publishSet
  split
  · exact h
  · exact h.update _ rfl

/-! ## Published sets -/

theorem Unmodified.same : Unmodified store store := fun _ s_in _ => ⟨s_in, rfl⟩

theorem Unmodified.trans {store' store'' : Store C} (first_ : Unmodified store store')
    (next : Unmodified store' store'') : Unmodified store store'' := by
  intro s s_in published
  obtain ⟨in', rules⟩ := first_ s s_in published
  obtain ⟨in'', rules'⟩ := next s in' published
  exact ⟨in'', rules'.trans rules⟩

/-- The row of a set that is no published one is replaced. -/
theorem unmodified_update (new : PolicySet)
    (other : ∀ s ∈ store.sets, s.status = "published" → s.id = setId → s = new) :
    Unmodified store (store.update setId fun _ => new) := by
  intro s s_in published
  refine ⟨mem_update.mpr ⟨s, s_in, ?_⟩, rfl⟩
  split
  · rename_i is_id
    exact (other s s_in published is_id).symm
  · rfl

/-- What an edit changes is a draft of the tables, and nothing published. -/
theorem target_draft (row_in : row ∈ store.sets) (name : Option String) :
    (store.target row name).1 ∈ (store.target row name).2.sets ∧
      (store.target row name).1.status = "draft" ∧
      Unmodified store (store.target row name).2 := by
  unfold Store.target
  by_cases draft : row.status = "draft"
  · rw [if_pos draft]
    exact ⟨row_in, draft, .same⟩
  · rw [if_neg draft]
    exact ⟨List.mem_append_right _ (List.mem_singleton_self _), rfl,
      fun _ t_in _ => ⟨List.mem_append_left _ t_in, rfl⟩⟩

theorem publishSet_unmodified (h : Valid store) :
    Unmodified store (store.publishSet setId tenantId).2 := by
  unfold Store.publishSet
  cases found : store.find setId tenantId with
  | none => exact .same
  | some row =>
    apply unmodified_update
    intro s s_in published is_id
    rw [h.eq_of_id s_in (find_some found).1 is_id] at published ⊢
    rw [← published]

end

variable {store : Store Conditions} {setId : Nat} {tenantId : String} {row : PolicySet}

theorem rulesOf_addRules (rules : List (RuleData Conditions)) (id : Nat) :
    (store.addRules setId rules).rulesOf id =
      store.rulesOf id ++ if setId = id then rules.map RuleData.rule else [] := by
  unfold Store.addRules Store.rulesOf
  rw [List.filter_append, List.map_append, List.filter_map, List.map_map]
  congr 1
  by_cases same : setId = id
  · rw [if_pos same, List.filter_eq_self.mpr]
    · rfl
    · exact fun _ _ => decide_eq_true same
  · rw [if_neg same, List.filter_eq_nil_iff.mpr]
    · rfl
    · exact fun _ _ is_id => same (of_decide_eq_true is_id)

theorem Valid.addRules (h : Valid store) (below : setId < store.next)
    (rules : List (RuleData Conditions)) : Valid (store.addRules setId rules) := by
  refine ⟨h.ids, h.below, fun row row_in => ?_⟩
  rcases List.mem_append.mp row_in with old | new
  · exact h.rules row old
  · obtain ⟨_, _, rfl⟩ := List.mem_map.mp new
    exact below

theorem Valid.updateSetRules (h : Valid store) (name : Option String)
    (rules : Option (List (RuleData Conditions))) :
    Valid (store.updateSetRules setId tenantId name rules).2 := by
  unfold Store.updateSetRules
  cases found : store.find setId tenantId with
  | none => exact h
  | some row =>
    obtain ⟨valid, below⟩ := h.target (find_some found).1 name
    have renamed := valid.update { (store.target row name).1 with
      name := name.getD (store.target row name).1.name } rfl
    cases rules with
    | none => exact renamed
    | some rules => exact renamed.deleteRules.addRules below rules

theorem Valid.step (h : Valid store) (op : Op Conditions) : Valid (step store op) := by
  cases op with
  | createSet tenantId name rules status =>
    exact (h.insert rfl).addRules (Nat.lt_succ_self _) rules
  | updateSetRules setId tenantId name rules => exact h.updateSetRules name rules
  | publishSet setId tenantId => exact h.publishSet

theorem run_valid (ops : List (Op Conditions)) : Valid (run ops) := by
  suffices valid : ∀ store : Store Conditions, Valid store → Valid (ops.foldl step store) from
    valid {} ⟨List.nodup_nil, fun _ => nofun, fun _ => nofun⟩
  induction ops with
  | nil => exact fun _ h => h
  | cons op ops ih => exact fun store h => ih _ (h.step op)

theorem unmodified_rules (rules : List (RuleData Conditions))
    (other : ∀ s ∈ store.sets, s.status = "published" → setId ≠ s.id) :
    Unmodified store ((store.deleteRules setId).addRules setId rules) := by
  intro s s_in published
  have ne := other s s_in published
  refine ⟨s_in, ?_⟩
  rw [rulesOf_addRules, rulesOf_deleteRules, if_neg ne, if_neg ne, List.append_nil]

theorem updateSetRules_unmodified (h : Valid store) (name : Option String)
    (rules : Option (List (RuleData Conditions))) :
    Unmodified store (store.updateSetRules setId tenantId name rules).2 := by
  unfold Store.updateSetRules
  cases found : store.find setId tenantId with
  | none => exact .same
  | some row =>
    obtain ⟨target_in, draft, made⟩ := target_draft (find_some found).1 name
    obtain ⟨valid, -⟩ := h.target (find_some found).1 name
    let renamed := { (store.target row name).1 with
      name := name.getD (store.target row name).1.name }
    have updated := made.trans (@unmodified_update _ _ renamed.id renamed
      fun s s_in published is_id =>
        absurd is_id.symm (valid.draft_ne target_in draft s s_in published))
    cases rules with
    | none => exact updated
    | some rules =>
      apply updated.trans (unmodified_rules rules _)
      apply (valid.update renamed rfl).draft_ne (s := renamed) _ draft
      exact mem_update.mpr ⟨_, target_in, if_pos rfl⟩

/-- No call changes a published set or its rules. -/
theorem step_unmodified (h : Valid store) (op : Op Conditions) :
    Unmodified store (step store op) := by
  cases op with
  | createSet tenantId name rules status =>
    intro s s_in published
    refine ⟨List.mem_append_left _ s_in, ?_⟩
    refine (rulesOf_addRules rules s.id).trans ?_
    rw [if_neg (h.below s s_in).ne']
    exact List.append_nil _
  | updateSetRules setId tenantId name rules => exact updateSetRules_unmodified h name rules
  | publishSet setId tenantId => exact publishSet_unmodified h

/-! ## Edits of a published set -/

/-- What an edit of a published set gives: a new draft with the rules of the edit, or none. -/
theorem updateSetRules_published (h : Valid store) (found : store.find setId tenantId = some row)
    (published : row.status = "published") (name : Option String)
    (rules : Option (List (RuleData Conditions))) :
    ∃ draft, (store.updateSetRules setId tenantId name rules).1 = some draft ∧
      draft ∈ (store.updateSetRules setId tenantId name rules).2.sets ∧
      draft.status = "draft" ∧ draft.name = name.getD row.name ∧
      (store.updateSetRules setId tenantId name rules).2.rulesOf draft.id =
        (rules.map fun rules => rules.map RuleData.rule).getD [] := by
  have not_draft : row.status ≠ "draft" := by
    rw [published]
    decide
  unfold Store.updateSetRules
  rw [found]
  unfold Store.target
  simp only [if_neg not_draft]
  refine ⟨_, rfl, ?_, rfl, ?_, ?_⟩
  · cases rules <;>
      exact mem_update.mpr ⟨_, List.mem_append_right _ (List.mem_singleton_self _), if_pos rfl⟩
  · cases name <;> rfl
  · cases rules with
    | none => exact h.rulesOf_next
    | some rules =>
      refine (rulesOf_addRules rules store.next).trans ?_
      rw [if_pos rfl, rulesOf_deleteRules, if_pos rfl]
      rfl

theorem edited_iff (h : Valid store) (setId : Nat) (tenantId : String) (name : Option String)
    (rules : Option (List (RuleData Conditions))) :
    Right store (.updateSetRules setId tenantId name rules) ↔
      Fits store (.updateSetRules setId tenantId name rules) := by
  apply forall₃_congr
  intro row found published
  obtain ⟨draft, is_draft, draft_in, status, is_name, has_rules⟩ :=
    updateSetRules_published h found published name rules
  constructor
  · rintro ⟨draft', is_draft', -, -, -, keeps⟩ rfl
    rw [is_draft, Option.some_inj] at is_draft'
    rw [← is_draft', has_rules] at keeps
    exact keeps.symm.eq_nil
  · intro none_
    refine ⟨draft, is_draft, draft_in, status, is_name, ?_⟩
    rw [has_rules]
    cases rules with
    | none => rw [none_ rfl]
    | some rules => exact .refl _

/-! ## The set that governs -/

section

variable {C : Type} {store : Store C} {tenantId : String} {s row : PolicySet}

theorem governing_answer (governs : store.Governing tenantId s) :
    ∃ rules, store.GetByTenant tenantId (s, rules) := by
  refine ⟨(store.rulesOf s.id).mergeSort fun a b => b.priority ≤ a.priority, governs,
    List.mergeSort_perm _ _, ?_⟩
  refine List.Pairwise.imp of_decide_eq_true (List.pairwise_mergeSort ?_ ?_ (store.rulesOf s.id))
  · intro a b c ab bc
    exact decide_eq_true (le_trans (of_decide_eq_true bc) (of_decide_eq_true ab))
  · intro a b
    rw [Bool.or_eq_true, decide_eq_true_iff, decide_eq_true_iff]
    exact le_total b.priority a.priority

/-- The published sets of a tenant, once one of its sets is published. -/
theorem published_update (row_in : row ∈ store.sets) :
    s ∈ (store.update row.id fun _ => { row with status := "published" }).sets ↔
      s = { row with status := "published" } ∨ (s ∈ store.sets ∧ s.id ≠ row.id) := by
  rw [mem_update]
  constructor
  · rintro ⟨t, t_in, rfl⟩
    by_cases is_row : t.id = row.id
    · exact Or.inl (if_pos is_row)
    · rw [if_neg is_row]
      exact Or.inr ⟨t_in, is_row⟩
  · rintro (rfl | ⟨s_in, ne⟩)
    · exact ⟨row, row_in, if_pos rfl⟩
    · exact ⟨s, s_in, if_neg ne⟩

/-- The set that was published governs exactly if its version is above those of the others. -/
theorem returns_iff (row_in : row ∈ store.sets)
    (of_tenant : row.tenantId = tenantId) :
    Returns (store.update row.id fun _ => { row with status := "published" }) tenantId
        { row with status := "published" } (store.rulesOf row.id) ↔
      ∀ other ∈ store.sets, other.tenantId = tenantId → other.status = "published" →
        other.id ≠ row.id → other.version < row.version := by
  constructor
  · rintro ⟨⟨answer, given⟩, only⟩ other other_in other_tenant published ne
    have governs := given.1
    rw [(only answer given).1] at governs
    have other_in' := (published_update row_in).mpr (Or.inr ⟨other_in, ne⟩)
    apply lt_of_le_of_ne (governs.2.2.2 other other_in' other_tenant published)
    intro same
    obtain ⟨rules, also⟩ := governing_answer (s := other)
      ⟨other_in', other_tenant, published, fun t t_in t_tenant t_published =>
        (governs.2.2.2 t t_in t_tenant t_published).trans_eq same.symm⟩
    have is_row : other = { row with status := "published" } := (only _ also).1
    exact ne (by rw [is_row])
  · intro above
    have governs : Store.Governing
        (store.update row.id fun _ => { row with status := "published" }) tenantId
        { row with status := "published" } := by
      refine ⟨(published_update row_in).mpr (Or.inl rfl), of_tenant, rfl, ?_⟩
      intro other other_in other_tenant published
      rcases (published_update row_in).mp other_in with rfl | ⟨old, ne⟩
      · exact le_rfl
      · exact (above other old other_tenant published ne).le
    refine ⟨?_, ?_⟩
    · obtain ⟨rules, given⟩ := governing_answer governs
      exact ⟨_, given⟩
    · rintro ⟨s, rules⟩ ⟨⟨s_in, s_tenant, published, highest⟩, perm, -⟩
      rcases (published_update row_in).mp s_in with rfl | ⟨old, ne⟩
      · exact ⟨rfl, perm⟩
      · have le := highest _ governs.1 of_tenant rfl
        exact absurd le (above s old s_tenant published ne).not_ge

end

theorem published_iff (setId : Nat) (tenantId : String) :
    Right store (.publishSet setId tenantId) ↔ Fits store (.publishSet setId tenantId) := by
  apply forall₂_congr
  intro row found
  obtain ⟨row_in, -, of_tenant⟩ := find_some found
  rw [← returns_iff row_in of_tenant, Store.publishSet, found]

theorem right_iff (h : Valid store) (op : Op Conditions) : Right store op ↔ Fits store op := by
  cases op with
  | createSet tenantId name rules status => exact Iff.rfl
  | updateSetRules setId tenantId name rules => exact edited_iff h setId tenantId name rules
  | publishSet setId tenantId => exact published_iff setId tenantId

/-- No published set is ever modified. -/
theorem foldl_unmodified (ops : List (Op Conditions)) (h : Valid store) :
    Unmodified store (ops.foldl step store) := by
  induction ops generalizing store with
  | nil => exact .same
  | cons op ops ih => exact (step_unmodified h op).trans (ih (h.step op))

/-- In a sequence of calls no published set is ever modified; edits keep the rules and published
sets govern exactly if every edit of a published set that has rules gives rules, and every set
that is published has a higher version than the other published sets of its tenant. -/
theorem sound_iff (ops : List (Op Conditions)) :
    Sound ops ↔ ∀ before op after, ops = before ++ op :: after → Fits (run before) op := by
  unfold Sound
  rw [and_iff_right]
  · apply forall_congr'
    intro before
    apply forall₃_congr
    intro op _ _
    exact right_iff (run_valid before) op
  · rintro before after rfl
    unfold run
    rw [List.foldl_append]
    exact foldl_unmodified after (run_valid before)

/-- The set that a tenant starts with and a draft made after it have one version; once the draft
is published, the database may still give the first. -/
theorem tie : ¬∀ ops : List (Op (List String)), Sound ops := by
  intro claim
  let made : List (Op (List String)) :=
    [.createSet "t" "default" [] "published", .createSet "t" "strict" [{}] "draft"]
  have given := (claim (made ++ [.publishSet 1 "t"])).2 made _ [] rfl
  obtain ⟨-, only⟩ := given ⟨1, "t", "strict", 1, "draft"⟩ (by decide)
  have first_ : (run (made ++ [.publishSet 1 "t"])).Governing "t"
      ⟨0, "t", "default", 1, "published"⟩ := by
    refine ⟨by decide, rfl, rfl, ?_⟩
    decide
  exact absurd (only (_, []) ⟨first_, .refl _, .nil⟩).1 (by decide)

end AgentStudio.Governance.PolicySets

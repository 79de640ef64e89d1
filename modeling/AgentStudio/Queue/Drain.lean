import AgentStudio.Queue.Manager
import Mathlib.Data.List.Perm.Basic

/-!
# Draining the dead letters

`drain_dead_letter` of `infrastructure/queue/manager.py`. In Redis the dead letters of each type
are a list of their own. Of every list up to `limit` jobs are trimmed off, and what was collected
by then is cut to `limit`: the jobs past it are on no list any more.
-/

namespace AgentStudio.Queue

namespace Store

variable (s : Store)

/-- The list of the dead letters of a type. -/
def deadOf (type : String) (dead : List Job) : List Job := dead.filter fun job => job.type = type

/-- `LRANGE key 0 (limit - 1)`; the end -1 is the last job. -/
def lrangeDead (type : String) (limit : Nat) : List Job :=
  if limit = 0 then deadOf type s.dead else (deadOf type s.dead).take limit

/-- The dead letters without the first `n` of a type. -/
def withoutFirst (type : String) : Nat → List Job → List Job
  | 0, dead => dead
  | _ + 1, [] => []
  | n + 1, job :: dead =>
    if job.type = type then withoutFirst type n dead else job :: withoutFirst type (n + 1) dead

/-- `LTRIM key n -1`. -/
def ltrimDead (type : String) (n : Nat) : Store := { s with dead := withoutFirst type n s.dead }

/-- The loop over the keys. -/
def drainKeys (limit : Nat) : List String → List Job → Store → List Job × Store
  | [], drained, s => (drained, s)
  | type :: types, drained, s =>
    let items := s.lrangeDead type limit
    let s := s.ltrimDead type items.length
    let drained := drained ++ items
    if limit ≤ drained.length then (drained, s) else drainKeys limit types drained s

/-- The loop over `_dead_letters`: what is drained of a type, and what remains. -/
def drainMemory (type : String) (limit : Nat) : List Job → List Job → List Job × List Job
  | drained, [] => (drained, [])
  | drained, job :: jobs =>
    if job.type = type ∧ drained.length < limit then drainMemory type limit (drained ++ [job]) jobs
    else
      let (drained, remaining) := drainMemory type limit drained jobs
      (drained, job :: remaining)

end Store

/-- A type that is not empty. -/
def given (jobType : Option String) : Option String := jobType.filter (· ≠ "")

/-- The types of the keys that are gone through. -/
def drainedTypes (jobType : Option String) (scanned : List String) : List String :=
  match given jobType with
  | some type => [type]
  | none => scanned

/-- `drain_dead_letter`; `scanned` are the types of the keys that the scan has found, in its
order. -/
def drainDeadLetter (config : Config) (jobType : Option String) (limit : Nat)
    (scanned : List String) (s : Store) : List Job × Store :=
  if config.redis then
    let (drained, s) := s.drainKeys limit (drainedTypes jobType scanned) []
    (drained.take limit, s)
  else
    match given jobType with
    | some type =>
      let (drained, remaining) := Store.drainMemory type limit [] s.deadLetters
      (drained, { s with deadLetters := remaining })
    | none => (s.deadLetters.take limit, { s with deadLetters := s.deadLetters.drop limit })

/-! ## What is removed and what is returned -/

/-- Exactly the jobs returned are gone from the dead letters, and nothing else is changed. -/
structure Removes (s : Store) (returned : List Job) (s' : Store) : Prop where
  jobs : (s.dead ++ s.deadLetters).Perm (returned ++ (s'.dead ++ s'.deadLetters))
  rest : s' = { s with dead := s'.dead, deadLetters := s'.deadLetters }

/-- How many jobs a visit of a list takes, after the visits before it. -/
def batch (limit : Nat) (dead : List Job) (before : List String) (type : String) : Nat :=
  min limit ((Store.deadOf type dead).length - limit * before.count type)

/-- How many jobs the visits take. -/
def gathered (limit : Nat) (dead : List Job) (before : List String) : List String → Nat
  | [] => 0
  | type :: types => batch limit dead before type + gathered limit dead (before ++ [type]) types

/-- No list that is visited while jobs are still wanted has more of them to take than are wanted;
with none wanted the first list is empty. -/
structure Fits (limit : Nat) (dead : List Job) (types : List String) : Prop where
  wanted : ∀ before type, before ++ [type] <+: types → gathered limit dead [] before < limit →
    gathered limit dead [] (before ++ [type]) ≤ limit
  none_ : limit = 0 → ∀ type, types.head? = some type → Store.deadOf type dead = []

section
variable {type : String} {limit : Nat} {dead : List Job}

open Store

theorem deadOf_withoutFirst (type : String) (n : Nat) (dead : List Job) :
    deadOf type (withoutFirst type n dead) = (deadOf type dead).drop n := by
  fun_induction withoutFirst type n dead with
  | case1 dead => rfl
  | case2 n => rfl
  | case3 n job dead is ih =>
    rw [ih]
    simp [deadOf, is]
  | case4 n job dead other ih =>
    simp only [deadOf, List.filter_cons, other, decide_false, Bool.false_eq_true, if_false] at ih ⊢
    exact ih

theorem deadOf_withoutFirst_other {other : String} (ne : other ≠ type) (n : Nat) (dead : List Job) :
    deadOf other (withoutFirst type n dead) = deadOf other dead := by
  fun_induction withoutFirst type n dead with
  | case1 dead => rfl
  | case2 n => rfl
  | case3 n job dead is ih =>
    rw [ih]
    simp [deadOf, is, ne.symm]
  | case4 n job dead _ ih =>
    simp only [deadOf, List.filter_cons] at ih ⊢
    rw [ih]

/-- What is trimmed off a list, and what is left. -/
theorem withoutFirst_perm (type : String) (n : Nat) (dead : List Job) :
    dead.Perm ((deadOf type dead).take n ++ withoutFirst type n dead) := by
  fun_induction withoutFirst type n dead with
  | case1 dead => simp
  | case2 n => simp [deadOf]
  | case3 n job dead is ih =>
    simpa [deadOf, is] using ih
  | case4 n job dead other ih =>
    simp only [deadOf, List.filter_cons, other, decide_false, Bool.false_eq_true, if_false] at ih ⊢
    exact (ih.cons job).trans List.perm_middle.symm

theorem take_lrange (s : Store) (type : String) (limit : Nat) :
    (deadOf type s.dead).take (s.lrangeDead type limit).length = s.lrangeDead type limit := by
  unfold lrangeDead
  split
  · exact List.take_length
  · rw [List.length_take]
    exact List.take_eq_take_min.symm

/-- A visit moves jobs from the dead letters to those drained. -/
theorem visit_perm (s : Store) (type : String) (limit : Nat) (drained : List Job) :
    (drained ++ s.dead).Perm (drained ++ s.lrangeDead type limit ++
      (s.ltrimDead type (s.lrangeDead type limit).length).dead) := by
  have moved := withoutFirst_perm type (s.lrangeDead type limit).length s.dead
  rw [take_lrange] at moved
  rw [List.append_assoc]
  exact moved.append_left drained

/-- The loop moves jobs, and does nothing else. -/
theorem drainKeys_perm (limit : Nat) (types : List String) (drained : List Job) (s : Store) :
    (drained ++ s.dead).Perm ((drainKeys limit types drained s).1 ++
      (drainKeys limit types drained s).2.dead) ∧
    (drainKeys limit types drained s).2 =
      { s with dead := (drainKeys limit types drained s).2.dead } := by
  induction types generalizing drained s with
  | nil => exact ⟨.refl _, rfl⟩
  | cons type types ih =>
    have moved := visit_perm s type limit drained
    rw [drainKeys]
    split
    · exact ⟨moved, rfl⟩
    · obtain ⟨rest, same⟩ := ih (drained ++ s.lrangeDead type limit)
        (s.ltrimDead type (s.lrangeDead type limit).length)
      refine ⟨moved.trans rest, ?_⟩
      rw [same]
      rfl

theorem gathered_cons_le (before : List String) (type : String) (types : List String) :
    batch limit dead before type ≤ gathered limit dead before (type :: types) :=
  Nat.le_add_right _ _

/-- The lists after the visits before: of each type those that were taken are gone. -/
def Visited (limit : Nat) (dead : List Job) (before : List String) (s : Store) : Prop :=
  ∀ type, deadOf type s.dead = (deadOf type dead).drop (limit * before.count type)

theorem Visited.visit {before : List String} {s : Store} (some_ : 0 < limit)
    (visited : Visited limit dead before s) (type : String) :
    (s.lrangeDead type limit).length = batch limit dead before type ∧
      Visited limit dead (before ++ [type])
        (s.ltrimDead type (s.lrangeDead type limit).length) := by
  have items : s.lrangeDead type limit = (deadOf type s.dead).take limit :=
    if_neg (Nat.ne_of_gt some_)
  constructor
  · rw [items, visited, batch, List.length_take, List.length_drop]
  · intro other
    rw [ltrimDead, List.count_append]
    by_cases same : other = type
    · subst same
      have whole : (deadOf other s.dead).drop (s.lrangeDead other limit).length =
          (deadOf other s.dead).drop limit := by
        rw [items, List.length_take]
        rcases Nat.le_total limit (deadOf other s.dead).length with le | le
        · rw [Nat.min_eq_left le]
        · rw [Nat.min_eq_right le, List.drop_length, List.drop_eq_nil_of_le le]
      rw [deadOf_withoutFirst, whole, visited, List.drop_drop]
      simp [Nat.mul_add]
    · rw [deadOf_withoutFirst_other same, visited]
      simp [Ne.symm same]

/-- The places of a list, the first one and those after it. -/
theorem forall_snoc_prefix_cons {P : List String → String → Prop} {type : String}
    {types : List String} :
    (∀ later type', later ++ [type'] <+: type :: types → P later type') ↔
      P [] type ∧ ∀ later type', later ++ [type'] <+: types → P (type :: later) type' := by
  constructor
  · intro all
    refine ⟨all [] type (by simp), fun later type' start => ?_⟩
    apply all (type :: later) type'
    rw [List.cons_append, List.cons_prefix_cons]
    exact ⟨rfl, start⟩
  · rintro ⟨here, rest⟩ later type' start
    cases later with
    | nil =>
      rw [List.nil_append, List.cons_prefix_cons] at start
      rw [start.1]
      exact here
    | cons first_ later =>
      rw [List.cons_append, List.cons_prefix_cons] at start
      rw [start.1]
      exact rest later type' start.2

/-- The loop drains no more than are wanted exactly if no visit does. -/
theorem drainKeys_le_iff (some_ : 0 < limit) (types before : List String) (drained : List Job)
    (s : Store) (visited : Visited limit dead before s) (wanted : drained.length < limit) :
    (drainKeys limit types drained s).1.length ≤ limit ↔
      ∀ later type, later ++ [type] <+: types →
        drained.length + gathered limit dead before later < limit →
          drained.length + gathered limit dead before (later ++ [type]) ≤ limit := by
  induction types generalizing before drained s with
  | nil =>
    refine ⟨fun _ later type start => ?_, fun _ => wanted.le⟩
    have short := start.length_le
    simp at short
  | cons type types ih =>
    obtain ⟨items, visited'⟩ := visited.visit some_ type
    have more : (drained ++ s.lrangeDead type limit).length =
        drained.length + batch limit dead before type := by
      rw [List.length_append, items]
    have one : gathered limit dead before [type] = batch limit dead before type := by
      simp [gathered]
    rw [forall_snoc_prefix_cons, List.nil_append, one, drainKeys]
    split
    · rename_i enough
      rw [more] at enough ⊢
      constructor
      · refine fun fits => ⟨fun _ => fits, fun later type' _ short => ?_⟩
        have least := @gathered_cons_le limit dead before type later
        omega
      · rintro ⟨fits, -⟩
        exact fits (by simpa [gathered] using wanted)
    · rename_i going
      rw [more] at going
      rw [ih (before ++ [type]) _ _ visited' (by omega), more]
      constructor
      · refine fun fits => ⟨fun _ => by omega, fun later type' start short => ?_⟩
        rw [gathered, ← Nat.add_assoc] at short
        rw [List.cons_append, gathered, ← Nat.add_assoc]
        exact fits later type' start short
      · rintro ⟨-, fits⟩ later type' start short
        have next := fits later type' start
        rw [gathered, List.cons_append, gathered, ← Nat.add_assoc, ← Nat.add_assoc] at next
        exact next short

theorem drainMemory_perm (type : String) (limit : Nat) (drained jobs : List Job) :
    (drained ++ jobs).Perm ((drainMemory type limit drained jobs).1 ++
      (drainMemory type limit drained jobs).2) := by
  fun_induction drainMemory type limit drained jobs with
  | case1 drained => exact .refl _
  | case2 drained job jobs takes ih => simpa using ih
  | case3 drained job jobs stays drained' remaining is ih =>
    rw [is] at ih
    exact List.perm_middle.trans ((ih.cons job).trans List.perm_middle.symm)

theorem drainMemory_le (type : String) (limit : Nat) (drained jobs : List Job)
    (few : drained.length ≤ limit) : (drainMemory type limit drained jobs).1.length ≤ limit := by
  fun_induction drainMemory type limit drained jobs with
  | case1 drained => exact few
  | case2 drained job jobs takes ih =>
    refine ih ?_
    rw [List.length_append]
    exact takes.2
  | case3 drained job jobs stays drained' remaining is ih =>
    rw [is] at ih
    exact ih few

/-- With none wanted the first list is emptied. -/
theorem drainKeys_zero (types : List String) (s : Store) :
    (drainKeys 0 types [] s).1.length ≤ 0 ↔
      ∀ type, types.head? = some type → deadOf type s.dead = [] := by
  cases types with
  | nil => simp [drainKeys]
  | cons type types => simp [drainKeys, lrangeDead]

/-- What is drained is cut to the limit: nothing is lost exactly if nothing is cut off. -/
theorem removes_take_iff (limit : Nat) (types : List String) (s : Store) :
    Removes s ((drainKeys limit types [] s).1.take limit) (drainKeys limit types [] s).2 ↔
      (drainKeys limit types [] s).1.length ≤ limit := by
  obtain ⟨moved, same⟩ := drainKeys_perm limit types [] s
  rw [List.nil_append] at moved
  have letters : (drainKeys limit types [] s).2.deadLetters = s.deadLetters := by rw [same]
  constructor
  · intro removes
    have lengths := removes.jobs.length_eq
    have moved_ := moved.length_eq
    rw [letters] at lengths
    simp only [List.length_append, List.length_take] at lengths moved_
    omega
  · intro few
    refine ⟨?_, ?_⟩
    · rw [List.take_of_length_le few, letters, ← List.append_assoc]
      exact moved.append_right s.deadLetters
    · rw [letters]
      exact same

theorem fits_iff (limit : Nat) (types : List String) (s : Store) :
    (drainKeys limit types [] s).1.length ≤ limit ↔ Fits limit s.dead types := by
  by_cases zero : limit = 0
  · subst zero
    rw [drainKeys_zero]
    exact ⟨fun none_ => ⟨fun _ _ _ short => absurd short (Nat.not_lt_zero _), fun _ => none_⟩,
      fun fits => fits.none_ rfl⟩
  · have some_ := Nat.pos_of_ne_zero zero
    have start : Visited limit s.dead [] s := fun type => by simp
    rw [drainKeys_le_iff some_ types [] [] s start some_]
    simp only [List.length_nil, Nat.zero_add]
    exact ⟨fun wanted => ⟨wanted, fun is => absurd is zero⟩, Fits.wanted⟩

end

/-- At most `limit` jobs are returned; exactly these are removed if and only if no list of Redis
that is visited has more of them to take than are still wanted. -/
theorem drainDeadLetter_removes_iff (config : Config) (jobType : Option String) (limit : Nat)
    (scanned : List String) (s : Store) :
    (drainDeadLetter config jobType limit scanned s).1.length ≤ limit ∧
      (Removes s (drainDeadLetter config jobType limit scanned s).1
          (drainDeadLetter config jobType limit scanned s).2 ↔
        (config.redis = true → Fits limit s.dead (drainedTypes jobType scanned))) := by
  unfold drainDeadLetter
  by_cases redis : config.redis = true
  · rw [if_pos redis]
    refine ⟨List.length_take_le _ _, ?_⟩
    rw [removes_take_iff, fits_iff]
    exact ⟨fun fits _ => fits, fun fits => fits redis⟩
  · rw [if_neg redis]
    cases given jobType with
    | some type =>
      have moved := drainMemory_perm type limit [] s.deadLetters
      refine ⟨drainMemory_le type limit [] s.deadLetters (Nat.zero_le _),
        fun _ is => absurd is redis, fun _ => ⟨?_, rfl⟩⟩
      refine (moved.append_left s.dead).trans ?_
      rw [← List.append_assoc, ← List.append_assoc]
      exact List.perm_append_comm.append_right _
    | none =>
      refine ⟨List.length_take_le _ _, fun _ is => absurd is redis, fun _ => ⟨?_, rfl⟩⟩
      dsimp only
      nth_rewrite 1 [← List.take_append_drop limit s.deadLetters]
      rw [← List.append_assoc, ← List.append_assoc]
      exact List.perm_append_comm.append_right _

/-- The second list is trimmed by two jobs where one is wanted. -/
theorem job_lost : ¬∀ (config : Config) (jobType : Option String) (limit : Nat)
    (scanned : List String) (s : Store),
    Removes s (drainDeadLetter config jobType limit scanned s).1
      (drainDeadLetter config jobType limit scanned s).2 := by
  intro removes
  have lengths := (removes {} none 2 ["email", "webhook"] { dead := [⟨1, "email", {}, 0, none, 3, 3, none⟩,
    ⟨2, "webhook", {}, 0, none, 3, 3, none⟩, ⟨3, "webhook", {}, 0, none, 3, 3, none⟩] }).jobs.length_eq
  exact absurd lengths (by decide)

end AgentStudio.Queue

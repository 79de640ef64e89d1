import AgentStudio.Usage.LastActive

/-!
# No touch is lost

A touch of a key is in the database, in a buffer, or in the hand of a flush, and each step
moves it from one to the next, unless a call that raised took effect, a flush finds a key in
both buffers or has no database, a transaction is lost, or the buffer expires.
-/

namespace AgentStudio.LastActive

open Async
open Py (Dict)

/-! ## Tallies -/

section
variable {ν : Type} {amount : ν → Nat} {key : String}

theorem tally_cons (e : String × ν) (entries : List (String × ν)) :
    tally amount key (e :: entries) = (if e.1 = key then amount e.2 else 0) +
      tally amount key entries := rfl

theorem tally_absent {entries : List (String × ν)} (absent : key ∉ entries.map Prod.fst) :
    tally amount key entries = 0 := by
  induction entries with
  | nil => rfl
  | cons e entries ih =>
    rw [List.map_cons, List.mem_cons, not_or] at absent
    rw [tally_cons, ih absent.2, if_neg (Ne.symm absent.1)]

theorem tally_get (amount : ν → Nat) (key : String) (d : Dict String ν) :
    tally amount key d.entries = ((d.get? key).map amount).getD 0 := by
  obtain ⟨entries, nodup⟩ := d
  induction entries with
  | nil => rfl
  | cons e entries ih =>
    obtain ⟨new, nodup'⟩ := List.nodup_cons.mp nodup
    rw [tally_cons]
    by_cases here : e.1 = key
    · rw [if_pos here, tally_absent (here ▸ new)]
      simp [Dict.get?, here]
    · rw [if_neg here, zero_add, ih nodup']
      simp [Dict.get?, here]

theorem tally_set (amount : ν → Nat) (d : Dict String ν) (key' : String) (v : ν) :
    tally amount key (d.set key' v).entries =
      if key' = key then amount v else tally amount key d.entries := by
  rw [tally_get, tally_get, Dict.get?_set]
  by_cases here : key' = key
  · simp [here]
  · simp [here, Ne.symm here]

end

section
variable {key : String}

/-- A touch adds one to its key. -/
theorem touch_tally (b : Buffer) (key' now : String) :
    tally id key (b.touch key' now).counts.entries =
      tally id key b.counts.entries + if key' = key then 1 else 0 := by
  rw [Buffer.touch, tally_set]
  by_cases here : key' = key
  · rw [if_pos here, if_pos here, tally_get, here]
    simp
  · rw [if_neg here, if_neg here, add_zero]

/-! ## What a flush reads -/

theorem pairsToDict_entries (entries : List (String × Nat)) (out : Dict String Delta)
    (nodup : (out.keys ++ entries.map Prod.fst).Nodup) :
    (pairsToDict .str (entries.flatMap fun e => [e.1, Nat.repr e.2]) out).entries =
      out.entries ++ entries.map fun e => (e.1, .str (Nat.repr e.2)) := by
  induction entries generalizing out with
  | nil => simp [pairsToDict]
  | cons e entries ih =>
    have new : e.1 ∉ out.keys := by
      intro mem
      exact (List.disjoint_of_nodup_append nodup) mem (by simp)
    have keys : (out.set e.1 (.str (Nat.repr e.2))).keys = out.keys ++ [e.1] := by
      rw [Dict.keys, Dict.set_new new, List.map_append]
      rfl
    have rest := ih (out.set e.1 (.str (Nat.repr e.2))) (by simpa [keys] using nodup)
    rw [Dict.set_new new] at rest
    simpa [pairsToDict] using rest

/-- The reply of `HGETALL` has what the hash has. -/
theorem replies_tally (b : Buffer) :
    tally Delta.amount key (pairsToDict .str b.replies.1 .empty).entries =
      tally id key b.counts.entries := by
  rw [Buffer.replies, pairsToDict_entries b.counts.entries .empty b.counts.nodup, tally, tally]
  congr 1
  simp [Dict.empty, Delta.amount, Nat.toNat?_repr]

theorem plus_amount {m : Nat} {d d' : Delta} (is : d.plus m = .ok d') :
    d'.amount = d.amount + m := by
  cases d with
  | int n =>
    cases is
    rfl
  | str text => cases is

/-- A merge that does not raise has what both had. -/
theorem merge_tally {memory : List (String × Nat)} {counts merged : Dict String Delta}
    (is : merge memory counts = .ok merged) :
    tally Delta.amount key merged.entries =
      tally Delta.amount key counts.entries + tally id key memory := by
  induction memory generalizing counts with
  | nil =>
    cases is
    rfl
  | cons e memory ih =>
    rw [merge, List.foldlM_cons] at is
    cases added : ((counts.get? e.1).getD (.int 0)).plus e.2 with
    | error raised =>
      rw [added] at is
      cases is
    | ok sum =>
      rw [added] at is
      rw [ih is, tally_set, tally_cons, plus_amount added]
      by_cases here : e.1 = key
      · rw [if_pos here, if_pos here, tally_get, here]
        cases counts.get? key <;> simp [Delta.amount, add_assoc]
      · rw [if_neg here, if_neg here, zero_add]

/-- A merge raises only at a key whose count is a text. -/
theorem merge_ok {memory : List (String × Nat)} {counts : Dict String Delta}
    (apart : ∀ e ∈ memory, ∀ text, counts.get? e.1 ≠ some (.str text)) :
    ∃ merged, merge memory counts = .ok merged := by
  induction memory generalizing counts with
  | nil => exact ⟨counts, rfl⟩
  | cons e memory ih =>
    obtain ⟨m, is⟩ : ∃ m, (counts.get? e.1).getD (.int 0) = .int m := by
      cases found : counts.get? e.1 with
      | none => exact ⟨0, rfl⟩
      | some d =>
        cases d with
        | int m => exact ⟨m, rfl⟩
        | str text => exact absurd found (apart e List.mem_cons_self text)
    have rest : ∀ e' ∈ memory, ∀ text,
        (counts.set e.1 (.int (m + e.2))).get? e'.1 ≠ some (.str text) := by
      intro e' mem text
      rw [Dict.get?_set]
      split
      · simp
      · exact apart e' (List.mem_cons_of_mem _ mem) text
    obtain ⟨merged, done⟩ := ih rest
    refine ⟨merged, ?_⟩
    rw [merge, List.foldlM_cons, is]
    exact done

theorem batch_tally (now : String) (counts : Dict String Delta) (times : Dict String String) :
    tally (fun e : Delta × String => e.1.amount) key (batch now counts times) =
      tally Delta.amount key counts.entries := by
  rw [tally, tally, batch, List.map_map]
  rfl

/-! ## What the steps move -/

variable {n : Nat} {s : Store n}

/-- The key has a row, which is not revoked. -/
def Active (key : String) (rows : String → Option ApiKey) : Prop :=
  ∃ row, rows key = some row ∧ row.revoked = false

theorem applyEntry_active {rows : String → Option ApiKey} (active : Active key rows) (e : Entry) :
    Active key (applyEntry rows e) ∧ ((applyEntry rows e key).map ApiKey.usageCount).getD 0 =
      ((rows key).map ApiKey.usageCount).getD 0 + if e.1 = key then e.2.1.amount else 0 := by
  obtain ⟨row, has, unrevoked⟩ := active
  by_cases here : e.1 = key
  · have is : applyEntry rows e key = some { row with
        usageCount := row.usageCount + e.2.1.amount, lastUsedAt := some e.2.2 } := by
      simp [applyEntry, here, has, unrevoked]
    refine ⟨⟨_, is, unrevoked⟩, ?_⟩
    rw [is, has, if_pos here]
    rfl
  · have is : applyEntry rows e key = rows key := by
      simp [applyEntry, Function.update_of_ne (Ne.symm here)]
    rw [Active, is, if_neg here]
    exact ⟨⟨row, has, unrevoked⟩, rfl⟩

/-- The transaction adds the entries of a key that is not revoked. -/
theorem apply_active {rows : String → Option ApiKey} (active : Active key rows)
    (entries : List Entry) : Active key (entries.foldl applyEntry rows) ∧
      ((entries.foldl applyEntry rows key).map ApiKey.usageCount).getD 0 =
        ((rows key).map ApiKey.usageCount).getD 0 +
          tally (fun e : Delta × String => e.1.amount) key entries := by
  induction entries generalizing rows with
  | nil => exact ⟨active, rfl⟩
  | cons e entries ih =>
    obtain ⟨active', first⟩ := applyEntry_active active e
    obtain ⟨active'', rest⟩ := ih active'
    refine ⟨active'', ?_⟩
    rw [List.foldl_cons, rest, first, tally_cons, add_assoc]

theorem buffered_pipeline (key' now : String) :
    (s.pipeline key' now).buffered key = s.buffered key + if key' = key then 1 else 0 := by
  simp only [Store.buffered, Store.pipeline, touch_tally]
  omega

theorem buffered_drain :
    s.drain.buffered key + tally id key s.redis.counts.entries = s.buffered key := by
  simp [Store.buffered, Store.drain, Dict.empty, tally, add_comm]

theorem buffered_setMemory (process : Fin n) (b : Buffer) :
    (s.setMemory process b).buffered key + tally id key (s.memory process).counts.entries =
      s.buffered key + tally id key b.counts.entries := by
  have split (f : Fin n → Nat) := Finset.add_sum_erase Finset.univ f (Finset.mem_univ process)
  have before := split fun p => tally id key (s.memory p).counts.entries
  have after := split fun p => tally id key ((s.setMemory process b).memory p).counts.entries
  have others : ∑ p ∈ Finset.univ.erase process,
      tally id key ((s.setMemory process b).memory p).counts.entries =
        ∑ p ∈ Finset.univ.erase process, tally id key (s.memory p).counts.entries := by
    refine Finset.sum_congr rfl fun p mem => ?_
    simp [Store.setMemory, Finset.ne_of_mem_erase mem]
  have own : (s.setMemory process b).memory process = b := by simp [Store.setMemory]
  rw [own, others] at after
  have redis : (s.setMemory process b).redis = s.redis := rfl
  simp only [Store.buffered, redis]
  omega

end

/-! ## When a step loses nothing of a key -/

section
variable {n : Nat} (setup : Setup n) (key : String)

/-- No call that raises has taken effect, a transaction always has; a flush finds the key in one
of the two buffers only, and has a database for it. -/
def Meets : (op : Op n) → Store n → Except Raised ((Calls n).Ans op) → Store n → Prop
  | .pipeline key' _, s, .error _, s' => key' = key → s' = s
  | .eval, s, .error _, s' => key ∈ s.redis.counts.keys → s' = s
  | .take process counts _, s, _, _ =>
    (key ∈ counts.keys → ∀ key' ∈ counts.keys, key' ∉ (s.memory process).counts.keys) ∧
      (setup.hasDb process = false → key ∉ counts.keys ∧ key ∉ (s.memory process).counts.keys)
  | .apply entries, s, _, s' => key ∈ entries.map Prod.fst → s' = s.apply entries
  | _, _, _, _ => True

/-- The key is not revoked, and the hash does not expire with a count of the key. -/
inductive Lasts (s : Store n) : Store n → Prop
  | revoke (key' : String) (other : key' ≠ key) : Lasts s { s with
      rows := Function.update s.rows key' ((s.rows key').map fun row => { row with revoked := true }) }
  | expireCounts (absent : key ∉ s.redis.counts.keys) :
      Lasts s { s with redis.counts := .empty }
  | expireTimes : Lasts s { s with redis.times := .empty }

/-- The answers of which this is so. -/
def Sound : Pool.Replies (Call n) (Calls n) Raised (Store n) := fun i call op s r s' =>
  Answer i call op s r s' ∧ Meets setup key op s r s'

/-- The runs whose steps are all like that. -/
def Setup.Meeting (w : World n) : Prop :=
  Pool.Turns (Sound setup key) (Lasts key) setup.body setup.fresh w

/-- What a task has of the key: what it holds, less the touch that it was. -/
def has (call : Call n) (rest : Progress n) : ℤ := inHand key rest - touched key call rest

/-- What the database and the buffers have of the key. -/
def Store.counted (s : Store n) : ℤ := s.applied key + s.buffered key

variable {setup key} {s s' : Store n}

theorem Lasts.kept (lasts : Lasts key s s') (active : Active key s.rows) :
    Active key s'.rows ∧ s'.counted key = s.counted key := by
  cases lasts with
  | revoke key' other =>
    have same : Function.update s.rows key'
        ((s.rows key').map fun row => { row with revoked := true }) key = s.rows key :=
      Function.update_of_ne (Ne.symm other) _ _
    obtain ⟨row, has, unrevoked⟩ := active
    refine ⟨⟨row, same.trans has, unrevoked⟩, ?_⟩
    simp [Store.counted, Store.applied, Store.buffered, other.symm]
  | expireCounts absent =>
    refine ⟨active, ?_⟩
    have none_ : tally id key s.redis.counts.entries = 0 := tally_absent absent
    simp only [Store.counted, Store.applied, Store.buffered, none_]
    rfl
  | expireTimes => exact ⟨active, rfl⟩

/-! ## Tasks -/

variable {i : Nat} {call : Call n}

/-- The rest of a task neither loses nor makes up a count of the key. -/
abbrev Keeps (setup : Setup n) (key : String) (i : Nat) (call : Call n) (rest : Progress n) : Prop :=
  rest.Balances (Sound setup key i call) (fun s => Active key s.rows) (Store.counted key)
    (has key call)

theorem counted_touched (process : Fin n) (key' now : String) :
    (s.setMemory process ((s.memory process).touch key' now)).counted key =
      s.counted key + if key' = key then 1 else 0 := by
  have moved := @buffered_setMemory key n s process ((s.memory process).touch key' now)
  have applied : (s.setMemory process ((s.memory process).touch key' now)).applied key =
      s.applied key := rfl
  rw [touch_tally] at moved
  rw [Store.counted, Store.counted, applied]
  by_cases here : key' = key
  · rw [if_pos here] at moved ⊢
    omega
  · rw [if_neg here] at moved ⊢
    omega

theorem counted_pipeline (key' now : String) :
    (s.pipeline key' now).counted key = s.counted key + if key' = key then 1 else 0 := by
  have applied : (s.pipeline key' now).applied key = s.applied key := rfl
  rw [Store.counted, Store.counted, applied, buffered_pipeline]
  push_cast
  ring

theorem counted_drain :
    s.drain.counted key + tally id key s.redis.counts.entries = s.counted key := by
  have moved := @buffered_drain key n s
  have applied : s.drain.applied key = s.applied key := rfl
  rw [Store.counted, Store.counted, applied, ← moved]
  push_cast
  ring

/-- A touch that counts is done. -/
theorem touch_done (process : Fin n) (key' now : String) (total : ℤ) :
    (total + if key' = key then 1 else 0) +
      has key (.touch process key' now) (.done (.ok (), ())) = total := by
  simp [has, inHand, touched]

theorem remember_keeps (process : Fin n) (key' now : String) :
    Keeps setup key i (.touch process key' now)
      (.await (I := Calls n) (.remember process key' now) fun r => .done (r, ())) := by
  rintro s r _ active ⟨⟨rfl, rfl⟩, -⟩
  refine ⟨active, ?_, trivial⟩
  rw [counted_touched, touch_done]
  exact (add_zero _).symm

/-- A pipeline that raises has changed nothing of the key. -/
theorem raised_pipeline {key' now : String} (answer : s' = s ∨ s' = s.pipeline key' now)
    (meets : key' = key → s' = s) (active : Active key s.rows) :
    Active key s'.rows ∧ s'.counted key = s.counted key := by
  by_cases here : key' = key
  · rw [meets here]
    exact ⟨active, rfl⟩
  · rcases answer with rfl | rfl
    · exact ⟨active, rfl⟩
    · refine ⟨active, ?_⟩
      rw [counted_pipeline, if_neg here, add_zero]

theorem touch_keeps (process : Fin n) (key' now : String) :
    Keeps setup key i (.touch process key' now) (setup.body (.touch process key' now)) := by
  rintro _ r s active ⟨⟨rfl, rfl⟩, -⟩
  generalize s.available process = up
  cases up with
  | false => exact ⟨active, rfl, remember_keeps process key' now⟩
  | true =>
    refine ⟨active, rfl, ?_⟩
    rintro s r s' active ⟨answer, meets⟩
    cases r with
    | ok _ =>
      obtain rfl := answer
      refine ⟨active, ?_, trivial⟩
      rw [counted_pipeline]
      exact (touch_done process key' now _).trans (add_zero _).symm
    | error e =>
      obtain ⟨active, same⟩ := raised_pipeline answer meets active
      cases e with
      | cancelled => exact ⟨active, congrArg (· + _) same, trivial⟩
      | error message =>
        refine ⟨active, congrArg (· + _) same, ?_⟩
        rintro s r _ active ⟨⟨rfl, rfl⟩, -⟩
        exact ⟨active, rfl, remember_keeps process key' now⟩

/-- What a transaction does that meets the condition. -/
theorem counted_apply {entries : List Entry} (answer : s' = s ∨ s' = s.apply entries)
    (meets : key ∈ entries.map Prod.fst → s' = s.apply entries) (active : Active key s.rows) :
    Active key s'.rows ∧ s'.counted key =
      s.counted key + tally (fun e : Delta × String => e.1.amount) key entries := by
  obtain ⟨active', is⟩ := apply_active active entries
  have applied : (s.apply entries).counted key =
      s.counted key + tally (fun e : Delta × String => e.1.amount) key entries := by
    have same : (s.apply entries).buffered key = s.buffered key := rfl
    have more : (s.apply entries).applied key =
        s.applied key + tally (fun e : Delta × String => e.1.amount) key entries := is
    rw [Store.counted, Store.counted, same, more]
    push_cast
    ring
  by_cases here : key ∈ entries.map Prod.fst
  · rw [meets here]
    exact ⟨active', applied⟩
  · rcases answer with rfl | rfl
    · rw [tally_absent here]
      exact ⟨active, (add_zero _).symm⟩
    · exact ⟨active', applied⟩

theorem flush_done (process : Fin n) (now : String) (o : Except Raised Unit) :
    has key (.flush process now) (.done (o, ())) = 0 := by
  simp [has, inHand, touched]

theorem held_apply (process : Fin n) (now : String) (entries : List Entry)
    (k : Except Raised Nat → Progress n) :
    has key (.flush process now) (.await (I := Calls n) (.apply entries) k) =
      tally (fun e : Delta × String => e.1.amount) key entries := by
  simp [has, inHand, touched]

theorem apply_keeps (process : Fin n) (now : String) (entries : List Entry) :
    Keeps setup key i (.flush process now) ((do
      let _ ← Coro.call (I := Calls n) (.apply entries)
      pure () : Coro (Calls n) Raised Unit Unit) ()) := by
  rintro s r s' active ⟨answer, meets⟩
  cases r with
  | ok applied =>
    obtain ⟨active, same⟩ := counted_apply (.inr answer.2) meets active
    refine ⟨active, ?_, trivial⟩
    rw [same]
    exact ((congrArg _ (flush_done process now _)).trans (add_zero _)).trans
      (congrArg _ (held_apply process now entries _).symm)
  | error e =>
    obtain ⟨active, same⟩ := counted_apply answer meets active
    refine ⟨active, ?_, trivial⟩
    rw [same]
    exact ((congrArg _ (flush_done process now _)).trans (add_zero _)).trans
      (congrArg _ (held_apply process now entries _).symm)

/-- What a flush takes that meets the condition: the counts in its hand are those of both. -/
theorem taken {process : Fin n} {counts : Dict String Delta} {times : Dict String String}
    {r : Except Raised (Dict String Delta × Dict String String)}
    (answer : (r, s') = s.take process counts times)
    (apart : key ∈ counts.keys → ∀ key' ∈ counts.keys, key' ∉ (s.memory process).counts.keys) :
    s'.rows = s.rows ∧
      ((∃ e, r = .error e) ∧ s' = s ∧ tally Delta.amount key counts.entries = 0 ∨
        ∃ merged times', r = .ok (merged, times') ∧
          s'.counted key + tally Delta.amount key merged.entries =
            s.counted key + tally Delta.amount key counts.entries ∧
          tally Delta.amount key merged.entries = tally Delta.amount key counts.entries +
            tally id key (s.memory process).counts.entries) := by
  by_cases empty : (s.memory process).counts.entries = []
  · rw [Store.take, if_pos empty] at answer
    cases answer
    exact ⟨rfl, .inr ⟨counts, times, rfl, rfl, by rw [empty]; rfl⟩⟩
  · rw [Store.take, if_neg empty] at answer
    cases is : merge (s.memory process).counts.entries counts with
    | error e =>
      rw [is] at answer
      cases answer
      refine ⟨rfl, .inl ⟨⟨e, rfl⟩, rfl, ?_⟩⟩
      by_contra some_
      have here : key ∈ counts.keys := by
        by_contra absent
        exact some_ (tally_absent absent)
      obtain ⟨merged, ok⟩ : ∃ merged, merge (s.memory process).counts.entries counts = .ok merged := by
        refine merge_ok fun e mem text found => ?_
        have there : e.1 ∈ counts.keys := by
          by_contra absent
          rw [Dict.get?_eq_none.mpr absent] at found
          cases found
        exact apart here e.1 there (List.mem_map_of_mem mem)
      rw [is] at ok
      cases ok
    | ok merged =>
      rw [is] at answer
      cases answer
      have both := @merge_tally key _ _ _ is
      refine ⟨rfl, .inr ⟨merged, _, rfl, ?_, both⟩⟩
      have moved := @buffered_setMemory key n s process {}
      have none_ : tally id key ({} : Buffer).counts.entries = 0 := rfl
      have applied : (s.setMemory process {}).applied key = s.applied key := rfl
      rw [none_] at moved
      simp only [Store.counted, applied]
      omega

/-- A flush that has read Redis. -/
def handingOver (setup : Setup n) (process : Fin n) (now : String) (counts : Dict String Delta)
    (times : Dict String String) : Progress n :=
  (do
    let _ ← handOver setup.hasDb process now counts times
    pure () : Coro (Calls n) Raised Unit Unit) ()

theorem has_handingOver (process : Fin n) (now : String) (counts : Dict String Delta)
    (times : Dict String String) :
    has key (.flush process now) (handingOver setup process now counts times) =
      tally Delta.amount key counts.entries := by
  change ((tally Delta.amount key counts.entries : ℕ) : ℤ) - ((0 : ℕ) : ℤ) = _
  simp

/-- A flush that has taken what the process holds. -/
def holding (setup : Setup n) (process : Fin n) (now : String) (counts : Dict String Delta)
    (times : Dict String String) : Progress n :=
  (do
    let _ ← (if counts.entries = [] then pure 0
      else if setup.hasDb process then Coro.call (I := Calls n) (.apply (batch now counts times))
      else pure 0 : Coro (Calls n) Raised Unit Nat)
    pure () : Coro (Calls n) Raised Unit Unit) ()

/-- It has the counts in hand, and loses none if there is a database for them. -/
theorem holding_keeps {process : Fin n} {counts : Dict String Delta}
    (db : setup.hasDb process = false → tally Delta.amount key counts.entries = 0) (now : String)
    (times : Dict String String) :
    has key (.flush process now) (holding setup process now counts times) =
        tally Delta.amount key counts.entries ∧
      Keeps setup key i (.flush process now) (holding setup process now counts times) := by
  unfold holding
  by_cases empty : counts.entries = []
  · rw [if_pos empty, empty]
    exact ⟨flush_done process now _, trivial⟩
  · rw [if_neg empty]
    by_cases attached : setup.hasDb process = true
    · rw [if_pos attached]
      refine ⟨?_, apply_keeps process now _⟩
      rw [← batch_tally now counts times]
      exact held_apply process now _ _
    · rw [if_neg attached, db (Bool.eq_false_of_not_eq_true attached)]
      exact ⟨flush_done process now _, trivial⟩

theorem handOver_keeps (process : Fin n) (now : String) (counts : Dict String Delta)
    (times : Dict String String) :
    Keeps setup key i (.flush process now) (handingOver setup process now counts times) := by
  have before := @has_handingOver n setup key process now counts times
  rintro s r s' active ⟨answer, apart, lost⟩
  obtain ⟨rows, ⟨⟨e, rfl⟩, rfl, none_⟩ | ⟨merged, times', rfl, moved, both⟩⟩ := taken answer apart
  · rw [none_] at before
    exact ⟨active, congrArg _ ((flush_done process now _).trans before.symm), trivial⟩
  · have db : setup.hasDb process = false → tally Delta.amount key merged.entries = 0 := by
      intro missing
      rw [both, tally_absent (lost missing).1, tally_absent (lost missing).2]
    obtain ⟨after, keeps⟩ := holding_keeps (i := i) db now times'
    have active' : Active key s'.rows := by
      rw [rows]
      exact active
    refine ⟨active', ?_, keeps⟩
    exact ((congrArg _ after).trans moved).trans (congrArg _ before.symm)

/-- An evaluation of the script that raises has changed nothing of the key. -/
theorem raised_drain (answer : s' = s ∨ s' = s.drain)
    (meets : key ∈ s.redis.counts.keys → s' = s) (active : Active key s.rows) :
    Active key s'.rows ∧ s'.counted key = s.counted key := by
  by_cases here : key ∈ s.redis.counts.keys
  · rw [meets here]
    exact ⟨active, rfl⟩
  · rcases answer with rfl | rfl
    · exact ⟨active, rfl⟩
    · have moved := @counted_drain n key s
      rw [tally_absent here] at moved
      exact ⟨active, (add_zero _).symm.trans moved⟩

theorem flush_keeps (process : Fin n) (now : String) :
    Keeps setup key i (.flush process now) (setup.body (.flush process now)) := by
  have nothing := @has_handingOver n setup key process now .empty .empty
  rintro _ r s active ⟨⟨rfl, rfl⟩, -⟩
  generalize s.available process = up
  cases up with
  | false => exact ⟨active, congrArg _ nothing, handOver_keeps process now .empty .empty⟩
  | true =>
    refine ⟨active, rfl, ?_⟩
    rintro s r s' active ⟨answer, meets⟩
    cases r with
    | ok raw =>
      obtain ⟨rfl, rfl⟩ := answer
      refine ⟨active, ?_, handOver_keeps process now _ _⟩
      have hand := @has_handingOver n setup key process now
        (pairsToDict .str s.redis.replies.1 .empty) (pairsToDict id s.redis.replies.2 .empty)
      rw [replies_tally] at hand
      exact ((congrArg _ hand).trans counted_drain).trans (add_zero _).symm
    | error e =>
      obtain ⟨active, same⟩ := raised_drain answer meets active
      cases e with
      | cancelled => exact ⟨active, congrArg (· + _) same, trivial⟩
      | error message =>
        refine ⟨active, congrArg (· + _) same, ?_⟩
        rintro s r _ active ⟨⟨rfl, rfl⟩, -⟩
        exact ⟨active, congrArg _ nothing, handOver_keeps process now .empty .empty⟩

/-! ## Runs -/

theorem body_keeps (i : Nat) (call : Call n) : Keeps setup key i call (setup.body call) := by
  cases call with
  | touch process key' now => exact touch_keeps process key' now
  | flush process now => exact flush_keeps process now

theorem body_has (call : Call n) : has key call (setup.body call) = 0 := by
  cases call <;> rfl

theorem sum_has (tasks : List (Task (Call n) (Calls n) Raised (Except Raised Unit × Unit))) :
    (tasks.map fun task => has key task.call task.rest).sum =
      ((tasks.map fun task => inHand key task.rest).sum : ℤ) -
        (tasks.map fun task => touched key task.call task.rest).sum := by
  induction tasks with
  | nil => rfl
  | cons task tasks ih =>
    rw [List.map_cons, List.sum_cons, ih, has]
    simp only [List.map_cons, List.sum_cons, Nat.cast_add]
    ring

end

/-- What has been counted of a key in the database since the start, what is buffered, and what
a flush under way has in hand, are the touches of the key. -/
def Conserved {n : Nat} (setup : Setup n) (key : String) (w : World n) : Prop :=
  w.store.applied key + w.store.buffered key + w.underWay key =
    setup.fresh.store.applied key + w.touches key

/-- For any number of processes, any interleaving of their touches and flushes and any failures:
in a run that loses nothing of a key that is never revoked, its counts are its touches in
every state; and when no call is under way, they are all in the database or buffered. -/
theorem usage_conserved {n : Nat} (setup : Setup n) (key : String)
    (active : Active key setup.rows) (w : World n) (run : setup.Meeting key w) :
    Conserved setup key w ∧ (w.Idle → w.underWay key = 0) := by
  constructor
  · have fresh : setup.fresh.Balanced (Sound setup key) (fun s => Active key s.rows)
        (Store.counted key) (has key) := by
      intro i task here
      simp [Setup.fresh] at here
    obtain ⟨-, -, total⟩ := Pool.turns_balanced (fun s s' lasts => Lasts.kept lasts) body_keeps
      body_has run active fresh
    have none_ : setup.fresh.store.buffered key = 0 := by
      simp [Setup.fresh, Store.buffered, Dict.empty, tally]
    simp only [Pool.total, Store.counted, sum_has, none_] at total
    simp only [Setup.fresh, List.map_nil, List.sum_nil] at total
    rw [Conserved, World.underWay, World.touches]
    simp only [Setup.fresh]
    omega
  · intro idle
    refine List.sum_eq_zero fun held mem => ?_
    obtain ⟨task, here, rfl⟩ := List.mem_map.mp mem
    obtain ⟨o, done⟩ := idle task here
    rw [done]
    rfl

/-! ## One process -/

/-- A process that has a database, and one key. -/
def single (available : Bool) : Setup 1 where
  available := fun _ => available
  hasDb := fun _ => true
  rows := fun key => if key = "key-1" then some {} else none

/-- Redis answers every call; the transaction takes effect, or raises. -/
def playing (db : Bool) : Nat → Call 1 → (op : Op 1) → Store 1 →
    Except Raised ((Calls 1).Ans op) × Store 1
  | _, _, .available process, s => (.ok (s.available process), s)
  | _, _, .pipeline key now, s => (.ok (), s.pipeline key now)
  | _, _, .down process, s => (.ok (), s.down process)
  | _, _, .remember process key now, s =>
    (.ok (), s.setMemory process ((s.memory process).touch key now))
  | _, _, .eval, s => (.ok s.redis.replies, s.drain)
  | _, _, .take process counts times, s => s.take process counts times
  | _, _, .apply entries, s =>
    if db then (.ok entries.length, s.apply entries)
    else (.error (.error "could not serialize access"), s)

theorem playing_answers (db : Bool) (i : Nat) (call : Call 1) (op : Op 1) (s : Store 1) :
    Answer i call op s (playing db i call op s).1 (playing db i call op s).2 := by
  cases op with
  | available process => exact ⟨rfl, rfl⟩
  | pipeline key now => rfl
  | down process => exact ⟨rfl, rfl⟩
  | remember process key now => exact ⟨rfl, rfl⟩
  | eval => exact ⟨rfl, rfl⟩
  | take process counts times => rfl
  | apply entries =>
    cases db with
    | true => exact ⟨rfl, rfl⟩
    | false => exact .inl rfl

def calls : List (Call 1) :=
  [.touch 0 "key-1" "2026-01-05T10:00:00+00:00", .touch 0 "key-1" "2026-01-05T10:00:01+00:00",
    .flush 0 "2026-01-05T10:01:00+00:00"]

/-- Two touches and a flush, one after the other. -/
def begun (available : Bool) : World 1 :=
  { (single available).fresh with
    tasks := calls.map fun call => ⟨call, [], (single available).body call⟩ }

/-- With Redis each of them takes its steps without a failure. -/
def kept : World 1 := [0, 0, 1, 1, 2, 2, 2, 2].foldl (Pool.serve (playing true)) (begun true)

/-- Without, the transaction of the flush raises. -/
def lost : World 1 := [0, 0, 1, 1, 2, 2, 2].foldl (Pool.serve (playing false)) (begun false)

theorem begun_turns (available : Bool) (replies : Pool.Replies (Call 1) (Calls 1) Raised (Store 1))
    (env : Store 1 → Store 1 → Prop) :
    Pool.Turns replies env (single available).body (single available).fresh (begun available) := by
  have start (w : World 1) (call : Call 1) : Pool.Turn replies env (single available).body w
      { w with tasks := w.tasks ++ [⟨call, [], (single available).body call⟩] } := .start w call
  exact ((Relation.ReflTransGen.single (start _ _)).tail (start _ _)).tail (start _ _)

/-- A flush finds nothing in the buffer of its process. -/
def alone (_ : Nat) (_ : Call 1) : Op 1 → Store 1 → Bool
  | .take process _ _, s => (s.memory process).counts.entries.isEmpty
  | _, _ => true

theorem playing_sound (i : Nat) (call : Call 1) (op : Op 1) (s : Store 1)
    (check : alone i call op s = true) :
    Sound (single true) "key-1" i call op s (playing true i call op s).1
      (playing true i call op s).2 := by
  refine ⟨playing_answers true i call op s, ?_⟩
  cases op with
  | take process counts times =>
    have none_ : (s.memory process).counts.entries = [] := List.isEmpty_iff.mp check
    refine ⟨fun _ key' _ mem => ?_, fun missing => by cases missing⟩
    simp [Dict.keys, none_] at mem
  | apply entries => exact fun _ => rfl
  | _ => trivial

/-- The flush has added the two touches. -/
theorem kept_conserved : Conserved (single true) "key-1" kept ∧
    (kept.Idle → kept.underWay "key-1" = 0) := by
  refine usage_conserved (single true) "key-1" ⟨{}, rfl, rfl⟩ kept ?_
  exact (begun_turns true _ _).trans (Pool.turns_checked playing_sound _ _ (by decide +kernel))

/-- The batch is neither buffered any more nor in the database. -/
theorem batch_lost : (single false).Reachable lost ∧ lost.Idle ∧
    lost.store.rows "key-1" = some {} ∧ ¬Conserved (single false) "key-1" lost := by
  refine ⟨(begun_turns false _ _).trans (Pool.turns_serve (playing_answers false) _ _), ?_, ?_, ?_⟩
  · exact Pool.idle_of_done (by decide +kernel)
  · rfl
  · unfold Conserved
    decide +kernel

end AgentStudio.LastActive

import AgentStudio.Async.History

/-!
# Calls that what came before calls for

What a coroutine may call is judged by the calls before it, and what it returns by the calls it
has made. There is one rule for each way of composing coroutines.
-/

namespace Async

namespace Coro

variable {I : Interface} {ε σ α β : Type}

/-- After the calls `t`, each call of `c` is as `P` has it, and where `c` returns, `Q` holds of all
the calls, of what is returned and of the variables. -/
def Heeds (P : Trace I ε → I.Op → Prop) (t : Trace I ε) (c : Coro I ε σ α) (s : σ)
    (Q : Trace I ε → α → σ → Prop) : Prop :=
  c.All s fun t' o s' => (∀ pre ev post, t' = pre ++ ev :: post → P (t ++ pre) ev.op) ∧
    ∀ a, o = .ok a → Q (t ++ t') a s'

namespace Heeds

variable {P : Trace I ε → I.Op → Prop} {t : Trace I ε} {s : σ} {Q Q' : Trace I ε → α → σ → Prop}
  {c : Coro I ε σ α}

private theorem nothing {pre post : Trace I ε} {ev : Event I ε} (cut : [] = pre ++ ev :: post) :
    P (t ++ pre) ev.op := by
  simp at cut

protected theorem pure {a : α} (h : Q t a s) : (pure a : Coro I ε σ α).Heeds P t s Q := by
  refine ⟨fun _ _ _ => nothing, fun b is => ?_⟩
  obtain rfl := Except.ok.inj is
  rwa [List.append_nil]

protected theorem throw (e : ε) : (throw e : Coro I ε σ α).Heeds P t s Q :=
  ⟨fun _ _ _ => nothing, fun b is => by cases is⟩

theorem mono (h : c.Heeds P t s Q) (imp : ∀ t a s, Q t a s → Q' t a s) : c.Heeds P t s Q' :=
  All.mono h fun _ _ _ both => ⟨both.1, fun a is => imp _ _ _ (both.2 a is)⟩

/-- The calls so far stand at the beginning. -/
theorem grown (h : c.Heeds P t s Q) : c.Heeds P t s fun t' a s' => t <+: t' ∧ Q t' a s' :=
  All.mono h fun t' _ _ both => ⟨both.1, fun a is => ⟨List.prefix_append t t', both.2 a is⟩⟩

private theorem joined {t₁ t₂ : Trace I ε}
    (first : ∀ pre ev post, t₁ = pre ++ ev :: post → P (t ++ pre) ev.op)
    (next : ∀ pre ev post, t₂ = pre ++ ev :: post → P ((t ++ t₁) ++ pre) ev.op) :
    ∀ pre ev post, t₁ ++ t₂ = pre ++ ev :: post → P (t ++ pre) ev.op := by
  intro pre ev post cut
  rcases List.append_eq_append_iff.mp cut with ⟨more, rfl, rest⟩ | ⟨more, rfl, rest⟩
  · rw [← List.append_assoc]
    exact next more ev post rest
  · cases more with
    | nil =>
      have here := next [] ev post (by simpa using rest.symm)
      simpa using here
    | cons x more =>
      obtain ⟨rfl, -⟩ := List.cons.inj rest
      exact first pre ev more rfl

protected theorem bind {k : α → Coro I ε σ β} {R : Trace I ε → β → σ → Prop}
    (h : c.Heeds P t s Q) (next : ∀ t' a s', Q t' a s' → (k a).Heeds P t' s' R) :
    (c >>= k).Heeds P t s R := by
  refine All.bind h (fun t₁ a s' both => ?_) fun t₁ e s' both => ⟨both.1, fun b is => by cases is⟩
  refine All.mono (next _ a s' (both.2 a rfl)) fun t₂ o s'' rest => ?_
  refine ⟨joined both.1 rest.1, fun b is => ?_⟩
  rw [← List.append_assoc]
  exact rest.2 b is

protected theorem call {op : I.Op} {Q : Trace I ε → I.Ans op → σ → Prop} (judged : P t op)
    (h : ∀ a, Q (t ++ [⟨op, .ok a⟩]) a s) : (call op : Coro I ε σ (I.Ans op)).Heeds P t s Q := by
  intro r
  refine ⟨fun pre ev post cut => ?_, fun a is => ?_⟩
  · rcases snoc_cut (l := []) cut with ⟨rfl, rfl, -⟩ | ⟨rest, absurd_, -⟩
    · simpa using judged
    · simp at absurd_
  · change r = .ok a at is
    rw [is]
    exact h a

/-- A call and what follows it. -/
theorem call_bind {op : I.Op} {k : I.Ans op → Coro I ε σ β} {R : Trace I ε → β → σ → Prop}
    (judged : P t op) (next : ∀ a, (k a).Heeds P (t ++ [⟨op, .ok a⟩]) s R) :
    ((Coro.call op : Coro I ε σ (I.Ans op)) >>= k).Heeds P t s R :=
  Heeds.bind (Q := fun t' a s' => t' = t ++ [⟨op, .ok a⟩] ∧ s' = s)
    (Heeds.call judged fun _ => ⟨rfl, rfl⟩) fun _ a _ is => by
      obtain ⟨rfl, rfl⟩ := is
      exact next a

theorem post_bind {op : I.Op} {k : Unit → Coro I ε σ β} {R : Trace I ε → β → σ → Prop}
    (judged : P t op) (next : ∀ r, (k ()).Heeds P (t ++ [⟨op, r⟩]) s R) :
    ((Coro.post op : Coro I ε σ Unit) >>= k).Heeds P t s R := by
  refine Heeds.bind (Q := fun t' _ s' => (∃ r, t' = t ++ [⟨op, r⟩]) ∧ s' = s) ?_ ?_
  · intro r
    refine ⟨fun pre ev post cut => ?_, fun _ _ => ⟨⟨r, rfl⟩, rfl⟩⟩
    rcases snoc_cut (l := []) cut with ⟨rfl, rfl, -⟩ | ⟨rest, absurd_, -⟩
    · simpa using judged
    · simp at absurd_
  · rintro _ _ _ ⟨⟨r, rfl⟩, rfl⟩
    exact next r

/-- A handler starts after calls of which nothing is known but where they began. -/
protected theorem tryCatch {handler : ε → Coro I ε σ α} (h : c.Heeds P t s Q)
    (caught : ∀ t' e s', t <+: t' → (handler e).Heeds P t' s' Q) :
    (MonadExcept.tryCatch c handler).Heeds P t s Q := by
  refine All.tryCatch h (fun t₁ a s' both => ⟨both.1, fun b is => ?_⟩) fun t₁ e s' both => ?_
  · obtain rfl := Except.ok.inj is
    exact both.2 a rfl
  · refine All.mono (caught _ e s' (List.prefix_append t t₁)) fun t₂ o s'' rest => ?_
    refine ⟨joined both.1 rest.1, fun b is => ?_⟩
    rw [← List.append_assoc]
    exact rest.2 b is

theorem following (h : c.Heeds P [] s Q) {t : Trace I ε} {w : Except ε α × σ}
    (run : (c s).Runs t w) : Following P t := by
  have holds := (all_iff.mp h t w.1 w.2 run).1
  intro pre ev post cut
  simpa using holds pre ev post cut

theorem returned (h : c.Heeds P [] s Q) {t : Trace I ε} {a : α} {s' : σ}
    (run : (c s).Runs t (.ok a, s')) : Q t a s' := by
  simpa using (all_iff.mp h t _ _ run).2 a rfl

end Heeds

end Coro

end Async

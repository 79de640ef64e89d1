import AgentStudio.Widget.Attempts

/-!
# How a stream settles

Nothing looks at `closed` between two frames, and a connection that opens sets the counter back
before a frame has come.
-/

namespace AgentStudio.Widget

/-- `onComplete` or `onError` is the last of them and of the deltas and redactions. -/
def Settled (kinds : List Kind) : Prop :=
  kinds.Pairwise fun a b => a = .terminal → b ≠ .terminal ∧ b ≠ .speech

/-- No more than `MAX_RECONNECT_ATTEMPTS + 1` attempts in a row without a frame. -/
def Bounded (kinds : List Kind) : Prop :=
  ∀ part, part <:+: kinds → Kind.frame ∉ part → part.count .attempt ≤ maxReconnectAttempts + 1

section

variable {json : String → Option Payload}

/-! ## The last callback -/

theorem settled_of_none {ks : List Kind} (none_ : Kind.terminal ∉ ks) : Settled ks :=
  List.pairwise_of_forall_mem_list fun a mem _ _ is => absurd (is ▸ mem) none_

theorem settled_append_of_none {ks ks' : List Kind} (none_ : Kind.terminal ∉ ks) :
    Settled (ks ++ ks') ↔ Settled ks' := by
  rw [Settled, List.pairwise_append]
  constructor
  · rintro ⟨-, settled, -⟩
    exact settled
  · intro settled
    refine ⟨settled_of_none none_, settled, ?_⟩
    intro a mem b _ is
    exact absurd (is ▸ mem) none_

theorem payloadKinds_form (event : String) (p : Payload) :
    payloadKinds event p ∈ [[], [.other], [.speech], [.other, .terminal]] := by
  unfold payloadKinds
  repeat' split
  all_goals simp

theorem frameKinds_settled (frame : Frame) : Settled (frame.kinds json) := by
  have told (ks : List Kind) (form : ks ∈ [[], [.other], [.speech], [.other, .terminal]]) :
      Settled (.frame :: ks) := by
    simp only [List.mem_cons, List.not_mem_nil, or_false] at form
    rcases form with rfl | rfl | rfl | rfl
    all_goals simp [Settled]
  unfold Frame.kinds
  split
  · exact .nil
  · apply told
    split
    · simp
    · split
      · split
        · simp
        · simp
      · exact payloadKinds_form _ _

theorem framesKinds_settled (frames : List Frame) :
    Settled (frames.flatMap (Frame.kinds json)) ↔
      frames.Pairwise fun a b => a.closes json = true → b.speaks json = false := by
  rw [Settled, List.pairwise_flatMap]
  have pair (a b : Frame) : (∀ x ∈ a.kinds json, ∀ y ∈ b.kinds json,
      x = .terminal → y ≠ .terminal ∧ y ≠ .speech) ↔
        (a.closes json = true → b.speaks json = false) := by
    simp only [Frame.closes, Frame.speaks, decide_eq_true_eq, Bool.or_eq_false_iff,
      decide_eq_false_iff_not]
    constructor
    · intro all closes
      constructor
      · exact fun mem => (all _ closes _ mem rfl).1 rfl
      · exact fun mem => (all _ closes _ mem rfl).2 rfl
    · rintro silent x mem y mem' rfl
      obtain ⟨first, second⟩ := silent mem
      exact ⟨fun is => first (is ▸ mem'), fun is => second (is ▸ mem')⟩
  constructor
  · rintro ⟨-, settled⟩
    exact settled.imp fun all => (pair _ _).mp all
  · intro quiet
    exact ⟨fun frame _ => frameKinds_settled frame, quiet.imp fun silent => (pair _ _).mpr silent⟩

variable {s s' : Stream} {c : Connection} {again : Bool} {opening ending : List Kind}

theorem Attempted.settled (h : Attempted json s c s' again opening ending)
    (none_ : Kind.terminal ∉ s.kinds) : Settled s'.kinds ↔ c.Quiet json := by
  have start : Kind.terminal ∉ Kind.other :: Kind.attempt :: opening := by
    simp only [List.mem_cons, not_or]
    refine ⟨by decide, by decide, ?_⟩
    intro mem
    cases h.opening _ mem
  have split : s'.kinds = (s.kinds ++ .other :: .attempt :: opening) ++
      (c.frames.flatMap (Frame.kinds json) ++ ending) := by
    rw [h.kinds]
    simp
  rw [split, settled_append_of_none (by simpa [not_or] using ⟨none_, by simpa using start⟩),
    Connection.Quiet, ← framesKinds_settled, Settled, List.pairwise_append]
  constructor
  · rintro ⟨settled, -⟩
    exact settled
  · intro settled
    have form := h.form
    simp only [List.mem_cons, List.not_mem_nil, or_false] at form
    refine ⟨settled, ?_, ?_⟩
    · rcases form with rfl | rfl | rfl | rfl | rfl
      all_goals simp
    · rintro a mem b mem' rfl
      -- a frame has closed the stream, so no callback comes at the end
      have silent : Kind.terminal ∉ ending := by
        intro terminal
        obtain ⟨frame, here, closes⟩ := List.mem_flatMap.mp mem
        exact absurd closes (of_decide_eq_false (h.last terminal frame here))
      rcases form with rfl | rfl | rfl | rfl | rfl
      all_goals simp_all

theorem Run.settles {conns : List Connection} (run : Run json conns s again) :
    (Settled s.kinds ↔ ∀ c ∈ conns, c.Quiet json) ∧
      (again = true → s.closed = false ∧ Kind.terminal ∉ s.kinds) := by
  induction run with
  | start => simp [Settled, Stream.kinds]
  | attempt run c ih =>
    obtain ⟨before, goes⟩ := ih
    obtain ⟨open_, none_⟩ := goes rfl
    obtain ⟨opening, ending, attempted⟩ := @connect_attempted json _ open_ c
    have all := before.mp (settled_of_none none_)
    constructor
    · rw [attempted.settled none_]
      constructor
      · intro quiet c' mem
        rcases List.mem_append.mp mem with old | new
        · exact all c' old
        · rw [List.mem_singleton.mp new]
          exact quiet
      · intro quiet
        exact quiet c (by simp)
    · intro again
      obtain ⟨closed, is, silent, -⟩ := attempted.goesOn again
      refine ⟨closed, ?_⟩
      rw [attempted.kinds, is]
      simp only [List.mem_append, List.mem_cons, List.mem_flatMap, not_or]
      refine ⟨none_, by decide, by decide, ?_, ?_, by decide, by simp⟩
      · intro mem
        cases attempted.opening _ mem
      · rintro ⟨frame, mem, closes⟩
        exact absurd closes (of_decide_eq_false (silent frame mem))

/-! ## Attempts in a row -/

/-- The attempts since the last frame. -/
def streak (ks : List Kind) : Nat :=
  ks.foldl (fun n k => match k with | .frame => 0 | .attempt => n + 1 | _ => n) 0

theorem streak_append (ks ks' : List Kind) (none_ : Kind.frame ∉ ks') :
    streak (ks ++ ks') = streak ks + ks'.count .attempt := by
  induction ks' using List.reverseRecOn with
  | nil => simp
  | append_singleton ks' k ih =>
    rw [List.mem_append, List.mem_singleton, not_or] at none_
    have before := ih none_.1
    rw [← List.append_assoc, streak, List.foldl_append, List.count_append]
    change (match k with | .frame => 0 | .attempt => streak (ks ++ ks') + 1 | _ => streak (ks ++ ks')) = _
    rw [before]
    cases k with
    | attempt => simp [Nat.add_assoc]
    | frame => exact absurd rfl none_.2
    | speech | terminal | other => simp

theorem streak_le {ks ks' : List Kind} (none_ : Kind.attempt ∉ ks') :
    streak (ks ++ ks') ≤ streak ks := by
  induction ks' using List.reverseRecOn with
  | nil => simp
  | append_singleton ks' k ih =>
    rw [List.mem_append, List.mem_singleton, not_or] at none_
    have before := ih none_.1
    rw [← List.append_assoc, streak, List.foldl_append]
    change (match k with | .frame => 0 | .attempt => streak (ks ++ ks') + 1 | _ => streak (ks ++ ks')) ≤ _
    cases k with
    | attempt => exact absurd rfl none_.2
    | frame => exact Nat.zero_le _
    | speech | terminal | other => exact before

theorem streak_frame {ks ks' : List Kind} (none_ : Kind.attempt ∉ ks') (some_ : Kind.frame ∈ ks') :
    streak (ks ++ ks') = 0 := by
  obtain ⟨before, after, rfl⟩ := List.append_of_mem some_
  have reset : streak (ks ++ (before ++ [.frame])) = 0 := by
    rw [← List.append_assoc, streak, List.foldl_append]
    rfl
  have later : Kind.attempt ∉ after := fun mem => none_ (by simp [mem])
  have upto := @streak_le (ks ++ (before ++ [.frame])) after later
  rw [reset] at upto
  simpa using upto

/-- At no point of the log are there too many. -/
def Low (ks : List Kind) : Prop := ∀ part, part <+: ks → streak part ≤ maxReconnectAttempts + 1

theorem Low.bounded {ks : List Kind} (low : Low ks) : Bounded ks := by
  rintro part ⟨before, after, rfl⟩ none_
  have upto := low (before ++ part) (List.prefix_append _ _)
  rw [streak_append _ _ none_] at upto
  omega

theorem Low.append {ks ks' : List Kind} (low : Low ks) (none_ : Kind.attempt ∉ ks') :
    Low (ks ++ ks') := by
  induction ks' using List.reverseRecOn with
  | nil => simpa using low
  | append_singleton ks' k ih =>
    intro part inside
    rw [← List.append_assoc] at inside
    rcases List.prefix_concat_iff.mp inside with rfl | short
    · rw [List.append_assoc]
      exact (streak_le none_).trans (low ks (List.prefix_refl _))
    · exact ih (fun mem => none_ (List.mem_append_left _ mem)) part short

theorem Low.attempt {ks : List Kind} (low : Low ks) (few : streak ks ≤ maxReconnectAttempts) :
    Low (ks ++ [.attempt]) := by
  intro part inside
  rcases List.prefix_concat_iff.mp inside with rfl | short
  · rw [streak_append _ _ (by decide)]
    simpa using few
  · exact low part short

theorem attempt_notMem_frames (frames : List Frame) :
    Kind.attempt ∉ frames.flatMap (Frame.kinds json) := by
  intro mem
  obtain ⟨frame, -, here⟩ := List.mem_flatMap.mp mem
  unfold Frame.kinds at here
  split at here
  · cases here
  · simp only [List.mem_cons, reduceCtorEq, false_or] at here
    split at here
    · cases here
    · split at here
      · split at here
        · cases here
        · simp at here
      · have form := payloadKinds_form frame.event (by assumption)
        simp only [List.mem_cons, List.not_mem_nil, or_false] at form
        rcases form with is | is | is | is
        all_goals simp [is] at here

theorem Connection.delivers_iff (c : Connection) :
    c.delivers = true ↔ Kind.frame ∈ c.frames.flatMap (Frame.kinds json) := by
  rw [Connection.delivers, List.any_eq_true, List.mem_flatMap]
  refine exists_congr fun frame => and_congr_right fun _ => ?_
  rw [bne_iff_ne, Frame.kinds]
  by_cases empty : frame.data = []
  · simp [empty]
  · simp [empty]

/-- What a run of attempts has in store for the next. -/
structure Ready (conns : List Connection) (s : Stream) : Prop where
  streak : streak s.kinds ≤ s.reconnectAttempts
  few : s.reconnectAttempts ≤ maxReconnectAttempts
  fresh : (∀ c, conns.getLast? = some c → c.delivers = true) → Widget.streak s.kinds = 0

theorem Run.low {conns : List Connection} (run : Run json conns s again)
    (chain : conns.IsChain fun a b => b.idles = true → a.delivers = true) :
    Low s.kinds ∧ (again = true → Ready conns s) := by
  induction run with
  | start =>
    refine ⟨?_, fun _ => ⟨Nat.le_refl _, by decide, fun _ => rfl⟩⟩
    intro part inside
    rw [List.prefix_nil.mp inside]
    decide
  | @attempt conns s run c ih =>
    obtain ⟨chain', -, link⟩ := List.isChain_append.mp chain
    obtain ⟨low, ready⟩ := ih chain'
    obtain ⟨upto, few, fresh⟩ := ready rfl
    obtain ⟨open_, -⟩ := run.settles.2 rfl
    obtain ⟨opening, ending, attempted⟩ := @connect_attempted json _ open_ c
    have quiet : Kind.attempt ∉ opening ++ (c.frames.flatMap (Frame.kinds json) ++ ending) := by
      simp only [List.mem_append, not_or]
      refine ⟨?_, attempt_notMem_frames _, ?_⟩
      · intro mem
        cases attempted.opening _ mem
      · have form := attempted.form
        simp only [List.mem_cons, List.not_mem_nil, or_false] at form
        rcases form with rfl | rfl | rfl | rfl | rfl
        all_goals simp
    have kinds : (connect json s c).1.kinds = (s.kinds ++ [.other] ++ [.attempt]) ++
        (opening ++ (c.frames.flatMap (Frame.kinds json) ++ ending)) := by
      rw [attempted.kinds]
      simp
    have one : streak (s.kinds ++ [.other] ++ [.attempt]) = streak s.kinds + 1 := by
      rw [List.append_assoc, streak_append _ _ (by decide)]
      rfl
    have before : streak (s.kinds ++ [.other]) = streak s.kinds := by
      rw [streak_append _ _ (by decide)]
      rfl
    constructor
    · rw [kinds]
      exact ((low.append (by decide)).attempt (by omega)).append quiet
    · intro again
      obtain ⟨-, -, -, few', counted⟩ := attempted.goesOn again
      have most : streak (connect json s c).1.kinds ≤ streak s.kinds + 1 := by
        rw [kinds, ← one]
        exact streak_le quiet
      have delivered (some_ : c.delivers = true) : streak (connect json s c).1.kinds = 0 := by
        rw [kinds]
        refine streak_frame quiet ?_
        simp only [List.mem_append]
        exact .inr (.inl ((c.delivers_iff).mp some_))
      refine ⟨?_, few', ?_⟩
      · rcases counted with next | ⟨reset, idles | some_⟩
        · omega
        · -- the connection opened and dropped without a frame: one had come in the last attempt
          have none_ : streak s.kinds = 0 := fresh fun last here => link last here c rfl idles
          omega
        · rw [delivered some_]
          exact Nat.zero_le _
      · intro last
        exact delivered (last c (by simp))

variable (json) in
/-- A stream is settled by one callback exactly when in every attempt that it made nothing that
the callbacks are told comes after a result or an error; and where no connection opens and drops
without a frame after an attempt without one, the attempts in a row are few. -/
theorem stream_settles {conns : List Connection} {s : Stream} {again : Bool}
    (run : Run json conns s again) : openSSEStream json {} conns = s ∧
      (Settled s.kinds ↔ ∀ c ∈ conns, c.Quiet json) ∧
      (conns.IsChain (fun a b => b.idles = true → a.delivers = true) → Bounded s.kinds) :=
  ⟨run.opens, run.settles.1, fun chain => (run.low chain).1.bounded⟩

end

/-! ## A result, and what comes after it -/

def resultText : String := "\x7b\"response\": \"Sent on Monday.\"\x7d"

def deltaText : String := "\x7b\"content\": \"Anything else?\"\x7d"

/-- What `JSON.parse` gives for the two. -/
def sampleJson (data : String) : Option Payload :=
  if data = resultText then some { response := some "Sent on Monday." }
  else if data = deltaText then some { content := some "Anything else?" }
  else none

def resultFrame : Text := ("event: result\ndata: " ++ resultText ++ "\n\n").toList

def deltaFrame : Text := ("id: 2\nevent: delta\ndata: " ++ deltaText ++ "\n\n").toList

def firstStream (c : Connection) : Stream := (connect sampleJson {} c).1

theorem firstStream_run (c : Connection) :
    Run sampleJson [c] (firstStream c) (connect sampleJson {} c).2 := .attempt .start c

theorem stream_settles_result :
    Settled (firstStream (.opened [deltaFrame, resultFrame] none)).kinds ∧
      Bounded (firstStream (.opened [deltaFrame, resultFrame] none)).kinds := by
  obtain ⟨-, settles, bounded⟩ := stream_settles sampleJson
    (firstStream_run (.opened [deltaFrame, resultFrame] none))
  refine ⟨settles.mpr ?_, bounded (List.isChain_singleton _)⟩
  intro c mem
  rw [List.mem_singleton.mp mem]
  unfold Connection.Quiet
  decide +kernel

/-- The connection opens and drops, and nothing comes. -/
def idleConnection : Connection := .opened [] (some "network error")

theorem connect_idle (json : String → Option Payload) (s : Stream) (open_ : s.closed = false) :
    (connect json s idleConnection).2 = true ∧ (connect json s idleConnection).1.closed = false ∧
      (connect json s idleConnection).1.kinds = s.kinds ++ [.other, .attempt, .other, .other] := by
  simp [connect, idleConnection, open_, readLoop, handleReconnect, maxReconnectAttempts,
    Stream.kinds, Stream.tell, Event.kind]

/-- Against a server that accepts and drops every connection, it connects again and again. -/
theorem idle_run (json : String → Option Payload) (n : Nat) :
    ∃ s, Run json (List.replicate n idleConnection) s true ∧ s.closed = false ∧
      Kind.frame ∉ s.kinds ∧ s.kinds.count .attempt = n := by
  induction n with
  | zero => exact ⟨{}, .start, rfl, by simp [Stream.kinds], rfl⟩
  | succ n ih =>
    obtain ⟨s, run, open_, none_, counted⟩ := ih
    obtain ⟨again, open', kinds⟩ := connect_idle json s open_
    have next := run.attempt idleConnection
    rw [again, ← List.replicate_succ'] at next
    refine ⟨_, next, open', ?_, ?_⟩
    · rw [kinds]
      simp [none_]
    · rw [kinds, List.count_append, counted]
      rfl

/-- A delta that comes after the result, in the same read, is told after `onComplete`; and there
are seven attempts in a row without a frame. -/
theorem stream_unsettled :
    (∃ s again, Run sampleJson [.opened [resultFrame ++ deltaFrame] none] s again ∧
      ¬Settled s.kinds) ∧
    ∃ s, Run sampleJson (List.replicate 7 idleConnection) s true ∧ ¬Bounded s.kinds := by
  constructor
  · have kinds : (firstStream (.opened [resultFrame ++ deltaFrame] none)).kinds =
        [.other, .attempt, .other, .frame, .other, .terminal, .frame, .speech] := by
      decide +kernel
    refine ⟨_, _, firstStream_run _, ?_⟩
    rw [kinds, Settled]
    decide
  · obtain ⟨s, run, -, none_, counted⟩ := idle_run sampleJson 7
    refine ⟨s, run, ?_⟩
    intro bounded
    have few := bounded s.kinds (List.infix_refl _) none_
    rw [counted] at few
    exact absurd few (by decide)

end AgentStudio.Widget

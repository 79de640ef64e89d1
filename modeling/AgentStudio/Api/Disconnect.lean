import Mathlib.Data.List.Induction

/-!
# A stream that is left early

The tasks of a streaming turn: `event_generator` takes what `_produce` puts into its queue,
`_produce` runs `stream_message`, and that has a task of its own that runs the graph. The route
cancels the producer when it leaves its loop and goes on to release what it holds. In
`stream_message` the cancellation ends the loop, and its `finally` block waits for the graph.
-/

namespace AgentStudio.Api.Disconnect

/-- What the graph comes to: a gateway call starts or ends, or the callback gets a delta. -/
inductive GraphStep where
  | call
  | delta (content : String)
  | answer
  deriving DecidableEq

/-- What is put into either queue. -/
inductive Item where
  | delta (content : String)
  | done
  deriving DecidableEq

inductive Producer where
  /-- The task has not run yet. -/
  | created
  /-- In the loop of `stream_message`. -/
  | getting
  /-- In the `finally` block of `stream_message`, at `await task`. -/
  | awaiting
  | ended
  deriving DecidableEq

inductive Route where
  | consuming
  /-- Past its loop; it may still store the turn. -/
  | leaving
  /-- The lease and the admission are released. -/
  | released
  deriving DecidableEq

structure World where
  /-- What the graph has still to do. -/
  graph : List GraphStep
  /-- The task of the graph has been created. -/
  started : Bool := false
  finished : Bool := false
  /-- Gateway calls in progress. -/
  calls : Nat := 0
  queue : List Item := []
  producer : Producer := .created
  /-- `producer.cancel()` has been called. -/
  cancelled : Bool := false
  streamQ : List Item := []
  route : Route := .consuming
  deriving DecidableEq

/-- Which task runs next; a step that cannot be taken changes nothing. -/
inductive Action where
  | graph
  | produce
  /-- The route takes the next item; of a delta the moderation says whether it truncates. -/
  | consume (truncated : Bool)
  | disconnect
  | release

namespace World

def runGraph (w : World) : World :=
  if w.started then
    match w.graph with
    | [] =>
      -- a task ends with none of its calls in progress
      if w.finished || w.calls ≠ 0 then w
      else { w with finished := true, queue := w.queue ++ [.done] }
    | .call :: rest => { w with graph := rest, calls := w.calls + 1 }
    | .delta content :: rest => { w with graph := rest, queue := w.queue ++ [.delta content] }
    | .answer :: rest => { w with graph := rest, calls := w.calls - 1 }
  else w

def produce (w : World) : World :=
  match w.producer with
  | .created =>
    if w.cancelled then { w with producer := .ended }
    else { w with producer := .getting, started := true }
  | .getting =>
    if w.cancelled then { w with producer := .awaiting }
    else
      match w.queue with
      | [] => w
      | .delta content :: rest =>
        { w with queue := rest, streamQ := w.streamQ ++ [.delta content] }
      | .done :: rest =>
        { w with queue := rest, streamQ := w.streamQ ++ [.done], producer := .ended }
  | .awaiting =>
    if w.finished then { w with streamQ := w.streamQ ++ [.done], producer := .ended } else w
  | .ended => w

/-- The `finally` block of the consumer loop. -/
def leave (w : World) : World := { w with route := .leaving, cancelled := true }

def consume (w : World) (truncated : Bool) : World :=
  match w.streamQ with
  | [] => w
  | .delta _ :: rest =>
    if truncated then leave { w with streamQ := rest } else { w with streamQ := rest }
  | .done :: rest => leave { w with streamQ := rest }

def next (w : World) : Action → World
  | .graph => w.runGraph
  | .produce => w.produce
  | .consume truncated => if w.route = .consuming then w.consume truncated else w
  | .disconnect => if w.route = .consuming then w.leave else w
  | .release => if w.route = .leaving then { w with route := .released } else w

def run (w : World) (actions : List Action) : World := actions.foldl next w

/-- The world after actions, from the start of a turn. -/
def after (turn : List GraphStep) (actions : List Action) : World := run { graph := turn } actions

/-- Once the route has released what it held, no gateway call is in progress. -/
def Calm (w : World) : Prop := w.route = .released → w.calls = 0

/-- No gateway call is in progress or to come, unless the graph has yet to start. -/
def Through (w : World) : Prop := w.started = true → w.calls = 0 ∧ .call ∉ w.graph

/-- The route is not made to leave its loop while a call is in progress or to come. -/
def Meets (w : World) : Action → Prop
  | .disconnect => w.route = .consuming → w.Through
  | .consume true => w.route = .consuming → (∃ content, w.streamQ.head? = some (.delta content)) →
    w.Through
  | _ => True

/-! ## While every step meets the condition -/

/-- What is so in every world that is reached. -/
structure Sound (w : World) : Prop where
  idle : w.started = false → w.calls = 0
  finished : w.finished = true → w.calls = 0 ∧ w.graph = []
  done : .done ∈ w.queue ∨ .done ∈ w.streamQ → w.finished = true
  left : w.route ≠ .consuming → w.cancelled = true

variable {w : World}

theorem runGraph_sound (sound : w.Sound) : w.runGraph.Sound := by
  rw [runGraph]
  split
  · rename_i started
    have apart (u : World) (same : u.started = w.started) : ¬ u.started = false := by
      rw [same, started]
      decide
    have busy {step : GraphStep} {rest : List GraphStep} (next_ : w.graph = step :: rest) :
        ¬ w.finished = true := by
      intro finished
      rw [(sound.finished finished).2] at next_
      cases next_
    split
    · rename_i none_
      split
      · exact sound
      · rename_i running
        simp only [Bool.or_eq_true, decide_eq_true_eq, not_or, not_not, ne_eq] at running
        exact ⟨sound.idle, fun _ => ⟨running.2, none_⟩, fun _ => rfl, sound.left⟩
    · rename_i rest next_
      exact ⟨fun unstarted => absurd unstarted (apart _ rfl),
        fun finished => absurd finished (busy next_), sound.done, sound.left⟩
    · rename_i content rest next_
      refine ⟨sound.idle, fun finished => absurd finished (busy next_), ?_, sound.left⟩
      simpa using sound.done
    · rename_i rest next_
      exact ⟨fun unstarted => absurd unstarted (apart _ rfl),
        fun finished => absurd finished (busy next_), sound.done, sound.left⟩
  · exact sound

theorem produce_sound (sound : w.Sound) : w.produce.Sound := by
  rw [produce]
  split
  · split
    · exact ⟨sound.idle, sound.finished, sound.done, sound.left⟩
    · exact ⟨nofun, sound.finished, sound.done, sound.left⟩
  · split
    · exact ⟨sound.idle, sound.finished, sound.done, sound.left⟩
    · split
      · exact sound
      · rename_i content rest items
        refine ⟨sound.idle, sound.finished, ?_, sound.left⟩
        have done := sound.done
        rw [items] at done
        simpa using done
      · rename_i rest items
        refine ⟨sound.idle, sound.finished, fun _ => sound.done (.inl ?_), sound.left⟩
        rw [items]
        exact List.mem_cons_self
  · split
    · rename_i finished
      exact ⟨sound.idle, sound.finished, fun _ => finished, sound.left⟩
    · exact sound
  · exact sound

theorem leave_sound (sound : w.Sound) : w.leave.Sound :=
  ⟨sound.idle, sound.finished, sound.done, fun _ => rfl⟩

theorem consume_sound (sound : w.Sound) (truncated : Bool) : (w.consume truncated).Sound := by
  have taken {item : Item} {rest : List Item} (items : w.streamQ = item :: rest) :
      Sound { w with streamQ := rest } := by
    refine ⟨sound.idle, sound.finished, fun there => sound.done ?_, sound.left⟩
    rw [items]
    exact there.imp_right (List.mem_cons_of_mem item)
  rw [consume]
  split
  · exact sound
  · rename_i items
    split
    · exact leave_sound (taken items)
    · exact taken items
  · rename_i items
    exact leave_sound (taken items)

theorem next_sound (sound : w.Sound) (action : Action) : (w.next action).Sound := by
  cases action with
  | graph => exact runGraph_sound sound
  | produce => exact produce_sound sound
  | consume truncated =>
    rw [next]
    split
    · exact consume_sound sound truncated
    · exact sound
  | disconnect =>
    rw [next]
    split
    · exact leave_sound sound
    · exact sound
  | release =>
    rw [next]
    split
    · rename_i leaving
      exact ⟨sound.idle, sound.finished, sound.done, fun _ => sound.left (by simp [leaving])⟩
    · exact sound

theorem after_snoc (turn : List GraphStep) (before : List Action) (action : Action) :
    after turn (before ++ [action]) = (after turn before).next action := by
  rw [after, run, List.foldl_append]
  rfl

theorem after_sound (turn : List GraphStep) (actions : List Action) :
    (after turn actions).Sound := by
  induction actions using List.reverseRecOn with
  | nil => exact ⟨fun _ => rfl, nofun, fun there => by cases there <;> contradiction, nofun⟩
  | append_singleton actions action ih =>
    rw [after_snoc]
    exact next_sound ih action

theorem runGraph_through (through : w.Through) : w.runGraph.Through := by
  rw [runGraph]
  split
  · rename_i started
    obtain ⟨quiet, none_⟩ := through started
    split
    · split
      · exact through
      · exact through
    · rename_i rest next_
      rw [next_] at none_
      exact absurd List.mem_cons_self none_
    · rename_i content rest next_
      rw [next_] at none_
      exact fun _ => ⟨quiet, fun there => none_ (List.mem_cons_of_mem _ there)⟩
    · rename_i rest next_
      rw [next_] at none_
      exact fun _ => ⟨by simp [quiet], fun there => none_ (List.mem_cons_of_mem _ there)⟩
  · exact through

theorem produce_through (through : w.Through) (cancelled : w.cancelled = true) :
    w.produce.Through := by
  rw [produce, if_pos cancelled, if_pos cancelled]
  split
  · exact through
  · exact through
  · split
    · exact through
    · exact through
  · exact through

theorem runGraph_route (w : World) : w.runGraph.route = w.route := by
  rw [runGraph]
  split
  · split
    · split
      · rfl
      · rfl
    · rfl
    · rfl
    · rfl
  · rfl

theorem produce_route (w : World) : w.produce.route = w.route := by
  rw [produce]
  split
  · split
    · rfl
    · rfl
  · split
    · rfl
    · split
      · rfl
      · rfl
      · rfl
  · split
    · rfl
    · rfl
  · rfl

/-- The graph is through when its result is taken. -/
theorem through_of_done (sound : w.Sound) (there : .done ∈ w.streamQ) : w.Through := by
  intro _
  obtain ⟨quiet, none_⟩ := sound.finished (sound.done (.inr there))
  exact ⟨quiet, none_ ▸ List.not_mem_nil⟩

/-- A step that meets the condition. -/
theorem next_through (sound : w.Sound) (through : w.route ≠ .consuming → w.Through)
    {action : Action} (meets : w.Meets action) :
    (w.next action).route ≠ .consuming → (w.next action).Through := by
  cases action with
  | graph =>
    rw [next, runGraph_route]
    exact fun left => runGraph_through (through left)
  | produce =>
    rw [next, produce_route]
    exact fun left => produce_through (through left) (sound.left left)
  | consume truncated =>
    rw [next]
    split
    · rename_i consuming
      rw [consume]
      split
      · exact fun left => absurd consuming left
      · rename_i content rest items
        split
        · rename_i flagged
          rw [flagged] at meets
          exact fun _ => meets consuming ⟨content, by rw [items]; rfl⟩
        · exact fun left => absurd consuming left
      · rename_i rest items
        have through : w.Through := through_of_done sound (items ▸ List.mem_cons_self)
        exact fun _ => through
    · exact through
  | disconnect =>
    rw [next]
    split
    · rename_i consuming
      exact fun _ => meets consuming
    · exact through
  | release =>
    rw [next]
    split
    · rename_i leaving
      exact fun _ => through (by simp [leaving])
    · exact through

theorem after_through {turn : List GraphStep} {actions : List Action}
    (meets : ∀ before action, before ++ [action] <+: actions → (after turn before).Meets action) :
    (after turn actions).route ≠ .consuming → (after turn actions).Through := by
  induction actions using List.reverseRecOn with
  | nil => exact fun left => absurd rfl left
  | append_singleton actions action ih =>
    rw [after_snoc]
    exact next_through (after_sound turn actions)
      (ih fun before action start => meets before action (start.trans (List.prefix_append _ _)))
      (meets actions action (List.prefix_refl _))

theorem calm_of_through (sound : w.Sound) (through : w.route ≠ .consuming → w.Through) :
    w.Calm := by
  intro released
  cases started : w.started with
  | false => exact sound.idle started
  | true => exact (through (by simp [released]) started).1

/-! ## After a step that does not -/

theorem run_append (w : World) (before rest : List Action) :
    w.run (before ++ rest) = (w.run before).run rest := List.foldl_append ..

/-- The graph goes on to its next call. -/
theorem exists_call (started : w.started = true) (coming : .call ∈ w.graph) :
    ∃ actions, (w.run actions).calls ≠ 0 ∧ (w.run actions).route = w.route := by
  generalize graph : w.graph = steps at coming
  induction steps generalizing w with
  | nil => cases coming
  | cons step rest ih =>
    have on (later : ∃ actions, (w.runGraph.run actions).calls ≠ 0 ∧
        (w.runGraph.run actions).route = w.runGraph.route) :
        ∃ actions, (w.run actions).calls ≠ 0 ∧ (w.run actions).route = w.route := by
      obtain ⟨actions, busy, route⟩ := later
      exact ⟨.graph :: actions, busy, route.trans (runGraph_route w)⟩
    apply on
    rw [runGraph, if_pos started, graph]
    cases step with
    | call => exact ⟨[], Nat.succ_ne_zero _, rfl⟩
    | delta content => exact ih started rfl ((List.mem_cons.mp coming).resolve_left nofun)
    | answer => exact ih started rfl ((List.mem_cons.mp coming).resolve_left nofun)

/-- A route that leaves while a call is in progress or to come may release what it holds first. -/
theorem exists_stray (left : w.route = .leaving) (busy : ¬ w.Through) :
    ∃ rest, ¬ (w.run rest).Calm := by
  obtain ⟨started, busy⟩ := Classical.not_imp.mp busy
  have released : w.run [.release] = { w with route := .released } := if_pos left
  by_cases quiet : w.calls = 0
  · have coming : .call ∈ w.graph := by
      by_contra none_
      exact busy ⟨quiet, none_⟩
    obtain ⟨actions, calls, route⟩ :=
      exists_call (w := { w with route := .released }) started coming
    refine ⟨[.release] ++ actions, fun calm => calls ?_⟩
    rw [run_append, released] at calm
    exact calm route
  · exact ⟨[.release], fun calm => quiet (by rw [released] at calm; exact calm rfl)⟩

theorem meets_of_calm {action : Action} (calm : ∀ rest, ((w.next action).run rest).Calm) :
    w.Meets action := by
  have through (left : (w.next action).route = .leaving) : (w.next action).Through := by
    by_contra busy
    obtain ⟨rest, stray⟩ := exists_stray left busy
    exact stray (calm rest)
  cases action with
  | disconnect =>
    intro consuming
    rw [next, if_pos consuming] at through
    exact through rfl
  | consume truncated =>
    cases truncated with
    | false => trivial
    | true =>
      rintro consuming ⟨content, head⟩
      rw [next, if_pos consuming, consume] at through
      split at through
      · rename_i none_
        rw [none_] at head
        cases head
      · exact through rfl
      · rename_i items
        rw [items] at head
        cases head
  | graph => trivial
  | produce => trivial
  | release => trivial

/-- In a run whose steps all meet the condition no call outlives the route, in whatever state; and
a step that is never followed by a call that does meets it. -/
theorem calm_iff (turn : List GraphStep) :
    (∀ actions, (∀ before action, before ++ [action] <+: actions →
      (after turn before).Meets action) → (after turn actions).Calm) ∧
    ∀ before action, (∀ rest, (after turn (before ++ action :: rest)).Calm) →
      (after turn before).Meets action := by
  constructor
  · intro actions meets
    exact calm_of_through (after_sound turn actions) (after_through meets)
  · intro before action calm
    apply meets_of_calm
    intro rest
    have here := calm rest
    rw [after, run_append] at here
    exact here

/-- A client that leaves while the model answers. -/
theorem left_early : ¬ ∀ turn actions, (after turn actions).Calm := by
  intro all
  have calm := all [.call, .delta "Hello", .answer]
    [.produce, .graph, .graph, .produce, .consume false, .disconnect, .produce, .release]
  exact absurd (calm (by decide)) (by decide)

end World

end AgentStudio.Api.Disconnect

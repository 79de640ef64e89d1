import Mathlib.Data.List.Basic
import Mathlib.Data.List.Induction

/-!
# An MCP client on two pipes

`MCPStdioClient` of `adapters/tools/mcp.py`: each call of `_request` draws the next id, writes its
frame and then returns what the next line of the server holds, whoever the line is for. The calls
share one `StreamReader`; a second one that has to wait for a line is a `RuntimeError`.
-/

namespace AgentStudio.Tools.Stdio

/-- A line of the server: the answer to a request, or a notification. -/
inductive Frame where
  | result (id : Nat) (body : String)
  | error (id : Nat) (code : Int) (message : String)
  | notification (method : String)
  deriving DecidableEq, Repr

def Frame.id? : Frame → Option Nat
  | .result id _ => some id
  | .error id _ _ => some id
  | .notification _ => none

/-- What `_request` returns for a line: `body.get("result", \x7b\x7d)`, or an `MCPError`. -/
def Frame.body : Frame → Except String String
  | .result _ body => .ok body
  | .error _ code message => .error ("MCP JSON-RPC error " ++ toString code ++ ": " ++ message)
  | .notification _ => .ok "\x7b\x7d"

/-- The client with its reader. -/
structure Client where
  /-- `_request_id`. -/
  requestId : Nat := 0
  /-- The calls that are not yet over, by their ids. -/
  active : List Nat := []
  /-- The lines that no one has read. -/
  buffer : List Frame := []
  /-- The call that waits for a line. -/
  waiter : Option Nat := none
  /-- The calls that took a line, each with its line, for the record. -/
  taken : List (Nat × Frame) := []
  deriving DecidableEq, Repr

inductive Event where
  /-- A call draws its id and writes its frame. -/
  | request
  /-- The server writes a line; the call that waits is woken. -/
  | feed (frame : Frame)
  /-- `readline` of a call: it takes a line, or waits for one. -/
  | take (id : Nat)
  | wait (id : Nat)
  /-- A call is over without a line: its timeout, or any other exception. -/
  | fail (id : Nat)
  deriving DecidableEq, Repr

/-- A call is over. -/
def Client.over (c : Client) (id : Nat) : Client :=
  { c with
    active := c.active.erase id
    waiter := if c.waiter = some id then none else c.waiter }

/-- `readline` of a call, when there is a line. -/
def Client.take (c : Client) (id : Nat) : Option Client :=
  match c.buffer with
  | [] => none
  | frame :: rest =>
    if id ∈ c.active then some { c.over id with buffer := rest, taken := c.taken ++ [(id, frame)] }
    else none

/-- `readline` of a call, when there is none: `_wait_for_data`. -/
def Client.wait (c : Client) (id : Nat) : Option Client :=
  if id ∈ c.active ∧ c.buffer = [] then
    match c.waiter with
    | none => some { c with waiter := some id }
    | some other => if other = id then some c else some (c.over id)
  else none

/-- What an event does, if it can happen. -/
def step (c : Client) : Event → Option Client
  | .request => some { c with requestId := c.requestId + 1, active := (c.requestId + 1) :: c.active }
  | .feed frame => some { c with buffer := c.buffer ++ [frame], waiter := none }
  | .take id => c.take id
  | .wait id => c.wait id
  | .fail id => if id ∈ c.active then some (c.over id) else none

/-- The client after these events, if they can happen in this order. -/
def run (events : List Event) : Option Client := events.foldlM step {}

/-! ## Who takes which line -/

/-- The lines that the server wrote, in order. -/
def fed (events : List Event) : List Frame :=
  events.filterMap fun | .feed frame => some frame | _ => none

/-- The calls that took a line, in order. -/
def takes (events : List Event) : List Nat :=
  events.filterMap fun | .take id => some id | _ => none

/-- The server answers requests that were made, each at most once. -/
def serves (requests : Nat) (answered : List Nat) : List Event → Bool
  | [] => true
  | .request :: rest => serves (requests + 1) answered rest
  | .feed frame :: rest =>
    match frame.id? with
    | none => serves requests answered rest
    | some id => 0 < id && id ≤ requests && id ∉ answered && serves requests (id :: answered) rest
  | _ :: rest => serves requests answered rest

/-- The calls take their lines in the order in which the server writes them: the line that a call
takes is an error, or the result of its request. -/
def InOrder (events : List Event) : Prop :=
  ∀ p ∈ (takes events).zip (fed events), ∀ body, p.2.body = .ok body → p.2.id? = some p.1

/-- A call that returns a result returns the one of its own request. -/
def Client.OwnResults (c : Client) : Prop :=
  ∀ p ∈ c.taken, ∀ body, p.2.body = .ok body → p.2.id? = some p.1

/-- What was written was taken in this order, or is in the buffer. -/
structure Piped (events : List Event) (c : Client) : Prop where
  fed : fed events = c.taken.map Prod.snd ++ c.buffer
  takes : takes events = c.taken.map Prod.fst

variable {events : List Event} {c c' : Client}

theorem run_concat (events : List Event) (e : Event) :
    run (events ++ [e]) = (run events).bind fun c => step c e := by
  rw [run, List.foldlM_append]
  refine bind_congr fun c => ?_
  simp

/-- What an event does to the lines. -/
theorem step_lines {e : Event} (step_ : step c e = some c') : ∃ frames pairs,
    c'.taken = c.taken ++ pairs ∧ c.buffer ++ frames = pairs.map Prod.snd ++ c'.buffer ∧
      fed [e] = frames ∧ takes [e] = pairs.map Prod.fst := by
  cases e with
  | request =>
    cases step_
    exact ⟨[], [], by simp [fed, takes]⟩
  | feed frame =>
    cases step_
    exact ⟨[frame], [], by simp [fed, takes]⟩
  | take id =>
    change c.take id = some c' at step_
    unfold Client.take at step_
    split at step_
    · cases step_
    · rename_i frame rest first
      split at step_
      · cases step_
        exact ⟨[], [(id, frame)], by simp [first, fed, takes]⟩
      · cases step_
  | wait id =>
    change c.wait id = some c' at step_
    unfold Client.wait at step_
    split at step_
    · split at step_
      · cases step_
        exact ⟨[], [], by simp [fed, takes]⟩
      · split at step_
        · cases step_
          exact ⟨[], [], by simp [fed, takes]⟩
        · cases step_
          exact ⟨[], [], by simp [Client.over, fed, takes]⟩
    · cases step_
  | fail id =>
    change (if id ∈ c.active then some (c.over id) else none) = some c' at step_
    split at step_
    · cases step_
      exact ⟨[], [], by simp [Client.over, fed, takes]⟩
    · cases step_

theorem run_piped (ran : run events = some c) : Piped events c := by
  induction events using List.reverseRecOn generalizing c with
  | nil =>
    cases ran
    exact ⟨rfl, rfl⟩
  | append_singleton events e ih =>
    rw [run_concat] at ran
    obtain ⟨before, ran, step_⟩ := Option.bind_eq_some_iff.mp ran
    obtain ⟨fed_, takes_⟩ := ih ran
    obtain ⟨frames, pairs, taken, lines, written, took⟩ := step_lines step_
    refine ⟨?_, ?_⟩
    · rw [fed, List.filterMap_append, ← fed, ← fed, written, fed_, List.append_assoc, lines, taken,
        List.map_append, List.append_assoc]
    · rw [takes, List.filterMap_append, ← takes, ← takes, took, takes_, taken, List.map_append]

theorem zip_taken (pairs : List (Nat × Frame)) (rest : List Frame) :
    (pairs.map Prod.fst).zip (pairs.map Prod.snd ++ rest) = pairs := by
  induction pairs with
  | nil => rfl
  | cons p pairs ih => simp [ih]

/-- In every run the calls return their own results exactly if they take their lines in the order
in which the server writes them. -/
theorem ownResults_iff (events : List Event) (c : Client) (ran : run events = some c) :
    c.OwnResults ↔ InOrder events := by
  obtain ⟨fed_, takes_⟩ := run_piped ran
  rw [InOrder, fed_, takes_, zip_taken]
  exact Iff.rfl

theorem ownResults_one : Client.OwnResults { requestId := 1, taken := [(1, .result 1 "A")] } :=
  (ownResults_iff [.request, .wait 1, .feed (.result 1 "A"), .take 1] _ rfl).mpr (by
    intro p mem body _
    rw [List.mem_singleton.mp mem]
    rfl)

/-- The answer to a call that timed out is the result of the next one. -/
theorem late_answer_taken : ¬∀ (events : List Event) (c : Client), serves 0 [] events = true →
    run events = some c → c.OwnResults := by
  intro own
  have wrong := own [.request, .wait 1, .fail 1, .request, .feed (.result 1 "A"), .take 2] _ rfl rfl
    (2, .result 1 "A") (List.mem_singleton_self _) "A" rfl
  cases wrong

end AgentStudio.Tools.Stdio

import AgentStudio.Access.Keys

/-!
# Operators who sign on

A login takes three requests that share nothing but a state and a code. Over every interleaving
of any number of them, each session row is the end of a login of its own: one authorization, one
callback that found its state, one exchange that found its code, each the first to do so.

* `Login.unique`: two logins that began at one place end at one place.
* `sessions_agree`: the logins behind the session rows, all from different beginnings.
-/

namespace AgentStudio.Access

open Async

/-- The places of the calls of a login in the history, and what they pass on. -/
structure Flow where
  opened : ℕ
  returned : ℕ
  granted : ℕ
  redeemed : ℕ
  signed : ℕ
  state : String
  code : String
  stateEntry : StateEntry
  codeEntry : CodeEntry

section
variable (oidc : Oidc) (settings : Settings)

/-- A login, from the state that `/auth/oidc/authorize` stores to the row of the session. -/
structure Login (h : Calls.History) (f : Flow) (row : OperatorSession) : Prop where
  /-- The state is stored with its nonce, and has ten minutes. -/
  opens : ∃ e, h[f.opened]? = some e ∧ e.call = .oidcAuthorize ∧
    e.op = .setState f.state f.stateEntry ∧
      Answered (History.own (h.take f.opened) e.number) .token f.stateEntry.nonce ∧
        ∃ now : Time, Answered (History.own (h.take f.opened) e.number) .now now ∧
          f.stateEntry.expiresAt = now + seconds stateTtlSeconds
  /-- One callback takes the state, the first after it was stored, and stores the code. -/
  grants : ∃ e e', h[f.returned]? = some e ∧ h[f.granted]? = some e' ∧ f.returned < f.granted ∧
    e.number = e'.number ∧ e.event = ⟨.popState f.state, .ok (some f.stateEntry)⟩ ∧
      e'.op = .setCode f.code f.codeEntry ∧
        done (History.own (h.take f.granted) e'.number) = [.popState f.state] ∧
          Identified oidc settings f.stateEntry f.codeEntry (History.own (h.take f.granted) e'.number)
  returnsOnce : f.opened < f.returned ∧ ∀ i e, f.opened < i → i < f.returned → h[i]? = some e →
    e.op ≠ .popState f.state
  /-- One exchange takes the code, the first after it was stored, while it is fresh. -/
  signs : ∃ e e', h[f.redeemed]? = some e ∧ h[f.signed]? = some e' ∧ f.redeemed < f.signed ∧
    e.number = e'.number ∧ e.event = ⟨.popCode f.code, .ok (some f.codeEntry)⟩ ∧
      (∃ session, e'.op = .createSession session) ∧
        done (History.own (h.take f.signed) e'.number) = [.popCode f.code] ∧
          ∃ now : Time, Answered (History.own (h.take f.signed) e'.number) .now now ∧
            now ≤ f.codeEntry.expiresAt
  redeemsOnce : f.granted < f.redeemed ∧ ∀ i e, f.granted < i → i < f.redeemed → h[i]? = some e →
    e.op ≠ .popCode f.code
  row : row.role = f.codeEntry.role ∧ row.tenantId = none ∧ row.idpSub = some f.codeEntry.sub

end

variable {oidc : Oidc} {settings : Settings} {h : Calls.History} {f f' : Flow}
  {row row' : OperatorSession}

/-! ## A login has one end -/

theorem mem_done {t : Answers} {ev : Event Calls Raised} (mem : ev ∈ t) (acts : ev.op.acts = true) :
    ev.op ∈ done t :=
  List.mem_map.mpr ⟨ev, List.mem_filter.mpr ⟨mem, acts⟩, rfl⟩

/-- Whoever is the first after a place is one. -/
theorem first_after {a p p' : ℕ} {op : Op} {e e' : Stamp Request Calls Raised}
    (there : h[p]? = some e) (there' : h[p']? = some e') (is : e.op = op) (is' : e'.op = op)
    (first : a < p ∧ ∀ i e, a < i → i < p → h[i]? = some e → e.op ≠ op)
    (first' : a < p' ∧ ∀ i e, a < i → i < p' → h[i]? = some e → e.op ≠ op) : p = p' := by
  rcases Nat.lt_trichotomy p p' with before | same | after
  · exact absurd is (first'.2 p e first.1 before there)
  · exact same
  · exact absurd is' (first.2 p' e' first'.1 after there')

/-- A request that has done one thing is at one place when it does the next. -/
theorem next_done (op : Op) {p p' : ℕ} {e e' : Stamp Request Calls Raised}
    (there : h[p]? = some e) (there' : h[p']? = some e') (number : e.number = e'.number)
    (acts : e.op.acts = true) (acts' : e'.op.acts = true) (other : e.op ≠ op) (other' : e'.op ≠ op)
    (done_ : done (History.own (h.take p) e.number) = [op])
    (done' : done (History.own (h.take p') e'.number) = [op]) : p = p' := by
  rcases Nat.lt_trichotomy p p' with before | same | after
  · have mem := mem_done (mem_own_at there before) acts
    rw [number, done'] at mem
    exact absurd (List.mem_singleton.mp mem) other
  · exact same
  · have mem := mem_done (mem_own_at there' after) acts'
    rw [← number, done_] at mem
    exact absurd (List.mem_singleton.mp mem) other'

theorem Login.unique (login : Login oidc settings h f row) (login' : Login oidc settings h f' row')
    (same : f.opened = f'.opened) : f.signed = f'.signed := by
  obtain ⟨a, atA, -, opA, -⟩ := login.opens
  obtain ⟨a', atA', -, opA', -⟩ := login'.opens
  obtain ⟨b, c, atB, atC, -, numberC, popped, opC, doneC, -⟩ := login.grants
  obtain ⟨b', c', atB', atC', -, numberC', popped', opC', doneC', -⟩ := login'.grants
  obtain ⟨d, x, atD, atX, -, numberX, taken, ⟨session, opX⟩, doneX, -⟩ := login.signs
  obtain ⟨d', x', atD', atX', -, numberX', taken', ⟨session', opX'⟩, doneX', -⟩ := login'.signs
  have once := login.returnsOnce
  have once' := login'.returnsOnce
  have onceMore := login.redeemsOnce
  have onceMore' := login'.redeemsOnce
  -- the state that was stored
  obtain rfl : a = a' := Option.some.inj (atA.symm.trans (same ▸ atA'))
  obtain ⟨state, -⟩ := Op.setState.inj (opA.symm.trans opA')
  rw [← state] at popped' doneC' once'
  rw [← same] at once'
  -- the first to take it, and the code that its request stored
  have opB : b.op = .popState f.state := congrArg Event.op popped
  have opB' : b'.op = .popState f.state := congrArg Event.op popped'
  have returned := first_after atB atB' opB opB' once once'
  obtain rfl : b = b' := Option.some.inj (atB.symm.trans (returned ▸ atB'))
  have granted : f.granted = f'.granted := by
    refine next_done (.popState f.state) atC atC' (numberC.symm.trans numberC') ?_ ?_ ?_ ?_
      doneC doneC' <;> simp [opC, opC', Op.acts]
  obtain rfl : c = c' := Option.some.inj (atC.symm.trans (granted ▸ atC'))
  obtain ⟨code, -⟩ := Op.setCode.inj (opC.symm.trans opC')
  rw [← code] at taken' doneX' onceMore'
  rw [← granted] at onceMore'
  -- the first to take that, and the session of its request
  have opD : d.op = .popCode f.code := congrArg Event.op taken
  have opD' : d'.op = .popCode f.code := congrArg Event.op taken'
  have redeemed := first_after atD atD' opD opD' onceMore onceMore'
  obtain rfl : d = d' := Option.some.inj (atD.symm.trans (redeemed ▸ atD'))
  refine next_done (.popCode f.code) atX atX' (numberX.symm.trans numberX') ?_ ?_ ?_ ?_
    doneX doneX' <;> simp [opX, opX', Op.acts]

/-! ## Every session has a login -/

/-- What was appended changes no login. -/
theorem Login.append (login : Login oidc settings h f row) (more : Calls.History) :
    Login oidc settings (h ++ more) f row := by
  obtain ⟨a, atA, callA, opA, nonce, fresh⟩ := login.opens
  obtain ⟨b, c, atB, atC, before, number, popped, opC, doneC, identified⟩ := login.grants
  obtain ⟨d, x, atD, atX, before', number', taken, opX, doneX, within⟩ := login.signs
  obtain ⟨takeA, thereA⟩ := take_append_at atA more
  obtain ⟨-, thereB⟩ := take_append_at atB more
  obtain ⟨takeC, thereC⟩ := take_append_at atC more
  obtain ⟨-, thereD⟩ := take_append_at atD more
  obtain ⟨takeX, thereX⟩ := take_append_at atX more
  have earlier {i p : ℕ} {e e' : Stamp Request Calls Raised} (before : i < p) (there : h[p]? = some e')
      (there' : (h ++ more)[i]? = some e) : h[i]? = some e := by
    have bound := (List.getElem?_eq_some_iff.mp there).1
    rwa [List.getElem?_append_left (before.trans bound)] at there'
  refine ⟨⟨a, thereA, callA, opA, takeA ▸ nonce, takeA ▸ fresh⟩,
    ⟨b, c, thereB, thereC, before, number, popped, opC, takeC ▸ doneC, takeC ▸ identified⟩,
    ⟨login.returnsOnce.1, fun i e after before there => ?_⟩,
    ⟨d, x, thereD, thereX, before', number', taken, opX, takeX ▸ doneX, takeX ▸ within⟩,
    ⟨login.redeemsOnce.1, fun i e after before there => ?_⟩, login.row⟩
  · exact login.returnsOnce.2 i e after before (earlier before atB there)
  · exact login.redeemsOnce.2 i e after before (earlier before atD there)

variable {begun q : World}

/-- The run up to a place. -/
theorem before_at (run : Runs oidc settings begun h q) {i : ℕ} {e : Stamp Request Calls Raised}
    (there : h[i]? = some e) : ∃ p s', Runs oidc settings begun (h.take i) p ∧
      Replies oidc settings e.number e.call e.op p.store e.reply s' := run.before (cut_at there)

theorem licensed_at (begins : Begins begun) (run : Runs oidc settings begun h q) {i : ℕ}
    {e : Stamp Request Calls Raised} (there : h[i]? = some e) :
    Licensed oidc settings e.call (History.own (h.take i) e.number) e.op :=
  run.judged routes_licensed begins.tasks (cut_at there)

/-- A place before a place. -/
theorem take_at {i j : ℕ} {e : Stamp Request Calls Raised} (there : (h.take i)[j]? = some e) :
    j < i ∧ h[j]? = some e := by
  rwa [List.getElem?_take, Option.ite_none_right_eq_some] at there

/-- A state that was found had been stored, and nobody had taken it since. -/
theorem state_stored (begins : Begins begun) (run : Runs oidc settings begun h q) {p : ℕ}
    {e : Stamp Request Calls Raised} {state : String} {opened : StateEntry} (there : h[p]? = some e)
    (popped : e.event = ⟨.popState state, .ok (some opened)⟩) :
    ∃ a e', h[a]? = some e' ∧ e'.op = .setState state opened ∧ a < p ∧
      ∀ i e, a < i → i < p → h[i]? = some e → e.op ≠ .popState state := by
  obtain ⟨before, s', run', reply⟩ := before_at run there
  obtain ⟨number, call, op, r⟩ := e
  cases popped
  have found : before.store.states.get? state = some opened := (Except.ok.inj reply.2).symm
  obtain ⟨a, e', stored, puts, since⟩ := run'.found (fun s => s.states.get? state)
    (fun e opened => e.op = Op.setState state opened) (fun e => e.op = Op.popState state)
    (by rw [begins.states]; rfl) (fun s s' opened moved is => by obtain ⟨_, rfl⟩ := moved; exact is)
    (fun e s s' opened reply is => (replies_moved reply).states is) found
  obtain ⟨earlier, stored⟩ := take_at stored
  refine ⟨a, e', stored, puts, earlier, fun i e after before there => since i e after ?_⟩
  rwa [List.getElem?_take_of_lt before]

/-- And so had a code. -/
theorem code_stored (begins : Begins begun) (run : Runs oidc settings begun h q) {p : ℕ}
    {e : Stamp Request Calls Raised} {code : String} {entry : CodeEntry} (there : h[p]? = some e)
    (popped : e.event = ⟨.popCode code, .ok (some entry)⟩) :
    ∃ a e', h[a]? = some e' ∧ e'.op = .setCode code entry ∧ a < p ∧
      ∀ i e, a < i → i < p → h[i]? = some e → e.op ≠ .popCode code := by
  obtain ⟨before, s', run', reply⟩ := before_at run there
  obtain ⟨number, call, op, r⟩ := e
  cases popped
  have found : before.store.codes.get? code = some entry := (Except.ok.inj reply.2).symm
  obtain ⟨a, e', stored, puts, since⟩ := run'.found (fun s => s.codes.get? code)
    (fun e entry => e.op = Op.setCode code entry) (fun e => e.op = Op.popCode code)
    (by rw [begins.codes]; rfl) (fun s s' opened moved is => by obtain ⟨_, rfl⟩ := moved; exact is)
    (fun e s s' opened reply is => (replies_moved reply).codes is) found
  obtain ⟨earlier, stored⟩ := take_at stored
  refine ⟨a, e', stored, puts, earlier, fun i e after before there => since i e after ?_⟩
  rwa [List.getElem?_take_of_lt before]

/-- The login that a session is the end of. -/
theorem session_login (begins : Begins begun) (run : Runs oidc settings begun h q) {x : ℕ}
    {e : Stamp Request Calls Raised} {session : NewSession} (there : h[x]? = some e)
    (op : e.op = .createSession session) (id tokenHash : String) (expiresAt : Time) :
    ∃ f, f.signed = x ∧ Login oidc settings h f (session.row id tokenHash expiresAt) := by
  have licensed := licensed_at begins run there
  rw [op] at licensed
  obtain ⟨code, entry, now, -, doneX, taken, clock, fresh, rfl⟩ := licensed
  obtain ⟨d, eD, beforeX, atD, numberD, event⟩ := own_at taken
  obtain ⟨c, eC, atC, opC, beforeD, sinceC⟩ := code_stored begins run atD event
  have granted := licensed_at begins run atC
  rw [opC] at granted
  obtain ⟨given, state, error, -, doneC, opened, popped, identified⟩ := granted
  obtain ⟨b, eB, beforeC, atB, numberB, event'⟩ := own_at popped
  obtain ⟨a, eA, atA, opA, beforeB, sinceA⟩ := state_stored begins run atB event'
  have began := licensed_at begins run atA
  rw [opA] at began
  obtain ⟨call, -, nonce, began, clock', is⟩ := began
  have unbound : entry.tenantId = none := by
    obtain ⟨_, _, _, _, -, -, -, -, -, none_, -⟩ := identified
    exact none_
  exact ⟨⟨a, b, c, d, x, state.getD "", code, opened, entry⟩, rfl, {
    opens := ⟨eA, atA, call, opA, nonce, began, clock', is⟩
    grants := ⟨eB, eC, atB, atC, beforeC, numberB, event', opC, doneC, identified⟩
    returnsOnce := ⟨beforeB, sinceA⟩
    signs := ⟨eD, e, atD, there, beforeX, numberD, event, ⟨_, op⟩, doneX, now, clock, fresh⟩
    redeemsOnce := ⟨beforeD, sinceC⟩
    row := ⟨rfl, unbound, rfl⟩ }⟩

/-- Each session row is the end of a login, and no two are of logins that began at one place. -/
theorem sessions_agree (begins : Begins begun) (run : Runs oidc settings begun h q) :
    ∃ flows : List Flow, (flows.map (·.opened)).Nodup ∧
      List.Forall₂ (fun row f => Login oidc settings h f row) q.store.sessions flows := by
  induction run with
  | init => exact ⟨[], List.nodup_nil, by rw [begins.sessions]; exact .nil⟩
  | env _ store moved ih =>
    obtain ⟨tenantId, rfl⟩ := moved
    exact ih
  | start _ call ih => exact ih
  | answer run i call trace op k here r store reply ih =>
    rename_i h' p
    obtain ⟨flows, nodup, logins⟩ := ih
    have later : List.Forall₂ (fun row f => Login oidc settings (h' ++ [⟨i, call, op, r⟩]) f row)
        p.store.sessions flows := logins.imp fun _ _ login => login.append _
    rcases (replies_moved reply).sessions with same | ⟨session, id, token, expiresAt, is, sessions⟩
    · exact ⟨flows, nodup, by rw [Pool.resume, same]; exact later⟩
    · have run' := run.answer i call trace op k here r store reply
      obtain ⟨f, signed, login⟩ := session_login begins run' (at_cut h' [] ⟨i, call, op, r⟩) is id
        (oidc.sha256 token) expiresAt
      refine ⟨flows ++ [f], ?_, ?_⟩
      · rw [List.map_append, List.nodup_append']
        refine ⟨nodup, List.nodup_singleton _, fun a mem mine => ?_⟩
        -- a login that began here too would have to end with this very call
        obtain ⟨f', mem', is⟩ := List.mem_map.mp mem
        obtain ⟨n, there⟩ := List.getElem?_of_mem mem'
        obtain ⟨bound, rfl⟩ := List.getElem?_eq_some_iff.mp there
        have login' := (List.forall₂_iff_get.mp logins).2 n (by rwa [logins.length_eq]) bound
        obtain ⟨-, e, -, atX, -⟩ := login'.signs
        have bound := (List.getElem?_eq_some_iff.mp atX).1
        have same := (login'.append _).unique login (is.trans (List.mem_singleton.mp mine))
        omega
      · rw [Pool.resume, sessions]
        exact List.rel_append later (.cons login .nil)

theorem sessions_agree_operator : dayEnded.store.sessions ≠ [] ∧ ∃ flows : List Flow, (flows.map (·.opened)).Nodup ∧
    List.Forall₂ (fun row f => Login plainOidc plainSettings dayNotes f row) dayEnded.store.sessions flows :=
  ⟨by decide +kernel, sessions_agree day_begins day_runs⟩

end AgentStudio.Access

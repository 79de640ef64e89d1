import AgentStudio.Api.Reconnect
import AgentStudio.Widget.Attempts
import AgentStudio.Widget.Wire

/-!
# What a retraction leaves on the screen

The route and the widget together: attempts of one stream, each answered by the route, the answer
arriving in any reads and up to any place. The route names the last delta that passed the
moderation, and the widget drops what it has from that one on.
-/

namespace AgentStudio.Widget
open Api (Message Answer Turn passed sent)
open Async (Trace)

/-! ## The screen -/

/-- What a callback of the page does to the text of the reply. -/
def display (text : String) : Event → String
  | .onDelta delta => text ++ delta
  | .onRedaction text => text
  | .onComplete payload => if payload.response = "" then text else payload.response
  | _ => text

/-- The text of the reply. -/
def displayed (log : List Event) : String := log.foldl display ""

theorem displayed_tell (s : Stream) (e : Event) :
    displayed (s.tell e).log = display (displayed s.log) e := by
  simp [displayed, Stream.tell]

/-! ## The attempts -/

/-- What is in the payload of a message, of what the widget keeps of it. -/
def Conveys (m : Message) (p : Payload) : Prop :=
  match m with
  | .live (.delta content ..) | .replay _ (.delta content) => p.content = some content
  | .live (.retraction _ retractFrom) => p.retractFromEventId = retractFrom.map fun id : ℕ => (id : ℤ)
  | _ => True

/-- A message as it is written; `JSON.parse` reads what `json.dumps` wrote. -/
structure Carries (json : String → Option Payload) (m : Message) (packet : Packet) : Prop where
  event : packet.event = m.event
  eventId : packet.eventId = m.eventId
  reads : ∃ p, json packet.data = some p ∧ Conveys m p

/-- A connection on which messages come: all of them, or what comes before it drops. -/
inductive Arrives (json : String → Option Payload) (messages : List Message) : Connection → Prop
  | whole {packets : List Packet} (carries : List.Forall₂ (Carries json) messages packets)
      {chunks : List Text} (text : chunks.flatten = packets.flatMap Packet.text) :
      Arrives json messages (.opened chunks none)
  | dropped {packets : List Packet} (carries : List.Forall₂ (Carries json) messages packets)
      {chunks : List Text} (text : chunks.flatten <+: packets.flatMap Packet.text)
      (message : String) : Arrives json messages (.opened chunks (some message))

/-- What may come of an attempt that sends `raw` as its `Last-Event-ID`. -/
inductive Exchange (json : String → Option Payload) (raw : String) : Connection → Prop
  | failed (message : String) : Exchange json raw (.failed message)
  | refused (status : ℤ) (detail : Option String) : Exchange json raw (.refused status detail)
  | noBody : Exchange json raw .noBody
  | answered {messages : List Message} (answer : Answer raw messages) {c : Connection}
      (arrives : Arrives json messages c) : Exchange json raw c

/-- The attempts of a stream, each answered by the route. -/
inductive Talk (json : String → Option Payload) : List Connection → Stream → Bool → Prop
  | start : Talk json [] {} true
  | attempt {conns : List Connection} {s : Stream} (talk : Talk json conns s true) {c : Connection}
      (exchange : Exchange json s.lastEventId c) :
      Talk json (conns ++ [c]) (connect json s c).1 (connect json s c).2

variable {json : String → Option Payload} {s : Stream} {m : Message} {packet : Packet}

theorem Talk.run {conns : List Connection} {again : Bool} (h : Talk json conns s again) :
    Run json conns s again := by
  induction h with
  | start => exact .start
  | attempt _ exchange ih => exact ih.attempt _

/-! ## One message -/

theorem handleFrame_packet (s : Stream) (h : Carries json m packet) : ∃ p, Conveys m p ∧
    handleFrame json s packet.frame =
      dispatch (Stream.tell
          { s with lastEventId := (m.eventId.map toString).getD s.lastEventId } .frame)
        ((m.eventId.map toString).getD "") m.event p := by
  obtain ⟨p, read, content⟩ := h.reads
  refine ⟨p, content, ?_⟩
  have text : "\n".intercalate [packet.data] = packet.data := by simp
  have object : packet.data ≠ "[DONE]" := by
    intro is
    obtain ⟨inner, braces⟩ := packet.object.braces
    rw [is] at braces
    cases braces
  unfold handleFrame Packet.frame
  dsimp only
  rw [if_neg (List.cons_ne_nil _ _), text, if_neg object, read, h.event, h.eventId]

theorem handleDelta_lastEventId (s : Stream) (id : String) (p : Payload) :
    (handleDelta s id p).lastEventId = s.lastEventId := by
  unfold handleDelta
  split
  · rfl
  · split <;> rfl

theorem dispatch_lastEventId (s : Stream) (id event : String) (p : Payload) :
    (dispatch s id event p).lastEventId = s.lastEventId := by
  unfold dispatch
  dsimp only
  split_ifs
  · rfl
  · exact handleDelta_lastEventId s id p
  · rfl
  · rfl
  · rfl
  · rfl

theorem dispatch_closed (s : Stream) (id event : String) (p : Payload) (closed : s.closed = true) :
    (dispatch s id event p).closed = true := by
  rw [(dispatch_told s id event p).closed, closed, Bool.true_or]

/-- The screen shows the deltas `ds`. -/
structure Shows (s : Stream) (ds : List (ℕ × String)) : Prop where
  released : s.releasedDeltas =
    (ds.filter fun d => d.2 ≠ "").map fun d => (toString d.1, d.2)
  full : s.fullResponse = String.join (ds.map Prod.snd)
  shown : displayed s.log = s.fullResponse
  open_ : s.closed = false

theorem Shows.tell {ds : List (ℕ × String)} (h : Shows s ds) {e : Event}
    (quiet : ∀ text, display text e = text) : Shows (s.tell e) ds :=
  ⟨h.released, h.full, by rw [displayed_tell, quiet, h.shown]; rfl, h.open_⟩

/-- No id has come, and nothing is on the screen. -/
structure Fresh (s : Stream) : Prop where
  noId : s.lastEventId = ""
  shows : Shows s []

/-- An id has come. -/
def Acked (s : Stream) : Prop := 0 < Api.lastEventId s.lastEventId

theorem Acked.not_fresh (h : Acked s) : ¬Api.lastEventId s.lastEventId ≤ 0 := not_le.mpr h

theorem toString_ne_empty (n : ℕ) : toString n ≠ "" := by
  intro empty
  have some_ := Api.toString_ne_nil n
  rw [empty] at some_
  exact some_ rfl

/-- A retraction of nothing. -/
theorem Shows.retract_nil (h : Shows s []) (p : Payload) : Shows (handleRetraction s p) [] := by
  have none_ : s.releasedDeltas = [] := h.released
  refine ⟨?_, ?_, ?_, h.open_⟩
  · simp [handleRetraction, Stream.tell, none_]
  · simp [handleRetraction, Stream.tell, none_]
  · simp [handleRetraction, displayed_tell, display, none_]
    rfl

theorem Shows.session {ds : List (ℕ × String)} (h : Shows s ds) (id : String) (p : Payload) :
    Shows (dispatch s id "session" p) ds := by
  rw [dispatch, if_pos rfl]
  refine Shows.tell ?_ fun _ => rfl
  exact ⟨h.released, h.full, h.shown, h.open_⟩

theorem dispatch_other (s : Stream) (id : String) {event : String} (p : Payload)
    (other : event ∉ ["session", "delta", "retraction", "result", "error"]) :
    dispatch s id event p = s := by
  simp only [List.mem_cons, List.not_mem_nil, or_false, not_or] at other
  obtain ⟨h₁, h₂, h₃, h₄, h₅⟩ := other
  rw [dispatch, if_neg h₁, if_neg h₂, if_neg h₃, if_neg h₄, if_neg h₅]

/-- A message leaves a stream without an id fresh, brings an id, or closes the stream. -/
theorem kept_step (h : Fresh s ∨ Acked s ∨ s.closed = true) (carries : Carries json m packet)
    (drawn : ∀ id, m.eventId = some id → 0 < id) :
    Fresh (handleFrame json s packet.frame) ∨ Acked (handleFrame json s packet.frame) ∨
      (handleFrame json s packet.frame).closed = true := by
  obtain ⟨p, conveys, handled⟩ := handleFrame_packet s carries
  rw [handled]
  cases known : m.eventId with
  | some id =>
    refine .inr (.inl ?_)
    rw [Acked, dispatch_lastEventId]
    change 0 < Api.lastEventId (toString id)
    rw [Api.lastEventId_toString]
    exact_mod_cast drawn id known
  | none =>
    rcases h with fresh | acked | closed
    · have told : Shows (Stream.tell { s with lastEventId := s.lastEventId } .frame) [] :=
        fresh.shows.tell fun _ => rfl
      have same (s' : Stream) (is : s' = dispatch
          (Stream.tell { s with lastEventId := s.lastEventId } .frame) "" m.event p)
          (shows : Shows s' []) : Fresh s' := by
        refine ⟨?_, shows⟩
        rw [is, dispatch_lastEventId]
        exact fresh.noId
      cases m with
      | session sessionId threadId => exact .inl (same _ rfl (told.session _ p))
      | notice kind =>
        refine .inl (same _ rfl ?_)
        rw [Option.map_none, Option.getD_none, dispatch_other _ _ _ (by cases kind <;> decide)]
        exact told
      | live frame =>
        cases frame with
        | delta => cases known
        | redaction violations =>
          refine .inl (same _ rfl ?_)
          rw [Option.map_none, Option.getD_none, dispatch_other _ _ _ (by
            change "redaction" ∉ _
            decide)]
          exact told
        | retraction violations retractFrom => exact .inl (same _ rfl (told.retract_nil p))
        | error text => exact .inr (.inr rfl)
        | result response handoffRequired => exact .inr (.inr rfl)
      | replay id stored => cases known
    · refine .inr (.inl ?_)
      rw [Acked, dispatch_lastEventId]
      exact acked
    · exact .inr (.inr (dispatch_closed _ _ _ _ closed))

theorem kept_steps {messages : List Message} {packets : List Packet}
    (carries : List.Forall₂ (Carries json) messages packets)
    (drawn : ∀ m ∈ messages, ∀ id, m.eventId = some id → 0 < id)
    (h : Fresh s ∨ Acked s ∨ s.closed = true) :
    Fresh ((packets.map Packet.frame).foldl (handleFrame json) s) ∨
      Acked ((packets.map Packet.frame).foldl (handleFrame json) s) ∨
      ((packets.map Packet.frame).foldl (handleFrame json) s).closed = true := by
  induction carries generalizing s with
  | nil => exact h
  | cons first _ ih =>
    rw [List.map_cons, List.foldl_cons]
    exact ih (fun m mem => drawn m (List.mem_cons_of_mem _ mem))
      (kept_step h first (drawn _ List.mem_cons_self))

/-! ## One attempt -/

/-- What is read of an answer: the first messages, and all of them where it ends cleanly. -/
theorem Arrives.received {messages : List Message} {chunks : List Text} {dropped : Option String}
    (h : Arrives json messages (.opened chunks dropped)) :
    ∃ first packets, first <+: messages ∧ List.Forall₂ (Carries json) first packets ∧
      (readChunks [] chunks).1 = packets.map Packet.frame ∧
      (dropped = none → (readChunks [] chunks).2 = []) := by
  cases h with
  | whole carries text =>
    exact ⟨messages, _, List.prefix_refl _, carries, by rw [readChunks_whole text],
      fun _ => by rw [readChunks_whole text]⟩
  | @dropped packets carries _ text message =>
    have some_ := readChunks_prefix text
    rw [List.prefix_iff_eq_take, ← List.map_take] at some_
    exact ⟨_, _, List.take_prefix _ messages, List.forall₂_take _ carries, some_, nofun⟩

/-- The stream when a connection is open. -/
def Stream.reading (s : Stream) : Stream :=
  let s := s.tell (.onStateChange (if 0 < s.reconnectAttempts then .reconnecting else .connecting))
  let s := s.tell (.attempt s.lastEventId)
  Stream.tell { s with reconnectAttempts := 0 } (.onStateChange .streaming)

theorem connect_opened (open_ : s.closed = false) (chunks : List Text) (dropped : Option String)
    (blank : dropped = none → (readChunks [] chunks).2 = []) :
    connect json s (.opened chunks dropped) =
      match dropped with
      | some message => handleReconnect
          ((readChunks [] chunks).1.foldl (handleFrame json) s.reading) ⟨0, message, true, false⟩
      | none => (finish ((readChunks [] chunks).1.foldl (handleFrame json) s.reading), false) := by
  unfold connect
  rw [if_neg (by rw [open_]; exact Bool.false_ne_true)]
  dsimp only
  rw [readLoop_eq]
  cases dropped with
  | some message => rfl
  | none =>
    dsimp only
    rw [blank rfl]
    rfl

theorem Shows.reading {ds : List (ℕ × String)} (h : Shows s ds) : Shows s.reading ds := by
  refine Shows.tell ?_ fun _ => rfl
  have told := (h.tell (e := .onStateChange (if 0 < s.reconnectAttempts then .reconnecting
    else .connecting)) fun _ => rfl).tell (e := .attempt s.lastEventId) fun _ => rfl
  exact ⟨told.released, told.full, told.shown, told.open_⟩

/-- Where a stream goes on, it was not closed, and nothing was told the page. -/
theorem handleReconnect_on {error : SSEError} (again : (handleReconnect s error).2 = true) :
    s.closed = false ∧ (handleReconnect s error).1 = Stream.tell
      { s with reconnectAttempts := s.reconnectAttempts + 1 } (.onStateChange .reconnecting) := by
  unfold handleReconnect at again ⊢
  cases closed : s.closed with
  | true =>
    rw [closed, if_pos rfl] at again
    cases again
  | false =>
    rw [closed, if_neg Bool.false_ne_true] at again
    dsimp only at again ⊢
    rw [if_neg Bool.false_ne_true]
    by_cases many : maxReconnectAttempts < s.reconnectAttempts + 1
    · rw [if_pos many] at again
      cases again
    · rw [if_neg many]
      exact ⟨rfl, rfl⟩

/-- Between two attempts: no id has come and nothing is on the screen, or an id has come. -/
def Between (s : Stream) : Prop := (Fresh s ∨ Acked s) ∧ s.closed = false

theorem Between.reconnect {error : SSEError} (h : Fresh s ∨ Acked s ∨ s.closed = true)
    (again : (handleReconnect s error).2 = true) : Between (handleReconnect s error).1 := by
  obtain ⟨open_, is⟩ := handleReconnect_on again
  rw [is]
  refine ⟨?_, open_⟩
  rcases h with fresh | acked | closed
  · refine .inl ⟨fresh.noId, Shows.tell ?_ fun _ => rfl⟩
    exact ⟨fresh.shows.released, fresh.shows.full, fresh.shows.shown, fresh.shows.open_⟩
  · exact .inr acked
  · rw [open_] at closed
    cases closed

theorem Between.reading (h : Between s) :
    Fresh s.reading ∨ Acked s.reading ∨ s.reading.closed = true := by
  rcases h.1 with fresh | acked
  · exact .inl ⟨fresh.noId, fresh.shows.reading⟩
  · exact .inr (.inl acked)

theorem Exchange.between {c : Connection} (h : Between s) (exchange : Exchange json s.lastEventId c)
    (again : (connect json s c).2 = true) : Between (connect json s c).1 := by
  have started (s₁ : Stream) (is : s₁ = (s.tell (.onStateChange
      (if 0 < s.reconnectAttempts then .reconnecting else .connecting))).tell
        (.attempt s.lastEventId)) : Fresh s₁ ∨ Acked s₁ ∨ s₁.closed = true := by
    rcases h.1 with fresh | acked
    · refine .inl ⟨?_, ?_⟩
      · rw [is]
        exact fresh.noId
      · rw [is]
        exact (fresh.shows.tell fun _ => rfl).tell fun _ => rfl
    · refine .inr (.inl ?_)
      rw [is]
      exact acked
  have open_ : ¬s.closed = true := by simp [h.2]
  cases exchange with
  | failed message =>
    unfold connect at again ⊢
    rw [if_neg open_] at again ⊢
    exact Between.reconnect (started _ rfl) again
  | refused status detail =>
    unfold connect at again ⊢
    rw [if_neg open_] at again ⊢
    dsimp only at again ⊢
    unfold handleRefused at again ⊢
    dsimp only at again ⊢
    split at again
    · rename_i retryable
      rw [if_pos retryable]
      exact Between.reconnect (started _ rfl) again
    · cases again
  | noBody =>
    unfold connect at again
    rw [if_neg open_] at again
    cases again
  | @answered messages answer c arrives =>
    have opens : ∃ chunks dropped, c = .opened chunks dropped := by
      cases arrives with
      | whole => exact ⟨_, _, rfl⟩
      | dropped => exact ⟨_, _, rfl⟩
    obtain ⟨chunks, dropped, rfl⟩ := opens
    obtain ⟨first, packets, pre, carries, read, blank⟩ := arrives.received
    rw [connect_opened h.2 chunks dropped blank] at again ⊢
    cases dropped with
    | none => cases again
    | some message =>
      refine Between.reconnect ?_ again
      rw [read]
      exact kept_steps carries (fun m mem => answer.drawn m (pre.subset mem)) h.reading

theorem Talk.between {conns : List Connection} {again : Bool} (h : Talk json conns s again) :
    again = true → Between s := by
  induction h with
  | start => exact fun _ => ⟨.inl ⟨rfl, rfl, rfl, rfl, rfl⟩, rfl⟩
  | attempt _ exchange ih => exact fun again => exchange.between (ih rfl) again

/-! ## A turn up to its retraction -/

/-- The id and the text of a delta that was not replayed. -/
def delta? (m : Message) : Option (ℕ × String) := m.frame?.bind Api.Frame.delta?

/-- A message that may come before the retraction of a turn. -/
def Leads : Message → Bool
  | .session .. | .notice _ | .live (.delta ..) | .live (.redaction _) => true
  | _ => false

theorem handleDelta_shows {ds : List (ℕ × String)} (h : Shows s ds) (id : ℕ) {p : Payload}
    {content : String} (conveys : p.content = some content) :
    Shows (handleDelta s (toString id) p) (ds ++ [(id, content)]) := by
  have joined : String.join ((ds ++ [(id, content)]).map Prod.snd) = s.fullResponse ++ content := by
    rw [h.full, List.map_append, String.join_append]
    simp
  unfold handleDelta
  rw [conveys]
  dsimp only
  by_cases empty : content = ""
  · rw [if_pos empty]
    refine ⟨?_, ?_, h.shown, h.open_⟩
    · rw [h.released, List.filter_append]
      simp [empty]
    · rw [joined, empty, String.append_empty]
  · rw [if_neg empty, if_neg (toString_ne_empty id)]
    refine ⟨?_, joined.symm, ?_, h.open_⟩
    · change s.releasedDeltas ++ _ = _
      rw [h.released, List.filter_append]
      simp [empty]
    · rw [displayed_tell]
      change displayed s.log ++ content = s.fullResponse ++ content
      rw [h.shown]

theorem Shows.step {ds : List (ℕ × String)} (h : Shows s ds) (carries : Carries json m packet)
    (leads : Leads m = true) :
    Shows (handleFrame json s packet.frame) (ds ++ (delta? m).toList) := by
  obtain ⟨p, conveys, handled⟩ := handleFrame_packet s carries
  rw [handled]
  have told (id : String) : Shows (Stream.tell { s with lastEventId := id } .frame) ds := by
    refine Shows.tell ?_ fun _ => rfl
    exact ⟨h.released, h.full, h.shown, h.open_⟩
  cases m with
  | session sessionId threadId =>
    rw [show (delta? (.session sessionId threadId)).toList = [] from rfl, List.append_nil]
    exact (told _).session _ p
  | notice kind =>
    rw [show (delta? (.notice kind)).toList = [] from rfl, List.append_nil,
      dispatch_other _ _ _ (by cases kind <;> decide)]
    exact told _
  | live frame =>
    cases frame with
    | delta content id window => exact handleDelta_shows (told _) id conveys
    | redaction violations =>
      rw [show (delta? (.live (.redaction violations))).toList = [] from rfl, List.append_nil,
        dispatch_other _ _ _ (by
          change "redaction" ∉ _
          decide)]
      exact told _
    | _ => cases leads
  | replay => cases leads

theorem Shows.steps {messages : List Message} {packets : List Packet}
    (carries : List.Forall₂ (Carries json) messages packets)
    (leads : ∀ m ∈ messages, Leads m = true) {ds : List (ℕ × String)} (h : Shows s ds) :
    Shows ((packets.map Packet.frame).foldl (handleFrame json) s)
      (ds ++ messages.filterMap delta?) := by
  induction carries generalizing s ds with
  | nil => simpa using h
  | @cons m packet messages packets first _ ih =>
    rw [List.map_cons, List.foldl_cons]
    have next := ih (fun m mem => leads m (List.mem_cons_of_mem _ mem))
      (h.step first (leads m List.mem_cons_self))
    rw [List.append_assoc] at next
    rw [List.filterMap_cons]
    cases known : delta? m with
    | none => simpa [known] using next
    | some d => simpa [known] using next

/-! ## The retraction -/

theorem parseInt_toString (n : ℕ) : parseInt (toString n) = some (n : ℤ) := by
  have digits : ∀ c ∈ (toString n).toList, c.isDigit = true := fun c mem => Api.toString_digit mem
  have start : trimStart (toString n).toList = (toString n).toList :=
    trimStart_eq fun c here => isSpace_digit (digits c (List.mem_of_head? here))
  have taken : (toString n).toList.takeWhile Char.isDigit = (toString n).toList :=
    List.takeWhile_eq_self_iff.mpr digits
  have value : Nat.ofDigitChars 10 (toString n).toList 0 = n := by
    rw [Api.digits_toString, Nat.ofDigitChars_ten_toDigits]
  unfold parseInt
  dsimp only
  rw [start]
  split
  · rename_i rest here
    rw [here] at digits
    exact absurd (digits '-' List.mem_cons_self) (by decide)
  · rename_i rest here
    rw [here] at digits
    exact absurd (digits '+' List.mem_cons_self) (by decide)
  · rw [taken]
    split
    · rename_i empty
      exact absurd empty (Api.toString_ne_nil n)
    · rw [value, one_mul]

theorem retracts_toString (threshold : ℤ) (id : ℕ) (text : String) :
    retracts threshold (toString id, text) = decide (threshold ≤ id) := by
  rw [retracts, parseInt_toString]

theorem filter_retracts {ds : List (ℕ × String)} {last : ℕ} (below : ∀ d ∈ ds, d.1 < last) :
    ((ds.filter fun d => d.2 ≠ "").map fun d => (toString d.1, d.2)).filter
      (fun d => !retracts last d) = (ds.filter fun d => d.2 ≠ "").map fun d => (toString d.1, d.2) := by
  refine List.filter_eq_self.mpr fun d mem => ?_
  obtain ⟨e, here, rfl⟩ := List.mem_map.mp mem
  have less := below e (List.mem_of_mem_filter here)
  rw [retracts_toString]
  simpa using less

/-- A text is what its non-empty pieces are. -/
theorem join_filter (ds : List (ℕ × String)) :
    String.join (((ds.filter fun d => d.2 ≠ "").map fun d => (toString d.1, d.2)).map Prod.snd) =
      String.join (ds.map Prod.snd) := by
  induction ds with
  | nil => rfl
  | cons d ds ih =>
    by_cases empty : d.2 = ""
    · rw [List.filter_cons_of_neg (by simpa using empty), ih]
      simp [empty]
    · rw [List.filter_cons_of_pos (by simpa using empty)]
      simp only [List.map_cons, String.join_cons]
      rw [ih]

/-- What the widget keeps after a retraction that names the last delta: the deltas before it. -/
theorem retract_shows {ds : List (ℕ × String)} (h : Shows s ds)
    (rising : (ds.map Prod.fst).Pairwise (· < ·)) {p : Payload}
    (conveys : p.retractFromEventId = (Api.lastId ds).map fun id : ℕ => (id : ℤ)) :
    Shows (handleRetraction s p) ds.dropLast := by
  rcases List.eq_nil_or_concat ds with rfl | ⟨kept, ⟨last, text⟩, rfl⟩
  · exact h.retract_nil p
  rw [List.concat_eq_append] at h rising conveys ⊢
  rw [List.dropLast_concat]
  have below : ∀ d ∈ kept, d.1 < last := by
    intro d mem
    rw [List.map_append] at rising
    exact (List.pairwise_append.mp rising).2.2 d.1 (List.mem_map_of_mem mem) last (by simp)
  have threshold : p.retractFromEventId.getD (-1) = last := by
    rw [conveys, Api.lastId, List.getLast?_concat]
    rfl
  have left_ : s.releasedDeltas.filter (fun d => !retracts last d) =
      (kept.filter fun d => d.2 ≠ "").map fun d => (toString d.1, d.2) := by
    rw [h.released, List.filter_append, List.map_append, List.filter_append, filter_retracts below]
    have dropped : (([(last, text)].filter fun d => d.2 ≠ "").map fun d => (toString d.1, d.2)).filter
        (fun d => !retracts last d) = [] := by
      refine List.filter_eq_nil_iff.mpr fun d mem => ?_
      obtain ⟨e, here, rfl⟩ := List.mem_map.mp mem
      rw [List.mem_singleton.mp (List.mem_of_mem_filter here), retracts_toString]
      simp
    rw [dropped, List.append_nil]
  have full : (handleRetraction s p).fullResponse = String.join (kept.map Prod.snd) := by
    rw [← join_filter kept, ← left_, ← threshold]
    rfl
  refine ⟨?_, full, ?_, h.open_⟩
  · rw [← left_, ← threshold]
    rfl
  · unfold handleRetraction
    rw [displayed_tell]
    rfl

theorem append_last {α : Type} {before after init : List α} {x last : α} (P : α → Prop)
    (here : P x) (others : ∀ y ∈ init, ¬P y) (same : before ++ x :: after = init ++ [last]) :
    before = init ∧ x = last ∧ after = [] := by
  rcases List.eq_nil_or_concat after with rfl | ⟨more, y, rfl⟩
  · obtain ⟨rfl, is⟩ := List.append_inj' same rfl
    exact ⟨rfl, (List.cons.inj is).1, rfl⟩
  · rw [List.concat_eq_append, ← List.cons_append, ← List.append_assoc] at same
    obtain ⟨rfl, -⟩ := List.append_inj' same rfl
    exact absurd here (others x (by simp))

/-- The messages of a turn around its retraction. -/
structure Around (t : Trace Api.Calls Raised) (before : List Message) (m : Message)
    (after : List Message) : Prop where
  leads : ∀ m ∈ before, Leads m = true
  deltas : before.filterMap delta? = Api.deltas t
  retraction : ∃ violations, m = .live (.retraction violations (Api.lastId (Api.deltas t)))
  trails : ∀ m ∈ after, Leads m = true ∧ delta? m = none

theorem turn_around {t : Trace Api.Calls Raised} {before after : List Message}
    (turn : Turn t (before ++ m :: after)) (retracts : m.event = "retraction") :
    Api.Truncated t ∧ Around t before m after := by
  have own : ∀ m' ∈ before ++ m :: after, m'.isReplay = false := turn.own
  obtain ⟨violations, retractFrom, rfl⟩ : ∃ violations retractFrom,
      m = .live (.retraction violations retractFrom) := by
    cases m with
    | session => simp [Message.event] at retracts
    | notice kind => cases kind <;> simp [Message.event] at retracts
    | live frame => cases frame <;> simp [Message.event] at retracts ⊢
    | replay id stored => cases stored <;> simp [Message.event] at retracts
  have frames := turn.frames
  rw [List.filterMap_append, List.filterMap_cons] at frames
  change _ ++ .retraction violations retractFrom :: after.filterMap Message.frame? = sent t at frames
  obtain ⟨route, chunks, ending, seq, o, v, run⟩ := turn.run
  have cut : Api.Truncated t := by
    refine (Async.Coro.all_iff.mp (Api.eventGenerator_truncated route chunks ending seq) t o v
      run).resolve_left fun plain => ?_
    have none_ := plain.frames (.retraction violations retractFrom) (by simp [← frames])
    cases none_
  obtain ⟨ds, violations', whole, each⟩ := cut.frames
  have delta_ : ∀ frame ∈ ds ++ [.redaction violations'], frame.isRetraction = false := by
    intro frame mem
    rcases List.mem_append.mp mem with mem | mem
    · have is := each frame mem
      cases frame <;> simp_all [Api.Frame.delta?, Api.Frame.isRetraction]
    · rw [List.mem_singleton.mp mem]
      rfl
  obtain ⟨first, is, none_⟩ := append_last (fun frame => frame.isRetraction = true) rfl
    (fun frame mem => by simp [delta_ frame mem])
    (frames.trans (whole.trans (by rw [List.append_assoc]; rfl) :
      sent t = (ds ++ [.redaction violations']) ++
        [.retraction violations' (Api.lastId (Api.deltas t))]))
  refine ⟨cut, ?_, ?_, ⟨violations', by rw [is]⟩, ?_⟩
  · intro m mem
    have fine := own m (List.mem_append_left _ mem)
    cases m with
    | live frame =>
      have here : frame ∈ before.filterMap Message.frame? := List.mem_filterMap.mpr ⟨_, mem, rfl⟩
      rw [first] at here
      rcases List.mem_append.mp here with here | here
      · have delta := each frame here
        cases frame with
        | delta => rfl
        | _ => cases delta
      · rw [List.mem_singleton.mp here]
        rfl
    | replay => cases fine
    | _ => rfl
  · have split : before.filterMap delta? = (before.filterMap Message.frame?).filterMap Api.Frame.delta? := by
      rw [List.filterMap_filterMap]
      rfl
    rw [split, first, Api.deltas, whole, List.filterMap_append, List.filterMap_append]
    rfl
  · intro m mem
    have fine := own m (List.mem_append_right _ (List.mem_cons_of_mem _ mem))
    cases m with
    | live frame =>
      have here : frame ∈ after.filterMap Message.frame? := List.mem_filterMap.mpr ⟨_, mem, rfl⟩
      rw [none_] at here
      cases here
    | replay => cases fine
    | _ => exact ⟨rfl, rfl⟩

/-- The end of an attempt leaves what the screen shows. -/
theorem handleReconnect_displayed (s : Stream) (error : SSEError) :
    displayed (handleReconnect s error).1.log = displayed s.log := by
  unfold handleReconnect
  split
  · rfl
  · dsimp only
    split
    · dsimp only
      rw [displayed_tell]
      exact displayed_tell _ _
    · exact displayed_tell _ _

theorem finish_displayed (shown : displayed s.log = s.fullResponse) :
    displayed (finish s).log = displayed s.log := by
  unfold finish
  split
  · rfl
  · rw [displayed_tell, displayed_tell]
    change (if s.fullResponse = "" then displayed s.log else s.fullResponse) = displayed s.log
    rw [shown, ite_self]

theorem join_dropLast (texts : List String) :
    String.join texts.dropLast = String.join texts ↔ ∀ text, texts.getLast? = some text → text = "" := by
  rcases List.eq_nil_or_concat texts with rfl | ⟨init, last, rfl⟩
  · simp
  · rw [List.concat_eq_append, List.dropLast_concat, List.getLast?_concat, String.join_append]
    constructor
    · rintro same text ⟨⟩
      have lengths := congrArg String.length same
      simp at lengths
      exact lengths
    · intro empty
      rw [empty last rfl]
      simp

/-- The message that a frame was read from, and the messages before and after it. -/
theorem split_event {messages : List Message} {packets : List Packet}
    (carries : List.Forall₂ (Carries json) messages packets) {event : String}
    (came : ∃ frame ∈ packets.map Packet.frame, frame.event = event) :
    ∃ before m after packets₁ packet packets₂, messages = before ++ m :: after ∧ m.event = event ∧
      packets = packets₁ ++ packet :: packets₂ ∧ List.Forall₂ (Carries json) before packets₁ ∧
      Carries json m packet ∧ List.Forall₂ (Carries json) after packets₂ := by
  induction carries with
  | nil => simp at came
  | @cons m packet messages packets first rest ih =>
    by_cases here : packet.event = event
    · exact ⟨[], m, messages, [], packet, packets, rfl, first.event.symm.trans here, rfl, .nil, first,
        rest⟩
    · obtain ⟨frame, mem, is⟩ := came
      rcases List.mem_cons.mp mem with rfl | mem
      · exact absurd is here
      · obtain ⟨before, m', after, packets₁, packet', packets₂, rfl, is', rfl, h₁, h₂, h₃⟩ :=
          ih ⟨frame, mem, is⟩
        exact ⟨m :: before, m', after, packet :: packets₁, packet', packets₂, rfl, is', rfl,
          .cons first h₁, h₂, h₃⟩

theorem Arrives.frames {messages : List Message} {chunks : List Text} {dropped : Option String}
    (h : Arrives json messages (.opened chunks dropped)) :
    (Connection.opened chunks dropped).frames = (readChunks [] chunks).1 := by
  obtain ⟨-, -, -, -, -, blank⟩ := h.received
  unfold Connection.frames
  dsimp only
  rw [if_neg, List.append_nil]
  rintro ⟨clean, some_⟩
  rw [blank (by simpa using clean)] at some_
  exact some_ rfl

/-- What the screen shows after an attempt on which a retraction came. -/
theorem retraction_displayed (h : Fresh s) {t : Trace Api.Calls Raised}
    {messages : List Message} (turn : Turn t messages) {c : Connection}
    (arrives : Arrives json messages c) (came : ∃ frame ∈ c.frames, frame.event = "retraction") :
    Api.Truncated t ∧
      displayed (connect json s c).1.log = String.join ((Api.deltas t).dropLast.map Prod.snd) := by
  obtain ⟨chunks, dropped, rfl⟩ : ∃ chunks dropped, c = .opened chunks dropped := by
    cases arrives with
    | whole => exact ⟨_, _, rfl⟩
    | dropped => exact ⟨_, _, rfl⟩
  rw [arrives.frames] at came
  obtain ⟨first, packets, ⟨rest, rfl⟩, carries, read, blank⟩ := arrives.received
  rw [read] at came
  obtain ⟨before, m, after, packets₁, packet, packets₂, rfl, retracts, rfl, h₁, h₂, h₃⟩ :=
    split_event carries came
  rw [List.append_assoc, List.cons_append] at turn
  obtain ⟨cut, around⟩ := turn_around turn retracts
  refine ⟨cut, ?_⟩
  -- the deltas, then the retraction, then what no one acts on
  have shown := Shows.steps h₁ around.leads h.shows.reading
  rw [List.nil_append, around.deltas] at shown
  obtain ⟨p, conveys, handled⟩ := handleFrame_packet
    ((packets₁.map Packet.frame).foldl (handleFrame json) s.reading) h₂
  obtain ⟨violations, rfl⟩ := around.retraction
  have kept := retract_shows ((shown.tell (e := .frame) fun _ => rfl)) cut.rising conveys
  have trailing : after.filterMap delta? = [] :=
    List.filterMap_eq_nil_iff.mpr fun m mem => (around.trails m (List.mem_append_left _ mem)).2
  have ended := Shows.steps h₃ (fun m mem => (around.trails m (List.mem_append_left _ mem)).1) kept
  rw [trailing, List.append_nil] at ended
  have folded : (readChunks [] chunks).1.foldl (handleFrame json) s.reading =
      (packets₂.map Packet.frame).foldl (handleFrame json) (handleRetraction
        (((packets₁.map Packet.frame).foldl (handleFrame json) s.reading).tell .frame) p) := by
    rw [read, List.map_append, List.foldl_append, List.map_cons, List.foldl_cons, handled]
    rfl
  rw [connect_opened h.shows.open_ chunks dropped blank, folded, ← ended.full]
  cases dropped with
  | some message =>
    dsimp only
    rw [handleReconnect_displayed]
    exact ended.shown
  | none =>
    dsimp only
    rw [finish_displayed ended.shown]
    exact ended.shown

/-- After a retraction the screen shows all the text that passed the moderation exactly where the
last piece of it, if there is one, is empty: the widget drops the last delta that was released. -/
theorem retraction_shows {conns : List Connection} (talk : Talk json conns s true)
    (fresh : Api.lastEventId s.lastEventId ≤ 0) {t : Trace Api.Calls Raised}
    {messages : List Message} (turn : Turn t messages) {c : Connection}
    (arrives : Arrives json messages c) (came : ∃ frame ∈ c.frames, frame.event = "retraction") :
    displayed (connect json s c).1.log = String.join (passed t) ↔
      ∀ text, (passed t).getLast? = some text → text = "" := by
  have start : Fresh s := (talk.between rfl).1.resolve_right fun acked => acked.not_fresh fresh
  obtain ⟨cut, shown⟩ := retraction_displayed start turn arrives came
  rw [shown, List.map_dropLast, cut.passed]
  exact join_dropLast (passed t)

/-! ## A stream that is cut off -/

/-- A moderation that lets one text through. -/
def strictOn (text : String) : (op : Api.Op) → Except Raised (Api.Calls.Ans op)
  | .moderate window => .ok { allowed := window == text }
  | .evaluateOutput _ => .ok {}
  | .append .. => .ok (0 : ℕ)
  | .addMessage .. | .appendMessage .. | .markEscalated | .chore _ | .yield _ => .ok ()

/-- The turn of a reply that comes in two chunks. -/
def helloTurn (allowed : String) : Trace Api.Calls Raised :=
  (Api.eventGenerator ⟨some 5⟩ [⟨"Hello", true⟩, ⟨" bomb", true⟩] (.error "")).traceWith
    (strictOn allowed) {}

def greetingText : String := "\x7b\"content\": \"Hello\"\x7d"

def redactionText : String := "\x7b\"violations\": []\x7d"

def nullText : String := "\x7b\"violations\": [], \"retract_from_event_id\": null\x7d"

def firstText : String := "\x7b\"violations\": [], \"retract_from_event_id\": 1\x7d"

/-- What `JSON.parse` gives for them. -/
def turnJson (data : String) : Option Payload :=
  if data = greetingText then some { content := some "Hello" }
  else if data = redactionText then some {}
  else if data = firstText then some { retractFromEventId := some 1 }
  else if data = nullText then some {}
  else none

def greetingPacket : Packet where
  event := "delta"
  data := greetingText
  eventId := some 1
  word := ⟨by simp, by simp [isSpace]⟩
  object := ⟨⟨"\"content\": \"Hello\"".toList, rfl⟩, by simp [greetingText]⟩

def redactionPacket : Packet where
  event := "redaction"
  data := redactionText
  eventId := none
  word := ⟨by simp, by simp [isSpace]⟩
  object := ⟨⟨"\"violations\": []".toList, rfl⟩, by simp [redactionText]⟩

def nullPacket : Packet where
  event := "retraction"
  data := nullText
  eventId := none
  word := ⟨by simp, by simp [isSpace]⟩
  object := ⟨⟨"\"violations\": [], \"retract_from_event_id\": null".toList, rfl⟩,
    by simp [nullText]⟩

def firstPacket : Packet where
  event := "retraction"
  data := firstText
  eventId := none
  word := ⟨by simp, by simp [isSpace]⟩
  object := ⟨⟨"\"violations\": [], \"retract_from_event_id\": 1".toList, rfl⟩,
    by simp [firstText]⟩

/-- The moderation stops the first chunk. -/
theorem stopped_turn : Turn (helloTurn "Hi")
    [.live (.redaction []), .live (.retraction [] none)] where
  run := ⟨_, _, _, _, _, _, Async.Coro.runs_with _ _ _⟩
  frames := rfl
  own := by simp [Message.isReplay]

theorem stopped_arrives : Arrives turnJson
    [.live (.redaction []), .live (.retraction [] none)]
    (.opened [redactionPacket.text ++ nullPacket.text] none) := by
  have carries : List.Forall₂ (Carries turnJson)
      [.live (.redaction []), .live (.retraction [] none)]
      [redactionPacket, nullPacket] :=
    .cons ⟨rfl, rfl, {}, by decide +kernel, trivial⟩
      (.cons ⟨rfl, rfl, {}, by decide +kernel, rfl⟩ .nil)
  exact .whole carries (by simp)

theorem retraction_shows_stopped :
    displayed (connect turnJson {} (.opened [redactionPacket.text ++ nullPacket.text] none)).1.log =
      String.join (passed (helloTurn "Hi")) := by
  refine (retraction_shows .start (by decide) stopped_turn stopped_arrives ?_).mpr ?_
  · refine ⟨nullPacket.frame, ?_, rfl⟩
    rw [stopped_arrives.frames, @readChunks_whole _ [redactionPacket, nullPacket] (by simp)]
    simp
  · intro text last
    cases last

/-- The greeting passes, and is taken off the screen when the next chunk is stopped. -/
theorem greeting_lost : ∃ messages c, Turn (helloTurn "Hello") messages ∧
    Arrives turnJson messages c ∧ (∃ frame ∈ c.frames, frame.event = "retraction") ∧
    String.join (passed (helloTurn "Hello")) = "Hello" ∧
    displayed (connect turnJson {} c).1.log = "" := by
  have turn : Turn (helloTurn "Hello") [.live (.delta "Hello" 1 [⟨"Hello", true⟩]),
      .live (.redaction []), .live (.retraction [] (some 1))] :=
    { run := ⟨_, _, _, _, _, _, Async.Coro.runs_with _ _ _⟩
      frames := rfl
      own := by simp [Message.isReplay] }
  have carries : List.Forall₂ (Carries turnJson) [.live (.delta "Hello" 1 [⟨"Hello", true⟩]),
      .live (.redaction []), .live (.retraction [] (some 1))]
      [greetingPacket, redactionPacket, firstPacket] :=
    .cons ⟨rfl, rfl, { content := some "Hello" }, by decide +kernel, rfl⟩
      (.cons ⟨rfl, rfl, {}, by decide +kernel, trivial⟩
        (.cons ⟨rfl, rfl, { retractFromEventId := some 1 }, by decide +kernel, rfl⟩ .nil))
  have arrives : Arrives turnJson _ (.opened
      [greetingPacket.text ++ (redactionPacket.text ++ firstPacket.text)] none) :=
    .whole carries (by simp)
  have came : ∃ frame ∈ (Connection.opened
      [greetingPacket.text ++ (redactionPacket.text ++ firstPacket.text)] none).frames,
      frame.event = "retraction" := by
    refine ⟨firstPacket.frame, ?_, rfl⟩
    rw [arrives.frames,
      @readChunks_whole _ [greetingPacket, redactionPacket, firstPacket] (by simp)]
    simp
  have start : Fresh {} := ⟨rfl, rfl, rfl, rfl, rfl⟩
  obtain ⟨-, shown⟩ := retraction_displayed start turn arrives came
  refine ⟨_, _, turn, arrives, came, by decide +kernel, ?_⟩
  rw [shown]
  rfl

end AgentStudio.Widget

import Mathlib.Data.List.Nodup
import Trion.Library.OperationRun
import Trion.WebUi.ChatStore

/-!
# Calls of `sendMessage`

Calls on any sessions run between one another: each takes the events of its own stream and ends
with the stream or by an error.  What the store has of a call is what the call alone would have
made of its messages.  The marks of sessions and messages are right as long as no call ends while
another is under way in its session, and each stream that ends has a `done`.
-/

namespace Trion.WebUi

open OperationRun

variable {π : Type}

/-! ### The system -/

/-- A call after its first part: what it has asked for, its two messages as its own updates leave
them, and the events that it has received. -/
structure Call (π : Type) where
  sessionId : String
  conversationId : String
  request : List ChatMessage
  userMessage : Message π
  asstMessage : Message π
  received : List (ChatEvent π) := []
  ended : Bool := false

/-- The store, the calls in their order, and the sessions as they were opened. -/
structure Chat (π : Type) where
  state : ChatState π
  calls : List (Call π) := []
  opened : List (ChatSession π)

/-- What can happen: a call begins, it receives an event of its stream or ends, and the user opens,
changes and closes sessions. -/
inductive Operation (π : Type) where
  | send (content : JsString) (userToken asstToken timestamp : String)
  | receive (call : ℕ) (event : ChatEvent π) (translate : String → JsString) (now : String)
  | fail (call : ℕ) (error : Option JsString) (translate : String → JsString) (now : String)
  | finish (call : ℕ) (now : String)
  | createSession (sessionToken conversationToken now : String)
  | activateSession (sessionId : String)
  | closeSession (sessionId : String)

namespace Chat

/-- The store before the first call. -/
def start (state : ChatState π) : Chat π where
  state
  opened := state.sessions

/-- The first part of `sendMessage`. -/
def send (chat : Chat π) (content : JsString) (userToken asstToken timestamp : String) : Chat π :=
  match getActiveSession chat.state.sessions chat.state.activeSessionId with
  | none => chat
  | some activeSession =>
    let userMessage : Message π :=
      { id := uniqueToken "usr" userToken, role := .user, content, events := [] }
    let asstMessage : Message π :=
      { id := uniqueToken "ast" asstToken, role := .assistant, content := [],
        isStreaming := some true, events := [] }
    let state := chat.state.mapSession activeSession.id
      (beginCall content timestamp userMessage asstMessage)
    match getActiveSession state.sessions (some activeSession.id) with
    | none => { chat with state }
    | some historySession =>
      let history := historySession.messages.filter fun message =>
        message.id ≠ asstMessage.id ∧ message.id ≠ userMessage.id
      let call : Call π :=
        { sessionId := activeSession.id
          conversationId := historySession.conversationId
          request := (history.map fun message => ⟨message.role, message.content⟩) ++
            [⟨.user, content⟩]
          userMessage
          asstMessage }
      { chat with state, calls := chat.calls ++ [call] }

/-- A call that is under way goes on, with an update of its session. -/
def advance (chat : Chat π) (index : ℕ) (update : Call π → ChatSession π → ChatSession π)
    (next : Call π → Call π) : Chat π :=
  match chat.calls[index]? with
  | none => chat
  | some call =>
    if call.ended then chat
    else
      { chat with
        state := chat.state.mapSession call.sessionId (update call)
        calls := chat.calls.set index (next call) }

end Chat

/-- An operation on the chat. -/
def chatSystem : System (Chat π) (Operation π) Unit := fun chat operation =>
  (match operation with
  | .send content userToken asstToken timestamp =>
    chat.send content userToken asstToken timestamp
  | .receive index event translate now =>
    chat.advance index (fun call => takeEvent call.asstMessage.id translate event now) fun call =>
      { call with
        asstMessage := recordEvent translate event call.asstMessage
        received := call.received ++ [event] }
  | .fail index error translate now =>
    let errMsg := error.getD (translate "chat.unknownError")
    chat.advance index (fun call => takeError call.asstMessage.id translate errMsg now) fun call =>
      { call with asstMessage := recordError translate errMsg call.asstMessage, ended := true }
  | .finish index now =>
    chat.advance index (fun _ => takeEnd now) fun call => { call with ended := true }
  | .createSession sessionToken conversationToken now =>
    let session := createChatSession (chat.state.sessions.length + 1) sessionToken
      conversationToken now
    { chat with state := chat.state.createSession session, opened := session :: chat.opened }
  | .activateSession sessionId => { chat with state := chat.state.activateSession sessionId }
  | .closeSession sessionId => { chat with state := chat.state.closeSession sessionId }, ())

/-! ### What the marks ask for -/

namespace Chat

variable (chat : Chat π)

/-- The calls on a session, in their order. -/
def callsOn (sessionId : String) : List (Call π) :=
  chat.calls.filter fun call => call.sessionId = sessionId

/-- The call is the only one that is under way in its session, unless the session is closed. -/
def EndsAlone (index : ℕ) : Prop :=
  ∀ call ∈ chat.calls[index]?,
    ∀ session ∈ chat.state.sessions, session.id = call.sessionId →
      ∀ other ∈ chat.calls.eraseIdx index, other.sessionId = call.sessionId → other.ended = true

/-- The stream of the call has had a `done`, unless the session is closed. -/
def HadDone (index : ℕ) : Prop :=
  ∀ call ∈ chat.calls[index]?,
    ∀ session ∈ chat.state.sessions, session.id = call.sessionId →
      ∃ event ∈ call.received, event.type = .done

end Chat

/-- Identifiers are new when they are given away, calls end alone in their sessions, and a stream
that ends without an error has had a `done`. -/
def Orderly (chat : Chat π) : Operation π → Prop
  | .send _ _ asstToken _ =>
    ∀ session ∈ getActiveSession chat.state.sessions chat.state.activeSessionId,
      ∀ message ∈ session.messages, message.id ≠ uniqueToken "ast" asstToken
  | .fail index _ _ _ => chat.EndsAlone index
  | .finish index _ => chat.EndsAlone index ∧ chat.HadDone index
  | .createSession sessionToken _ _ =>
    ∀ session ∈ chat.opened, session.id ≠ uniqueToken "session" sessionToken
  | _ => True

instance (chat : Chat π) (index : ℕ) : Decidable (chat.EndsAlone index) :=
  inferInstanceAs (Decidable (∀ call ∈ chat.calls[index]?,
    ∀ session ∈ chat.state.sessions, session.id = call.sessionId →
      ∀ other ∈ chat.calls.eraseIdx index, other.sessionId = call.sessionId → other.ended = true))

instance (chat : Chat π) (index : ℕ) : Decidable (chat.HadDone index) :=
  inferInstanceAs (Decidable (∀ call ∈ chat.calls[index]?,
    ∀ session ∈ chat.state.sessions, session.id = call.sessionId →
      ∃ event ∈ call.received, event.type = .done))

instance (chat : Chat π) : DecidablePred (Orderly chat)
  | .send _ _ asstToken _ => inferInstanceAs (Decidable
      (∀ session ∈ getActiveSession chat.state.sessions chat.state.activeSessionId,
        ∀ message ∈ session.messages, message.id ≠ uniqueToken "ast" asstToken))
  | .receive .. => inferInstanceAs (Decidable True)
  | .fail index _ _ _ => inferInstanceAs (Decidable (chat.EndsAlone index))
  | .finish index _ => inferInstanceAs (Decidable (chat.EndsAlone index ∧ chat.HadDone index))
  | .createSession sessionToken _ _ => inferInstanceAs (Decidable
      (∀ session ∈ chat.opened, session.id ≠ uniqueToken "session" sessionToken))
  | .activateSession _ => inferInstanceAs (Decidable True)
  | .closeSession _ => inferInstanceAs (Decidable True)

/-- The messages of a call. -/
def Call.messages (call : Call π) : List (Message π) := [call.userMessage, call.asstMessage]

/-- What holds of the chat in every state. -/
structure Consistent (chat : Chat π) : Prop where
  /-- After the messages that a session was opened with come those of its calls, each as its own
  call leaves it. -/
  messages : ∀ session ∈ chat.state.sessions, ∃ origin ∈ chat.opened, origin.id = session.id ∧
    session.messages = origin.messages ++ (chat.callsOn session.id).flatMap Call.messages ∧
    (chat.callsOn session.id = [] → session = origin)
  /-- The events of a call are recorded once each. -/
  received : ∀ call ∈ chat.calls, call.asstMessage.events = call.received
  /-- A session is busy while a call on it has not ended. -/
  busy : ∀ session ∈ chat.state.sessions,
    session.isBusy = true ↔ ∃ call ∈ chat.callsOn session.id, call.ended = false
  /-- The message of a call that has ended is not marked as streaming. -/
  streaming : ∀ session ∈ chat.state.sessions, ∀ call ∈ chat.callsOn session.id,
    call.ended = true → call.asstMessage.isStreaming ≠ some true

/-! ### One update -/

/-- The identifiers of the messages of users and of the assistant differ. -/
lemma uniqueToken_usr_ne_ast (t t' : String) : uniqueToken "usr" t ≠ uniqueToken "ast" t' := by
  intro h
  have hchars := congrArg String.toList h
  simp [uniqueToken] at hchars

lemma updateFound_append_cons {update : Message π → Message π} {message : Message π}
    {before after : List (Message π)} (h : ∀ m ∈ before, m.id ≠ message.id) :
    updateFound message.id update (before ++ message :: after) =
      before ++ update message :: after := by
  induction before with
  | nil => simp [updateFound]
  | cons m before ih =>
    obtain ⟨hm, hrest⟩ := List.forall_mem_cons.mp h
    rw [List.cons_append, updateFound, if_neg hm, ih hrest, List.cons_append]

@[simp] lemma recordEvent_id (translate : String → JsString) (event : ChatEvent π)
    (message : Message π) : (recordEvent translate event message).id = message.id := by
  unfold recordEvent
  dsimp only
  split <;> try rfl
  split <;> rfl

@[simp] lemma recordEvent_events (translate : String → JsString) (event : ChatEvent π)
    (message : Message π) :
    (recordEvent translate event message).events = message.events ++ [event] := by
  unfold recordEvent
  dsimp only
  split <;> try rfl
  split <;> rfl

/-- Only `done` takes the mark from the message. -/
lemma recordEvent_isStreaming (translate : String → JsString) (event : ChatEvent π)
    (message : Message π) :
    (recordEvent translate event message).isStreaming =
      if event.type = .done then some false else message.isStreaming := by
  cases htype : event.type
  case error =>
    simp only [recordEvent, htype]
    split <;> rfl
  all_goals simp [recordEvent, htype]

section Invariant

variable {chat : Chat π} {call call' : Call π} {before after : List (Call π)}

/-- What every operation keeps, of the messages of each call and of the marks. -/
structure Invariant (chat : Chat π) : Prop extends Consistent chat where
  ids : (chat.opened.map (·.id)).Nodup
  sessions : ∀ call ∈ chat.calls, ∃ origin ∈ chat.opened, origin.id = call.sessionId
  user : ∀ call ∈ chat.calls, ∃ token, call.userMessage.id = uniqueToken "usr" token
  asst : ∀ call ∈ chat.calls, ∃ token, call.asstMessage.id = uniqueToken "ast" token
  fresh : ∀ call ∈ chat.calls, ∀ origin ∈ chat.opened, origin.id = call.sessionId →
    ∀ message ∈ origin.messages, message.id ≠ call.asstMessage.id
  distinct : (chat.calls.map fun call => (call.sessionId, call.asstMessage.id)).Nodup
  done : ∀ call ∈ chat.calls, (∃ event ∈ call.received, event.type = .done) →
    call.asstMessage.isStreaming = some false

/-- How a call goes on: it keeps its session, its user message and its identifiers, and the update
puts its other message in the place of the one before. -/
structure GoesOn (call call' : Call π) (update : ChatSession π → ChatSession π) : Prop where
  sessionId : call'.sessionId = call.sessionId
  userMessage : call'.userMessage = call.userMessage
  asstId : call'.asstMessage.id = call.asstMessage.id
  id : ∀ session, (update session).id = session.id
  messages : ∀ session before after,
    session.messages = before ++ call.asstMessage :: after →
    (∀ message ∈ before, message.id ≠ call.asstMessage.id) →
    (update session).messages = before ++ call'.asstMessage :: after

lemma callsOn_of_ne {state : ChatState π} {opened : List (ChatSession π)} {sessionId : String}
    (h : call.sessionId ≠ sessionId) :
    Chat.callsOn ⟨state, before ++ call :: after, opened⟩ sessionId =
      (before ++ after).filter (·.sessionId = sessionId) := by
  rw [Chat.callsOn, List.filter_append, List.filter_cons_of_neg (by simpa using h),
    List.filter_append]

lemma callsOn_of_eq {state : ChatState π} {opened : List (ChatSession π)} {sessionId : String}
    (h : call.sessionId = sessionId) :
    Chat.callsOn ⟨state, before ++ call :: after, opened⟩ sessionId =
      before.filter (·.sessionId = sessionId) ++
        call :: after.filter (·.sessionId = sessionId) := by
  rw [Chat.callsOn, List.filter_append, List.filter_cons_of_pos (by simpa using h)]

lemma mem_callsOn {sessionId : String} :
    call ∈ chat.callsOn sessionId ↔ call ∈ chat.calls ∧ call.sessionId = sessionId := by
  simp [Chat.callsOn]

/-- No message before that of a call has its identifier. -/
lemma Invariant.before_ne (h : Invariant chat) (hcalls : chat.calls = before ++ call :: after)
    {origin : ChatSession π} (horigin : origin ∈ chat.opened) (hid : origin.id = call.sessionId) :
    ∀ message ∈ origin.messages ++
        (before.filter (·.sessionId = call.sessionId)).flatMap Call.messages ++ [call.userMessage],
      message.id ≠ call.asstMessage.id := by
  have hcall : call ∈ chat.calls := by simp [hcalls]
  obtain ⟨token, htoken⟩ := h.asst call hcall
  have huser {c : Call π} (hc : c ∈ chat.calls) : c.userMessage.id ≠ call.asstMessage.id := by
    obtain ⟨token', htoken'⟩ := h.user c hc
    rw [htoken, htoken']
    exact uniqueToken_usr_ne_ast token' token
  have hdistinct := h.distinct
  rw [hcalls, List.map_append, List.map_cons, List.nodup_append] at hdistinct
  intro message hmem
  rcases List.mem_append.mp hmem with hmem | hmem
  · rcases List.mem_append.mp hmem with hmem | hmem
    · exact h.fresh call hcall origin horigin hid message hmem
    · obtain ⟨c, hc, hmessage⟩ := List.mem_flatMap.mp hmem
      obtain ⟨hbefore, hsession⟩ := List.mem_filter.mp hc
      have hsession : c.sessionId = call.sessionId := by simpa using hsession
      rcases List.mem_pair.mp hmessage with rfl | rfl
      · exact huser (by simp [hcalls, hbefore])
      · intro heq
        exact hdistinct.2.2 _ (List.mem_map_of_mem hbefore) _ List.mem_cons_self
          (by rw [hsession, heq])
  · obtain rfl := List.mem_singleton.mp hmem
    exact huser hcall

/-- The messages of its session, when a call goes on. -/
lemma Invariant.messages_goesOn (h : Invariant chat) (hcalls : chat.calls = before ++ call :: after)
    {update : ChatSession π → ChatSession π} (hnext : GoesOn call call' update)
    {session : ChatSession π} (hsession : session ∈ chat.state.sessions)
    (heq : session.id = call.sessionId) :
    ∃ origin ∈ chat.opened, origin.id = session.id ∧
      (update session).messages = origin.messages ++
        (before.filter (·.sessionId = session.id) ++
          call' :: after.filter (·.sessionId = session.id)).flatMap Call.messages := by
  obtain ⟨origin, horigin, hid, hmessages, -⟩ := h.messages session hsession
  refine ⟨origin, horigin, hid, ?_⟩
  have hbefore := h.before_ne hcalls horigin (hid.trans heq)
  rw [← heq] at hbefore
  obtain ⟨state, calls, opened⟩ := chat
  obtain rfl : calls = before ++ call :: after := hcalls
  rw [callsOn_of_eq heq.symm] at hmessages
  have hold : session.messages =
      (origin.messages ++ (before.filter (·.sessionId = session.id)).flatMap Call.messages ++
        [call.userMessage]) ++ call.asstMessage ::
          (after.filter (·.sessionId = session.id)).flatMap Call.messages := by
    rw [hmessages]
    simp [Call.messages]
  rw [hnext.messages session _ _ hold hbefore]
  simp [Call.messages, hnext.userMessage]

/-- A session after an update of one is that one or has been there. -/
lemma mem_mapSession {state : ChatState π} {sessionId : String}
    {update : ChatSession π → ChatSession π} {new : ChatSession π}
    (h : new ∈ (state.mapSession sessionId update).sessions) : ∃ old ∈ state.sessions,
      (old.id = sessionId ∧ new = update old) ∨ (sessionId ≠ old.id ∧ new = old) := by
  obtain ⟨old, hold, rfl⟩ := List.mem_map.mp h
  refine ⟨old, hold, ?_⟩
  split_ifs with heq
  exacts [.inl ⟨heq, rfl⟩, .inr ⟨Ne.symm heq, rfl⟩]

/-- A call goes on. -/
lemma Invariant.goesOn (h : Invariant chat) (hcalls : chat.calls = before ++ call :: after)
    {update : ChatSession π → ChatSession π} (hnext : GoesOn call call' update)
    (hreceived : call'.asstMessage.events = call'.received)
    (hdone : (∃ event ∈ call'.received, event.type = .done) →
      call'.asstMessage.isStreaming = some false)
    (hbusy : ∀ session ∈ chat.state.sessions, session.id = call.sessionId →
      ((update session).isBusy = true ↔ call'.ended = false ∨
        ∃ other ∈ before ++ after, other.sessionId = call.sessionId ∧ other.ended = false))
    (hstreaming : ∀ session ∈ chat.state.sessions, session.id = call.sessionId →
      call'.ended = true → call'.asstMessage.isStreaming ≠ some true) :
    Invariant ⟨chat.state.mapSession call.sessionId update, before ++ call' :: after,
      chat.opened⟩ := by
  have hcall : call ∈ chat.calls := by simp [hcalls]
  -- A call of the new list has been there before or is the one that goes on.
  have hmem {c : Call π} (hc : c ∈ before ++ call' :: after) : c ∈ chat.calls ∨ c = call' := by
    simp only [hcalls, List.mem_append, List.mem_cons] at hc ⊢
    tauto
  -- In other sessions nothing is different.
  have hother {sessionId : String} (hne : call.sessionId ≠ sessionId) :
      Chat.callsOn ⟨chat.state.mapSession call.sessionId update, before ++ call' :: after,
        chat.opened⟩ sessionId = chat.callsOn sessionId := by
    obtain ⟨state, calls, opened⟩ := chat
    obtain rfl : calls = before ++ call :: after := hcalls
    rw [callsOn_of_ne hne, callsOn_of_ne (hnext.sessionId ▸ hne)]
  have hsame {sessionId : String} (heq : sessionId = call.sessionId) :
      Chat.callsOn ⟨chat.state.mapSession call.sessionId update, before ++ call' :: after,
        chat.opened⟩ sessionId =
      before.filter (·.sessionId = sessionId) ++ call' :: after.filter (·.sessionId = sessionId) :=
    callsOn_of_eq (hnext.sessionId.trans heq.symm)
  have hfrom {c : Call π} (hc : c ∈ before ++ call' :: after) :
      ∃ c₀ ∈ chat.calls, c.sessionId = c₀.sessionId ∧ c.userMessage = c₀.userMessage ∧
        c.asstMessage.id = c₀.asstMessage.id := by
    rcases hmem hc with hc | rfl
    exacts [⟨c, hc, rfl, rfl, rfl⟩,
      ⟨call, hcall, hnext.sessionId, hnext.userMessage, hnext.asstId⟩]
  constructor
  · constructor
    · intro new hnew
      obtain ⟨session, hold, ⟨heq, rfl⟩ | ⟨hne, rfl⟩⟩ := mem_mapSession hnew
      · obtain ⟨origin, horigin, hid, hmessages⟩ := h.messages_goesOn hcalls hnext hold heq
        rw [hnext.id, hsame heq]
        exact ⟨origin, horigin, hid, hmessages, fun hnil => absurd hnil (by simp)⟩
      · rw [hother hne]
        exact h.messages new hold
    · intro c hc
      rcases hmem hc with hc | rfl
      exacts [h.received c hc, hreceived]
    · intro new hnew
      obtain ⟨session, hold, ⟨heq, rfl⟩ | ⟨hne, rfl⟩⟩ := mem_mapSession hnew
      · rw [hbusy session hold heq, hnext.id, hsame heq]
        simp only [List.mem_append, List.mem_cons, List.mem_filter, decide_eq_true_eq, heq]
        grind
      · rw [hother hne]
        exact h.busy new hold
    · intro new hnew c hc
      obtain ⟨session, hold, ⟨heq, rfl⟩ | ⟨hne, rfl⟩⟩ := mem_mapSession hnew
      · rw [hnext.id] at hc
        obtain ⟨hc, hid⟩ := mem_callsOn.mp hc
        rcases hmem hc with hc | rfl
        exacts [h.streaming session hold c (mem_callsOn.mpr ⟨hc, hid⟩), hstreaming session hold heq]
      · rw [hother hne] at hc
        exact h.streaming new hold c hc
  · exact h.ids
  · intro c hc
    obtain ⟨c₀, hc₀, hid, -⟩ := hfrom hc
    rw [hid]
    exact h.sessions c₀ hc₀
  · intro c hc
    obtain ⟨c₀, hc₀, -, huser, -⟩ := hfrom hc
    rw [huser]
    exact h.user c₀ hc₀
  · intro c hc
    obtain ⟨c₀, hc₀, -, -, hasst⟩ := hfrom hc
    rw [hasst]
    exact h.asst c₀ hc₀
  · intro c hc
    obtain ⟨c₀, hc₀, hid, -, hasst⟩ := hfrom hc
    rw [hid, hasst]
    exact h.fresh c₀ hc₀
  · have hkeys := h.distinct
    rw [hcalls] at hkeys
    simpa [hnext.sessionId, hnext.asstId] using hkeys
  · intro c hc
    rcases hmem hc with hc | rfl
    exacts [h.done c hc, hdone]

/-! ### The operations -/

/-- Nothing happens, or the call of the number is under way and goes on. -/
lemma advance_cases (chat : Chat π) (index : ℕ)
    (update : Call π → ChatSession π → ChatSession π) (next : Call π → Call π) :
    chat.advance index update next = chat ∨
      ∃ call before after, chat.calls = before ++ call :: after ∧ before.length = index ∧
        call.ended = false ∧
        chat.advance index update next =
          ⟨chat.state.mapSession call.sessionId (update call), before ++ next call :: after,
            chat.opened⟩ := by
  unfold Chat.advance
  split
  · exact .inl rfl
  · rename_i call hcall
    split
    · exact .inl rfl
    · rename_i hended
      refine .inr ?_
      obtain ⟨hindex, rfl⟩ := List.getElem?_eq_some_iff.mp hcall
      obtain ⟨before, after, hcalls, hlength, hset⟩ :=
        @List.exists_of_set _ index (next chat.calls[index]) chat.calls hindex
      exact ⟨_, before, after, hcalls, hlength, Bool.eq_false_iff.mpr hended, by rw [hset]⟩

/-- The call that ends alone is the only one under way in its session. -/
lemma Chat.EndsAlone.others_ended (h : chat.EndsAlone before.length)
    (hcalls : chat.calls = before ++ call :: after) {session : ChatSession π}
    (hsession : session ∈ chat.state.sessions) (heq : session.id = call.sessionId) :
    ¬∃ other ∈ before ++ after, other.sessionId = call.sessionId ∧ other.ended = false := by
  rintro ⟨other, hother, hid, hended⟩
  have hcall : chat.calls[before.length]? = some call := by simp [hcalls]
  have herase : chat.calls.eraseIdx before.length = before ++ after := by
    rw [hcalls, List.eraseIdx_append_of_length_le le_rfl]
    simp
  have htrue := h call hcall session hsession heq other (by rw [herase]; exact hother) hid
  rw [hended] at htrue
  cases htrue

lemma Chat.HadDone.exists_done (h : chat.HadDone before.length)
    (hcalls : chat.calls = before ++ call :: after) {session : ChatSession π}
    (hsession : session ∈ chat.state.sessions) (heq : session.id = call.sessionId) :
    ∃ event ∈ call.received, event.type = .done :=
  h call (by simp [hcalls]) session hsession heq

/-- An event is received. -/
lemma Invariant.receive (h : Invariant chat) (index : ℕ) (event : ChatEvent π)
    (translate : String → JsString) (now : String) :
    Invariant (chat.advance index
      (fun call => takeEvent call.asstMessage.id translate event now) fun call =>
        { call with
          asstMessage := recordEvent translate event call.asstMessage
          received := call.received ++ [event] }) := by
  obtain hsame | ⟨call, before, after, hcalls, -, hended, hadvance⟩ := advance_cases chat index
    (fun call => takeEvent call.asstMessage.id translate event now) fun call =>
      { call with
        asstMessage := recordEvent translate event call.asstMessage
        received := call.received ++ [event] }
  · rwa [hsame]
  rw [hadvance]
  have hcall : call ∈ chat.calls := by simp [hcalls]
  refine h.goesOn hcalls ?_ ?_ ?_ ?_ ?_
  · refine ⟨rfl, rfl, recordEvent_id translate event _, ?_, ?_⟩
    · intro session
      rw [takeEvent]
      split <;> rfl
    · intro session before after hmessages hbefore
      have hany :
          (session.messages.any fun message => message.id = call.asstMessage.id) = true := by
        simp [hmessages]
      rw [takeEvent, if_pos hany, hmessages, updateFound_append_cons hbefore]
  · rw [recordEvent_events, h.received call hcall]
  · rintro ⟨done, hdone, htype⟩
    rw [recordEvent_isStreaming]
    split_ifs with hevent
    · rfl
    · rcases List.mem_append.mp hdone with hold | hnew
      · exact h.done call hcall ⟨done, hold, htype⟩
      · obtain rfl := List.mem_singleton.mp hnew
        exact absurd htype hevent
  · intro session hsession heq
    have hbusy : session.isBusy = true :=
      (h.busy session hsession).mpr ⟨call, mem_callsOn.mpr ⟨hcall, heq.symm⟩, hended⟩
    have hstill : (takeEvent call.asstMessage.id translate event now session).isBusy = true := by
      rw [takeEvent]
      split <;> exact hbusy
    exact ⟨fun _ => .inl hended, fun _ => hstill⟩
  · intro session _ _ htrue
    exact absurd htrue (ne_true_of_eq_false hended)

/-- A call ends by an error. -/
lemma Invariant.fail (h : Invariant chat) {index : ℕ} (halone : chat.EndsAlone index)
    (translate : String → JsString) (errMsg : JsString) (now : String) :
    Invariant (chat.advance index
      (fun call => takeError call.asstMessage.id translate errMsg now) fun call =>
        { call with
          asstMessage := recordError translate errMsg call.asstMessage
          ended := true }) := by
  obtain hsame | ⟨call, before, after, hcalls, rfl, -, hadvance⟩ := advance_cases chat index
    (fun call => takeError call.asstMessage.id translate errMsg now) fun call =>
      { call with asstMessage := recordError translate errMsg call.asstMessage, ended := true }
  · rwa [hsame]
  rw [hadvance]
  have hcall : call ∈ chat.calls := by simp [hcalls]
  refine h.goesOn hcalls ?_ (h.received call hcall) (fun _ => rfl) ?_ ?_
  · refine ⟨rfl, rfl, rfl, fun session => rfl, ?_⟩
    intro session before after hmessages hbefore
    rw [takeError, hmessages, updateFound_append_cons hbefore]
  · intro session hsession heq
    have hothers := halone.others_ended hcalls hsession heq
    exact ⟨fun htrue => absurd htrue Bool.false_ne_true,
      fun hopen => absurd hopen (not_or.mpr ⟨Bool.noConfusion, hothers⟩)⟩
  · intro session _ _ _ hstreaming
    cases hstreaming

/-- A call ends with its stream. -/
lemma Invariant.finish (h : Invariant chat) {index : ℕ} (halone : chat.EndsAlone index)
    (hdone : chat.HadDone index) (now : String) :
    Invariant (chat.advance index (fun _ => takeEnd now) fun call =>
      { call with ended := true }) := by
  obtain hsame | ⟨call, before, after, hcalls, rfl, -, hadvance⟩ := advance_cases chat index
    (fun _ => takeEnd now) fun call => { call with ended := true }
  · rwa [hsame]
  rw [hadvance]
  have hcall : call ∈ chat.calls := by simp [hcalls]
  refine h.goesOn hcalls ?_ (h.received call hcall) (h.done call hcall) ?_ ?_
  · exact ⟨rfl, rfl, rfl, fun session => rfl, fun session before after hmessages _ => hmessages⟩
  · intro session hsession heq
    have hothers := halone.others_ended hcalls hsession heq
    exact ⟨fun htrue => absurd htrue Bool.false_ne_true,
      fun hopen => absurd hopen (not_or.mpr ⟨Bool.noConfusion, hothers⟩)⟩
  · intro session hsession heq _ hstreaming
    have hfalse := h.done call hcall (hdone.exists_done hcalls hsession heq)
    rw [hfalse] at hstreaming
    cases hstreaming

lemma id_of_getActiveSession {sessions : List (ChatSession π)} {active : Option String}
    {session : ChatSession π} (h : getActiveSession sessions active = some session) :
    session ∈ sessions ∧ active = some session.id ∧ session.id ≠ "" := by
  obtain ⟨index, hindex, hget⟩ := Option.bind_eq_some_iff.mp h
  have hmem := List.mem_of_getElem? hget
  cases active with
  | none => cases hindex
  | some sessionId =>
    rw [findSessionIndex] at hindex
    split_ifs at hindex with hempty
    obtain ⟨hlt, hid, -⟩ := List.findIdx?_eq_some_iff_getElem.mp hindex
    rw [List.getElem?_eq_getElem hlt] at hget
    obtain rfl := Option.some.inj hget
    obtain rfl : sessions[index].id = sessionId := by simpa using hid
    exact ⟨hmem, rfl, hempty⟩

lemma getActiveSession_of_mem {sessions : List (ChatSession π)} {session : ChatSession π}
    (h : session ∈ sessions) (hne : session.id ≠ "") :
    ∃ found, getActiveSession sessions (some session.id) = some found := by
  rw [getActiveSession, findSessionIndex, if_neg hne]
  have hsome : (sessions.findIdx? fun s => s.id = session.id).isSome = true := by
    rw [List.findIdx?_isSome, List.any_eq_true]
    exact ⟨session, h, by simp⟩
  obtain ⟨index, hindex⟩ := Option.isSome_iff_exists.mp hsome
  obtain ⟨hlt, -⟩ := List.findIdx?_eq_some_iff_getElem.mp hindex
  exact ⟨sessions[index], by rw [hindex, Option.bind_some, List.getElem?_eq_getElem hlt]⟩

/-- An update of a session leaves it where it is. -/
lemma getActiveSession_mapSession {state : ChatState π} {session : ChatSession π}
    (h : session ∈ state.sessions) (hne : session.id ≠ "")
    {update : ChatSession π → ChatSession π} (hid : (update session).id = session.id) :
    getActiveSession (state.mapSession session.id update).sessions (some session.id) ≠ none := by
  have hmem : update session ∈ (state.mapSession session.id update).sessions :=
    List.mem_map.mpr ⟨session, h, if_pos rfl⟩
  obtain ⟨found, hfound⟩ := getActiveSession_of_mem hmem (by rwa [hid])
  rw [hid] at hfound
  rw [hfound]
  exact Option.some_ne_none found

/-- A new call comes after those that are there. -/
lemma Invariant.begins (h : Invariant chat) (content : JsString) (timestamp : String)
    {session : ChatSession π} (hsession : session ∈ chat.state.sessions)
    (hid : call.sessionId = session.id) {userMessage asstMessage : Message π}
    (huserMessage : userMessage = call.userMessage) (hasstMessage : asstMessage = call.asstMessage)
    (huser : ∃ token, userMessage.id = uniqueToken "usr" token)
    (hasst : ∃ token, asstMessage.id = uniqueToken "ast" token)
    (hfresh : ∀ message ∈ session.messages, message.id ≠ asstMessage.id)
    (hevents : asstMessage.events = []) (hreceived : call.received = [])
    (hended : call.ended = false) :
    Invariant ⟨chat.state.mapSession session.id
      (beginCall content timestamp userMessage asstMessage), chat.calls ++ [call],
      chat.opened⟩ := by
  subst huserMessage hasstMessage
  have hother {sessionId : String} (hne : session.id ≠ sessionId) :
      Chat.callsOn ⟨chat.state.mapSession session.id
        (beginCall content timestamp call.userMessage call.asstMessage), chat.calls ++ [call],
        chat.opened⟩ sessionId = chat.callsOn sessionId := by
    simp [Chat.callsOn, hid, hne]
  have hsame : Chat.callsOn ⟨chat.state.mapSession session.id
        (beginCall content timestamp call.userMessage call.asstMessage), chat.calls ++ [call],
        chat.opened⟩ session.id = chat.callsOn session.id ++ [call] := by
    simp [Chat.callsOn, hid]
  obtain ⟨origin, horigin, horiginId, hmessages, -⟩ := h.messages session hsession
  rw [hmessages] at hfresh
  have hcalls {P : Call π → Prop} (hold : ∀ c ∈ chat.calls, P c) (hlast : P call) :
      ∀ c ∈ chat.calls ++ [call], P c :=
    List.forall_mem_append.mpr ⟨hold, List.forall_mem_singleton.mpr hlast⟩
  constructor
  · constructor
    · intro new hmem
      obtain ⟨old, hold, ⟨heq, rfl⟩ | ⟨hne, rfl⟩⟩ := mem_mapSession hmem
      · obtain ⟨origin', horigin', hid', hmessages', -⟩ := h.messages old hold
        refine ⟨origin', horigin', hid', ?_⟩
        have hcallsOn : Chat.callsOn ⟨chat.state.mapSession session.id
            (beginCall content timestamp call.userMessage call.asstMessage), chat.calls ++ [call],
            chat.opened⟩ (beginCall content timestamp call.userMessage call.asstMessage old).id =
            chat.callsOn session.id ++ [call] := by
          rw [← hsame, ← heq]
          rfl
        rw [hcallsOn]
        refine ⟨?_, fun hnil => absurd hnil (by simp)⟩
        rw [beginCall, hmessages', heq]
        simp [Call.messages]
      · rw [hother hne]
        exact h.messages new hold
    · exact hcalls h.received (by rw [hevents, hreceived])
    · intro new hmem
      obtain ⟨old, hold, ⟨heq, rfl⟩ | ⟨hne, rfl⟩⟩ := mem_mapSession hmem
      · refine ⟨fun _ => ⟨call, ?_, hended⟩, fun _ => rfl⟩
        exact mem_callsOn.mpr ⟨by simp, hid.trans heq.symm⟩
      · rw [hother hne]
        exact h.busy new hold
    · intro new hmem c hc hcended
      obtain ⟨old, hold, ⟨heq, rfl⟩ | ⟨hne, rfl⟩⟩ := mem_mapSession hmem
      · obtain ⟨hc, hcid⟩ := mem_callsOn.mp hc
        rcases List.mem_append.mp hc with hc | hc
        · exact h.streaming old hold c (mem_callsOn.mpr ⟨hc, hcid⟩) hcended
        · obtain rfl := List.mem_singleton.mp hc
          rw [hended] at hcended
          cases hcended
      · rw [hother hne] at hc
        exact h.streaming new hold c hc hcended
  · exact h.ids
  · exact hcalls h.sessions ⟨origin, horigin, horiginId.trans hid.symm⟩
  · exact hcalls h.user huser
  · exact hcalls h.asst hasst
  · refine hcalls h.fresh fun origin' horigin' hid' => ?_
    obtain rfl : origin' = origin :=
      List.inj_on_of_nodup_map h.ids horigin' horigin (by rw [hid', hid, horiginId])
    exact fun message hmem => hfresh message (List.mem_append_left _ hmem)
  · rw [List.map_append, List.nodup_append]
    refine ⟨h.distinct, List.nodup_singleton _, ?_⟩
    rintro _ hkey _ hlast heq
    obtain ⟨c, hc, rfl⟩ := List.mem_map.mp hkey
    obtain rfl := List.mem_singleton.mp hlast
    obtain ⟨hsessionId, hasstId⟩ := Prod.mk.inj heq
    refine hfresh c.asstMessage (List.mem_append_right _ (List.mem_flatMap.mpr ⟨c, ?_, ?_⟩)) hasstId
    · exact mem_callsOn.mpr ⟨hc, hsessionId.trans hid⟩
    · simp [Call.messages]
  · refine hcalls h.done ?_
    rintro ⟨event, hevent, -⟩
    rw [hreceived] at hevent
    cases hevent

/-- A call begins. -/
lemma Invariant.send (h : Invariant chat) {content : JsString}
    {userToken asstToken timestamp : String}
    (hfresh : ∀ session,
      getActiveSession chat.state.sessions chat.state.activeSessionId = some session →
      ∀ message ∈ session.messages, message.id ≠ uniqueToken "ast" asstToken) :
    Invariant (chat.send content userToken asstToken timestamp) := by
  rw [Chat.send]
  split
  · exact h
  · rename_i session hactive
    obtain ⟨hsession, -, hne⟩ := id_of_getActiveSession hactive
    dsimp only
    split
    · rename_i hnone
      refine absurd hnone (getActiveSession_mapSession hsession hne ?_)
      rfl
    · refine h.begins content timestamp hsession ?_ ?_ ?_ ?_ ?_ ?_ ?_ ?_ ?_
      exacts [rfl, rfl, rfl, ⟨userToken, rfl⟩, ⟨asstToken, rfl⟩, hfresh session hactive, rfl, rfl,
        rfl]

/-- A session is opened. -/
lemma Invariant.createSession (h : Invariant chat) {session : ChatSession π}
    (hnew : ∀ opened ∈ chat.opened, opened.id ≠ session.id) (hidle : session.isBusy = false) :
    Invariant { chat with
      state := chat.state.createSession session, opened := session :: chat.opened } := by
  have hne : ∀ call ∈ chat.calls, session.id ≠ call.sessionId := by
    intro call hcall heq
    obtain ⟨origin, horigin, hid⟩ := h.sessions call hcall
    exact hnew origin horigin (hid.trans heq.symm)
  have hnone : ∀ call, call ∉ chat.callsOn session.id := by
    intro call hmem
    obtain ⟨hcall, hid⟩ := mem_callsOn.mp hmem
    exact hne call hcall hid.symm
  constructor
  · constructor
    · refine List.forall_mem_cons.mpr ⟨?_, fun s hs => ?_⟩
      · refine ⟨session, List.mem_cons_self, rfl, ?_, fun _ => rfl⟩
        have hcalls : chat.callsOn session.id = [] := List.eq_nil_iff_forall_not_mem.mpr hnone
        have hall : session.messages =
            session.messages ++ (chat.callsOn session.id).flatMap Call.messages := by
          rw [hcalls, List.flatMap_nil, List.append_nil]
        exact hall
      · obtain ⟨origin, horigin, hrest⟩ := h.messages s hs
        exact ⟨origin, List.mem_cons_of_mem _ horigin, hrest⟩
    · exact h.received
    · refine List.forall_mem_cons.mpr ⟨?_, h.busy⟩
      rw [hidle]
      exact ⟨fun htrue => absurd htrue Bool.false_ne_true, fun ⟨c, hc, _⟩ => absurd hc (hnone c)⟩
    · exact List.forall_mem_cons.mpr ⟨fun c hc => absurd hc (hnone c), h.streaming⟩
  · refine List.nodup_cons.mpr ⟨?_, h.ids⟩
    rintro hmem
    obtain ⟨opened, hopened, heq⟩ := List.mem_map.mp hmem
    exact hnew opened hopened heq
  · intro c hc
    obtain ⟨origin, horigin, hid⟩ := h.sessions c hc
    exact ⟨origin, List.mem_cons_of_mem _ horigin, hid⟩
  · exact h.user
  · exact h.asst
  · intro c hc
    exact List.forall_mem_cons.mpr ⟨fun heq => absurd heq (hne c hc), h.fresh c hc⟩
  · exact h.distinct
  · exact h.done

/-- The sessions that are still there keep what holds of them. -/
lemma Invariant.of_subset (h : Invariant chat) {state : ChatState π}
    (hsubset : state.sessions ⊆ chat.state.sessions) : Invariant { chat with state } where
  messages session hsession := h.messages session (hsubset hsession)
  received := h.received
  busy session hsession := h.busy session (hsubset hsession)
  streaming session hsession := h.streaming session (hsubset hsession)
  ids := h.ids
  sessions := h.sessions
  user := h.user
  asst := h.asst
  fresh := h.fresh
  distinct := h.distinct
  done := h.done

lemma sessions_activateSession (state : ChatState π) (sessionId : String) :
    (state.activateSession sessionId).sessions = state.sessions := by
  unfold ChatState.activateSession
  split <;> rfl

lemma sessions_closeSession_subset (state : ChatState π) (sessionId : String) :
    (state.closeSession sessionId).sessions ⊆ state.sessions := by
  unfold ChatState.closeSession
  split
  · exact List.Subset.refl _
  · split
    · exact List.Subset.refl _
    · exact fun session hmem => List.mem_of_mem_filter hmem

/-- Every orderly operation keeps the invariant. -/
lemma Invariant.step {operation : Operation π} (h : Invariant chat)
    (horderly : Orderly chat operation) : Invariant (chatSystem chat operation).1 := by
  cases operation with
  | send content userToken asstToken timestamp => exact h.send horderly
  | receive index event translate now => exact h.receive index event translate now
  | fail index error translate now =>
    exact h.fail horderly translate (error.getD (translate "chat.unknownError")) now
  | finish index now => exact h.finish horderly.1 horderly.2 now
  | createSession sessionToken conversationToken now =>
    exact h.createSession horderly rfl
  | activateSession sessionId =>
    exact h.of_subset (sessions_activateSession chat.state sessionId ▸ List.Subset.refl _)
  | closeSession sessionId => exact h.of_subset (sessions_closeSession_subset chat.state sessionId)

lemma invariant_start {state : ChatState π} (hids : (state.sessions.map (·.id)).Nodup)
    (hidle : ∀ session ∈ state.sessions, session.isBusy = false) :
    Invariant (Chat.start state) := by
  have hnone {P : Call π → Prop} : ∀ call ∈ (Chat.start state).calls, P call :=
    fun call hcall => absurd hcall List.not_mem_nil
  have hnoneOn {P : Call π → Prop} (sessionId : String) :
      ∀ call ∈ (Chat.start state).callsOn sessionId, P call :=
    fun call hcall => absurd hcall List.not_mem_nil
  constructor
  · constructor
    · intro session hsession
      exact ⟨session, hsession, rfl, (List.append_nil _).symm, fun _ => rfl⟩
    · exact hnone
    · intro session hsession
      rw [hidle session hsession]
      exact ⟨fun htrue => absurd htrue Bool.false_ne_true,
        fun ⟨c, hc, _⟩ => absurd hc List.not_mem_nil⟩
    · exact fun session _ => hnoneOn session.id
  · exact hids
  · exact hnone
  · exact hnone
  · exact hnone
  · exact hnone
  · exact List.nodup_nil
  · exact hnone

end Invariant

/-- In every run of orderly operations, calls leave the messages of one another and of other
sessions alone, each event is recorded once at the message of its call, a session is busy while a
call on it has not ended, and no message of a call that has ended is marked as streaming. -/
theorem consistent_of_orderly {π : Type} {state : ChatState π}
    (hids : (state.sessions.map (·.id)).Nodup)
    (hidle : ∀ session ∈ state.sessions, session.isBusy = false) {operations : List (Operation π)}
    (horderly : chatSystem.Always Orderly (Chat.start state) operations) :
    Consistent (chatSystem.after (Chat.start state) operations) :=
  (System.invariant (fun _ _ => Invariant.step) horderly
    (invariant_start hids hidle)).toConsistent

/-- A store with one session. -/
def oneSession : ChatState Unit where
  sessions := [createChatSession 1 "1" "1" "now"]
  activeSessionId := some "session_1"

/-- A call whose stream ends with `done`. -/
def doneCall : List (Operation Unit) :=
  [.send (js "hi") "1" "1" "now", .receive 0 ⟨.content, some (js "hello"), ()⟩ js "now",
    .receive 0 ⟨.done, none, ()⟩ js "now", .finish 0 "now"]

theorem consistent_doneCall : Consistent (chatSystem.after (Chat.start oneSession) doneCall) :=
  consistent_of_orderly (by decide +kernel) (by decide +kernel) (by decide +kernel)

/-- A call whose stream ends without `done`. -/
def openCall : List (Operation Unit) :=
  [.send (js "hi") "1" "1" "now", .receive 0 ⟨.content, some (js "hello"), ()⟩ js "now",
    .finish 0 "now"]

/-- A call that ends while another one is under way in its session. -/
def overlappingCalls : List (Operation Unit) :=
  [.send (js "hi") "1" "1" "now", .send (js "ho") "2" "2" "now",
    .receive 0 ⟨.done, none, ()⟩ js "now", .finish 0 "now"]

/-- The message of the one call stays marked as streaming, and the session of the other two is not
busy although one of them has not ended. -/
theorem not_consistent :
    ¬Consistent (chatSystem.after (Chat.start oneSession) openCall) ∧
      ¬Consistent (chatSystem.after (Chat.start oneSession) overlappingCalls) := by
  constructor
  · intro h
    have hmarked : ((chatSystem.after (Chat.start oneSession) openCall).state.sessions.any
        fun session =>
          ((chatSystem.after (Chat.start oneSession) openCall).callsOn session.id).any fun call =>
            call.ended && call.asstMessage.isStreaming == some true) = true := by decide +kernel
    obtain ⟨session, hsession, hcalls⟩ := List.any_eq_true.mp hmarked
    obtain ⟨call, hcall, hboth⟩ := List.any_eq_true.mp hcalls
    obtain ⟨hended, hstreaming⟩ := (Bool.and_eq_true _ _).mp hboth
    exact h.streaming session hsession call hcall hended (by simpa using hstreaming)
  · intro h
    have hidle : ((chatSystem.after (Chat.start oneSession) overlappingCalls).state.sessions.any
        fun session => !session.isBusy &&
          ((chatSystem.after (Chat.start oneSession) overlappingCalls).callsOn session.id).any
            fun call => !call.ended) = true := by decide +kernel
    obtain ⟨session, hsession, hboth⟩ := List.any_eq_true.mp hidle
    obtain ⟨hbusy, hcalls⟩ := (Bool.and_eq_true _ _).mp hboth
    obtain ⟨call, hcall, hended⟩ := List.any_eq_true.mp hcalls
    have htrue := (h.busy session hsession).mpr ⟨call, hcall, by simpa using hended⟩
    rw [htrue] at hbusy
    cases hbusy

end Trion.WebUi

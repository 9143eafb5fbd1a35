import Mathlib.Data.List.Basic
import Trion.WebUi.NdjsonParser

/-!
# The chat store

The sessions of the chat and what `sendMessage` does to them: a call puts two messages at the end
of the active session, takes the events of its stream into the second one and marks the session and
the message while it runs.
-/

namespace Trion.WebUi

/-! ### Texts -/

/-- A JavaScript string: its UTF-16 code units. -/
abbrev JsString := List UInt16

/-- The code units of a character. -/
def utf16Units (c : Char) : JsString :=
  if c.toNat < 0x10000 then [c.toNat.toUInt16]
  else [(0xD800 + (c.toNat - 0x10000) / 0x400).toUInt16,
    (0xDC00 + (c.toNat - 0x10000) % 0x400).toUInt16]

/-- A literal. -/
def js (s : String) : JsString := s.toList.flatMap utf16Units

/-- The code unit is white space. -/
def isSpaceUnit (u : UInt16) : Bool := isJsSpace (Char.ofNat u.toNat)

/-- `trimEnd`. -/
def trimEnd (s : JsString) : JsString := (s.reverse.dropWhile isSpaceUnit).reverse

/-- `trim`. -/
def trim (s : JsString) : JsString := trimEnd (s.dropWhile isSpaceUnit)

/-- `replace(/\s+/g, ' ')`. -/
def compactSpace : JsString → JsString
  | [] => []
  | u :: us =>
    if isSpaceUnit u then
      match us with
      | next :: _ => if isSpaceUnit next then compactSpace us else js " " ++ compactSpace us
      | [] => js " "
    else u :: compactSpace us

/-- `deriveSessionTitleFromMessage`. -/
def deriveSessionTitleFromMessage (content fallback : JsString) : JsString :=
  let trimmed := trim content
  if trimmed = [] then fallback
  else
    let compact := compactSpace trimmed
    if compact.length ≤ 32 then compact else trimEnd (compact.take 32) ++ js "…"

/-- `uniqueToken`, for the time and the random letters that it comes upon. -/
def uniqueToken (start token : String) : String := start ++ "_" ++ token

/-! ### Data -/

inductive ChatEventType where
  | content
  | finalContent
  | done
  | error
  | rejected
  | blocked
  | status
  | classifierResult
  | routingTrace
  | thinkingPlan
  | verifierResult
  | taskLoopState
  | taskLoopWaiting
  | toolStart
  | toolResult
  | workspaceUpdate
  | progressUtterance
  | replanTrace
  | taskLoopProvenance
deriving DecidableEq, Repr

/-- An event: its `content`, where it has one that is a string, and its other fields. -/
structure ChatEvent (π : Type) where
  type : ChatEventType
  content : Option JsString
  fields : π

inductive Role where
  | user
  | assistant
deriving DecidableEq, Repr

structure Message (π : Type) where
  id : String
  role : Role
  content : JsString
  isStreaming : Option Bool := none
  events : List (ChatEvent π)

structure ChatSession (π : Type) where
  id : String
  conversationId : String
  title : JsString
  messages : List (Message π)
  isBusy : Bool
  updatedAt : String

structure ChatState (π : Type) where
  sessions : List (ChatSession π)
  activeSessionId : Option String

/-- A message of the request. -/
structure ChatMessage where
  role : Role
  content : JsString
deriving DecidableEq, Repr

variable {π : Type}

/-! ### Sessions -/

/-- `findSessionIndex`; `-1` is `none`. -/
def findSessionIndex (sessions : List (ChatSession π)) : Option String → Option ℕ
  | none => none
  | some sessionId =>
    if sessionId = "" then none else sessions.findIdx? fun session => session.id = sessionId

/-- `getActiveSession`. -/
def getActiveSession (sessions : List (ChatSession π)) (activeSessionId : Option String) :
    Option (ChatSession π) :=
  (findSessionIndex sessions activeSessionId).bind fun index => sessions[index]?

/-- `createSessionTitle`. -/
def createSessionTitle (index : ℕ) : JsString :=
  if index ≤ 1 then js "Neuer Chat" else js s!"Neuer Chat {index}"

/-- `createChatSession`. -/
def createChatSession (index : ℕ) (sessionToken conversationToken now : String) :
    ChatSession π where
  id := uniqueToken "session" sessionToken
  conversationId := uniqueToken "conv" conversationToken
  title := createSessionTitle index
  messages := []
  isBusy := false
  updatedAt := now

namespace ChatState

/-- `createSession`. -/
def createSession (state : ChatState π) (session : ChatSession π) : ChatState π where
  sessions := session :: state.sessions
  activeSessionId := some session.id

/-- `activateSession`. -/
def activateSession (state : ChatState π) (sessionId : String) : ChatState π :=
  if findSessionIndex state.sessions (some sessionId) = none then state
  else { state with activeSessionId := some sessionId }

/-- `closeSession`. -/
def closeSession (state : ChatState π) (sessionId : String) : ChatState π :=
  if state.sessions.length ≤ 1 then state
  else
    match findSessionIndex state.sessions (some sessionId) with
    | none => state
    | some closingIndex =>
      let sessions := state.sessions.filter fun session => session.id ≠ sessionId
      let next := (sessions[closingIndex - 1]?).or sessions.head?
      { sessions
        activeSessionId :=
          if state.activeSessionId = some sessionId then next.map (·.id)
          else state.activeSessionId }

/-- `sessions.map`, where the session with the identifier is another one. -/
def mapSession (state : ChatState π) (sessionId : String)
    (update : ChatSession π → ChatSession π) : ChatState π :=
  { state with
    sessions := state.sessions.map fun session =>
      if session.id = sessionId then update session else session }

end ChatState

/-! ### The updates of a call -/

/-- The first message with the identifier is another one. -/
def updateFound (id : String) (update : Message π → Message π) :
    List (Message π) → List (Message π)
  | [] => []
  | message :: messages =>
    if message.id = id then update message :: messages
    else message :: updateFound id update messages

/-- `getEventContent`. -/
def getEventContent (event : ChatEvent π) : JsString := event.content.getD []

/-- `getErrorContent`. -/
def getErrorContent (event : ChatEvent π) : JsString :=
  if event.type ≠ .error then [] else event.content.getD []

/-- What an event does to the message of its call. -/
def recordEvent (translate : String → JsString) (event : ChatEvent π) (message : Message π) :
    Message π :=
  let message := { message with events := message.events ++ [event] }
  match event.type with
  | .content => { message with content := message.content ++ getEventContent event }
  | .finalContent => { message with content := getEventContent event }
  | .error =>
    let errContent := getErrorContent event
    if errContent = [] then message
    else
      { message with
        content := message.content ++
          (js "\n\n**" ++ translate "chat.error" ++ js ":** " ++ errContent) }
  | .done => { message with isStreaming := some false }
  | _ => message

/-- What an error of the stream does to the message of its call. -/
def recordError (translate : String → JsString) (errMsg : JsString) (message : Message π) :
    Message π :=
  { message with
    isStreaming := some false
    content := if message.content = [] then
        js "**" ++ translate "chat.connectionError" ++ js ":** " ++ errMsg
      else message.content }

/-- The session with the two messages of a call, which is under way. -/
def beginCall (content : JsString) (timestamp : String) (userMessage asstMessage : Message π)
    (session : ChatSession π) : ChatSession π :=
  { session with
    isBusy := true
    title := if session.messages = [] then deriveSessionTitleFromMessage content session.title
      else session.title
    updatedAt := timestamp
    messages := session.messages ++ [userMessage, asstMessage] }

/-- An event of the stream of a call. -/
def takeEvent (asstMsgId : String) (translate : String → JsString) (event : ChatEvent π)
    (now : String) (session : ChatSession π) : ChatSession π :=
  if session.messages.any fun message => message.id = asstMsgId then
    { session with
      messages := updateFound asstMsgId (recordEvent translate event) session.messages
      updatedAt := now }
  else session

/-- The end of a call by an error. -/
def takeError (asstMsgId : String) (translate : String → JsString) (errMsg : JsString)
    (now : String) (session : ChatSession π) : ChatSession π :=
  { session with
    isBusy := false
    messages := updateFound asstMsgId (recordError translate errMsg) session.messages
    updatedAt := now }

/-- The end of a call with its stream. -/
def takeEnd (now : String) (session : ChatSession π) : ChatSession π :=
  { session with isBusy := false, updatedAt := now }

end Trion.WebUi

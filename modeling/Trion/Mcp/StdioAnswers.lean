import Mathlib.Data.List.Basic
import Trion.Library.Slots
import Trion.Mcp.StdioTransport

/-!
# Answers belong to their requests

The transport takes whatever comes next from its queue for the answer to the request it waits
for.  Requests one after the other get their own answers as long as no wait ends before its
answer has come and the server writes nothing but answers: then at most one answer is on its way
at any time, and it is the one that is waited for.
-/

namespace Trion.Mcp

open Trion.Python OperationRun System

variable {dictText : PyDict → String} {events : List StdioEvent} {t : STDIOTransport}
  {call process : ℕ} {phase : CallPhase} {message : StdioMessage} {result : Except String Unit}

/-- A request that ends with an answer ends with the line that was written as the answer to it. -/
def AnswersBelong (events : List StdioEvent) : Prop :=
  ∀ call ticket received outcome, .answered call ticket received outcome ∈ events →
    outcome.status = .ok → ∃ line, received = .line line ∧ line.answerTo = some ticket

/-- Only requests are called. -/
def RequestsOnly (step : StdioStep) : Prop :=
  ∀ operation ∈ step.begun?, operation.isRequest = true

/-- The reader has ended. -/
def ReaderPhase.isEnded : ReaderPhase → Bool
  | .ended => true
  | _ => false

/-- The step ends a wait without an answer. -/
def StdioStep.timesOut : StdioStep → Bool
  | .timeOut _ => true
  | _ => false

/-- The step is a server's, and answers nothing. -/
def StdioStep.isNotice : StdioStep → Bool
  | .notify .. => true
  | _ => false

/-- No wait ends while a reader may still bring the answer. -/
def NoLateAnswers (t : STDIOTransport) (step : StdioStep) : Prop :=
  step.timesOut = true → ∀ reader ∈ t.readers, reader.isEnded = true

instance (step : StdioStep) : Decidable (RequestsOnly step) :=
  inferInstanceAs (Decidable (∀ operation ∈ step.begun?, _))

instance (t : STDIOTransport) : DecidablePred (NoLateAnswers t) := fun _ =>
  inferInstanceAs (Decidable (_ → _))

/-! ### Answers on their way -/

/-- The number of the request whose answer the call waits for. -/
def CallPhase.awaited : CallPhase → List (Option ℕ)
  | .awaitingInitialize _ _ ticket => [some ticket]
  | .awaiting ticket => [some ticket]
  | _ => []

/-- The request that the line in the queue was written as the answer to. -/
def Received.answers? : Received → Option (Option ℕ)
  | .line written => some written.answerTo
  | _ => none

/-- What the process has written and nobody has read, and what it is going to write. -/
def ServerProcess.unread (server : ServerProcess) : List (Option ℕ) :=
  server.stdout.map (·.answerTo) ++ server.inbox.map some

namespace STDIOTransport

/-- What is in the queue. -/
def queued (t : STDIOTransport) : List (Option ℕ) := t.responseQueue.filterMap Received.answers?

/-- What a reader may still bring. -/
def unread (t : STDIOTransport) : List (Option ℕ) := t.servers.flatMap ServerProcess.unread

/-- A reader goes on. -/
def readsOn (t : STDIOTransport) : Bool := t.readers.any fun reader => !reader.isEnded

/-- How many answers to a request are on their way. -/
def supply (t : STDIOTransport) (answerTo : Option ℕ) : ℕ :=
  t.queued.count answerTo + if t.readsOn then t.unread.count answerTo else 0

end STDIOTransport

/-- The call is in `shutdown`. -/
def CallPhase.isShutdown : CallPhase → Bool
  | .stopping => true
  | .stopped => true
  | .terminating => true
  | .clearing => true
  | _ => false

/-- The call has started a process and no reader. -/
def CallPhase.launches : CallPhase → Bool
  | .popened .. => true
  | .running .. => true
  | _ => false

/-- There is one reader at most; it puts lines into the queue until it fails. -/
structure ReaderSound (t : STDIOTransport) : Prop where
  one : t.readers.length ≤ 1
  lines : t.readsOn = true → ∀ received ∈ t.responseQueue, received.isLine = true
  ordered : t.responseQueue.Pairwise fun earlier later =>
    later.isLine = true → earlier.isLine = true

/-- Nothing has been written and nothing can be read. -/
structure Unstarted (t : STDIOTransport) : Prop where
  readers : t.readers = []
  unread : t.unread = []
  queue : t.responseQueue = []

/-- What is on its way is what the last call waits for. -/
structure Matched (events : List StdioEvent) (t : STDIOTransport) : Prop where
  belong : AnswersBelong events
  last : ∀ phase ∈ t.calls.dropLast, phase.isDone = true
  requests : ∀ phase ∈ t.calls, phase.isShutdown = false
  own : ∀ answerTo, t.supply answerTo ≤ (t.calls.flatMap CallPhase.awaited).count answerTo
  reader : ReaderSound t
  held : ∀ phase ∈ t.calls, phase.launches = true → t.process.isSome = true
  fresh : t.process = none ∨ (∃ phase ∈ t.calls, phase.launches = true) → Unstarted t

lemma matched_empty : Matched [] {} := by
  constructor
  case belong => simp [AnswersBelong]
  case last => simp
  case requests => simp
  case own => exact fun answerTo => Nat.le_refl 0
  case reader => exact ⟨Nat.zero_le 1, by simp, List.Pairwise.nil⟩
  case held => simp
  case fresh => exact fun _ => ⟨rfl, rfl, rfl⟩

/-! ### The active call -/

/-- Where a call is not done, it is the last one and the others are. -/
lemma exists_active {calls : List CallPhase} (hlast : ∀ phase ∈ calls.dropLast, phase.isDone = true)
    (hphase : calls[call]? = some phase) (hactive : phase.isDone = false) :
    ∃ earlier, calls = earlier ++ [phase] ∧ call = earlier.length ∧
      ∀ other ∈ earlier, other.isDone = true := by
  rcases List.eq_nil_or_concat calls with rfl | ⟨earlier, final, rfl⟩
  · simp at hphase
  · rw [List.concat_eq_append] at hlast hphase ⊢
    rw [List.dropLast_concat] at hlast
    rw [List.getElem?_append] at hphase
    split at hphase
    · rw [hlast phase (List.mem_of_getElem? hphase)] at hactive
      simp at hactive
    · rw [List.getElem?_singleton] at hphase
      split at hphase
      · obtain rfl := Option.some.inj hphase
        exact ⟨earlier, rfl, by omega, hlast⟩
      · simp at hphase

lemma awaited_of_done {calls : List CallPhase} (h : ∀ phase ∈ calls, phase.isDone = true) :
    calls.flatMap CallPhase.awaited = [] := by
  refine List.flatMap_eq_nil_iff.mpr fun phase hphase => ?_
  rw [eq_done_of_isDone (h phase hphase)]
  rfl

/-- What is on its way is what the active call waits for. -/
lemma Matched.own_of_active (h : Matched events t) (hphase : t.calls[call]? = some phase)
    (hactive : phase.isDone = false) (answerTo : Option ℕ) :
    t.supply answerTo ≤ phase.awaited.count answerTo := by
  obtain ⟨earlier, hcalls, -, hdone⟩ := exists_active h.last hphase hactive
  have hown := h.own answerTo
  rw [hcalls, List.flatMap_append, awaited_of_done hdone, List.nil_append,
    List.flatMap_singleton] at hown
  exact hown

/-- The active call goes on. -/
lemma Matched.move (h : Matched events t) (hphase : t.calls[call]? = some phase)
    (hactive : phase.isDone = false) {t' : STDIOTransport} {new : List StdioEvent}
    {phase' : CallPhase} (hcalls : t'.calls = t.calls.set call phase')
    (hrequest : phase'.isShutdown = false) (hbelong : AnswersBelong (events ++ new))
    (hown : ∀ answerTo, t'.supply answerTo ≤ phase'.awaited.count answerTo)
    (hreader : ReaderSound t') (hheld : phase'.launches = true → t'.process.isSome = true)
    (hfresh : t'.process = none ∨ phase'.launches = true → Unstarted t') :
    Matched (events ++ new) t' := by
  obtain ⟨earlier, hold, rfl, hdone⟩ := exists_active h.last hphase hactive
  have hnew : t'.calls = earlier ++ [phase'] := by
    rw [hcalls, hold, List.set_append_right _ _ (Nat.le_refl _), Nat.sub_self, List.set_cons_zero]
  have hlaunches : ∀ other ∈ earlier, other.launches = false := by
    intro other hother
    rw [eq_done_of_isDone (hdone other hother)]
    rfl
  constructor
  case belong => exact hbelong
  case last =>
    rw [hnew, List.dropLast_concat]
    exact hdone
  case requests =>
    rw [hnew]
    intro other hother
    rcases List.mem_append.mp hother with hother | hother
    · rw [eq_done_of_isDone (hdone other hother)]
      rfl
    · rw [List.mem_singleton.mp hother]
      exact hrequest
  case own =>
    intro answerTo
    rw [hnew, List.flatMap_append, awaited_of_done hdone, List.nil_append, List.flatMap_singleton]
    exact hown answerTo
  case reader => exact hreader
  case held =>
    rw [hnew]
    intro other hother hother'
    rcases List.mem_append.mp hother with hother | hother
    · rw [hlaunches other hother] at hother'
      simp at hother'
    · exact hheld (List.mem_singleton.mp hother ▸ hother')
  case fresh =>
    rw [hnew]
    rintro (hnone | ⟨other, hother, hother'⟩)
    · exact hfresh (.inl hnone)
    · rcases List.mem_append.mp hother with hother | hother
      · rw [hlaunches other hother] at hother'
        simp at hother'
      · exact hfresh (.inr (List.mem_singleton.mp hother ▸ hother'))

/-- Readers and servers go on. -/
lemma Matched.of_environment (h : Matched events t) {t' : STDIOTransport}
    (hcalls : t'.calls = t.calls) (hprocess : t'.process = t.process)
    (hown : ∀ answerTo, t'.supply answerTo ≤ t.supply answerTo) (hreader : ReaderSound t')
    (hbusy : t.readers ≠ [] ∨ t.unread ≠ []) : Matched events t' := by
  constructor
  case belong => exact h.belong
  case last => exact hcalls ▸ h.last
  case requests => exact hcalls ▸ h.requests
  case own =>
    rw [hcalls]
    exact fun answerTo => (hown answerTo).trans (h.own answerTo)
  case reader => exact hreader
  case held => rw [hcalls, hprocess]; exact h.held
  case fresh =>
    rw [hcalls, hprocess]
    intro hbefore
    have hnothing := h.fresh hbefore
    rcases hbusy with hbusy | hbusy
    · exact absurd hnothing.readers hbusy
    · exact absurd hnothing.unread hbusy

/-! ### Steps of calls -/

lemma AnswersBelong.append_silent (h : AnswersBelong events) {new : List StdioEvent}
    (hsilent : ∀ call ticket received outcome,
      StdioEvent.answered call ticket received outcome ∉ new) : AnswersBelong (events ++ new) := by
  intro call ticket received outcome hmem
  rcases List.mem_append.mp hmem with hmem | hmem
  · exact h call ticket received outcome hmem
  · exact absurd hmem (hsilent call ticket received outcome)

/-- The call goes on to a phase in which it waits for nothing, and leaves alone what is on its
way. -/
lemma matched_quiet (h : Matched events t) (hphase : t.calls[call]? = some phase)
    (hactive : phase.isDone = false) (hawaits : phase.awaited = []) {t' : STDIOTransport}
    {new : List StdioEvent} {phase' : CallPhase} (hcalls : t'.calls = t.calls.set call phase')
    (hqueue : t'.responseQueue = t.responseQueue) (hreaders : t'.readers = t.readers)
    (hservers : t'.unread = t.unread) (hrequest : phase'.isShutdown = false)
    (hsilent : ∀ call ticket received outcome,
      StdioEvent.answered call ticket received outcome ∉ new)
    (hheld : phase'.launches = true → t'.process.isSome = true)
    (hfresh : t'.process = none ∨ phase'.launches = true →
      t.process = none ∨ phase.launches = true) : Matched (events ++ new) t' := by
  have hsupply : ∀ answerTo, t'.supply answerTo = t.supply answerTo := by
    intro answerTo
    unfold STDIOTransport.supply STDIOTransport.queued STDIOTransport.readsOn
    rw [hqueue, hreaders, hservers]
  refine h.move hphase hactive hcalls hrequest (h.belong.append_silent hsilent) ?_ ?_ hheld ?_
  · intro answerTo
    have hown := h.own_of_active hphase hactive answerTo
    rw [hawaits] at hown
    rw [hsupply]
    exact hown.trans (Nat.zero_le _)
  · constructor
    case one => exact hreaders ▸ h.reader.one
    case lines =>
      unfold STDIOTransport.readsOn
      rw [hreaders, hqueue]
      exact h.reader.lines
    case ordered => exact hqueue ▸ h.reader.ordered
  · intro hnow
    have hnothing := h.fresh ((hfresh hnow).imp_right fun hlaunches =>
      ⟨phase, List.mem_of_getElem? hphase, hlaunches⟩)
    exact ⟨hreaders.trans hnothing.readers, hservers.trans hnothing.unread,
      hqueue.trans hnothing.queue⟩

/-- A request ends with an exception. -/
lemma matched_fail (h : Matched events t) (hphase : t.calls[call]? = some phase)
    (hactive : phase.isDone = false) (hawaits : phase.awaited = []) (text : String) :
    Matched (events ++ (t.fail call text).2) (t.fail call text).1 :=
  matched_quiet h hphase hactive hawaits rfl rfl rfl rfl rfl (by simp [STDIOTransport.fail])
    (by simp [CallPhase.launches]) fun hnow =>
      .inl (hnow.resolve_right (by simp [CallPhase.launches]))

lemma matched_failStart (h : Matched events t) (hphase : t.calls[call]? = some phase)
    (hactive : phase.isDone = false) (hawaits : phase.awaited = []) (text : String) :
    Matched (events ++ (t.failStart call process text).2) (t.failStart call process text).1 :=
  matched_quiet h hphase hactive hawaits rfl rfl rfl rfl rfl (by simp [STDIOTransport.failStart])
    (by simp [CallPhase.launches]) fun hnow =>
      .inl (hnow.resolve_right (by simp [CallPhase.launches]))

lemma matched_starting (h : Matched events t)
    (hphase : t.calls[call]? = some (.starting message)) :
    Matched (events ++ (t.advance call result).2) (t.advance call result).1 := by
  cases hprocess : t.process with
  | some process =>
    simp only [STDIOTransport.advance, hphase, hprocess]
    exact matched_quiet h hphase rfl rfl rfl rfl rfl rfl rfl (by simp)
      (by simp [CallPhase.launches])
      (by simp [CallPhase.launches, hprocess, STDIOTransport.setCall])
  | none =>
    cases result with
    | error text =>
      simp only [STDIOTransport.advance, hphase, hprocess]
      exact matched_fail h hphase rfl rfl text
    | ok _ =>
      simp only [STDIOTransport.advance, hphase, hprocess]
      refine matched_quiet h hphase rfl rfl rfl rfl rfl ?_ rfl (by simp) (fun _ => rfl)
        fun _ => .inl hprocess
      show (t.servers ++ [ServerProcess.mk [] []]).flatMap ServerProcess.unread = _
      rw [List.flatMap_append]
      exact List.append_nil _

lemma matched_popened (h : Matched events t)
    (hphase : t.calls[call]? = some (.popened message process)) :
    Matched (events ++ (t.advance call result).2) (t.advance call result).1 := by
  simp only [STDIOTransport.advance, hphase]
  exact matched_quiet h hphase rfl rfl rfl rfl rfl rfl rfl (by simp)
    (fun _ => h.held _ (List.mem_of_getElem? hphase) rfl) fun _ => .inr rfl

/-- The reader thread is started before anything is written. -/
lemma matched_running (h : Matched events t)
    (hphase : t.calls[call]? = some (.running message process)) :
    Matched (events ++ (t.advance call result).2) (t.advance call result).1 := by
  have hmem := List.mem_of_getElem? hphase
  cases result with
  | error text =>
    simp only [STDIOTransport.advance, hphase]
    exact matched_failStart h hphase rfl rfl text
  | ok _ =>
    have hnothing := h.fresh (.inr ⟨_, hmem, rfl⟩)
    have hprocess := h.held _ hmem rfl
    simp only [STDIOTransport.advance, hphase]
    refine h.move hphase rfl rfl rfl (h.belong.append_silent (by simp)) ?_ ?_
      (by simp [CallPhase.launches]) ?_
    · intro answerTo
      have hown := h.own_of_active hphase rfl answerTo
      have hunread : STDIOTransport.unread
          ({ t with readers := t.readers ++ [ReaderPhase.atLoop] }.setCall call
            (.initializing message process)) = [] := hnothing.unread
      unfold STDIOTransport.supply at hown ⊢
      rw [hunread, List.count_nil, ite_self]
      exact (Nat.le_add_right _ _).trans hown
    · constructor
      case one =>
        show (t.readers ++ [ReaderPhase.atLoop]).length ≤ 1
        rw [hnothing.readers]
        exact Nat.le_refl 1
      case lines =>
        show _ → ∀ received ∈ t.responseQueue, _
        rw [hnothing.queue]
        simp
      case ordered => exact h.reader.ordered
    · rintro (hnone | hlaunches)
      · change t.process = none at hnone
        rw [hnone] at hprocess
        simp at hprocess
      · simp [CallPhase.launches] at hlaunches

/-- What a process receives is one request more to answer, if it is a request. -/
lemma count_unread_written (t : STDIOTransport) (message : StdioMessage) (target : ℕ)
    (answerTo : Option ℕ) : (t.written message target).unread.count answerTo ≤
      t.unread.count answerTo + [some t.nextTicket].count answerTo := by
  unfold STDIOTransport.written
  split
  · unfold STDIOTransport.unread
    cases hserver : t.servers[target]? with
    | none =>
      dsimp only
      rw [List.modify_eq_self (List.getElem?_eq_none_iff.mp hserver)]
      exact Nat.le_add_right _ _
    | some server =>
      have hmodify : t.servers.modify target
          (fun s => { s with inbox := s.inbox ++ [t.nextTicket] }) =
          t.servers.set target { server with inbox := server.inbox ++ [t.nextTicket] } := by
        refine List.ext_getElem? fun i => ?_
        rw [List.getElem?_modify, List.getElem?_set]
        split
        · rename_i heq
          subst heq
          rw [hserver, if_pos (List.getElem?_eq_some_iff.mp hserver).1]
          rfl
        · simp
      have hmoved := Slots.count_flatMap_set hserver ServerProcess.unread
        { server with inbox := server.inbox ++ [t.nextTicket] } answerTo
      have hmore : ServerProcess.unread { server with inbox := server.inbox ++ [t.nextTicket] } =
          server.unread ++ [some t.nextTicket] := by
        simp [ServerProcess.unread]
      rw [hmore, List.count_append] at hmoved
      dsimp only
      rw [hmodify]
      omega
  · exact Nat.le_add_right _ _

/-- A request is written: its answer is what the call waits for from then on. -/
lemma matched_written (h : Matched events t) (hphase : t.calls[call]? = some phase)
    (hactive : phase.isDone = false) (hawaits : phase.awaited = []) {target : ℕ}
    (htarget : t.process = some target) {phase' : CallPhase} {new : List StdioEvent}
    (hawaits' : phase'.awaited = [some t.nextTicket]) (hrequest : phase'.isShutdown = false)
    (hlaunches : phase'.launches = false)
    (hsilent : ∀ call ticket received outcome,
      StdioEvent.answered call ticket received outcome ∉ new) :
    Matched (events ++ new) ((t.written message target).setCall call phase') := by
  have hcalls : ((t.written message target).setCall call phase').calls =
      t.calls.set call phase' := by
    show (t.written message target).calls.set call phase' = _
    rw [written_calls]
  refine h.move hphase hactive hcalls hrequest (h.belong.append_silent hsilent) ?_ ?_ ?_ ?_
  · intro answerTo
    have hown := h.own_of_active hphase hactive answerTo
    have hmore := count_unread_written t message target answerTo
    rw [hawaits, List.count_nil] at hown
    rw [hawaits']
    unfold STDIOTransport.supply STDIOTransport.queued STDIOTransport.readsOn at hown ⊢
    change (List.filterMap _ (t.written message target).responseQueue).count answerTo +
      (if (t.written message target).readers.any _ = true then
        (t.written message target).unread.count answerTo else 0) ≤ _
    rw [written_responseQueue, written_readers]
    split at hown
    · rename_i hreads
      rw [if_pos hreads]
      omega
    · rename_i hreads
      rw [if_neg hreads]
      omega
  · constructor
    case one =>
      show (t.written message target).readers.length ≤ 1
      rw [written_readers]
      exact h.reader.one
    case lines =>
      show (t.written message target).readers.any _ = true →
        ∀ received ∈ (t.written message target).responseQueue, _
      rw [written_readers, written_responseQueue]
      exact h.reader.lines
    case ordered =>
      show (t.written message target).responseQueue.Pairwise _
      rw [written_responseQueue]
      exact h.reader.ordered
  · rw [hlaunches]
    simp
  · rintro (hnone | hlaunch)
    · change (t.written message target).process = none at hnone
      rw [written_process, htarget] at hnone
      simp at hnone
    · rw [hlaunches] at hlaunch
      simp at hlaunch

lemma matched_advance (h : Matched events t) :
    Matched (events ++ (t.advance call result).2) (t.advance call result).1 := by
  have hsame : t.advance call result = (t, []) →
      Matched (events ++ (t.advance call result).2) (t.advance call result).1 := by
    intro hstep
    rw [hstep, List.append_nil]
    exact h
  cases hphase : t.calls[call]? with
  | none => exact hsame (by simp only [STDIOTransport.advance, hphase])
  | some phase =>
    have hrequest := h.requests phase (List.mem_of_getElem? hphase)
    cases phase with
    | starting message => exact matched_starting h hphase
    | popened message process => exact matched_popened h hphase
    | running message process => exact matched_running h hphase
    | initializing message process =>
      simp only [STDIOTransport.advance, hphase]
      split
      · exact matched_failStart h hphase rfl rfl _
      · rename_i hwrite
        obtain ⟨htarget, rfl⟩ := writePayload_ok hwrite
        exact matched_written h hphase rfl rfl htarget rfl rfl rfl (by simp)
    | acknowledging message process received =>
      simp only [STDIOTransport.advance, hphase]
      split
      · exact matched_failStart h hphase rfl rfl _
      · rename_i t' hwrite
        obtain ⟨htarget, ht'⟩ := writePayload_ok hwrite
        -- a notification is nothing to answer
        have hsame' : t' = t := ht'.trans (if_neg (by decide))
        rw [hsame']
        exact matched_quiet h hphase rfl rfl rfl rfl rfl rfl rfl (by simp)
          (by simp [CallPhase.launches])
          (by simp [CallPhase.launches, htarget, STDIOTransport.setCall])
    | sending message =>
      simp only [STDIOTransport.advance, hphase]
      split
      · exact matched_fail h hphase rfl rfl _
      · rename_i hwrite
        obtain ⟨htarget, rfl⟩ := writePayload_ok hwrite
        exact matched_written h hphase rfl rfl htarget rfl rfl rfl (by simp)
    | awaitingInitialize => exact hsame (by simp only [STDIOTransport.advance, hphase])
    | awaiting ticket => exact hsame (by simp only [STDIOTransport.advance, hphase])
    | done => exact hsame (by simp only [STDIOTransport.advance, hphase])
    | stopping => simp [CallPhase.isShutdown] at hrequest
    | stopped => simp [CallPhase.isShutdown] at hrequest
    | terminating => simp [CallPhase.isShutdown] at hrequest
    | clearing => simp [CallPhase.isShutdown] at hrequest

/-- A wait ends with nothing left on its way; if it ends with a line, this is the answer. -/
lemma matched_receive (h : Matched events t) {received : Received} {queue : List Received}
    (hphase : t.calls[call]? = some phase) {ticket : ℕ} (hawaits : phase.awaited = [some ticket])
    (hactive : phase.isDone = false) (hsound : ReaderSound { t with responseQueue := queue })
    (hqueue : ∀ other ∈ queue, other ∈ t.responseQueue)
    (hnothing : ∀ answerTo, STDIOTransport.supply { t with responseQueue := queue } answerTo = 0)
    (hown : ∀ line, received = .line line → line.answerTo = some ticket) :
    Matched (events ++ ({ t with responseQueue := queue }.receive dictText call received).2)
      ({ t with responseQueue := queue }.receive dictText call received).1 := by
  have hmove : ∀ {phase' : CallPhase} {t' : STDIOTransport} {new : List StdioEvent},
      t' = { { t with responseQueue := queue } with
        calls := t.calls.set call phase', abandoned := t'.abandoned } →
      phase'.isShutdown = false → phase'.launches = false → AnswersBelong (events ++ new) →
      Matched (events ++ new) t' := by
    intro phase' t' new ht' hrequest hlaunches hbelong
    rw [ht']
    refine h.move hphase hactive rfl hrequest hbelong ?_ ?_ ?_ ?_
    · exact fun answerTo => (hnothing answerTo).le.trans (Nat.zero_le _)
    · exact ⟨hsound.one, hsound.lines, hsound.ordered⟩
    · rw [hlaunches]
      simp
    · rintro (hnone | hlaunch)
      · have hbefore := h.fresh (.inl hnone)
        refine ⟨hbefore.readers, hbefore.unread, List.eq_nil_iff_forall_not_mem.mpr ?_⟩
        intro other hother
        have hmem := hqueue other hother
        rw [hbefore.queue] at hmem
        exact List.not_mem_nil hmem
      · rw [hlaunches] at hlaunch
        simp at hlaunch
  cases phase with
  | awaitingInitialize message process number =>
    cases herror : initializeError dictText (outcomeFromReadObservation received.observation) with
    | none =>
      simp only [STDIOTransport.receive, hphase, herror]
      exact hmove rfl rfl rfl (h.belong.append_silent (by simp))
    | some text =>
      simp only [STDIOTransport.receive, hphase, herror]
      exact hmove rfl rfl rfl (h.belong.append_silent (by simp [STDIOTransport.failStart]))
  | awaiting number =>
    obtain rfl : number = ticket := Option.some.inj (List.singleton_inj.mp hawaits)
    simp only [STDIOTransport.receive, hphase]
    refine hmove rfl rfl rfl ?_
    intro caller number other outcome hmem hok
    rcases List.mem_append.mp hmem with hmem | hmem
    · exact h.belong caller number other outcome hmem hok
    · obtain ⟨-, rfl, rfl, rfl⟩ := StdioEvent.answered.inj (List.mem_singleton.mp hmem)
      obtain ⟨line, rfl⟩ := exists_line_of_ok hok
      exact ⟨line, rfl, hown line rfl⟩
  | _ => simp [CallPhase.awaited] at hawaits

/-- A call that is in `_wait_for_response` is not done. -/
lemma exists_waiting (h : t.waits call = true) :
    ∃ phase, t.calls[call]? = some phase ∧ phase.isDone = false ∧
      ∃ ticket, phase.awaited = [some ticket] := by
  unfold STDIOTransport.waits at h
  split at h
  · exact ⟨_, ‹_›, rfl, _, rfl⟩
  · exact ⟨_, ‹_›, rfl, _, rfl⟩
  · simp at h

/-- A wait takes what comes next. -/
lemma matched_take (h : Matched events t) (hwaits : t.waits call = true) {received : Received}
    {rest : List Received} (hqueue : t.responseQueue = received :: rest) :
    Matched (events ++ ({ t with responseQueue := rest }.receive dictText call received).2)
      ({ t with responseQueue := rest }.receive dictText call received).1 := by
  obtain ⟨phase, hphase, hactive, ticket, hawaits⟩ := exists_waiting hwaits
  have hown := h.own_of_active hphase hactive
  have hordered := hqueue ▸ h.reader.ordered
  rw [List.pairwise_cons] at hordered
  have hsound : ReaderSound { t with responseQueue := rest } := by
    refine ⟨h.reader.one, fun hreads other hother => ?_, hordered.2⟩
    exact h.reader.lines hreads other (hqueue ▸ List.mem_cons_of_mem _ hother)
  have hrest : ∀ other ∈ rest, other ∈ t.responseQueue := fun other hother =>
    hqueue ▸ List.mem_cons_of_mem _ hother
  have hqueued : t.queued = received.answers?.toList ++ rest.filterMap Received.answers? := by
    unfold STDIOTransport.queued
    rw [hqueue, List.filterMap_cons]
    cases received.answers? <;> rfl
  unfold STDIOTransport.supply at hown
  rw [hawaits, hqueued] at hown
  cases received with
  | line line =>
    -- the line is what is waited for, and nothing else is on its way
    have hanswers : (Received.line line).answers?.toList = [line.answerTo] := rfl
    rw [hanswers] at hown
    have hsame : line.answerTo = some ticket := by
      by_contra hne
      have hcount := hown line.answerTo
      have hzero : [some ticket].count line.answerTo = 0 :=
        List.count_eq_zero_of_not_mem (by simpa using hne)
      rw [List.count_append, List.count_singleton_self, hzero] at hcount
      omega
    refine matched_receive h hphase hawaits hactive hsound hrest (fun answerTo => ?_) ?_
    · have hcount := hown answerTo
      rw [hsame, List.count_append] at hcount
      unfold STDIOTransport.supply
      change (rest.filterMap Received.answers?).count answerTo +
        (if t.readsOn = true then t.unread.count answerTo else 0) = 0
      omega
    · intro other heq
      obtain rfl := Received.line.inj heq
      exact hsame
  | _ =>
    -- after a failure nothing comes any more
    refine matched_receive h hphase hawaits hactive hsound hrest (fun answerTo => ?_) (by simp)
    have hreads : t.readsOn = false := by
      by_contra hreads
      have := h.reader.lines (by simpa using hreads) _ (hqueue ▸ List.mem_cons_self)
      simp [Received.isLine] at this
    have hnone : rest.filterMap Received.answers? = [] := by
      refine List.filterMap_eq_nil_iff.mpr fun other hother => ?_
      have hlater := hordered.1 other hother
      cases other with
      | line line => simp [Received.isLine] at hlater
      | _ => rfl
    unfold STDIOTransport.supply
    change (rest.filterMap Received.answers?).count answerTo +
      (if t.readsOn = true then t.unread.count answerTo else 0) = 0
    rw [hnone, hreads]
    rfl

/-- A wait ends where no reader goes on. -/
lemma matched_timeOut (h : Matched events t) (hwaits : t.waits call = true)
    (hqueue : t.responseQueue = []) (hended : ∀ reader ∈ t.readers, reader.isEnded = true) :
    Matched (events ++ (t.receive dictText call .nothing).2)
      (t.receive dictText call .nothing).1 := by
  obtain ⟨phase, hphase, hactive, ticket, hawaits⟩ := exists_waiting hwaits
  have hsame : t = { t with responseQueue := t.responseQueue } := rfl
  rw [hsame]
  refine matched_receive h hphase hawaits hactive h.reader (fun _ hother => hother)
    (fun answerTo => ?_) (by simp)
  have hreads : t.readsOn = false := by
    unfold STDIOTransport.readsOn
    rw [List.any_eq_false]
    intro reader hreader
    rw [hended reader hreader]
    simp
  unfold STDIOTransport.supply STDIOTransport.queued
  change (t.responseQueue.filterMap Received.answers?).count answerTo +
    (if t.readsOn = true then t.unread.count answerTo else 0) = 0
  rw [hqueue, hreads]
  rfl

/-! ### Steps of readers and servers -/

lemma supply_le (t : STDIOTransport) (answerTo : Option ℕ) :
    t.supply answerTo ≤ t.queued.count answerTo + t.unread.count answerTo := by
  unfold STDIOTransport.supply
  split <;> omega

lemma readsOn_of_active {reader : ℕ} {at_ : ReaderPhase} (hreader : t.readers[reader]? = some at_)
    (hgoes : at_.isEnded = false) : t.readsOn = true :=
  List.any_eq_true.mpr ⟨at_, List.mem_of_getElem? hreader, by simp [hgoes]⟩

/-- A reader goes to another phase. -/
lemma matched_setReader (h : Matched events t) {reader : ℕ} {at_ : ReaderPhase}
    (hreader : t.readers[reader]? = some at_) (hgoes : at_.isEnded = false) (next : ReaderPhase) :
    Matched events (t.setReader reader next) := by
  have hreads := readsOn_of_active hreader hgoes
  refine h.of_environment rfl rfl (fun answerTo => ?_) ?_
    (.inl (List.ne_nil_of_mem (List.mem_of_getElem? hreader)))
  · unfold STDIOTransport.supply
    rw [if_pos hreads]
    refine Nat.add_le_add_left ?_ _
    split
    · exact Nat.le_refl _
    · exact Nat.zero_le _
  · constructor
    case one =>
      show (t.readers.set reader next).length ≤ 1
      rw [List.length_set]
      exact h.reader.one
    case lines => exact fun _ => h.reader.lines hreads
    case ordered => exact h.reader.ordered

/-- The reader fails: nothing is read any more. -/
lemma matched_failReader (h : Matched events t) {reader : ℕ} {at_ : ReaderPhase}
    (hreader : t.readers[reader]? = some at_) (text : String) :
    Matched events (t.failReader reader text) := by
  have hended : (t.failReader reader text).readsOn = false := by
    have hone := h.reader.one
    obtain ⟨hlt, -⟩ := List.getElem?_eq_some_iff.mp hreader
    obtain ⟨only, honly⟩ := List.length_eq_one_iff.mp (by omega : t.readers.length = 1)
    show (t.readers.set reader .ended).any _ = false
    rw [honly] at hlt ⊢
    obtain rfl : reader = 0 := by simpa using hlt
    rfl
  refine h.of_environment rfl rfl (fun answerTo => ?_) ?_
    (.inl (List.ne_nil_of_mem (List.mem_of_getElem? hreader)))
  · have hqueued : (t.failReader reader text).queued = t.queued := by
      show (t.responseQueue ++ [Received.failure text]).filterMap _ = _
      rw [List.filterMap_append]
      exact List.append_nil _
    unfold STDIOTransport.supply
    rw [hended, hqueued]
    exact Nat.add_le_add_left (Nat.zero_le _) _
  · constructor
    case one =>
      show (t.readers.set reader .ended).length ≤ 1
      rw [List.length_set]
      exact h.reader.one
    case lines =>
      rw [hended]
      simp
    case ordered =>
      show (t.responseQueue ++ [Received.failure text]).Pairwise _
      refine List.pairwise_append.mpr ⟨h.reader.ordered, List.pairwise_singleton _ _, ?_⟩
      intro earlier _ later hlater hline
      rw [List.mem_singleton.mp hlater] at hline
      simp [Received.isLine] at hline

/-- A line goes from the output of a process into the queue. -/
lemma matched_line (h : Matched events t) {reader : ℕ} {inbox : List ℕ} {line : ServerLine}
    {stdout : List ServerLine} (hreader : t.readers[reader]? = some (.reading process))
    (hserver : t.servers[process]? = some ⟨inbox, line :: stdout⟩) :
    Matched events (({ t with servers := t.servers.set process ⟨inbox, stdout⟩ }.put
      (.line line)).setReader reader .atLoop) := by
  have hreads := readsOn_of_active hreader rfl
  refine h.of_environment rfl rfl (fun answerTo => ?_) ?_
    (.inl (List.ne_nil_of_mem (List.mem_of_getElem? hreader)))
  · -- one more in the queue, one less to read
    have hmoved := Slots.count_flatMap_set hserver ServerProcess.unread ⟨inbox, stdout⟩ answerTo
    have hless : ServerProcess.unread ⟨inbox, line :: stdout⟩ =
        line.answerTo :: ServerProcess.unread ⟨inbox, stdout⟩ := rfl
    rw [hless, List.count_cons] at hmoved
    refine (supply_le _ answerTo).trans ?_
    unfold STDIOTransport.supply
    rw [if_pos hreads]
    change ((t.responseQueue ++ [Received.line line]).filterMap Received.answers?).count answerTo +
      ((t.servers.set process ⟨inbox, stdout⟩).flatMap ServerProcess.unread).count answerTo ≤
        t.queued.count answerTo + (t.servers.flatMap ServerProcess.unread).count answerTo
    rw [List.filterMap_append, List.count_append]
    change t.queued.count answerTo + [line.answerTo].count answerTo + _ ≤ _
    rw [List.count_singleton]
    omega
  · constructor
    case one =>
      show (t.readers.set reader .atLoop).length ≤ 1
      rw [List.length_set]
      exact h.reader.one
    case lines =>
      intro _ received hreceived
      rcases List.mem_append.mp hreceived with hold | hnew
      · exact h.reader.lines hreads received hold
      · rw [List.mem_singleton.mp hnew]
        rfl
    case ordered =>
      show (t.responseQueue ++ [Received.line line]).Pairwise _
      refine List.pairwise_append.mpr ⟨h.reader.ordered, List.pairwise_singleton _ _, ?_⟩
      exact fun earlier hearlier later _ _ => h.reader.lines hreads earlier hearlier

lemma matched_reader (h : Matched events t) (reader : ℕ) (ended : Bool) :
    Matched events (t.advanceReader reader ended) := by
  unfold STDIOTransport.advanceReader
  split
  · exact matched_setReader h ‹_› rfl _
  · split
    · exact matched_setReader h ‹_› rfl _
    · exact matched_failReader h ‹_› _
  · rename_i hreader
    split
    · exact matched_line h hreader ‹_›
    · exact matched_setReader h hreader rfl _
    · exact h
  · split
    · exact matched_failReader h ‹_› _
    · exact matched_setReader h ‹_› rfl _
  · exact h

/-- A process answers: what was to be written is written. -/
lemma matched_answer (h : Matched events t) (process : ℕ) (loaded : Option PyVal) :
    Matched events (t.answer process loaded) := by
  unfold STDIOTransport.answer
  split
  · rename_i ticket inbox stdout hserver
    have hsame : t.unread ≠ [] := by
      intro hnothing
      have hnone := List.flatMap_eq_nil_iff.mp hnothing _ (List.mem_of_getElem? hserver)
      simp [ServerProcess.unread] at hnone
    have hmoved : (t.servers.set process
        ⟨inbox, stdout ++ [⟨process, some ticket, loaded⟩]⟩).flatMap ServerProcess.unread =
        t.servers.flatMap ServerProcess.unread :=
      Slots.flatMap_set_of_eq hserver (by simp [ServerProcess.unread])
    refine h.of_environment rfl rfl (fun answerTo => ?_) ⟨h.reader.one, h.reader.lines,
      h.reader.ordered⟩ (.inr hsame)
    unfold STDIOTransport.supply STDIOTransport.unread
    dsimp only
    rw [hmoved]
    exact Nat.le_refl _
  · exact h

lemma matched_begin (h : Matched events t) {operation : StdioOperation}
    (hone : OneAtATime t (.begin operation)) (hrequest : RequestsOnly (.begin operation)) :
    Matched events { t with calls := t.calls ++ [STDIOTransport.firstPhase operation] } := by
  have hfirst : (STDIOTransport.firstPhase operation).isShutdown = false ∧
      (STDIOTransport.firstPhase operation).awaited = [] ∧
      (STDIOTransport.firstPhase operation).launches = false := by
    have hop := hrequest operation rfl
    cases operation with
    | shutdown => simp [StdioOperation.isRequest] at hop
    | _ => exact ⟨rfl, rfl, rfl⟩
  obtain ⟨hshutdown, hawaits, hlaunches⟩ := hfirst
  constructor
  case belong => exact h.belong
  case last =>
    dsimp only
    rw [List.dropLast_concat]
    exact hone rfl
  case requests =>
    intro phase hphase
    rcases List.mem_append.mp hphase with hold | hnew
    · exact h.requests phase hold
    · rw [List.mem_singleton.mp hnew]
      exact hshutdown
  case own =>
    intro answerTo
    dsimp only
    rw [List.flatMap_append, List.flatMap_singleton, hawaits, List.append_nil]
    exact h.own answerTo
  case reader => exact ⟨h.reader.one, h.reader.lines, h.reader.ordered⟩
  case held =>
    intro phase hphase hphase'
    rcases List.mem_append.mp hphase with hold | hnew
    · exact h.held phase hold hphase'
    · rw [List.mem_singleton.mp hnew, hlaunches] at hphase'
      simp at hphase'
  case fresh =>
    intro hnow
    have hbefore := h.fresh (hnow.imp_right fun ⟨phase, hphase, hphase'⟩ => by
      rcases List.mem_append.mp hphase with hold | hnew
      · exact ⟨phase, hold, hphase'⟩
      · rw [List.mem_singleton.mp hnew, hlaunches] at hphase'
        simp at hphase')
    exact ⟨hbefore.readers, hbefore.unread, hbefore.queue⟩

/-- One step. -/
theorem matched_step (h : Matched events t) {step : StdioStep} (hone : OneAtATime t step)
    (hrequest : RequestsOnly step) (hlate : NoLateAnswers t step)
    (hnotice : step.isNotice = false) :
    Matched (events ++ (stdioTransport dictText t step).2) (stdioTransport dictText t step).1 := by
  have hquiet : ∀ {t' : STDIOTransport}, Matched events t' → Matched (events ++ []) t' := by
    intro t' h'
    rwa [List.append_nil]
  cases step with
  | begin operation => exact hquiet (matched_begin h hone hrequest)
  | advance call result => exact matched_advance h
  | take call =>
    unfold stdioTransport
    dsimp only
    split
    · exact matched_take h ‹_› ‹_›
    · exact hquiet h
  | timeOut call =>
    unfold stdioTransport
    dsimp only
    split
    · exact matched_timeOut h ‹_› ‹_› (hlate rfl)
    · exact hquiet h
  | read reader => exact hquiet (matched_reader h reader false)
  | readEnd reader => exact hquiet (matched_reader h reader true)
  | readError reader text =>
    unfold stdioTransport
    dsimp only
    split
    · exact hquiet (matched_failReader h ‹_› text)
    · exact hquiet h
  | answer process loaded => exact hquiet (matched_answer h process loaded)
  | notify process loaded => simp [StdioStep.isNotice] at hnotice

/-! ### Runs -/

/-- Requests one after the other get their own answers, where no wait ends before the answer may
still come and the server writes nothing but answers. -/
theorem answers_belong (dictText : PyDict → String) (steps : List StdioStep)
    (hrequests : ∀ step ∈ steps, RequestsOnly step)
    (hone : (stdioTransport dictText).Always OneAtATime {} steps)
    (hlate : (stdioTransport dictText).Always NoLateAnswers {} steps)
    (hnotices : ∀ step ∈ steps, step.isNotice = false) :
    AnswersBelong ((stdioTransport dictText).events {} steps) := by
  have hall := ((always_of_mem hrequests).and (hone.and hlate)).and (always_of_mem hnotices)
  refine (events_invariant (I := Matched) ?_ hall matched_empty).belong
  exact fun events t step h hstep =>
    matched_step h hstep.1.2.1 hstep.1.1 hstep.1.2.2 hstep.2

/-- A request that is answered. -/
def answeredRun : List StdioStep :=
  [.begin .listTools, .advance 0 (.ok ()), .advance 0 (.ok ()), .advance 0 (.ok ()),
    .advance 0 (.ok ()), .read 0, .read 0,
    .answer 0 (some (.dict [("result", .dict [("protocolVersion", .str "2024-11-05")])])),
    .read 0, .take 0, .advance 0 (.ok ()), .advance 0 (.ok ()), .read 0, .read 0,
    .answer 0 (some (.dict [("result", .dict [("tools", .list [])])])), .read 0, .take 0]

theorem answeredRun_belongs :
    (∃ line outcome, .answered 0 1 (.line line) outcome ∈
      (stdioTransport fun _ => "").events {} answeredRun) ∧
      AnswersBelong ((stdioTransport fun _ => "").events {} answeredRun) := by
  refine ⟨?_, answers_belong _ _ ?_ ?_ ?_ ?_⟩
  · exact ⟨_, _, List.mem_of_getElem? (i := 5) rfl⟩
  · decide +kernel
  · decide +kernel
  · decide +kernel
  · decide +kernel

/-- The answer to a request comes after its wait has ended; the next request takes it. -/
def lateRun : List StdioStep :=
  [.begin .listTools, .advance 0 (.ok ()), .advance 0 (.ok ()), .advance 0 (.ok ()),
    .advance 0 (.ok ()), .read 0, .read 0,
    .answer 0 (some (.dict [("result", .dict [("protocolVersion", .str "2024-11-05")])])),
    .read 0, .take 0, .advance 0 (.ok ()), .advance 0 (.ok ()), .timeOut 0,
    .begin (.callTool "clock" []), .advance 1 (.ok ()), .advance 1 (.ok ()), .read 0, .read 0,
    .answer 0 (some (.dict [("result", .dict [("tools", .list [])])])), .read 0, .take 1]

theorem late_answer_taken :
    ¬ ∀ steps, (∀ step ∈ steps, RequestsOnly step) →
      AnswersBelong ((stdioTransport fun _ => "").events {} steps) := by
  intro h
  have hrun := h lateRun (by decide +kernel)
  obtain ⟨line, hline, howner⟩ := hrun 1 2 (.line ⟨0, some 1,
    some (.dict [("result", .dict [("tools", .list [])])])⟩) _
    (List.mem_of_getElem? (i := 8) rfl) rfl
  obtain rfl := Received.line.inj hline
  simp at howner

end Trion.Mcp

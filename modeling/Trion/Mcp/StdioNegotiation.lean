import Trion.Mcp.StdioTransport

/-!
# Requests go to processes that have been negotiated with

Where `_start_process` raises an exception after it has started a process, the process stays in
`self.process`, and the next request takes it for a process that is ready.  In a run of
operations one after the other in which every such process is shut down before the next request,
and in which nothing of an earlier process can still come in when a process is started, a message
is written only to a process that has answered the `initialize` request with the supported
version.
-/

namespace Trion.Mcp

open Trion.Python OperationRun System

variable {dictText : PyDict → String} {events : List StdioEvent} {t : STDIOTransport}
  {call process : ℕ} {phase : CallPhase} {message : StdioMessage} {result : Except String Unit}

/-- The line answers an `initialize` request with the supported version. -/
def ServerLine.AcceptsVersion (line : ServerLine) : Prop :=
  protocolVersionOf (outcomeFromReadObservation (parseStdioReadLine line.loaded)) =
    .str supportedMcpProtocolVersion

/-- The initialize exchange with the process has ended with a negotiated version. -/
def NegotiatedWith (events : List StdioEvent) (process : ℕ) : Prop :=
  ∃ call line, .negotiated call process (.line line) ∈ events ∧ line.process = process ∧
    line.AcceptsVersion

/-- A request is written only to a process that has been negotiated with, and a request that
finds a process finds one that has been. -/
def ToolRequestsNegotiated (events : List StdioEvent) : Prop :=
  EachEvent (fun before event =>
    (∀ call process message, event = .wrote call process message → message.IsToolRequest →
      NegotiatedWith before process) ∧
    ∀ call process, event = .reused call process → NegotiatedWith before process) events

/-- The next step of the call starts a process. -/
def STDIOTransport.startsProcess (t : STDIOTransport) (call : ℕ) : Bool :=
  match t.calls[call]?, t.process with
  | some (.starting _), none => true
  | _, _ => false

/-- The call that goes on with the step. -/
def StdioStep.advanced? : StdioStep → Option ℕ
  | .advance call _ => some call
  | _ => none

/-- A request does not find a process whose start has failed. -/
def FailedStartsShutDown (t : STDIOTransport) (step : StdioStep) : Prop :=
  ∀ operation ∈ step.begun?, operation.isRequest = true →
    ∀ process ∈ t.process, process ∉ t.abandoned

/-- Where a process is started, no line is left in the queue and no reader is left with the
output of an earlier process. -/
def StartsClean (t : STDIOTransport) (step : StdioStep) : Prop :=
  ∀ call ∈ step.advanced?, t.startsProcess call = true →
    (∀ received ∈ t.responseQueue, received.isLine = false) ∧
      ∀ reader ∈ t.readers, reader.isReading = false

instance (t : STDIOTransport) : DecidablePred (FailedStartsShutDown t) := fun step =>
  inferInstanceAs (Decidable (∀ operation ∈ step.begun?, _ → ∀ process ∈ t.process, _))

instance (t : STDIOTransport) : DecidablePred (StartsClean t) := fun step =>
  inferInstanceAs (Decidable (∀ call ∈ step.advanced?, _ → _ ∧ _))

lemma NegotiatedWith.append (h : NegotiatedWith events process) (events' : List StdioEvent) :
    NegotiatedWith (events ++ events') process := by
  obtain ⟨call, line, hmem, hrest⟩ := h
  exact ⟨call, line, List.mem_append_left _ hmem, hrest⟩

/-! ### The answer to an `initialize` request -/

/-- Only a line is accepted, and only one with the supported version. -/
lemma accepted_of_initializeError {received : Received}
    (h : initializeError dictText (outcomeFromReadObservation received.observation) = none) :
    ∃ line, received = .line line ∧ line.AcceptsVersion := by
  unfold initializeError at h
  split at h
  · simp at h
  · rename_i hok
    dsimp only at h
    split at h
    · simp at h
    · rename_i hnegotiated
      obtain ⟨line, rfl⟩ := exists_line_of_ok (not_not.mp hok)
      exact ⟨line, rfl, negotiated_iff.mp (not_not.mp hnegotiated)⟩

/-! ### What a step leaves as it is -/

/-- The processes the lines come from. -/
def LinesTold (t : STDIOTransport) : Prop :=
  ∀ (process : ℕ) (server : ServerProcess) (line : ServerLine),
    t.servers[process]? = some server → line ∈ server.stdout → line.process = process

lemma LinesTold.of_same {t' : STDIOTransport} (h : LinesTold t)
    (hsame : ∀ (process : ℕ) (server' : ServerProcess), t'.servers[process]? = some server' →
      ∀ line ∈ server'.stdout, line.process = process ∨
        ∃ server : ServerProcess, t.servers[process]? = some server ∧ line ∈ server.stdout) :
    LinesTold t' := by
  intro process server' line hserver' hline
  rcases hsame process server' hserver' line hline with hnew | ⟨server, hserver, hold⟩
  · exact hnew
  · exact h process server line hserver hold

/-- What a process has received says nothing about what it has written. -/
lemma LinesTold.written (h : LinesTold t) (message : StdioMessage) (target : ℕ) :
    LinesTold (t.written message target) := by
  unfold STDIOTransport.written
  split
  · refine h.of_same fun i server' hserver' line hline => .inr ?_
    rw [List.getElem?_modify] at hserver'
    obtain ⟨server, hserver, rfl⟩ := Option.map_eq_some_iff.mp hserver'
    refine ⟨server, hserver, ?_⟩
    split at hline <;> exact hline
  · exact h

/-! ### The invariant -/

/-- The process a call is starting. -/
def CallPhase.startingProcess? : CallPhase → Option ℕ
  | .popened _ process => some process
  | .running _ process => some process
  | .initializing _ process => some process
  | .awaitingInitialize _ process _ => some process
  | .acknowledging _ process _ => some process
  | _ => none

/-- Nothing of another process can come in. -/
structure OnlyFrom (t : STDIOTransport) (process : ℕ) : Prop where
  held : t.process = some process
  queued : ∀ line, .line line ∈ t.responseQueue → line.process = process
  read : ∀ other, .reading other ∈ t.readers → other = process

/-- What is known where the call is. -/
def CallPhase.Sound (events : List StdioEvent) (t : STDIOTransport) : CallPhase → Prop
  | .starting _ => ∀ process, t.process = some process → NegotiatedWith events process
  | .popened _ process => OnlyFrom t process
  | .running _ process => OnlyFrom t process
  | .initializing _ process => OnlyFrom t process
  | .awaitingInitialize _ process _ => OnlyFrom t process
  | .acknowledging _ process received => t.process = some process ∧
      ∃ line, received = .line line ∧ line.process = process ∧ line.AcceptsVersion
  | .sending _ => ∀ process, t.process = some process → NegotiatedWith events process
  | _ => True

/-- The process in `self.process` has been negotiated with, or its start has failed, or is going
on; and only the last call is not done. -/
structure Settled (events : List StdioEvent) (t : STDIOTransport) : Prop where
  negotiated : ToolRequestsNegotiated events
  told : LinesTold t
  calls : ∀ (i : ℕ) (phase : CallPhase), t.calls[i]? = some phase →
    phase = .done ∨ i + 1 = t.calls.length ∧ phase.Sound events t
  held : ∀ process, t.process = some process → NegotiatedWith events process ∨
    process ∈ t.abandoned ∨
      ∃ (i : ℕ) (phase : CallPhase), t.calls[i]? = some phase ∧
        phase.startingProcess? = some process

lemma settled_empty : Settled [] {} := by
  constructor
  case negotiated => exact eachEvent_nil
  case told => simp [LinesTold]
  case calls => simp
  case held => simp

/-- A call that is not done is the last one. -/
lemma Settled.active (h : Settled events t) (hphase : t.calls[call]? = some phase)
    (hactive : phase ≠ .done) : call + 1 = t.calls.length ∧ phase.Sound events t :=
  (h.calls call phase hphase).resolve_left hactive

/-- The process in `self.process` while the active call starts none. -/
lemma Settled.held_of_active (h : Settled events t) (hphase : t.calls[call]? = some phase)
    (hactive : phase ≠ .done) (hnone : phase.startingProcess? = none)
    (hprocess : t.process = some process) :
    NegotiatedWith events process ∨ process ∈ t.abandoned := by
  rcases h.held process hprocess with hnegotiated | habandoned | ⟨i, other, hother, hstarting⟩
  · exact .inl hnegotiated
  · exact .inr habandoned
  · rcases h.calls i other hother with rfl | ⟨hlast, -⟩
    · simp [CallPhase.startingProcess?] at hstarting
    · obtain rfl : i = call := by
        have := (h.active hphase hactive).1
        omega
      rw [hphase] at hother
      obtain rfl := Option.some.inj hother
      rw [hnone] at hstarting
      simp at hstarting

/-- The active call goes on. -/
lemma Settled.move (h : Settled events t) (hphase : t.calls[call]? = some phase)
    (hactive : phase ≠ .done) {t' : STDIOTransport} {new : List StdioEvent} {phase' : CallPhase}
    (hcalls : t'.calls = t.calls.set call phase')
    (hnegotiated : ToolRequestsNegotiated (events ++ new)) (htold : LinesTold t')
    (hsound : phase'.Sound (events ++ new) t')
    (hheld : ∀ process, t'.process = some process → NegotiatedWith (events ++ new) process ∨
      process ∈ t'.abandoned ∨ phase'.startingProcess? = some process) :
    Settled (events ++ new) t' := by
  have hlast := (h.active hphase hactive).1
  constructor
  case negotiated => exact hnegotiated
  case told => exact htold
  case calls =>
    intro i other hother
    rw [hcalls, List.getElem?_set] at hother
    rw [hcalls, List.length_set]
    split at hother
    · rename_i heq
      subst heq
      split at hother
      · obtain rfl := Option.some.inj hother
        exact .inr ⟨hlast, hsound⟩
      · simp at hother
    · rename_i hne
      rcases h.calls i other hother with rfl | ⟨hother', -⟩
      · exact .inl rfl
      · omega
  case held =>
    intro process hprocess
    rcases hheld process hprocess with hnegotiated | habandoned | hstarting
    · exact .inl hnegotiated
    · exact .inr (.inl habandoned)
    · refine .inr (.inr ⟨call, phase', ?_, hstarting⟩)
      rw [hcalls, List.getElem?_set_self]
      exact (List.getElem?_eq_some_iff.mp hphase).1

/-- Readers and servers go on: nothing changes for the calls. -/
lemma Settled.of_environment (h : Settled events t) {t' : STDIOTransport}
    (hcalls : t'.calls = t.calls) (hprocess : t'.process = t.process)
    (habandoned : t'.abandoned = t.abandoned) (htold : LinesTold t')
    (hfrom : ∀ process, OnlyFrom t process → OnlyFrom t' process) : Settled events t' := by
  have hsound : ∀ phase : CallPhase, phase.Sound events t → phase.Sound events t' := by
    intro phase hphase
    cases phase with
    | popened message process => exact hfrom process hphase
    | running message process => exact hfrom process hphase
    | initializing message process => exact hfrom process hphase
    | awaitingInitialize message process ticket => exact hfrom process hphase
    | starting message => exact fun process hheld => hphase process (hprocess ▸ hheld)
    | sending message => exact fun process hheld => hphase process (hprocess ▸ hheld)
    | acknowledging message process received => exact ⟨hprocess.trans hphase.1, hphase.2⟩
    | _ => trivial
  constructor
  case negotiated => exact h.negotiated
  case told => exact htold
  case calls =>
    rw [hcalls]
    intro i phase hphase
    exact (h.calls i phase hphase).imp_right fun ⟨hlast, hold⟩ => ⟨hlast, hsound phase hold⟩
  case held =>
    rw [hcalls, hprocess, habandoned]
    exact h.held

/-- An event that says nothing about requests. -/
def StdioEvent.Quiet (event : StdioEvent) : Prop :=
  (∀ call process message, event = .wrote call process message → ¬ message.IsToolRequest) ∧
    ∀ call process, event ≠ .reused call process

lemma ToolRequestsNegotiated.quiet (h : ToolRequestsNegotiated events) {new : List StdioEvent}
    (hquiet : ∀ event ∈ new, event.Quiet) : ToolRequestsNegotiated (events ++ new) := by
  refine EachEvent.append_of_forall h fun event hevent before => ?_
  obtain ⟨hwrote, hreused⟩ := hquiet event hevent
  exact ⟨fun call process message heq htool => absurd htool (hwrote call process message heq),
    fun call process heq => absurd heq (hreused call process)⟩

lemma quiet_failed (call : ℕ) (outcome : MCPTransportRequestOutcome) :
    (StdioEvent.failed call outcome).Quiet := ⟨by simp, by simp⟩

/-! ### Steps of calls -/

/-- A request ends with an exception after `_start_process`, or before it has started one. -/
lemma settled_fail (h : Settled events t) (hphase : t.calls[call]? = some phase)
    (hactive : phase ≠ .done) (hnone : phase.startingProcess? = none) (text : String) :
    Settled (events ++ (t.fail call text).2) (t.fail call text).1 := by
  refine h.move hphase hactive rfl (h.negotiated.quiet ?_) h.told trivial ?_
  · intro event hevent
    obtain rfl := List.mem_singleton.mp hevent
    exact quiet_failed call _
  · intro process hprocess
    rcases h.held_of_active hphase hactive hnone hprocess with hnegotiated | habandoned
    · exact .inl (hnegotiated.append _)
    · exact .inr (.inl habandoned)

/-- `_start_process` raises an exception. -/
lemma settled_failStart (h : Settled events t) (hphase : t.calls[call]? = some phase)
    (hactive : phase ≠ .done) (hheld : t.process = some process) (text : String) :
    Settled (events ++ (t.failStart call process text).2) (t.failStart call process text).1 := by
  refine h.move hphase hactive rfl (h.negotiated.quiet ?_) h.told trivial ?_
  · simp [STDIOTransport.failStart, StdioEvent.Quiet]
  · intro other hother
    obtain rfl : other = process := Option.some.inj (hother.symm.trans hheld)
    exact .inr (.inl (by simp [STDIOTransport.failStart, STDIOTransport.setCall]))

lemma settled_starting (h : Settled events t)
    (hphase : t.calls[call]? = some (.starting message))
    (hclean : StartsClean t (.advance call result)) :
    Settled (events ++ (t.advance call result).2) (t.advance call result).1 := by
  obtain ⟨-, hsound⟩ := h.active hphase CallPhase.noConfusion
  cases hprocess : t.process with
  | some process =>
    have hstep : t.advance call result =
        (t.setCall call (.sending message), [.reused call process]) := by
      simp only [STDIOTransport.advance, hphase, hprocess]
    rw [hstep]
    have hready := hsound process hprocess
    refine h.move hphase CallPhase.noConfusion rfl ?_ h.told ?_ ?_
    · refine eachEvent_append_singleton.mpr ⟨h.negotiated, by simp, fun other target heq => ?_⟩
      obtain ⟨-, rfl⟩ := StdioEvent.reused.inj heq
      exact hready
    · exact fun other hother => (hsound other hother).append _
    · exact fun other hother => .inl ((hsound other hother).append _)
  | none =>
    cases result with
    | error text =>
      have hstep : t.advance call (.error text) = t.fail call text := by
        simp only [STDIOTransport.advance, hphase, hprocess]
      rw [hstep]
      exact settled_fail h hphase CallPhase.noConfusion rfl text
    | ok _ =>
      have hstep : t.advance call (.ok ()) =
          ({ t with
              process := some t.servers.length
              servers := t.servers ++ [ServerProcess.mk [] []] }.setCall call
            (.popened message t.servers.length), [.started call t.servers.length]) := by
        simp only [STDIOTransport.advance, hphase, hprocess]
      obtain ⟨hqueue, hreaders⟩ := hclean call rfl (by
        simp only [STDIOTransport.startsProcess, hphase, hprocess])
      rw [hstep]
      refine h.move hphase CallPhase.noConfusion rfl (h.negotiated.quiet ?_) ?_ ?_ ?_
      · simp [StdioEvent.Quiet]
      · -- the new process has written nothing
        refine h.told.of_same fun i server' hserver' line hline => .inr ?_
        dsimp only [STDIOTransport.setCall] at hserver'
        rw [List.getElem?_append] at hserver'
        split at hserver'
        · exact ⟨server', hserver', hline⟩
        · rw [List.getElem?_singleton] at hserver'
          split at hserver'
          · obtain rfl := Option.some.inj hserver'
            simp at hline
          · simp at hserver'
      · constructor
        case held => rfl
        case queued => exact fun line hline => by simpa [Received.isLine] using hqueue _ hline
        case read =>
          exact fun other hother => by simpa [ReaderPhase.isReading] using hreaders _ hother
      · exact fun other hother => .inr (.inr hother)

/-- A step of the call that is starting a process, which stays the one in `self.process`. -/
lemma settled_launch (h : Settled events t) (hphase : t.calls[call]? = some phase)
    (hactive : phase ≠ .done) {t' : STDIOTransport} {phase' : CallPhase} {new : List StdioEvent}
    (hcalls : t'.calls = t.calls.set call phase') (hheld : t'.process = some process)
    (hquiet : ∀ event ∈ new, event.Quiet) (htold : LinesTold t')
    (hsound : phase'.Sound (events ++ new) t')
    (hready : phase'.startingProcess? = some process ∨ NegotiatedWith (events ++ new) process) :
    Settled (events ++ new) t' := by
  refine h.move hphase hactive hcalls (h.negotiated.quiet hquiet) htold hsound ?_
  intro other hother
  obtain rfl : process = other := Option.some.inj (hheld.symm.trans hother)
  exact hready.symm.imp_right .inr

lemma settled_popened (h : Settled events t)
    (hphase : t.calls[call]? = some (.popened message process)) :
    Settled (events ++ (t.advance call result).2) (t.advance call result).1 := by
  have hsound : OnlyFrom t process := (h.active hphase CallPhase.noConfusion).2
  have hstep : t.advance call result =
      ({ t with running := true }.setCall call (.running message process), []) := by
    simp only [STDIOTransport.advance, hphase]
  rw [hstep]
  exact settled_launch h hphase CallPhase.noConfusion rfl hsound.held (by simp) h.told
    ⟨hsound.held, hsound.queued, hsound.read⟩ (.inl rfl)

lemma settled_running (h : Settled events t)
    (hphase : t.calls[call]? = some (.running message process)) :
    Settled (events ++ (t.advance call result).2) (t.advance call result).1 := by
  have hsound : OnlyFrom t process := (h.active hphase CallPhase.noConfusion).2
  cases result with
  | error text =>
    have hstep : t.advance call (.error text) = t.failStart call process text := by
      simp only [STDIOTransport.advance, hphase]
    rw [hstep]
    exact settled_failStart h hphase CallPhase.noConfusion hsound.held text
  | ok _ =>
    have hstep : t.advance call (.ok ()) =
        ({ t with readers := t.readers ++ [ReaderPhase.atLoop] }.setCall call
          (.initializing message process), []) := by
      simp only [STDIOTransport.advance, hphase]
    rw [hstep]
    refine settled_launch h hphase CallPhase.noConfusion rfl hsound.held (by simp) h.told ?_
      (.inl rfl)
    refine ⟨hsound.held, hsound.queued, fun other hother => hsound.read other ?_⟩
    simpa [STDIOTransport.setCall] using hother

lemma settled_initializing (h : Settled events t)
    (hphase : t.calls[call]? = some (.initializing message process)) :
    Settled (events ++ (t.advance call result).2) (t.advance call result).1 := by
  have hsound : OnlyFrom t process := (h.active hphase CallPhase.noConfusion).2
  cases hwrite : t.writePayload .initializeRequest result with
  | error text =>
    have hstep : t.advance call result = t.failStart call process text := by
      simp only [STDIOTransport.advance, hphase, hwrite]
    rw [hstep]
    exact settled_failStart h hphase CallPhase.noConfusion hsound.held text
  | ok written =>
    obtain ⟨target, t'⟩ := written
    have hstep : t.advance call result =
        (t'.setCall call (.awaitingInitialize message process t.nextTicket),
          [.wrote call target .initializeRequest]) := by
      simp only [STDIOTransport.advance, hphase, hwrite]
    rw [hstep]
    obtain ⟨-, ht'⟩ := writePayload_ok hwrite
    have hcalls : t'.calls.set call (.awaitingInitialize message process t.nextTicket) =
        t.calls.set call (.awaitingInitialize message process t.nextTicket) := by
      rw [ht', written_calls]
    have hfrom : OnlyFrom t' process := by
      rw [ht']
      exact ⟨by rw [written_process, hsound.held],
        by rw [written_responseQueue]; exact hsound.queued,
        by rw [written_readers]; exact hsound.read⟩
    refine settled_launch h hphase CallPhase.noConfusion hcalls hfrom.held ?_
      (ht' ▸ h.told.written _ target) ⟨hfrom.held, hfrom.queued, hfrom.read⟩ (.inl rfl)
    simp [StdioEvent.Quiet, StdioMessage.IsToolRequest]

/-- With the `initialized` notification the exchange ends. -/
lemma settled_acknowledging {received : Received} (h : Settled events t)
    (hphase : t.calls[call]? = some (.acknowledging message process received)) :
    Settled (events ++ (t.advance call result).2) (t.advance call result).1 := by
  obtain ⟨hheld, line, rfl, hline, haccepts⟩ := (h.active hphase CallPhase.noConfusion).2
  cases hwrite : t.writePayload .initializedNotification result with
  | error text =>
    have hstep : t.advance call result = t.failStart call process text := by
      simp only [STDIOTransport.advance, hphase, hwrite]
    rw [hstep]
    exact settled_failStart h hphase CallPhase.noConfusion hheld text
  | ok written =>
    obtain ⟨target, t'⟩ := written
    have hstep : t.advance call result =
        (t'.setCall call (.sending message), [.wrote call target .initializedNotification,
          .negotiated call process (.line line)]) := by
      simp only [STDIOTransport.advance, hphase, hwrite]
    rw [hstep]
    obtain ⟨-, ht'⟩ := writePayload_ok hwrite
    have hcalls : t'.calls.set call (.sending message) = t.calls.set call (.sending message) := by
      rw [ht', written_calls]
    have hheld' : t'.process = some process := by rw [ht', written_process, hheld]
    have hnegotiated : NegotiatedWith (events ++ [.wrote call target .initializedNotification,
        .negotiated call process (.line line)]) process :=
      ⟨call, line, by simp, hline, haccepts⟩
    refine settled_launch h hphase CallPhase.noConfusion hcalls hheld' ?_
      (ht' ▸ h.told.written _ target) ?_ (.inr hnegotiated)
    · simp [StdioEvent.Quiet, StdioMessage.IsToolRequest]
    · intro other hother
      obtain rfl : process = other := Option.some.inj (hheld'.symm.trans hother)
      exact hnegotiated

/-- A message is written to the process in `self.process`. -/
lemma settled_sending (h : Settled events t) (hphase : t.calls[call]? = some (.sending message)) :
    Settled (events ++ (t.advance call result).2) (t.advance call result).1 := by
  obtain ⟨-, hsound⟩ := h.active hphase CallPhase.noConfusion
  cases hwrite : t.writePayload message result with
  | error text =>
    have hstep : t.advance call result = t.fail call text := by
      simp only [STDIOTransport.advance, hphase, hwrite]
    rw [hstep]
    exact settled_fail h hphase CallPhase.noConfusion rfl text
  | ok written =>
    obtain ⟨target, t'⟩ := written
    have hstep : t.advance call result =
        (t'.setCall call (.awaiting t.nextTicket), [.wrote call target message]) := by
      simp only [STDIOTransport.advance, hphase, hwrite]
    rw [hstep]
    obtain ⟨htarget, ht'⟩ := writePayload_ok hwrite
    have hcalls : t'.calls.set call (.awaiting t.nextTicket) =
        t.calls.set call (.awaiting t.nextTicket) := by
      rw [ht', written_calls]
    refine h.move hphase CallPhase.noConfusion hcalls ?_ (ht' ▸ h.told.written _ target) trivial ?_
    · refine eachEvent_append_singleton.mpr
        ⟨h.negotiated, fun caller process m heq _ => ?_, by simp⟩
      obtain ⟨-, rfl, -⟩ := StdioEvent.wrote.inj heq
      exact hsound target htarget
    · intro other hother
      change t'.process = some other at hother
      rw [ht', written_process] at hother
      exact .inl ((hsound other hother).append _)

/-- A step of `shutdown` leaves `self.process` as it is or clears it. -/
lemma settled_shutdown (h : Settled events t) (hphase : t.calls[call]? = some phase)
    (hactive : phase ≠ .done) (hnone : phase.startingProcess? = none) {t' : STDIOTransport}
    {phase' : CallPhase} (hcalls : t'.calls = t.calls.set call phase')
    (hservers : t'.servers = t.servers) (habandoned : t'.abandoned = t.abandoned)
    (hprocess : t'.process = t.process ∨ t'.process = none)
    (hsound : phase'.Sound (events ++ []) t') : Settled (events ++ []) t' := by
  refine h.move hphase hactive hcalls (h.negotiated.quiet (by simp)) ?_ hsound ?_
  · unfold LinesTold
    rw [hservers]
    exact h.told
  · intro other hother
    rcases hprocess with hsame | hcleared
    · rcases h.held_of_active hphase hactive hnone (hsame ▸ hother) with hnegotiated | hold
      · exact .inl (hnegotiated.append _)
      · exact .inr (.inl (habandoned ▸ hold))
    · rw [hcleared] at hother
      simp at hother

lemma settled_advance (h : Settled events t) (hclean : StartsClean t (.advance call result)) :
    Settled (events ++ (t.advance call result).2) (t.advance call result).1 := by
  have hsame : t.advance call result = (t, []) →
      Settled (events ++ (t.advance call result).2) (t.advance call result).1 := by
    intro hstep
    rw [hstep, List.append_nil]
    exact h
  cases hphase : t.calls[call]? with
  | none => exact hsame (by simp only [STDIOTransport.advance, hphase])
  | some phase =>
    cases phase with
    | starting message => exact settled_starting h hphase hclean
    | popened message process => exact settled_popened h hphase
    | running message process => exact settled_running h hphase
    | initializing message process => exact settled_initializing h hphase
    | awaitingInitialize => exact hsame (by simp only [STDIOTransport.advance, hphase])
    | acknowledging message process received => exact settled_acknowledging h hphase
    | sending message => exact settled_sending h hphase
    | awaiting ticket => exact hsame (by simp only [STDIOTransport.advance, hphase])
    | stopping =>
      simp only [STDIOTransport.advance, hphase]
      exact settled_shutdown h hphase CallPhase.noConfusion rfl rfl rfl rfl (.inl rfl) trivial
    | stopped =>
      simp only [STDIOTransport.advance, hphase]
      refine settled_shutdown h hphase CallPhase.noConfusion rfl rfl rfl rfl (.inl rfl) ?_
      split <;> trivial
    | terminating =>
      simp only [STDIOTransport.advance, hphase]
      refine settled_shutdown h hphase CallPhase.noConfusion rfl rfl rfl rfl (.inl rfl) ?_
      split <;> trivial
    | clearing =>
      simp only [STDIOTransport.advance, hphase]
      exact settled_shutdown h hphase CallPhase.noConfusion rfl rfl rfl rfl (.inr rfl) trivial
    | done => exact hsame (by simp only [STDIOTransport.advance, hphase])

/-- A wait ends. -/
lemma settled_receive (h : Settled events t) {received : Received} {queue : List Received}
    (hqueue : ∀ other ∈ queue, other ∈ t.responseQueue)
    (hreceived : ∀ line, received = .line line → .line line ∈ t.responseQueue) :
    Settled (events ++ ({ t with responseQueue := queue }.receive dictText call received).2)
      ({ t with responseQueue := queue }.receive dictText call received).1 := by
  have hfrom : ∀ process, OnlyFrom t process →
      OnlyFrom { t with responseQueue := queue } process := fun process hold =>
    ⟨hold.held, fun line hline => hold.queued line (hqueue _ hline), hold.read⟩
  have h' : Settled events { t with responseQueue := queue } :=
    h.of_environment rfl rfl rfl h.told hfrom
  have hsame : ∀ {step : STDIOTransport × List StdioEvent},
      step = ({ t with responseQueue := queue }, []) → Settled (events ++ step.2) step.1 := by
    rintro step rfl
    rw [List.append_nil]
    exact h'
  cases hphase : t.calls[call]? with
  | none => exact hsame (by simp only [STDIOTransport.receive, hphase])
  | some phase =>
    cases phase with
    | awaitingInitialize message process ticket =>
      have hsound : OnlyFrom t process := (h.active hphase CallPhase.noConfusion).2
      cases herror : initializeError dictText
          (outcomeFromReadObservation received.observation) with
      | none =>
        -- what is accepted is a line of the process that is being started
        obtain ⟨line, rfl, haccepts⟩ := accepted_of_initializeError herror
        simp only [STDIOTransport.receive, hphase, herror]
        exact settled_launch h' hphase CallPhase.noConfusion rfl hsound.held (by simp) h.told
          ⟨hsound.held, line, rfl, hsound.queued line (hreceived line rfl), haccepts⟩ (.inl rfl)
      | some text =>
        simp only [STDIOTransport.receive, hphase, herror]
        exact settled_failStart h' hphase CallPhase.noConfusion hsound.held text
    | awaiting ticket =>
      simp only [STDIOTransport.receive, hphase]
      refine h'.move hphase CallPhase.noConfusion rfl (h.negotiated.quiet ?_) h.told trivial ?_
      · simp [StdioEvent.Quiet]
      · intro process hprocess
        rcases h.held_of_active hphase CallPhase.noConfusion rfl hprocess with hold | hold
        · exact .inl (hold.append _)
        · exact .inr (.inl hold)
    | _ => exact hsame (by simp only [STDIOTransport.receive, hphase])

/-! ### Steps of readers and servers -/

lemma mem_set_reader {reader : ℕ} {phase phase' : ReaderPhase}
    (h : phase' ∈ t.readers.set reader phase) (hne : phase' ≠ phase) : phase' ∈ t.readers :=
  (List.mem_or_eq_of_mem_set h).resolve_right hne

/-- A reader goes to a phase in which it reads nothing. -/
lemma settled_setReader (h : Settled events t) (reader : ℕ) {phase : ReaderPhase}
    (hphase : ∀ process, phase ≠ .reading process) : Settled events (t.setReader reader phase) :=
  h.of_environment rfl rfl rfl h.told fun _ hold =>
    ⟨hold.held, hold.queued, fun other hother =>
      hold.read other (mem_set_reader hother (hphase other).symm)⟩

lemma settled_failReader (h : Settled events t) (reader : ℕ) (text : String) :
    Settled events (t.failReader reader text) :=
  h.of_environment rfl rfl rfl h.told fun _ hold =>
    ⟨hold.held, fun line hline => hold.queued line (by
        simpa [STDIOTransport.failReader, STDIOTransport.put, STDIOTransport.setReader]
          using hline),
      fun other hother => hold.read other (mem_set_reader hother ReaderPhase.noConfusion)⟩

/-- A line goes from the output of a process into the queue. -/
lemma settled_line (h : Settled events t) {reader : ℕ} {inbox : List ℕ} {line : ServerLine}
    {stdout : List ServerLine} (hphase : t.readers[reader]? = some (.reading process))
    (hserver : t.servers[process]? = some ⟨inbox, line :: stdout⟩) :
    Settled events (({ t with servers := t.servers.set process ⟨inbox, stdout⟩ }.put
      (.line line)).setReader reader .atLoop) := by
  have hline : line.process = process := h.told process _ line hserver List.mem_cons_self
  refine h.of_environment rfl rfl rfl ?_ fun other hold => ?_
  · refine h.told.of_same fun i server' hserver' written hwritten => .inr ?_
    change (t.servers.set process ⟨inbox, stdout⟩)[i]? = some server' at hserver'
    rw [List.getElem?_set] at hserver'
    split at hserver'
    · rename_i heq
      subst heq
      split at hserver'
      · obtain rfl := Option.some.inj hserver'
        exact ⟨_, hserver, List.mem_cons_of_mem _ hwritten⟩
      · simp at hserver'
    · exact ⟨server', hserver', hwritten⟩
  · constructor
    case held => exact hold.held
    case queued =>
      intro written hwritten
      rcases List.mem_append.mp hwritten with hwritten | hwritten
      · exact hold.queued written hwritten
      · obtain rfl := Received.line.inj (List.mem_singleton.mp hwritten)
        exact hline.trans (hold.read process (List.mem_of_getElem? hphase))
    case read =>
      exact fun another hanother =>
        hold.read another (mem_set_reader hanother ReaderPhase.noConfusion)

lemma settled_reader (h : Settled events t) (reader : ℕ) (ended : Bool) :
    Settled events (t.advanceReader reader ended) := by
  unfold STDIOTransport.advanceReader
  split
  · refine settled_setReader h reader fun process => ?_
    split <;> exact ReaderPhase.noConfusion
  · split
    · rename_i process hprocess
      refine h.of_environment rfl rfl rfl h.told fun other hold =>
        ⟨hold.held, hold.queued, fun another hanother => ?_⟩
      rcases List.mem_or_eq_of_mem_set hanother with hold' | hnew
      · exact hold.read another hold'
      · obtain rfl := ReaderPhase.reading.inj hnew
        exact Option.some.inj (hprocess.symm.trans hold.held)
    · exact settled_failReader h reader _
  · rename_i process hphase
    split
    · exact settled_line h hphase ‹_›
    · exact settled_setReader h reader fun _ => ReaderPhase.noConfusion
    · exact h
  · split
    · exact settled_failReader h reader _
    · refine settled_setReader h reader fun process => ?_
      split <;> exact ReaderPhase.noConfusion
  · exact h

/-- A server writes a line. -/
lemma settled_write (h : Settled events t) {server : ServerProcess} {inbox : List ℕ}
    (hserver : t.servers[process]? = some server) {line : ServerLine}
    (hline : line.process = process) :
    Settled events
      { t with servers := t.servers.set process ⟨inbox, server.stdout ++ [line]⟩ } := by
  refine h.of_environment rfl rfl rfl ?_ fun other hold => ⟨hold.held, hold.queued, hold.read⟩
  refine h.told.of_same fun i server' hserver' written hwritten => ?_
  dsimp only at hserver'
  rw [List.getElem?_set] at hserver'
  split at hserver'
  · rename_i heq
    subst heq
    split at hserver'
    · obtain rfl := Option.some.inj hserver'
      rcases List.mem_append.mp hwritten with hold | hnew
      · exact .inr ⟨server, hserver, hold⟩
      · exact .inl (List.mem_singleton.mp hnew ▸ hline)
    · simp at hserver'
  · exact .inr ⟨server', hserver', hwritten⟩

lemma settled_begin (h : Settled events t) {operation : StdioOperation}
    (hone : OneAtATime t (.begin operation)) (hshut : FailedStartsShutDown t (.begin operation)) :
    Settled events { t with calls := t.calls ++ [STDIOTransport.firstPhase operation] } := by
  have hdone : ∀ process, t.process = some process →
      NegotiatedWith events process ∨ process ∈ t.abandoned := by
    intro process hprocess
    rcases h.held process hprocess with hold | hold | ⟨i, phase, hphase, hstarting⟩
    · exact .inl hold
    · exact .inr hold
    · obtain rfl := eq_done_of_isDone (hone rfl phase (List.mem_of_getElem? hphase))
      simp [CallPhase.startingProcess?] at hstarting
  constructor
  case negotiated => exact h.negotiated
  case told => exact h.told
  case calls =>
    intro i phase hphase
    dsimp only at hphase ⊢
    rw [List.getElem?_append] at hphase
    split at hphase
    · exact .inl (eq_done_of_isDone (hone rfl phase (List.mem_of_getElem? hphase)))
    · rename_i hlast
      rw [List.getElem?_singleton] at hphase
      split at hphase
      · obtain rfl := Option.some.inj hphase
        refine .inr ⟨by rw [List.length_append, List.length_singleton]; omega, ?_⟩
        -- a request finds no process whose start has failed
        have hready : operation.isRequest = true → ∀ process, t.process = some process →
            NegotiatedWith events process := fun hrequest process hprocess =>
          (hdone process hprocess).resolve_right (hshut operation rfl hrequest process hprocess)
        cases operation with
        | listTools => exact hready rfl
        | callTool name arguments => exact hready rfl
        | shutdown => trivial
      · simp at hphase
  case held => exact fun process hprocess => (hdone process hprocess).imp_right .inl

/-- One step. -/
theorem settled_step (h : Settled events t) {step : StdioStep} (hone : OneAtATime t step)
    (hshut : FailedStartsShutDown t step) (hclean : StartsClean t step) :
    Settled (events ++ (stdioTransport dictText t step).2) (stdioTransport dictText t step).1 := by
  have hquiet : ∀ {t' : STDIOTransport}, Settled events t' → Settled (events ++ []) t' := by
    intro t' h'
    rwa [List.append_nil]
  cases step with
  | begin operation => exact hquiet (settled_begin h hone hshut)
  | advance call result => exact settled_advance h hclean
  | take call =>
    unfold stdioTransport
    dsimp only
    split
    · rename_i received rest _ hqueue
      refine settled_receive h (fun other hother => ?_) fun line hline => ?_
      · exact hqueue ▸ List.mem_cons_of_mem _ hother
      · rw [hqueue, hline]
        exact List.mem_cons_self
    · exact hquiet h
  | timeOut call =>
    unfold stdioTransport
    dsimp only
    split
    · exact settled_receive h (fun other hother => hother) (by simp)
    · exact hquiet h
  | read reader => exact hquiet (settled_reader h reader false)
  | readEnd reader => exact hquiet (settled_reader h reader true)
  | readError reader text =>
    unfold stdioTransport
    dsimp only
    split
    · exact hquiet (settled_failReader h reader text)
    · exact hquiet h
  | answer process loaded =>
    refine hquiet ?_
    show Settled events (t.answer process loaded)
    unfold STDIOTransport.answer
    split
    · rename_i hserver
      exact settled_write h hserver rfl
    · exact h
  | notify process loaded =>
    refine hquiet ?_
    show Settled events (t.notify process loaded)
    unfold STDIOTransport.notify
    split
    · rename_i hserver
      exact settled_write h hserver rfl
    · exact h

/-! ### Runs -/

/-- Operations come one after the other, a process whose start has failed is shut down before
the next request, and a process is started with nothing of an earlier one to come in: then
requests are written only to processes that have been negotiated with. -/
theorem tool_requests_negotiated (dictText : PyDict → String) (steps : List StdioStep)
    (hone : (stdioTransport dictText).Always OneAtATime {} steps)
    (hcareful : (stdioTransport dictText).Always
      (fun t step => FailedStartsShutDown t step ∧ StartsClean t step) {} steps) :
    ToolRequestsNegotiated ((stdioTransport dictText).events {} steps) := by
  refine (events_invariant (I := Settled) ?_ (hone.and hcareful) settled_empty).negotiated
  exact fun events t step h hstep => settled_step h hstep.1 hstep.2.1 hstep.2.2

/-- A process is started, answers the `initialize` request, and is asked for its tools. -/
def negotiatedRun : List StdioStep :=
  [.begin .listTools, .advance 0 (.ok ()), .advance 0 (.ok ()), .advance 0 (.ok ()),
    .advance 0 (.ok ()), .read 0, .read 0,
    .answer 0 (some (.dict [("result", .dict [("protocolVersion", .str "2024-11-05")])])),
    .read 0, .take 0, .advance 0 (.ok ()), .advance 0 (.ok ())]

theorem negotiatedRun_negotiated :
    .wrote 0 0 .toolsList ∈ (stdioTransport fun _ => "").events {} negotiatedRun ∧
      ToolRequestsNegotiated ((stdioTransport fun _ => "").events {} negotiatedRun) := by
  refine ⟨?_, tool_requests_negotiated _ _ ?_ ?_⟩
  · exact List.mem_of_getElem? (i := 4) rfl
  · decide +kernel
  · decide +kernel

/-- The `initialize` request is not answered in time; the next request goes to the same process.
-/
theorem initialize_timeOut_not_negotiated :
    ¬ ∀ steps, (stdioTransport fun _ => "").Always OneAtATime {} steps →
      ToolRequestsNegotiated ((stdioTransport fun _ => "").events {} steps) := by
  intro h
  have hrun := h [.begin .listTools, .advance 0 (.ok ()), .advance 0 (.ok ()), .advance 0 (.ok ()),
    .advance 0 (.ok ()), .timeOut 0, .begin .listTools, .advance 1 (.ok ()), .advance 1 (.ok ())]
    (by decide +kernel)
  obtain ⟨-, hreused⟩ := hrun [.started 0 0, .wrote 0 0 .initializeRequest, .startFailed 0 0,
    .failed 0 (.transportFailure "Initialize failed: Timeout waiting for response")]
    (.reused 1 0) [.wrote 1 0 .toolsList] rfl
  obtain ⟨call, line, hmem, -⟩ := hreused 1 0 rfl
  simp at hmem

end Trion.Mcp

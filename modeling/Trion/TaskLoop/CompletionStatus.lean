import Trion.TaskLoop.Runs

/-!
# The completion status of a result

Whatever ends a run sets the status that goes with the state it ends in, but for three ways
of ending that leave the status at its default: a cancelled run, a replanned plan that breaks
its contract, and a replanned plan that needs no loop.
-/

namespace Trion.TaskLoop

open Trion.Python Trion.Thinking StepMachine

/-- A call of `start_task_loop` or `continue_task_loop`, with what the caller hands over. -/
inductive Invocation where
  | start (plan : ThinkingPlan) (options : StartOptions)
  | continue (snapshot : TaskLoopSnapshot) (userText : String) (plan : ThinkingPlan)
      (stepReceipts : Option StepReceipts) (receiptValidator : Option ReceiptValidator)

/-- The call asks to cancel a waiting run. -/
def Invocation.cancels (rt : PyRuntime) : Invocation → Bool
  | .start _ _ => false
  | .continue _ userText _ _ _ => rt.lower (strip userText) ∈ cancelWords

variable {W : Type} {cfg : LoopConfig W} {st st' : LoopState W} {events : List LoopEvent}
  {result : TaskLoopResult} {last : LoopEnd W} {world : W} {invocation : Invocation}

/-- What a call returns, after which events. -/
inductive Returns (cfg : LoopConfig W) (world : W) :
    Invocation → List LoopEvent → TaskLoopResult → Prop
  | started {plan : ThinkingPlan} {options : StartOptions} {events : List LoopEvent}
      {result : TaskLoopResult} {last : W} :
      (loopStep cfg).HaltsWith (startTaskLoop cfg.rt plan options world) events
        { outcome := .ok result, world := last } →
      Returns cfg world (.start plan options) events result
  | finished {s : TaskLoopSnapshot} {userText : String} {plan : ThinkingPlan}
      {stepReceipts : Option StepReceipts} {receiptValidator : Option ReceiptValidator}
      {result : TaskLoopResult} :
      continueTaskLoop cfg.rt s userText plan stepReceipts receiptValidator world =
        .finished (.ok result) →
      Returns cfg world (.continue s userText plan stepReceipts receiptValidator) [] result
  | resumed {s : TaskLoopSnapshot} {userText : String} {plan : ThinkingPlan}
      {stepReceipts : Option StepReceipts} {receiptValidator : Option ReceiptValidator}
      {st : LoopState W} {events : List LoopEvent} {result : TaskLoopResult} {last : W} :
      continueTaskLoop cfg.rt s userText plan stepReceipts receiptValidator world = .resumed st →
      (loopStep cfg.continued).HaltsWith st events { outcome := .ok result, world := last } →
      Returns cfg world (.continue s userText plan stepReceipts receiptValidator) events result

/-- The status of a result is the one that goes with its state; a result that asks for another
plan may also say that evidence is missing. -/
def StatusAgrees (result : TaskLoopResult) : Prop :=
  result.completionStatus = completionStatusFor result.state ∨
    result.state = .replanning ∧ result.completionStatus = .needsMoreEvidence

/-- An answer of the replanner that ends the run: a violation of the plan's contract, or a plan
that needs no loop. -/
def LoopEvent.endsRun : LoopEvent → Bool
  | .replanned _ (.violation _) => true
  | .replanned _ (.plan next) => !next.needsTaskLoop
  | _ => false

/-- A run goes on only after answers that do not end it. -/
lemma NextCases.not_endsRun (h : NextCases cfg st events st') :
    ∀ event ∈ events, event.endsRun = false := by
  cases h with
  | expands | advances | retries => simp [LoopEvent.endsRun]
  | replans _ _ _ hneeds => simp [LoopEvent.endsRun, hneeds]

lemma not_endsRun_of_reaches (h : (loopStep cfg).Reaches st events st')
    (hs : st.snapshot.state = .executing) : ∀ event ∈ events, event.endsRun = false := by
  refine trace_invariant_of_reaches (I := fun es _ => ∀ event ∈ es, event.endsRun = false)
    ?_ h hs (by simp)
  intro es s fs t _ hI hnext event hevent
  rcases List.mem_append.1 hevent with hevent | hevent
  · exact hI event hevent
  · exact hnext.not_endsRun event hevent

/-- A status that is not the default one of its state is the right one. -/
lemma Finalized.statusAgrees {plan : ThinkingPlan} {s : TaskLoopSnapshot}
    {structuralResults : List (Option PyVal)} {nowTs : ℚ} {failed : Option StepExecutionResult}
    (h : Finalized cfg.completion plan s structuralResults nowTs result failed)
    (hs : s.state = .completed) : StatusAgrees result := by
  cases h with
  | complete => exact .inl (by rw [resultOf, hs]; rfl)
  | replan _ hstatus =>
    simp only [List.mem_cons, List.not_mem_nil, or_false] at hstatus
    rcases hstatus with rfl | rfl
    · exact .inl rfl
    · exact .inr ⟨rfl, rfl⟩
  | block => exact .inl rfl

/-- The status of a result with which a run ends agrees with its state exactly if the replanner
has not ended the run. -/
lemma HaltCases.agrees_iff
    (h : HaltCases cfg st events { outcome := .ok result, world := world }) :
    StatusAgrees result ↔ ∀ event ∈ events, event.endsRun = false := by
  cases h with
  | receiptMissing => exact ⟨by simp, fun _ => .inl rfl⟩
  | waits => exact ⟨by simp, fun _ => .inl rfl⟩
  | governorBlocks => exact ⟨by simp, fun _ => .inl rfl⟩
  | stops => exact ⟨by simp [LoopEvent.endsRun], fun _ => .inl rfl⟩
  | completes hexec _ haction hfinalized =>
    refine ⟨by simp [LoopEvent.endsRun], fun _ => hfinalized.statusAgrees ?_⟩
    rw [endedSnapshot_state, haction]
    rfl
  | violates =>
    refine ⟨fun hagrees => ?_, fun hevents => ?_⟩
    · rcases hagrees with h | ⟨h, -⟩ <;> cases h
    · simp [LoopEvent.endsRun] at hevents
  | answers _ _ _ hneeds =>
    refine ⟨fun hagrees => ?_, fun hevents => ?_⟩
    · rcases hagrees with h | ⟨h, -⟩ <;> cases h
    · simp [LoopEvent.endsRun, hneeds] at hevents

/-- So it is for a whole run. -/
lemma statusAgrees_iff_of_haltsWith (hs : st.snapshot.state = .executing)
    (h : (loopStep cfg).HaltsWith st events { outcome := .ok result, world := world }) :
    StatusAgrees result ↔ ∀ event ∈ events, event.endsRun = false := by
  obtain ⟨t, es, fs, hreach, hlast, rfl⟩ := h.exists_last
  rw [(haltCases (executing_of_reaches hreach hs) hlast).agrees_iff]
  have hes := not_endsRun_of_reaches hreach hs
  refine ⟨fun hfs event hevent => ?_, fun hall event hevent => ?_⟩
  · exact (List.mem_append.1 hevent).elim (hes event) (hfs event)
  · exact hall event (List.mem_append_right es hevent)

/-- A continuation that returns at once cancels the run, with the default status. -/
lemma continueTaskLoop_finished {rt : PyRuntime} {s : TaskLoopSnapshot} {userText : String}
    {plan : ThinkingPlan} {stepReceipts : Option StepReceipts}
    {receiptValidator : Option ReceiptValidator}
    (h : continueTaskLoop rt s userText plan stepReceipts receiptValidator world =
      .finished (.ok result)) :
    rt.lower (strip userText) ∈ cancelWords ∧
      result = resultOf { s.moveTo .cancelled with stopReason := some .userCancelled }
        "Task loop cancelled by user." .incomplete [] := by
  rw [continueTaskLoop] at h
  split at h
  · cases h
  · rename_i hwaiting
    rw [ne_eq, not_not] at hwaiting
    split at h
    · rename_i hcancel
      rw [TaskLoopSnapshot.transitionTo_eq_ok (by simp [hwaiting, allowedTransitions])] at h
      exact ⟨hcancel, (Except.ok.inj (Continuation.finished.inj h)).symm⟩
    · rw [TaskLoopSnapshot.transitionTo_eq_ok (by simp [hwaiting, allowedTransitions])] at h
      cases h

/-- The status of a result agrees with its state exactly if the call was not to cancel and no
answer of the replanner ended the run. -/
theorem statusAgrees_iff (h : Returns cfg world invocation events result) :
    StatusAgrees result ↔
      invocation.cancels cfg.rt = false ∧ ∀ event ∈ events, event.endsRun = false := by
  cases h with
  | started hhalts => simpa [Invocation.cancels] using statusAgrees_iff_of_haltsWith rfl hhalts
  | resumed hresumed hhalts =>
    obtain ⟨hwaiting, hword, rfl⟩ := continueTaskLoop_resumed hresumed
    simpa [Invocation.cancels, hword] using statusAgrees_iff_of_haltsWith rfl hhalts
  | finished hfinished =>
    obtain ⟨hcancels, hresult⟩ := continueTaskLoop_finished hfinished
    refine ⟨fun hagrees => ?_, fun hcontinues => ?_⟩
    · rw [hresult] at hagrees
      rcases hagrees with h | ⟨h, -⟩ <;> cases h
    · simp [Invocation.cancels, hcancels] at hcontinues

/-! A plan of one step, which succeeds, or fails and is replaced as the replanner answers. -/

/-- The configuration of the run. -/
def answeredConfig (reply : ReplanReply) : LoopConfig (List ToolReply) :=
  { scriptedConfig [("value_read", {})] with replannerFn := some fun script _ => (reply, script) }

/-- The call. -/
def readingCall : Invocation :=
  .start readingPlan { conversationId := "c", maxRetriesPerStep := 0 }

theorem statusAgrees_reading :
    ∃ events result, Returns (answeredConfig (.violation "")) [validReply []] readingCall events
      result ∧ StatusAgrees result :=
  have h : Returns (answeredConfig (.violation "")) [validReply []] readingCall
      [.executed (stepExecution (answeredConfig (.violation ""))
        (startTaskLoop .ascii readingPlan { conversationId := "c", maxRetriesPerStep := 0 }
          [validReply []]) (readingStep "tool_1"))] _ := .started (.halt rfl)
  ⟨_, _, h, (statusAgrees_iff h).2 ⟨rfl, by simp [LoopEvent.endsRun]⟩⟩

/-- The status is the default one where the replanner's plan breaks its contract, where it needs
no loop, and where the run is cancelled. -/
theorem status_disagrees :
    (∃ events result, Returns (answeredConfig (.violation "plan_contract_tool_missing"))
      [.raised "down"] readingCall events result ∧ ¬ StatusAgrees result) ∧
    (∃ events result, Returns (answeredConfig (.plan { readingPlan with needsTaskLoop := false }))
      [.raised "down"] readingCall events result ∧ ¬ StatusAgrees result) ∧
    ∃ result, Returns (answeredConfig (.violation "")) []
      (.continue ((startSnapshot .ascii readingPlan { conversationId := "c" }).moveTo .waiting)
        "cancel" readingPlan none none) [] result ∧ ¬ StatusAgrees result := by
  refine ⟨⟨_, _, .started (.halt rfl), ?_⟩, ⟨_, _, .started (.halt rfl), ?_⟩, _, .finished rfl, ?_⟩
  all_goals
    rintro (h | ⟨h, -⟩)
    · cases h
    · cases h

end Trion.TaskLoop

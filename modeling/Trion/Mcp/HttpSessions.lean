import Trion.Mcp.HttpTransport

/-!
# Posts carry the session of their negotiation

Negotiation result and session id are two fields of the transport: they are cleared one after
the other, set one after the other and read one after the other.  Where no other call touches
them in between, every post carries a negotiated version with the session id of the exchange
that negotiated it.  A payload is posted three times at most, and again only after a session
error; this holds in any case.
-/

namespace Trion.Mcp

open Trion.Python OrderedDict OperationRun System

variable {rt : PyRuntime} {loads : JsonLoads} {events : List HttpEvent}
  {t : HTTPTransport} {call : ℕ} {c : HttpCall}

/-! ### The discipline -/

/-- The session id a header carries. -/
def Exchange.carried (exchange : Exchange) : Option String :=
  if exchange.sessionId.getD "" = "" then none else exchange.sessionId

/-- The headers carry the version that the exchange negotiated and the session id it returned. -/
def Carries (exchanges : List Exchange) (exchange : ℕ) (headers : Headers) : Prop :=
  ∃ e, exchanges[exchange]? = some e ∧ e.negotiation.status = .negotiated ∧
    get? headers "MCP-Protocol-Version" = e.negotiation.protocolVersion ∧
    get? headers "Mcp-Session-Id" = e.carried

/-- What a call does with its payload. -/
inductive Attempt where
  | posted
  | refused
deriving DecidableEq

/-- What the event says about the payload of the call. -/
def HttpEvent.attempt? (call : ℕ) : HttpEvent → Option Attempt
  | .posted caller .request _ _ _ => if caller = call then some .posted else none
  | .refused caller => if caller = call then some .refused else none
  | _ => none

/-- The posts of the payload of the call, and the session errors it has met. -/
def attempts (call : ℕ) (events : List HttpEvent) : List Attempt :=
  events.filterMap (HttpEvent.attempt? call)

/-- Every post but those of `initialize` requests carries a negotiated version with the session
id of its exchange, and each call posts its payload three times at most, and again only after a
session error. -/
structure SessionDiscipline (events : List HttpEvent) (t : HTTPTransport) : Prop where
  carries : ∀ call use body exchange headers, .posted call use body exchange headers ∈ events →
    Carries t.exchanges exchange headers
  attempts : ∀ call, attempts call events <+: [.posted, .refused, .posted, .refused, .posted]

/-! ### The condition -/

/-- The call is between its two accesses to negotiation result and session id. -/
def HttpPhase.midPair : HttpPhase → Bool
  | .clearingNegotiation _ => true
  | .settingSession .. => true
  | .checkingSession .. => true
  | .readingSession .. => true
  | .droppingNegotiation => true
  | _ => false

/-- The next step of the call sets one of negotiation result and session id, or reads it for the
headers of a post. -/
def HttpPhase.touchesPair : HttpPhase → Bool
  | .clearingSession _ => true
  | .settingNegotiation .. => true
  | .readingNegotiation _ => true
  | .droppingSession => true
  | phase => phase.midPair

/-- No other call is between its two accesses. -/
def OthersIdle (t : HTTPTransport) (call : ℕ) : Prop :=
  ∀ other ∈ t.calls.eraseIdx call, other.phase.midPair = false

instance (t : HTTPTransport) : DecidablePred (OthersIdle t) := fun call =>
  inferInstanceAs (Decidable (∀ other ∈ t.calls.eraseIdx call, _))

/-- The call that goes on with the step. -/
def HttpStep.advanced? : HttpStep → Option ℕ
  | .advance call _ => some call
  | .begin _ => none

/-- No other call is between its two accesses where one of them is made. -/
def Undivided (t : HTTPTransport) (step : HttpStep) : Prop :=
  ∀ call ∈ step.advanced?, ∀ c ∈ t.calls[call]?, c.phase.touchesPair = true → OthersIdle t call

instance (t : HTTPTransport) : DecidablePred (Undivided t) := fun step =>
  inferInstanceAs (Decidable (∀ call ∈ step.advanced?, ∀ c ∈ t.calls[call]?, _ → _))

/-! ### The invariants -/

/-- The negotiation result and the session id are those of the exchange. -/
def HoldsExchange (t : HTTPTransport) (exchange : ℕ) : Prop :=
  ∃ e, t.exchanges[exchange]? = some e ∧ t.sessionId = e.sessionId

/-- What is known where a call is. -/
def HttpPhase.Sound (t : HTTPTransport) : HttpPhase → Prop
  | .settingNegotiation _ exchange => exchange < t.exchanges.length
  | .settingSession _ exchange => t.negotiation = some exchange ∧ exchange < t.exchanges.length
  | .checkingSession _ exchange headers => t.negotiation = some exchange ∧
      HoldsExchange t exchange ∧ headers = t.versionHeaders exchange
  | .readingSession _ exchange headers => t.negotiation = some exchange ∧
      HoldsExchange t exchange ∧ headers = t.versionHeaders exchange ∧ t.noSession = false
  | .posting _ exchange headers => Carries t.exchanges exchange headers
  | _ => True

/-- Outside of pairs of accesses the session id is the one of the negotiation result. -/
structure Paired (events : List HttpEvent) (t : HTTPTransport) : Prop where
  carries : ∀ call use body exchange headers, .posted call use body exchange headers ∈ events →
    Carries t.exchanges exchange headers
  settled : (∀ c ∈ t.calls, c.phase.midPair = false) → ∀ exchange, t.negotiation = some exchange →
    HoldsExchange t exchange
  sound : ∀ c ∈ t.calls, c.phase.Sound t
  negotiated : ∀ e ∈ t.exchanges, e.negotiation.status = .negotiated ∧
    e.negotiation.protocolVersion = some supportedMcpProtocolVersion

/-- What a call has done with its payload is what it tells. -/
structure Attempted (events : List HttpEvent) (t : HTTPTransport) : Prop where
  fresh : ∀ call, t.calls.length ≤ call → attempts call events = []
  retries : ∀ (call : ℕ) (c : HttpCall), t.calls[call]? = some c → c.retryCount ≤ 2
  going : ∀ (call : ℕ) (c : HttpCall), t.calls[call]? = some c → c.phase ≠ .done →
    attempts call events = (List.replicate c.retryCount [.posted, .refused]).flatten
  bounded : ∀ call, attempts call events <+: [.posted, .refused, .posted, .refused, .posted]

/-! ### Attempts -/

@[simp] lemma attempts_append (call : ℕ) (events new : List HttpEvent) :
    attempts call (events ++ new) = attempts call events ++ attempts call new :=
  List.filterMap_append

/-- What is tried up to the number of retries, and what may come next. -/
lemma attempts_initial {n : ℕ} (h : n ≤ 2) :
    (List.replicate n [Attempt.posted, .refused]).flatten ++ [.posted] <+:
      [.posted, .refused, .posted, .refused, .posted] := by
  match n, h with
  | 0, _ => decide
  | 1, _ => decide
  | 2, _ => decide

/-- The call goes on. -/
lemma Attempted.move (h : Attempted events t) (hc : t.calls[call]? = some c) {t' : HTTPTransport}
    {c' : HttpCall} {new : List HttpEvent} (hcalls : t'.calls = t.calls.set call c')
    (hothers : ∀ other, other ≠ call → attempts other new = []) (hretries : c'.retryCount ≤ 2)
    (hgoing : c'.phase ≠ .done → attempts call (events ++ new) =
      (List.replicate c'.retryCount [.posted, .refused]).flatten)
    (hbounded : attempts call (events ++ new) <+: [.posted, .refused, .posted, .refused, .posted]) :
    Attempted (events ++ new) t' := by
  have hlt : call < t.calls.length := (List.getElem?_eq_some_iff.mp hc).1
  have hsame : ∀ other, other ≠ call → attempts other (events ++ new) = attempts other events := by
    intro other hne
    rw [attempts_append, hothers other hne, List.append_nil]
  have hget : ∀ (other : ℕ) (d : HttpCall), t'.calls[other]? = some d →
      other = call ∧ d = c' ∨ other ≠ call ∧ t.calls[other]? = some d := by
    intro other d hd
    rw [hcalls, List.getElem?_set] at hd
    split at hd
    · rename_i heq
      exact .inl ⟨heq.symm, (Option.some.inj hd).symm⟩
    · rename_i hne
      exact .inr ⟨fun heq => hne heq.symm, hd⟩
  constructor
  case fresh =>
    intro other hother
    rw [hcalls, List.length_set] at hother
    rw [hsame other (by omega)]
    exact h.fresh other hother
  case retries =>
    intro other d hd
    rcases hget other d hd with ⟨-, rfl⟩ | ⟨-, hd⟩
    · exact hretries
    · exact h.retries other d hd
  case going =>
    intro other d hd hphase
    rcases hget other d hd with ⟨rfl, rfl⟩ | ⟨hne, hd⟩
    · exact hgoing hphase
    · rw [hsame other hne]
      exact h.going other d hd hphase
  case bounded =>
    intro other
    by_cases hother : other = call
    · exact hother ▸ hbounded
    · rw [hsame other hother]
      exact h.bounded other

/-- The call goes on and says nothing about its payload. -/
lemma Attempted.move_silent (h : Attempted events t) (hc : t.calls[call]? = some c)
    (hactive : c.phase ≠ .done) {t' : HTTPTransport} {phase : HttpPhase} {new : List HttpEvent}
    (hcalls : t'.calls = t.calls.set call { c with phase := phase })
    (hsilent : ∀ other, attempts other new = []) : Attempted (events ++ new) t' := by
  have hsame : attempts call (events ++ new) = attempts call events := by
    rw [attempts_append, hsilent, List.append_nil]
  refine h.move hc hcalls (fun other _ => hsilent other) (h.retries call c hc) (fun _ => ?_) ?_
  · rw [hsame]
    exact h.going call c hc hactive
  · rw [hsame]
    exact h.bounded call

/-- A step that posts no payload says nothing about one. -/
lemma advance_silent (hactive : c.phase ≠ .done)
    (hpayload : ∀ exchange headers, c.phase ≠ .posting .request exchange headers)
    (response : Except String HttpResponse) :
    ∃ phase, (t.advance rt loads call c response).1.calls =
        t.calls.set call { c with phase := phase } ∧
      ∀ other, attempts other (t.advance rt loads call c response).2 = [] := by
  have hrejected : ∀ use : SessionUse, ∃ phase, (t.rejected call c use).1.calls =
      t.calls.set call { c with phase := phase } ∧
        ∀ other, attempts other (t.rejected call c use).2 = [] := by
    rintro (_ | _)
    · exact ⟨_, rfl, fun _ => rfl⟩
    · exact ⟨_, rfl, fun _ => rfl⟩
  unfold HTTPTransport.advance
  split
  case h_4 use _ =>
    dsimp only
    unfold HTTPTransport.afterInitialize
    split
    · exact ⟨_, rfl, fun _ => rfl⟩
    · split
      · exact ⟨_, rfl, fun _ => rfl⟩
      · dsimp only
        split
        · exact ⟨_, rfl, fun _ => rfl⟩
        · exact hrejected use
  case h_8 =>
    split
    · exact ⟨_, rfl, fun _ => rfl⟩
    · exact ⟨_, rfl, fun _ => rfl⟩
  case h_11 use _ =>
    split
    · exact hrejected use
    · exact ⟨_, rfl, fun _ => rfl⟩
  case h_15 hphase => exact absurd hphase (hpayload _ _)
  case h_21 hphase => exact absurd hphase hactive
  all_goals exact ⟨_, rfl, fun _ => rfl⟩

/-- The payload is posted. -/
lemma attempted_post (h : Attempted events t) (hc : t.calls[call]? = some c)
    (hactive : c.phase ≠ .done) (exchange : ℕ) (headers : Headers)
    (response : Except String HttpResponse) :
    Attempted (events ++ .posted call .request c.payload exchange headers ::
      (t.afterPost rt loads call c response).2) (t.afterPost rt loads call c response).1 := by
  have hretries := h.retries call c hc
  have hgoing := h.going call c hc hactive
  have hattempts : ∀ other new, attempts other
      (.posted call .request c.payload exchange headers :: new) =
        (if call = other then [.posted] else []) ++ attempts other new := by
    intro other new
    unfold attempts
    rw [List.filterMap_cons]
    by_cases hother : call = other <;> simp [HttpEvent.attempt?, hother]
  have hended : ∀ outcome, Attempted (events ++
      .posted call .request c.payload exchange headers :: (t.finish call c outcome).2)
        (t.finish call c outcome).1 := by
    intro outcome
    have hnone : ∀ other, attempts other (t.finish call c outcome).2 = [] := fun _ => rfl
    refine h.move hc rfl (fun other hne => ?_) hretries (fun hphase => absurd rfl hphase) ?_
    · rw [hattempts, hnone, if_neg (Ne.symm hne)]
      rfl
    · rw [attempts_append, hattempts, hnone, if_pos rfl, hgoing]
      exact attempts_initial hretries
  unfold HTTPTransport.afterPost
  split
  · exact hended _
  · split
    · rename_i hretry
      have hrefused : ∀ other, attempts other [.refused call] =
          if call = other then [.refused] else [] := by
        intro other
        by_cases hother : call = other <;> simp [attempts, HttpEvent.attempt?, hother]
      have hnow : attempts call (events ++ .posted call .request c.payload exchange headers ::
          [.refused call]) = (List.replicate (c.retryCount + 1) [.posted, .refused]).flatten := by
        rw [attempts_append, hattempts, hrefused, if_pos rfl, if_pos rfl, hgoing,
          List.replicate_succ', List.flatten_append]
        rfl
      refine h.move hc rfl (fun other hne => ?_) hretry.2 (fun _ => hnow) ?_
      · rw [hattempts, hrefused, if_neg (Ne.symm hne), if_neg (Ne.symm hne)]
        rfl
      · rw [hnow]
        exact (List.prefix_append _ [.posted]).trans (attempts_initial hretry.2)
    · split
      · exact hended _
      · split
        · exact hended _
        · exact hended _

/-- One step. -/
theorem attempted_step (h : Attempted events t) (step : HttpStep) :
    Attempted (events ++ (httpTransport rt loads t step).2) (httpTransport rt loads t step).1 := by
  cases step with
  | begin payload =>
    show Attempted (events ++ []) { t with calls := t.calls ++ [{ payload := payload }] }
    rw [List.append_nil]
    have hget : ∀ {call : ℕ} {c : HttpCall}, (t.calls ++ [{ payload := payload }])[call]? = some c →
        t.calls[call]? = some c ∨ call = t.calls.length ∧ c = { payload := payload } := by
      intro call c hc
      rw [List.getElem?_append] at hc
      split at hc
      · exact .inl hc
      · rw [List.getElem?_singleton] at hc
        split at hc
        · exact .inr ⟨by omega, (Option.some.inj hc).symm⟩
        · simp at hc
    constructor
    case fresh =>
      intro call hcall
      exact h.fresh call (by simp only [List.length_append, List.length_singleton] at hcall; omega)
    case retries =>
      intro call c hc
      rcases hget hc with hold | ⟨-, rfl⟩
      · exact h.retries call c hold
      · exact Nat.zero_le 2
    case going =>
      intro call c hc hphase
      rcases hget hc with hold | ⟨rfl, rfl⟩
      · exact h.going call c hold hphase
      · exact h.fresh _ (Nat.le_refl _)
    case bounded => exact h.bounded
  | advance call response =>
    unfold httpTransport
    dsimp only
    split
    · rename_i c hc
      by_cases hdone : c.phase = .done
      · have hstep : t.advance rt loads call c response = (t, []) := by
          unfold HTTPTransport.advance
          rw [hdone]
        rw [hstep, List.append_nil]
        exact h
      · by_cases hpayload : ∃ exchange headers, c.phase = .posting .request exchange headers
        · obtain ⟨exchange, headers, hphase⟩ := hpayload
          have hstep : t.advance rt loads call c response =
              ((t.afterPost rt loads call c response).1,
                .posted call .request c.payload exchange headers ::
                  (t.afterPost rt loads call c response).2) := by
            unfold HTTPTransport.advance
            rw [hphase]
          rw [hstep]
          exact attempted_post h hc hdone exchange headers response
        · obtain ⟨phase, hcalls, hsilent⟩ := @advance_silent rt loads t call c hdone
            (fun exchange headers heq => hpayload ⟨exchange, headers, heq⟩) response
          exact h.move_silent hc hdone hcalls hsilent
    · rw [List.append_nil]
      exact h

/-! ### Pairs of accesses -/

/-- Nothing in `t'` differs from `t` but the calls, the format and new exchanges. -/
structure SamePair (t t' : HTTPTransport) : Prop where
  sessionId : t'.sessionId = t.sessionId
  negotiation : t'.negotiation = t.negotiation

lemma Carries.append {exchanges : List Exchange} {exchange : ℕ} {headers : Headers}
    (h : Carries exchanges exchange headers) (more : List Exchange) :
    Carries (exchanges ++ more) exchange headers := by
  obtain ⟨e, he, hrest⟩ := h
  exact ⟨e, by rw [List.getElem?_append_left (List.getElem?_eq_some_iff.mp he).1, he], hrest⟩

lemma HoldsExchange.append {t' : HTTPTransport} {exchange : ℕ} (h : HoldsExchange t exchange)
    (hsame : t'.sessionId = t.sessionId) {more : List Exchange}
    (hmore : t'.exchanges = t.exchanges ++ more) : HoldsExchange t' exchange := by
  obtain ⟨e, he, hid⟩ := h
  refine ⟨e, ?_, hsame.trans hid⟩
  rw [hmore, List.getElem?_append_left (List.getElem?_eq_some_iff.mp he).1, he]

lemma versionHeaders_append {t' : HTTPTransport} {exchange : ℕ} (h : HoldsExchange t exchange)
    (hkey : t'.apiKey = t.apiKey) {more : List Exchange}
    (hmore : t'.exchanges = t.exchanges ++ more) :
    t'.versionHeaders exchange = t.versionHeaders exchange := by
  obtain ⟨e, he, -⟩ := h
  have hget : t'.exchanges[exchange]? = t.exchanges[exchange]? := by
    rw [hmore, List.getElem?_append_left (List.getElem?_eq_some_iff.mp he).1]
  unfold HTTPTransport.versionHeaders HTTPTransport.baseHeaders
  rw [hget, hkey]

/-- What is known where a call is stays known while nobody touches the pair, or where the call
has not begun to. -/
lemma HttpPhase.Sound.keep {phase : HttpPhase} (h : phase.Sound t) {t' : HTTPTransport}
    (hkey : t'.apiKey = t.apiKey) {more : List Exchange}
    (hmore : t'.exchanges = t.exchanges ++ more)
    (hpair : SamePair t t' ∨ phase.midPair = false) : phase.Sound t' := by
  have hlength : t.exchanges.length ≤ t'.exchanges.length := by
    rw [hmore, List.length_append]
    exact Nat.le_add_right _ _
  cases phase with
  | settingNegotiation use exchange => exact Nat.lt_of_lt_of_le h hlength
  | posting use exchange headers =>
    show Carries t'.exchanges exchange headers
    rw [hmore]
    exact Carries.append h more
  | settingSession use exchange =>
    have hsame := hpair.resolve_right (by simp [HttpPhase.midPair])
    exact ⟨hsame.negotiation.trans h.1, Nat.lt_of_lt_of_le h.2 hlength⟩
  | checkingSession use exchange headers =>
    have hsame := hpair.resolve_right (by simp [HttpPhase.midPair])
    obtain ⟨hnegotiation, hholds, rfl⟩ := h
    exact ⟨hsame.negotiation.trans hnegotiation, hholds.append hsame.sessionId hmore,
      (versionHeaders_append hholds hkey hmore).symm⟩
  | readingSession use exchange headers =>
    have hsame := hpair.resolve_right (by simp [HttpPhase.midPair])
    obtain ⟨hnegotiation, hholds, rfl, hid⟩ := h
    refine ⟨hsame.negotiation.trans hnegotiation, hholds.append hsame.sessionId hmore,
      (versionHeaders_append hholds hkey hmore).symm, ?_⟩
    unfold HTTPTransport.noSession at hid ⊢
    rw [hsame.sessionId]
    exact hid
  | _ => trivial

/-- No call is between its two accesses. -/
lemma OthersIdle.all (h : OthersIdle t call) (hc : t.calls[call]? = some c)
    (hidle : c.phase.midPair = false) : ∀ d ∈ t.calls, d.phase.midPair = false := by
  intro d hd
  obtain ⟨j, hj⟩ := List.mem_iff_getElem?.mp hd
  by_cases hcall : j = call
  · rw [hcall, hc] at hj
    exact Option.some.inj hj ▸ hidle
  · exact h d (List.mem_eraseIdx_iff_getElem?.mpr ⟨j, hcall, hj⟩)

/-- The call goes on; if it touches the pair, no other call is between its two accesses. -/
lemma Paired.move (h : Paired events t) (hc : t.calls[call]? = some c) {t' : HTTPTransport}
    {c' : HttpCall} {new : List HttpEvent} {more : List Exchange}
    (hcalls : t'.calls = t.calls.set call c') (hkey : t'.apiKey = t.apiKey)
    (hmore : t'.exchanges = t.exchanges ++ more)
    (hnegotiated : ∀ e ∈ more, e.negotiation.status = .negotiated ∧
      e.negotiation.protocolVersion = some supportedMcpProtocolVersion)
    (hpair : SamePair t t' ∨ OthersIdle t call)
    (hsettled : c'.phase.midPair = false → OthersIdle t call → ∀ exchange,
      t'.negotiation = some exchange → HoldsExchange t' exchange)
    (hsound : c'.phase.Sound t')
    (hposted : ∀ caller use body exchange headers,
      .posted caller use body exchange headers ∈ new → Carries t'.exchanges exchange headers) :
    Paired (events ++ new) t' := by
  have hlt : call < t.calls.length := (List.getElem?_eq_some_iff.mp hc).1
  constructor
  case carries =>
    intro caller use body exchange headers hmem
    rcases List.mem_append.mp hmem with hold | hnew
    · rw [hmore]
      exact (h.carries caller use body exchange headers hold).append more
    · exact hposted caller use body exchange headers hnew
  case settled =>
    intro hnone
    rw [hcalls] at hnone
    have hself : (t.calls.set call c')[call]? = some c' := List.getElem?_set_self hlt
    refine hsettled (hnone c' (List.mem_of_getElem? hself)) fun other hother => ?_
    obtain ⟨j, hne, hj⟩ := List.mem_eraseIdx_iff_getElem?.mp hother
    have hset : (t.calls.set call c')[j]? = some other := by
      rw [List.getElem?_set_ne (Ne.symm hne), hj]
    exact hnone other (List.mem_of_getElem? hset)
  case sound =>
    intro other hother
    rw [hcalls] at hother
    obtain ⟨j, hj⟩ := List.mem_iff_getElem?.mp hother
    rw [List.getElem?_set] at hj
    split at hj
    · exact Option.some.inj hj ▸ hsound
    · rename_i hne
      have herase : other ∈ t.calls.eraseIdx call :=
        List.mem_eraseIdx_iff_getElem?.mpr ⟨j, fun heq => hne heq.symm, hj⟩
      exact (h.sound other (List.mem_of_getElem? hj)).keep hkey hmore
        (hpair.imp_right fun hall => hall other herase)
  case negotiated =>
    intro e he
    rw [hmore] at he
    exact (List.mem_append.mp he).elim (h.negotiated e) (hnegotiated e)

/-- The call goes on and leaves the pair as it is, and it was not between two accesses. -/
lemma Paired.quiet (h : Paired events t) (hc : t.calls[call]? = some c)
    (hidle : c.phase.midPair = false) {t' : HTTPTransport} {c' : HttpCall} {new : List HttpEvent}
    {more : List Exchange} (hcalls : t'.calls = t.calls.set call c') (hsame : SamePair t t')
    (hkey : t'.apiKey = t.apiKey) (hmore : t'.exchanges = t.exchanges ++ more)
    (hnegotiated : ∀ e ∈ more, e.negotiation.status = .negotiated ∧
      e.negotiation.protocolVersion = some supportedMcpProtocolVersion)
    (hsound : c'.phase.Sound t')
    (hposted : ∀ caller use body exchange headers,
      .posted caller use body exchange headers ∈ new → Carries t'.exchanges exchange headers) :
    Paired (events ++ new) t' := by
  refine h.move hc hcalls hkey hmore hnegotiated (.inl hsame) (fun _ hothers => ?_) hsound hposted
  intro exchange hexchange
  have hholds := h.settled (hothers.all hc hidle) exchange (hsame.negotiation ▸ hexchange)
  exact hholds.append hsame.sessionId hmore

/-- The call goes on in silence while no other call is between its two accesses. -/
lemma Paired.access (h : Paired events t) (hc : t.calls[call]? = some c)
    (hidle : OthersIdle t call) {t' : HTTPTransport} {c' : HttpCall}
    (hcalls : t'.calls = t.calls.set call c') (hkey : t'.apiKey = t.apiKey)
    (hsame : t'.exchanges = t.exchanges)
    (hsettled : c'.phase.midPair = false → ∀ exchange, t'.negotiation = some exchange →
      HoldsExchange t' exchange)
    (hsound : c'.phase.Sound t') : Paired (events ++ []) t' :=
  h.move hc hcalls hkey (hsame.trans (List.append_nil _).symm) (by simp) (.inr hidle)
    (fun hend _ => hsettled hend) hsound (by simp)

lemma HoldsExchange.of_negotiation {exchange : ℕ} (h : HoldsExchange t exchange)
    (hnegotiation : t.negotiation = some exchange) :
    ∀ other, t.negotiation = some other → HoldsExchange t other := by
  intro other hother
  rwa [← Option.some.inj (hnegotiation.symm.trans hother)]

/-! ### Headers -/

lemma get?_baseHeaders : get? t.baseHeaders "Mcp-Session-Id" = none := by
  unfold HTTPTransport.baseHeaders
  dsimp only
  split
  · split <;> simp [get?_cons]
  · simp [get?_cons]

/-- The headers with the version and, if there is none, without the session id. -/
lemma carries_versionHeaders (h : Paired events t) {exchange : ℕ}
    (hholds : HoldsExchange t exchange) (hid : t.noSession = true) :
    Carries t.exchanges exchange (t.versionHeaders exchange) := by
  obtain ⟨e, he, hsession⟩ := hholds
  obtain ⟨hstatus, hversion⟩ := h.negotiated e (List.mem_of_getElem? he)
  have hcarried : e.carried = none := by
    unfold HTTPTransport.noSession at hid
    rw [hsession] at hid
    exact if_pos (by simpa using hid)
  refine ⟨e, he, hstatus, ?_, ?_⟩
  · unfold HTTPTransport.versionHeaders
    rw [he, Option.bind_some, hversion]
    exact get?_insert_self
  · unfold HTTPTransport.versionHeaders
    rw [get?_insert_of_ne (by decide), get?_baseHeaders, hcarried]

/-- The headers with the version and the session id. -/
lemma carries_sessionHeaders (h : Paired events t) {exchange : ℕ}
    (hholds : HoldsExchange t exchange) (hid : t.noSession = false) :
    Carries t.exchanges exchange (t.sessionHeaders (t.versionHeaders exchange)) := by
  obtain ⟨e, he, hsession⟩ := hholds
  obtain ⟨hstatus, hversion⟩ := h.negotiated e (List.mem_of_getElem? he)
  unfold HTTPTransport.noSession at hid
  cases hsome : t.sessionId with
  | none => simp [hsome] at hid
  | some id =>
    have hcarried : e.carried = some id := by
      rw [hsome] at hid
      unfold Exchange.carried
      rw [← hsession, hsome, if_neg (by simpa using hid)]
    unfold HTTPTransport.sessionHeaders
    rw [hsome]
    refine ⟨e, he, hstatus, ?_, ?_⟩
    · dsimp only
      rw [get?_insert_of_ne (by decide)]
      unfold HTTPTransport.versionHeaders
      rw [he, Option.bind_some, hversion]
      exact get?_insert_self
    · rw [hcarried]
      exact get?_insert_self

/-! ### One step -/

@[simp] lemma afterSession_sound (use : SessionUse) :
    (HTTPTransport.afterSession use).Sound t := by
  cases use <;> trivial

/-- The call goes on and leaves everything else as it is, and it was not between two accesses. -/
lemma Paired.setPhase (h : Paired events t) (hc : t.calls[call]? = some c)
    (hidle : c.phase.midPair = false) {c' : HttpCall} {phase : HttpPhase} {new : List HttpEvent}
    (hsound : phase.Sound t)
    (hposted : ∀ caller use body exchange headers,
      .posted caller use body exchange headers ∈ new → Carries t.exchanges exchange headers) :
    Paired (events ++ new) (t.setPhase call c' phase) := by
  refine h.quiet hc hidle rfl ⟨rfl, rfl⟩ rfl (List.append_nil _).symm (by simp) ?_ hposted
  exact hsound.keep rfl (List.append_nil _).symm (.inl ⟨rfl, rfl⟩)

/-- The call ends. -/
lemma Paired.finish (h : Paired events t) (hc : t.calls[call]? = some c)
    (hidle : c.phase.midPair = false) (outcome : MCPTransportRequestOutcome) :
    Paired (events ++ (t.finish call c outcome).2) (t.finish call c outcome).1 :=
  h.setPhase hc hidle trivial (by simp [HTTPTransport.finish])

/-- The call does without a negotiated version. -/
lemma Paired.rejected (h : Paired events t) (hc : t.calls[call]? = some c)
    (hidle : c.phase.midPair = false) (use : SessionUse) :
    Paired (events ++ (t.rejected call c use).2) (t.rejected call c use).1 := by
  cases use with
  | request => exact h.finish hc hidle .malformedResponse
  | detection => exact h.setPhase hc hidle trivial (by simp [HTTPTransport.rejected])

/-- The response to the `initialize` request. -/
lemma Paired.afterInitialize (h : Paired events t) (hc : t.calls[call]? = some c)
    (hidle : c.phase.midPair = false) (use : SessionUse)
    (response : Except String HttpResponse) :
    Paired (events ++ (t.afterInitialize loads call c use response).2)
      (t.afterInitialize loads call c use response).1 := by
  unfold HTTPTransport.afterInitialize
  split
  · exact h.finish hc hidle _
  · split
    · exact h.finish hc hidle _
    · rename_i version _
      dsimp only
      split
      · rename_i hstatus
        have hversion : version = .str supportedMcpProtocolVersion :=
          negotiated_iff.mp hstatus
        refine h.quiet hc hidle rfl ⟨rfl, rfl⟩ rfl rfl (fun e he => ?_) ?_ (by simp)
        · rw [List.mem_singleton.mp he]
          refine ⟨hstatus, ?_⟩
          rw [hversion]
          rfl
        · show t.exchanges.length < (t.exchanges ++ [_]).length
          simp
      · exact h.rejected hc hidle use

/-- The response to the payload. -/
lemma Paired.afterPost (h : Paired events t) (hc : t.calls[call]? = some c)
    (hidle : c.phase.midPair = false) (response : Except String HttpResponse) :
    Paired (events ++ (t.afterPost rt loads call c response).2)
      (t.afterPost rt loads call c response).1 := by
  unfold HTTPTransport.afterPost
  split
  · exact h.finish hc hidle _
  · split
    · exact h.setPhase hc hidle trivial (by simp)
    · split
      · exact h.finish hc hidle _
      · split
        · exact h.finish hc hidle _
        · exact h.finish hc hidle _

lemma afterPost_exchanges (response : Except String HttpResponse) :
    (t.afterPost rt loads call c response).1.exchanges = t.exchanges := by
  unfold HTTPTransport.afterPost
  split
  · rfl
  · split
    · rfl
    · split
      · rfl
      · split <;> rfl

/-- The session id is set to that of the exchange that was negotiated. -/
lemma Paired.setSession (h : Paired events t) (hc : t.calls[call]? = some c)
    (hidle : OthersIdle t call) {exchange : ℕ} (hnegotiation : t.negotiation = some exchange)
    (hlt : exchange < t.exchanges.length) {c' : HttpCall} {phase : HttpPhase}
    (hsound : ∀ t' : HTTPTransport, phase.Sound t') :
    Paired (events ++ []) ({ t with
      sessionId := t.exchanges[exchange]?.bind Exchange.sessionId }.setPhase call c' phase) := by
  refine h.access hc hidle rfl rfl rfl (fun _ other hother => ?_) (hsound _)
  obtain rfl : exchange = other := Option.some.inj (hnegotiation.symm.trans hother)
  refine ⟨t.exchanges[exchange], List.getElem?_eq_getElem hlt, ?_⟩
  show t.exchanges[exchange]?.bind Exchange.sessionId = _
  rw [List.getElem?_eq_getElem hlt, Option.bind_some]

/-- The headers of the exchange carry its version and, unless there is none, go on to its id. -/
lemma sound_checkedHeaders (h : Paired events t) (use : SessionUse) {exchange : ℕ}
    (hnegotiation : t.negotiation = some exchange) (hholds : HoldsExchange t exchange) :
    (if t.noSession then HttpPhase.posting use exchange (t.versionHeaders exchange)
      else .readingSession use exchange (t.versionHeaders exchange)).Sound t := by
  split
  · rename_i hid
    exact carries_versionHeaders h hholds hid
  · rename_i hid
    exact ⟨hnegotiation, hholds, rfl, by simpa using hid⟩

/-- A call that goes on. -/
lemma paired_advance (h : Paired events t) (hc : t.calls[call]? = some c)
    (hothers : c.phase.touchesPair = true → OthersIdle t call)
    (response : Except String HttpResponse) :
    Paired (events ++ (t.advance rt loads call c response).2)
      (t.advance rt loads call c response).1 := by
  have hsound := h.sound c (List.mem_of_getElem? hc)
  unfold HTTPTransport.advance
  split
  case h_1 use hphase =>
    have hnext : (if t.negotiation.isSome then HTTPTransport.afterSession use
        else HttpPhase.clearingSession use).Sound t := by
      split
      · exact afterSession_sound use
      · trivial
    exact h.setPhase hc (hphase ▸ rfl) hnext (by simp)
  case h_2 use hphase => exact h.access hc (hothers (hphase ▸ rfl)) rfl rfl rfl nofun trivial
  case h_3 use hphase =>
    exact h.access hc (hothers (hphase ▸ rfl)) rfl rfl rfl (fun _ _ hsome => nomatch hsome) trivial
  case h_4 use hphase =>
    have hnext : Paired (events ++ (t.afterInitialize loads call c use response).2) _ :=
      h.afterInitialize hc (hphase ▸ rfl) use response
    refine ⟨fun caller use' body exchange headers hmem => ?_, hnext.settled, hnext.sound,
      hnext.negotiated⟩
    refine hnext.carries caller use' body exchange headers ?_
    simpa using hmem
  case h_5 use exchange hphase =>
    rw [hphase] at hsound
    exact h.access hc (hothers (hphase ▸ rfl)) rfl rfl rfl nofun ⟨rfl, hsound⟩
  case h_6 use exchange hphase =>
    rw [hphase] at hsound
    exact h.setSession hc (hothers (hphase ▸ rfl)) hsound.1 hsound.2 fun _ => trivial
  case h_7 use hphase =>
    have hnext : (if t.noSession then HTTPTransport.afterSession use
        else HttpPhase.slicingSession use).Sound t := by
      split
      · exact afterSession_sound use
      · trivial
    exact h.setPhase hc (hphase ▸ rfl) hnext (by simp)
  case h_8 use hphase =>
    split
    · exact h.setPhase hc (hphase ▸ rfl) (afterSession_sound use) (by simp)
    · exact h.finish hc (hphase ▸ rfl) _
  case h_9 hphase =>
    have hnext : (if t.formatDetected then HttpPhase.readingNegotiation .request
        else .detecting).Sound t := by
      split <;> trivial
    exact h.setPhase hc (hphase ▸ rfl) hnext (by simp)
  case h_10 hphase =>
    have hnext : (if t.formatDetected then HttpPhase.readingNegotiation .request
        else .ensuring .detection).Sound t := by
      split <;> trivial
    exact h.setPhase hc (hphase ▸ rfl) hnext (by simp)
  case h_11 use hphase =>
    split
    · exact h.rejected hc (hphase ▸ rfl) use
    · rename_i exchange hsome
      have hall := (hothers (hphase ▸ rfl)).all hc (hphase ▸ rfl)
      exact h.setPhase hc (hphase ▸ rfl) ⟨hsome, h.settled hall exchange hsome, rfl⟩ (by simp)
  case h_12 use exchange headers hphase =>
    rw [hphase] at hsound
    obtain ⟨hnegotiation, hholds, rfl⟩ := hsound
    have hnext := sound_checkedHeaders h use hnegotiation hholds
    exact h.access hc (hothers (hphase ▸ rfl)) rfl rfl rfl
      (fun _ => hholds.of_negotiation hnegotiation)
      (hnext.keep rfl (List.append_nil _).symm (.inl ⟨rfl, rfl⟩))
  case h_13 use exchange headers hphase =>
    rw [hphase] at hsound
    obtain ⟨hnegotiation, hholds, rfl, hid⟩ := hsound
    exact h.access hc (hothers (hphase ▸ rfl)) rfl rfl rfl
      (fun _ => hholds.of_negotiation hnegotiation) (carries_sessionHeaders h hholds hid)
  case h_14 exchange headers hphase =>
    rw [hphase] at hsound
    refine h.setPhase hc (hphase ▸ rfl) trivial fun caller use body other sent hmem => ?_
    cases List.mem_singleton.mp hmem
    exact hsound
  case h_15 exchange headers hphase =>
    rw [hphase] at hsound
    have hnext : Paired (events ++ (t.afterPost rt loads call c response).2) _ :=
      h.afterPost hc (hphase ▸ rfl) response
    refine ⟨fun caller use body other sent hmem => ?_, hnext.settled, hnext.sound,
      hnext.negotiated⟩
    rcases List.mem_append.mp hmem with hold | hnew
    · exact hnext.carries caller use body other sent (List.mem_append_left _ hold)
    · rcases List.mem_cons.mp hnew with heq | hlater
      · cases heq
        rw [afterPost_exchanges]
        exact hsound
      · exact hnext.carries caller use body other sent (List.mem_append_right _ hlater)
  case h_16 format hphase =>
    exact h.quiet hc (hphase ▸ rfl) rfl ⟨rfl, rfl⟩ rfl (List.append_nil _).symm (by simp) trivial
      (by simp)
  case h_17 hphase =>
    exact h.quiet hc (hphase ▸ rfl) rfl ⟨rfl, rfl⟩ rfl (List.append_nil _).symm (by simp) trivial
      (by simp)
  case h_18 hphase => exact h.access hc (hothers (hphase ▸ rfl)) rfl rfl rfl nofun trivial
  case h_19 hphase =>
    exact h.access hc (hothers (hphase ▸ rfl)) rfl rfl rfl (fun _ _ hsome => nomatch hsome) trivial
  case h_20 hphase =>
    exact h.quiet hc (hphase ▸ rfl) rfl ⟨rfl, rfl⟩ rfl (List.append_nil _).symm (by simp) trivial
      (by simp)
  case h_21 hphase =>
    rw [List.append_nil]
    exact h

/-- One step. -/
theorem paired_step (h : Paired events t) {step : HttpStep} (hundivided : Undivided t step) :
    Paired (events ++ (httpTransport rt loads t step).2) (httpTransport rt loads t step).1 := by
  cases step with
  | begin payload =>
    show Paired (events ++ []) { t with calls := t.calls ++ [{ payload := payload }] }
    rw [List.append_nil]
    refine ⟨h.carries, fun hnone exchange hexchange => ?_, fun c hc => ?_, h.negotiated⟩
    · exact h.settled (fun c hc => hnone c (List.mem_append_left _ hc)) exchange hexchange
    · rcases List.mem_append.mp hc with hold | hnew
      · exact (h.sound c hold).keep rfl (List.append_nil _).symm (.inl ⟨rfl, rfl⟩)
      · rw [List.mem_singleton.mp hnew]
        trivial
  | advance call response =>
    unfold httpTransport
    dsimp only
    split
    · rename_i c hc
      exact paired_advance h hc (fun htouches => hundivided call rfl c hc htouches) response
    · rw [List.append_nil]
      exact h

/-- A call posts its payload three times at most, and again only after a session error, however
the calls interleave. -/
theorem attempts_kept (rt : PyRuntime) (loads : JsonLoads) (apiKey : Option String)
    (steps : List HttpStep) (call : ℕ) :
    attempts call ((httpTransport rt loads).events { apiKey := apiKey } steps) <+:
      [.posted, .refused, .posted, .refused, .posted] := by
  have hattempted : Attempted ((httpTransport rt loads).events { apiKey := apiKey } steps)
      ((httpTransport rt loads).after { apiKey := apiKey } steps) :=
    events_invariant (C := fun _ _ => True) (fun es s o hs _ => attempted_step hs o)
      (always_of_forall fun _ _ => trivial)
      ⟨by simp [attempts], by simp, by simp, by simp [attempts]⟩
  exact hattempted.bounded call

/-- In every run in which no call comes between two accesses of another one, every post carries
a negotiated version with the session id of its exchange, and no payload is posted more than
three times or again without a session error. -/
theorem session_kept (rt : PyRuntime) (loads : JsonLoads) (apiKey : Option String)
    (steps : List HttpStep)
    (hundivided : (httpTransport rt loads).Always Undivided { apiKey := apiKey } steps) :
    SessionDiscipline ((httpTransport rt loads).events { apiKey := apiKey } steps)
      ((httpTransport rt loads).after { apiKey := apiKey } steps) := by
  have hpaired : Paired ((httpTransport rt loads).events { apiKey := apiKey } steps)
      ((httpTransport rt loads).after { apiKey := apiKey } steps) :=
    events_invariant (fun es s o hs hC => paired_step hs hC) hundivided
      ⟨by simp, by simp, by simp, by simp⟩
  exact ⟨hpaired.carries, attempts_kept rt loads apiKey steps⟩

/-- The response to an `initialize` request that negotiates the version with a session. -/
def initializedResponse (id : String) : HttpResponse :=
  { statusCode := 200, sessionId := some id
    json := some (.dict [("result", .dict [("protocolVersion", .str "2024-11-05")])]) }

/-- The response to another request. -/
def plainResponse : HttpResponse :=
  { statusCode := 200, json := some (.dict [("result", .dict [])]) }

/-- A call that negotiates, detects the format and posts its payload. -/
def sessionRun : List HttpStep :=
  .begin (.dict []) :: List.replicate 3 (.advance 0 (.ok plainResponse)) ++
    .advance 0 (.ok (initializedResponse "s1")) ::
      List.replicate 17 (.advance 0 (.ok plainResponse))

theorem sessionRun_kept :
    (∃ exchange headers, .posted 0 .request (.dict []) exchange headers ∈
      (httpTransport PyRuntime.ascii fun _ => .error .decode).events {} sessionRun) ∧
      SessionDiscipline ((httpTransport PyRuntime.ascii fun _ => .error .decode).events {} sessionRun)
        ((httpTransport PyRuntime.ascii fun _ => .error .decode).after {} sessionRun) := by
  refine ⟨⟨0, _, List.mem_of_getElem? (i := 2) rfl⟩, ?_⟩
  exact session_kept PyRuntime.ascii (fun _ => .error .decode) none sessionRun (by decide +kernel)

/-- A call posts between the setting of the negotiation result and that of the session id. -/
def splitRun : List HttpStep :=
  .begin (.dict []) :: List.replicate 3 (.advance 0 (.ok plainResponse)) ++
    .advance 0 (.ok (initializedResponse "s1")) :: .advance 0 (.ok plainResponse) ::
    .begin (.dict []) :: List.replicate 7 (.advance 1 (.ok plainResponse))

theorem session_missing :
    ¬ SessionDiscipline ((httpTransport PyRuntime.ascii fun _ => .error .decode).events {} splitRun)
      ((httpTransport PyRuntime.ascii fun _ => .error .decode).after {} splitRun) := by
  intro h
  obtain ⟨e, he, -, -, hid⟩ := h.carries 1 .detection detectionPayload 0 _
    (List.mem_of_getElem? (i := 1) rfl)
  cases Option.some.inj he
  exact absurd hid (by decide)

end Trion.Mcp

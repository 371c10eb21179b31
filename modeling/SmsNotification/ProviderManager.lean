import SmsNotification.DispatchPass

namespace SmsNotification.ProviderManager

open SmsNotification.ActorSystem
open SmsNotification.DispatchPass
open SmsNotification.LabelledRuns
open SmsNotification.LostRaces
open SmsNotification.MessageAggregate
open SmsNotification.PassResults
open SmsNotification.PassStages
open SmsNotification.QueueConstants
open SmsNotification.Schema
open SmsNotification.Service
open SmsNotification.ServiceEffects
open SmsNotification.ServiceRuns
open SmsNotification.SmsProcessor hiding Config
open SmsNotification.Surroundings

structure DispatchAttempt where
  providerName : String
  result : SendSmsResult
  deriving DecidableEq

structure DispatchOutcome where
  result : SendSmsResult
  providerName : String
  attempts : List DispatchAttempt
  deriving DecidableEq

/-- The aggregate of a pass that no result has stopped: its first permanent failure, or
else its last failure. -/
def terminalOutcome (attempts : List DispatchAttempt) : DispatchOutcome :=
  let permanentAttempt := attempts.find? fun attempt => !attempt.result.isRetryable
  let lastAttempt := attempts.getLast?
  match permanentAttempt.or lastAttempt with
  | some terminalAttempt =>
      ⟨terminalAttempt.result, terminalAttempt.providerName, attempts⟩
  | none =>
      { result :=
          { success := false
            providerMessageId := none
            error := some "No SMS providers are configured"
            isRetryable := false
            isAmbiguous := none }
        providerName := ""
        attempts := attempts }

section Loop

variable {P : Type} {m : Type → Type} [Monad m] (providerName : P → String)
  (sendSms : P → m SendSmsResult)

/-- The loop over the providers that are left, after the attempts so far. -/
def dispatchFrom (attempts : List DispatchAttempt) : List P → m DispatchOutcome
  | [] => pure (terminalOutcome attempts)
  | provider :: providers => do
      let result ← sendSms provider
      let attempts := attempts ++ [⟨providerName provider, result⟩]
      if result.success then
        pure ⟨result, providerName provider, attempts⟩
      else if result.isAmbiguous = some true then
        pure ⟨result, providerName provider, attempts⟩
      else
        dispatchFrom attempts providers

def dispatch (providers : List P) : m DispatchOutcome :=
  dispatchFrom providerName sendSms [] providers

end Loop

/-- A provider notes that it has been called, and answers with its result. -/
def answering (send : Send) : StateM (List String) SendSmsResult := do
  modify (· ++ [send.provider])
  pure send.result

/-- The outcome of a dispatch, with the providers that it has called in order. -/
def dispatched (sends : List Send) : DispatchOutcome × List String :=
  (dispatch Send.provider answering sends).run []

section Outcomes

variable {past todo sends : List Send} {send : Send}

def attempt (send : Send) : DispatchAttempt :=
  ⟨send.provider, send.result⟩

/-- The outcome of a dispatch in terms of the sends: the decider's, or the terminal one. -/
def outcomeOf (sends : List Send) : DispatchOutcome :=
  match decider? sends with
  | some send => ⟨send.result, send.provider, (tried sends).map attempt⟩
  | none => terminalOutcome (sends.map attempt)

theorem outcomeOf_of_decider (h : decider? sends = some send) :
    outcomeOf sends = ⟨send.result, send.provider, (tried sends).map attempt⟩ := by
  rw [outcomeOf, h]

theorem outcomeOf_of_undecided (h : decider? sends = none) :
    outcomeOf sends = terminalOutcome (sends.map attempt) := by
  rw [outcomeOf, h]

theorem run_dispatchFrom_cons (attempts : List DispatchAttempt) (send : Send) (todo : List Send)
    (called : List String) :
    (dispatchFrom Send.provider answering attempts (send :: todo)).run called =
      if decides send then
        (⟨send.result, send.provider, attempts ++ [attempt send]⟩, called ++ [send.provider])
      else
        (dispatchFrom Send.provider answering (attempts ++ [attempt send]) todo).run
          (called ++ [send.provider]) := by
  have hcall : (answering send).run called = pure (send.result, called ++ [send.provider]) := rfl
  rw [dispatchFrom, StateT.run_bind, hcall, pure_bind, decides]
  split
  · rename_i hsuccess
    rw [hsuccess]
    rfl
  · rename_i hsuccess
    rw [Bool.eq_false_of_not_eq_true hsuccess, Bool.false_or]
    split
    · rename_i hambiguous
      rw [if_pos (decide_eq_true hambiguous)]
      rfl
    · rename_i hambiguous
      rw [if_neg (by simpa using hambiguous)]
      rfl

theorem run_dispatchFrom (hpast : ∀ send ∈ past, decides send = false) :
    (dispatchFrom Send.provider answering (past.map attempt) todo).run (past.map Send.provider) =
      (outcomeOf (past ++ todo), (tried (past ++ todo)).map Send.provider) := by
  induction todo generalizing past with
  | nil =>
      rw [List.append_nil]
      have hnone := decider_eq_none hpast
      rw [outcomeOf_of_undecided hnone, tried_of_decider hnone]
      rfl
  | cons send todo ih =>
      rw [run_dispatchFrom_cons]
      cases hdecides : decides send with
      | true =>
          rw [outcomeOf_of_decider (decider_of_past hpast hdecides), tried_of_past hpast hdecides]
          simp
      | false =>
          have hgoes : ∀ other ∈ past ++ [send], decides other = false := by
            intro other hmem
            rcases List.mem_append.mp hmem with hmem | hmem
            · exact hpast other hmem
            · rw [List.mem_singleton.mp hmem, hdecides]
          simpa using ih hgoes

theorem dispatched_eq (sends : List Send) :
    dispatched sends = (outcomeOf sends, (tried sends).map Send.provider) :=
  @run_dispatchFrom [] sends (by simp)

theorem isRetryable_terminalOutcome (sends : List Send) :
    (terminalOutcome (sends.map attempt)).result.isRetryable ↔ AllRetryable sends := by
  rw [terminalOutcome]
  cases hpermanent : (sends.map attempt).find? fun attempt => !attempt.result.isRetryable with
  | some found =>
      have hfound : found.result.isRetryable = false := by
        simpa using List.find?_some hpermanent
      obtain ⟨send, hsend, rfl⟩ := List.mem_map.mp (List.mem_of_find?_eq_some hpermanent)
      rw [Option.some_or, hfound]
      exact iff_of_false (by simp) fun hall => by
        simp [attempt, hall.2 send hsend] at hfound
  | none =>
      have hretryable : ∀ send ∈ sends, send.result.isRetryable := by
        simpa [attempt] using hpermanent
      rw [Option.none_or]
      cases hlast : (sends.map attempt).getLast? with
      | none => simp_all [AllRetryable]
      | some last =>
          obtain ⟨send, hsend, rfl⟩ := List.mem_map.mp (List.mem_of_getLast? hlast)
          exact iff_of_true (hretryable send hsend)
            ⟨List.ne_nil_of_mem hsend, hretryable⟩

theorem success_terminalOutcome (hsends : ∀ send ∈ sends, decides send = false) :
    (terminalOutcome (sends.map attempt)).result.success = false := by
  have hfailed : ∀ found ∈ sends.map attempt, found.result.success = false := by
    intro found hfound
    obtain ⟨send, hsend, rfl⟩ := List.mem_map.mp hfound
    exact (Bool.or_eq_false_iff.mp (hsends send hsend)).1
  rw [terminalOutcome]
  split
  · rename_i found hfound
    obtain hpermanent | ⟨_, hlast⟩ := Option.or_eq_some_iff.mp hfound
    · exact hfailed found (List.mem_of_find?_eq_some hpermanent)
    · exact hfailed found (List.mem_of_getLast? hlast)
  · rfl

end Outcomes

/-- The providers that have been called, in order. -/
def providersCalled (o : Outside) : List String :=
  o.calls.map SendCall.providerName

section Calls

variable {config : Config} {d : Assignment config.processor} {A A' : Aggregate}
  {o o' : Outside} {c : Choice} {state state' : SmsProcessor.State} {s s' : Database}
  {w : ServiceWorld} {a a' : ServiceSnapshot} {l : ServiceLabel} {earlier : List String}

/-- The providers that a pass has called up to an await. -/
def calledUpTo (d : Assignment config.processor) : SmsProcessor.State → List String
  | .reserving pass _ _ | .schedulingRetry pass _ | .markingFatal pass _ _ =>
      pass.passFailures.map PassFailure.providerName
  | .acquiring hold | .calling hold => hold.pass.passFailures.map PassFailure.providerName
  | .awaiting hold _ | .finalizing hold _ =>
      hold.pass.passFailures.map PassFailure.providerName ++ [hold.provider]
  | .finishing _ _ | .finished _ => (tried d.sends).map Send.provider
  | _ => []

/-- The providers that the worker of an assignment has called. -/
def calledBy (d : Assignment config.processor) : Option Control → List String
  | some (.dispatch state) => calledUpTo d state
  | _ => []

theorem calledUpTo_nextProvider (pass : Pass) (providers : List String) :
    calledUpTo d (nextProvider config.processor pass providers) =
      pass.passFailures.map PassFailure.providerName := by
  cases providers with
  | nil =>
      simp only [nextProvider, endOfPass]
      split <;> rfl
  | cons provider rest => rfl

theorem providers_of_along {past todo : List Send} {pass : Pass} (h : Along d past todo pass) :
    pass.passFailures.map PassFailure.providerName = past.map Send.provider := by
  rw [h.failures, List.map_map]
  rfl

theorem not_skipped (task : Task) : ¬Stage d A o (.finishing task .skipped) := by
  intro h
  cases h with
  | finishing hresult => exact hresult.leaves

theorem tried_of_during {past todo : List Send} {send : Send} {hold : Hold}
    (h : During d past send todo hold A) (hdecides : decides send) :
    (tried d.sends).map Send.provider =
      hold.pass.passFailures.map PassFailure.providerName ++ [hold.provider] := by
  rw [h.along.sends, tried_of_past h.along.undecided hdecides, providers_of_along h.along,
    h.provider, List.map_append]
  rfl

theorem calledUpTo_afterFinalize {past todo : List Send} {send : Send} {hold : Hold}
    (h : During d past send todo hold A) :
    calledUpTo d (afterFinalize config.processor hold (recordedResult config.processor send.result))
      = hold.pass.passFailures.map PassFailure.providerName ++ [hold.provider] := by
  cases hdecides : decides send with
  | true =>
      by_cases haccepts : ∃ id, Accepts send id
      · obtain ⟨id, haccepts⟩ := haccepts
        rw [recordedResult_of_accepts config.processor haccepts]
        exact tried_of_during h hdecides
      · obtain ⟨isRetryable, errorMessage, hrecorded⟩ := recordedResult_ambiguous
          config.processor hdecides fun id hid => haccepts ⟨id, hid⟩
        rw [hrecorded]
        exact tried_of_during h hdecides
  | false =>
      obtain ⟨errorMessage, hrecorded⟩ := recordedResult_of_undecided config.processor hdecides
      rw [hrecorded, afterFinalize, calledUpTo_nextProvider, List.map_append]
      rfl

theorem calledUpTo_of_ok (h : Stage d A o state) (h' : Stage d A' o' state')
    (hspec : dispatchSpec config.processor state s (.ok (.dispatch state')) s') :
    calledUpTo d state' = calledUpTo d state := by
  cases h with
  | beginning _ =>
      obtain ⟨begin, hq, _⟩ := hspec
      obtain rfl := Control.dispatch.inj hq
      cases begin with
      | notStartable => exact (not_skipped _ h').elim
      | started message => rfl
  | loading _ _ =>
      obtain ⟨row, hq, _⟩ := hspec
      obtain rfl := Control.dispatch.inj hq
      cases row with
      | none => cases h'
      | some row =>
          rw [afterLoad] at h' ⊢
          split
          · rename_i hnone
            rw [hnone] at h'
            cases h'
          · exact calledUpTo_nextProvider _ _
  | reserving _ _ =>
      obtain ⟨reservation, hq, _⟩ := hspec
      obtain rfl := Control.dispatch.inj hq
      cases reservation with
      | notReservable => exact (not_skipped _ h').elim
      | reserved attemptId => rfl
  | finalizing hduring =>
      obtain ⟨_, hq, _⟩ := hspec
      obtain rfl := Control.dispatch.inj hq
      exact calledUpTo_afterFinalize hduring
  | schedulingRetry halong _ _ | markingFatal halong _ _ =>
      obtain ⟨_, hq, _⟩ := hspec
      obtain rfl := Control.dispatch.inj hq
      change (tried d.sends).map Send.provider = _
      rw [tried_of_decider (decider_eq_none halong.undecided)]
      exact (providers_of_along halong).symm
  | _ => exact hspec.elim

theorem providersCalled_of_acts {q : Control} (hacts : Acts config c o (.dispatch state) o' q)
    (hserves : serves c o (.dispatch state)) (hanswers : answers d.sends c (.dispatch state))
    (h : Stage d A o state) (hcalled : providersCalled o = earlier ++ calledUpTo d state) :
    providersCalled o' = earlier ++ calledBy d (some q) := by
  cases hacts with
  | took _ => cases h
  | notAcquired hold hnot => simp [serves, hnot] at hserves
  | acquired hold _ => exact hcalled
  | started hold =>
      rw [providersCalled, Outside.startCall, List.map_append]
      exact (congrArg (· ++ [hold.provider]) hcalled).trans (List.append_assoc _ _ _)
  | answered hold call hanswer =>
      cases h with
      | awaiting hduring _ =>
          have hreply : c.reply = some _ := (of_decide_eq_true hanswers).trans hduring.assigned
          obtain ⟨started, _, hk, _, rfl, _⟩ := Outside.answerCall_eq_some hanswer
          rw [hreply]
          refine Eq.trans ?_ hcalled
          exact map_set_of_eq hk rfl
  | finished task outcome => exact hcalled
  | failed task => cases h

theorem providersCalled_of_move (hmove : o.move c = some o') :
    providersCalled o' = providersCalled o := by
  obtain hcalls | ⟨call, haccept⟩ := Outside.calls_of_move hmove
  · rw [providersCalled, hcalls, providersCalled]
  · obtain ⟨started, hk, _, rfl⟩ := Outside.acceptCall_eq_some haccept
    exact map_set_of_eq hk rfl

/-- A worker is at a stage of its pass, and has called the providers that the stage tells
after the earlier calls. -/
structure Traced (d : Assignment config.processor) (earlier : List String)
    (a : ServiceSnapshot) : Prop where
  progress : Progress d a
  called : providersCalled a.ext = earlier ++ calledBy d a.controls[0]?

theorem traced_of_waiting (h : Waiting d a) (hcalled : providersCalled a.ext = earlier) :
    Traced d earlier a := by
  refine ⟨Or.inl h, ?_⟩
  rw [h.1, hcalled]
  exact (List.append_nil _).symm

theorem Traced.advances {q : Control} (h : Traced d earlier a) (hstaged : Staged d a state)
    (hprogress : Progress d { a with store := s, controls := a.controls.set 0 q })
    (hspec : dispatchSpec config.processor state a.store (.ok q) s) :
    Traced d earlier { a with store := s, controls := a.controls.set 0 q } := by
  have hcontrols : (a.controls.set 0 q)[0]? = some q := by simp [hstaged.controls]
  obtain ⟨_, state', rfl, hstaged'⟩ := hprogress.staged hcontrols
  refine ⟨hprogress, ?_⟩
  have hcalled := h.called
  rw [hstaged.controls] at hcalled
  rw [hcontrols]
  exact hcalled.trans
    (congrArg (earlier ++ ·) (calledUpTo_of_ok hstaged.stage hstaged'.stage hspec).symm)

theorem traced_of_step (h : Traced d earlier a) (hl : solo d a l)
    (hstep : Atomic (service config) (passSpec config) a l a') : Traced d earlier a' := by
  have hprogress := progress_of_step h.progress hl hstep
  cases soloStep_of_step h.progress hl hstep with
  | started hwaiting =>
      refine ⟨hprogress, h.called.trans ?_⟩
      simp [hwaiting.1, calledBy, calledUpTo]
  | answered hstaged hspec => exact h.advances hstaged hprogress hspec.1
  | acted hstaged hacts hserves hanswers =>
      have hcalled := h.called
      rw [hstaged.controls] at hcalled
      refine ⟨hprogress, ?_⟩
      rw [hstaged.controls]
      exact providersCalled_of_acts hacts hserves hanswers hstaged.stage hcalled
  | moved hmove _ => exact ⟨hprogress, (providersCalled_of_move hmove).trans h.called⟩

end Calls

section Agreement

variable {config : Config} (d : Assignment config.processor) (earlier : List String)

/-- The worlds of the runs of the worker alone, after the earlier calls. -/
def Alone : ServiceWorld → Prop :=
  Reaches config (fun a l => solo d a l) fun a => Waiting d a ∧ providersCalled a.ext = earlier

/-- What the pass of a worker and a dispatch over the same providers have in common. -/
structure Agrees (w : ServiceWorld) (state : SmsProcessor.State) : Prop where
  calls : ∀ outcome, state = .finished outcome →
    providersCalled w.ext = earlier ++ (dispatched d.sends).2
  decision : ∀ pass, decided? state = some pass →
    providersCalled w.ext = earlier ++ (dispatched d.sends).2 ∧
    (allRetryable pass.passFailures ↔ (dispatched d.sends).1.result.isRetryable)
  sent : ∀ outcome, state = .finished outcome → ∀ provider, outcome = .sent provider ↔
    (dispatched d.sends).1.providerName = provider ∧
    ∃ id, Accepts ⟨provider, (dispatched d.sends).1.result⟩ id

variable {d earlier} {w : ServiceWorld} {state : SmsProcessor.State}

theorem Alone.solo (h : Alone d earlier w) : Solo d w :=
  Reachable.weaken (fun _ h0 => ⟨h0.1, h0.2.1⟩) h

theorem Alone.traced (h : Alone d earlier w) : Traced d earlier w.abs := by
  obtain ⟨_, hreach⟩ := Reaches.simulated (sound_pass config) (fun _ _ => family_of_solo) h
  exact Reachable.invariant
    (fun a (ha : Waiting d a ∧ providersCalled a.ext = earlier) => traced_of_waiting ha.1 ha.2)
    (fun a l a' _ h hl hstep => traced_of_step h hl hstep) hreach

theorem Alone.called (h : Alone d earlier w) (hat : At 0 state w) :
    providersCalled w.ext = earlier ++ calledUpTo d state := by
  have hcalled := h.traced.called
  rwa [hat] at hcalled

theorem accepts_dispatched_iff {sends : List Send} {provider : String} :
    ((dispatched sends).1.providerName = provider ∧
      ∃ id, Accepts ⟨provider, (dispatched sends).1.result⟩ id) ↔
    ∃ send id, decider? sends = some send ∧ send.provider = provider ∧ Accepts send id := by
  rw [dispatched_eq]
  cases hdecider : decider? sends with
  | some send =>
      rw [outcomeOf_of_decider hdecider]
      constructor
      · rintro ⟨rfl, id, haccepts⟩
        exact ⟨send, id, rfl, rfl, haccepts⟩
      · rintro ⟨other, id, hother, rfl, haccepts⟩
        obtain rfl := Option.some.inj hother
        exact ⟨rfl, id, haccepts⟩
  | none =>
      have hfailed := success_terminalOutcome fun send hmem => by
        simpa using List.find?_eq_none.mp hdecider send hmem
      rw [outcomeOf_of_undecided hdecider]
      refine iff_of_false ?_ (by simp)
      rintro ⟨_, id, hsuccess, _⟩
      rw [hfailed] at hsuccess
      cases hsuccess

theorem decision_of_along {pass : Pass} (h : Along d d.sends [] pass) :
    (tried d.sends).map Send.provider = pass.passFailures.map PassFailure.providerName ∧
    (allRetryable pass.passFailures ↔ (dispatched d.sends).1.result.isRetryable) := by
  have hdecider := decider_eq_none h.undecided
  refine ⟨?_, ?_⟩
  · rw [tried_of_decider hdecider, providers_of_along h]
  · rw [dispatched_eq, outcomeOf_of_undecided hdecider, isRetryable_terminalOutcome]
    exact allRetryable_iff h

theorem agrees_of_alone (h : Alone d earlier w) (hat : At 0 state w) :
    Agrees d earlier w state := by
  have hcalled := h.called hat
  obtain ⟨_, hstage, _⟩ := staged_of_solo h.solo hat
  refine ⟨?_, fun pass hpass => ?_, ?_⟩
  · rintro outcome rfl
    rw [dispatched_eq]
    exact hcalled
  · cases hstage with
    | schedulingRetry halong _ _ | markingFatal halong _ _ =>
        obtain rfl := Option.some.inj hpass
        obtain ⟨hproviders, hretryable⟩ := decision_of_along halong
        refine ⟨?_, hretryable⟩
        rw [dispatched_eq, hproviders]
        exact hcalled
    | _ => cases hpass
  · rintro outcome rfl provider
    rw [accepts_dispatched_iff]
    cases hstage with
    | finished hresult => exact hresult.sent provider

theorem exists_alone (d : Assignment config.processor) (earlier : List String) :
    ∃ w, Alone d earlier w ∧ At 0 (.beginning d.task) w := by
  let calls : List SendCall :=
    earlier.map fun provider => ⟨"", "", "", "", provider, .closed, false⟩
  let start : ServiceWorld := ⟨d.store, [], { Outside.empty with calls := calls }⟩
  have hcalls : providersCalled start.ext = earlier := by
    simp [start, calls, providersCalled, Function.comp_def]
  have hstart : Alone d earlier start := Reachable.start ⟨rfl, ⟨rfl, rfl⟩, hcalls⟩
  refine ⟨_, Reachable.next (.spawn (.dispatch (.beginning d.task))) hstart ?_ rfl, rfl⟩
  simp [solo, healthy, isEntry, alone, starts, start, World.abs]

end Agreement

/-- The two failover orchestrators agree. For all providers and results the pass of a worker
that is alone comes to its end, and in each of its worlds it agrees with a dispatch: the
same providers are called in the same order, the decision at the end of the pass finds it
retryable just if the aggregate is, and the pass ends as sent just if the aggregate is a
success with an id, with its provider. -/
theorem dispatch_agrees {config : Config} (d : Assignment config.processor)
    (earlier : List String) :
    (∃ w outcome, Alone d earlier w ∧ At 0 (.finished outcome) w) ∧
    ∀ w state, Alone d earlier w → At 0 state w → Agrees d earlier w state := by
  refine ⟨?_, fun w state => agrees_of_alone⟩
  obtain ⟨w, hw, hat⟩ := exists_alone d earlier
  obtain ⟨w', outcome, hlater, hat'⟩ := exists_finished hw.solo hat
  exact ⟨w', outcome, Reaches.later (fun _ _ => id) hw hlater, hat'⟩

/-- The first of two providers is busy, and the second accepts. -/
theorem dispatch_agrees_pair : ∃ w, Alone pairAssignment [] w ∧
    At 0 (.finished (.sent "bird")) w ∧ providersCalled w.ext = ["twilio", "bird"] := by
  obtain ⟨⟨w, outcome, hw, hat⟩, hagrees⟩ := dispatch_agrees pairAssignment []
  have h := hagrees w _ hw hat
  obtain rfl := (h.sent outcome rfl "bird").mpr ⟨by decide, "X", rfl, rfl, by decide⟩
  exact ⟨w, hw, hat, (h.calls _ rfl).trans (by decide)⟩

end SmsNotification.ProviderManager

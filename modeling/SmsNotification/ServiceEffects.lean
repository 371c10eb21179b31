import SmsNotification.LifecycleEffects
import SmsNotification.Service

namespace SmsNotification.ServiceEffects

open SmsNotification.ActorSystem
open SmsNotification.KeyedStore
open SmsNotification.LifecycleEffects
open SmsNotification.MessageAggregate
open SmsNotification.ReadCommitted
open SmsNotification.Schema
open SmsNotification.Service
open SmsNotification.SmsLifecycleRepository
open SmsNotification.SmsPersistenceRepository
open SmsNotification.SmsStateMachine
open SmsNotification.Surroundings

def operationSpec : Operation → Database → Except Failure Answer → Database → Prop
  | .beginProcessing m => Maps .begun (beginProcessingSpec m)
  | .reserveProviderAttempt m providerName =>
      Maps .reservation (reserveProviderAttemptSpec m providerName)
  | .finalizeProviderAttempt m attemptId input =>
      Maps (fun _ => .finalized) (finalizeProviderAttemptSpec m attemptId input)
  | .resolveTwilioAttempt m attemptId input =>
      Maps .resolution (resolveTwilioAttemptSpec m attemptId input)
  | .scheduleRetry m opts =>
      Maps .transitioned (scheduleRetrySpec m opts)
  | .markPermanentProviderFailure m status lastError =>
      Maps .transitioned (markPermanentProviderFailureSpec m status lastError)
  | .markFatalFailure m lastError =>
      Maps .transitioned (markFatalFailureSpec m lastError)
  | .expireAmbiguousOutcome m => Maps .expiry (expireAmbiguousOutcomeSpec m)
  | .resetForRequeue m => Maps .requeue (resetForRequeueSpec m)
  | .applyDeliveryReport input => Maps .report (applyDeliveryReportSpec input)

/-- A query that says nothing about its answer. -/
def querySpec {α : Type} (s : Database) (r : Except Failure α) (s' : Database) : Prop :=
  match r with
  | .ok _ => s' = s
  | .error _ => False

def findMessageSpec (m : String) (s : Database) (r : Except Failure (Option SmsMessage))
    (s' : Database) : Prop :=
  match r with
  | .ok row => s' = s ∧ row = smsMessage.find s m
  | .error _ => False

def sweepSpec : Sweep → Database → Except Failure Control → Database → Prop
  | .selecting cutoff _ =>
      Maps (fun candidates => .sweep (Sweep.next cutoff 0 candidates)) querySpec
  | .recovering cutoff candidate rest recovered =>
      Maps (fun didRecover =>
        .sweep (Sweep.next cutoff (recovered + if didRecover then 1 else 0) rest))
        (recoverCandidateSpec candidate)
  | _ => fun _ _ _ => False

section Workers

open SmsNotification.SmsProcessor

def dispatchSpec (config : SmsProcessor.Config) :
    SmsProcessor.State → Database → Except Failure Control → Database → Prop
  | .beginning task =>
      Maps (fun begin => .dispatch (afterBegin task begin)) (beginProcessingSpec task.messageId)
  | .loading task begin =>
      Maps (fun row => .dispatch (afterLoad config task begin row))
        (findMessageSpec task.messageId)
  | .markingMissing task =>
      Maps (fun _ => .dispatch (.finishing task (.deadLetter .messageMissing)))
        (markFatalFailureSpec task.messageId "Message row disappeared before dispatch")
  | .reserving pass provider rest =>
      Maps (fun reservation => .dispatch (afterReserve pass provider rest reservation))
        (reserveProviderAttemptSpec pass.task.messageId provider)
  | .finalizing hold input =>
      Maps (fun _ => .dispatch (afterFinalize config hold input))
        (finalizeProviderAttemptSpec hold.pass.task.messageId hold.attemptId input)
  | .schedulingRetry pass opts =>
      Maps (fun _ => .dispatch (.finishing pass.task .retryScheduled))
        (scheduleRetrySpec pass.task.messageId opts)
  | .markingFatal pass lastError reason =>
      Maps (fun _ => .dispatch (.finishing pass.task (.deadLetter reason)))
        (markFatalFailureSpec pass.task.messageId lastError)
  | _ => fun _ _ _ => False

end Workers

open SmsNotification.OutboxRelayService in
def relaySpec : OutboxRelayService.State → Database → Except Failure Control → Database → Prop
  | .fetching batchSize =>
      Maps (fun events => .relay (relay events)) (fetchUnpublishedOutboxSpec batchSize)
  | .marking event rest =>
      Maps (fun _ => .relay (relay rest)) (updateOutboxEventSpec event.id published)
  | .recording event description rest =>
      Maps (fun _ => .relay (relay rest))
        (updateOutboxEventSpec event.id (publishFailed description))
  | _ => fun _ _ _ => False

/-- What the transaction of a control state may answer and do. -/
def controlSpec (config : Config) :
    Control → Database → Except Failure Control → Database → Prop
  | .calling op => Maps (.returned op) (operationSpec op)
  | .creating call _ => Maps (.created call) (createOrGetMessageSpec call)
  | .sweep state => sweepSpec state
  | .dispatch state => dispatchSpec config.processor state
  | .relay state => relaySpec state
  | _ => fun _ _ _ => False

/-- The parts of the service. -/
inductive Family where
  | call
  | create
  | sweep
  | purge
  | dispatch
  | relay
  | maintenance
  | crash
  deriving DecidableEq

def family : Control → Family
  | .calling _ => .call
  | .returned _ _ => .call
  | .rejected _ _ => .call
  | .creating _ _ => .create
  | .created _ _ => .create
  | .createFailed _ _ _ => .create
  | .sweep _ => .sweep
  | .purging _ _ => .purge
  | .purged _ => .purge
  | .purgeFailed => .purge
  | .dispatch _ => .dispatch
  | .relay _ => .relay
  | .maintenance _ => .maintenance
  | .crashed => .crash

/-- A call of a repository method that has not returned. -/
def isCall : Control → Bool
  | .calling _ => true
  | _ => false

/-- The control states of every part of the service but retention and the
maintenance workers, which run it. -/
def Lifecycle (q : Control) : Prop :=
  family q ≠ .purge ∧ family q ≠ .maintenance

/-- The changes of one message that other methods than the requeue make. -/
inductive Transition (m : String) :
    (SmsStatus → Bool) → SmsStatus → (SmsMessage → SmsMessage) → Option OutboxIntent → Prop where
  | begun : Transition m beginProcessingFrom.contains .processing id none
  | recovered : Transition m (· = .processing) .retryScheduled id (some (processingRecovered m))
  | retried (opts : ScheduleRetryOptions) :
      Transition m (isValidTransition · .retryScheduled) .retryScheduled opts.data
        (some (retryScheduled m opts.delayMs))
  | permanent (status : PermanentProviderFailureStatus) (lastError : String) :
      Transition m (isValidTransition · status.status) status.status
        (withError lastError) none
  | fatal (lastError : String) :
      Transition m (isValidTransition · .fatalFailure) .fatalFailure
        (withError lastError) (some (deadLettered m))
  | expired :
      Transition m (· = .awaitingProviderResult) .undelivered ambiguousOutcomeExpired none
  | reported (status : DeliveryTerminalStatus) :
      Transition m (isValidTransition · status.status) status.status id none

/-- The change of the administrative override. -/
def Requeued (m : String) : Aggregate → Aggregate → Prop :=
  Moved m (· = .fatalFailure) .retryScheduled retryBudgetRestored (some (requeued m))

/-- The attempt of a message that an actor is about to finalize, and how. -/
def finalizing? : Control → Option (String × String × FinalizeProviderAttemptInput)
  | .calling (.finalizeProviderAttempt m attemptId input) => some (m, attemptId, input)
  | .dispatch (.finalizing hold input) =>
      some (hold.pass.task.messageId, hold.attemptId, input)
  | _ => none

/-- The message that an actor is about to reserve an attempt for, and its provider. -/
def reserving? : Control → Option (String × String)
  | .calling (.reserveProviderAttempt m providerName) => some (m, providerName)
  | .dispatch (.reserving pass provider _) => some (pass.task.messageId, provider)
  | _ => none

/-- The outbox row that an actor is about to update, and how. -/
def updating? : Control → Option (String × (Choice → OutboxEvent → OutboxEvent))
  | .relay (.marking event _) => some (event.id, published)
  | .relay (.recording event description _) => some (event.id, publishFailed description)
  | _ => none

theorem data_of_updating {q : Control} {id : String} {data : Choice → OutboxEvent → OutboxEvent}
    (h : updating? q = some (id, data)) :
    data = published ∨ ∃ error, data = publishFailed error := by
  unfold updating? at h
  split at h
  · exact Or.inl (Prod.mk.inj (Option.some.inj h)).2.symm
  · exact Or.inr ⟨_, (Prod.mk.inj (Option.some.inj h)).2.symm⟩
  · simp at h

/-- One outbox row is updated by the relay. -/
def Relayed (q : Control) (A A' : Aggregate) : Prop :=
  ∃ row ∈ A.outbox, ∃ data c, updating? q = some (row.id, data) ∧
    A' = { A with outbox := outboxEvent.replace (data c row) A.outbox }

/-- All that an actor in a control state does to one message in one step. -/
inductive MessageStep (q : Control) (m : String) (A A' : Aggregate) : Prop where
  | created (call : CreateOrGetMessage) : Created call m A A' → MessageStep q m A A'
  | moved {source : SmsStatus → Bool} {target : SmsStatus} {data : SmsMessage → SmsMessage}
      {intent : Option OutboxIntent} : Transition m source target data intent →
      Moved m source target data intent A A' → MessageStep q m A A'
  | requeued : q = .calling (.resetForRequeue m) → Requeued m A A' → MessageStep q m A A'
  | reserved (providerName attemptId : String) : reserving? q = some (m, providerName) →
      Reserved m providerName attemptId A A' → MessageStep q m A A'
  | finalized (attemptId : String) (input : FinalizeProviderAttemptInput) :
      finalizing? q = some (m, attemptId, input) → Finalized m attemptId input A A' →
      MessageStep q m A A'
  | resolved (attemptId : String) (input : ResolveTwilioAttemptInput) :
      Resolved m attemptId input A A' → MessageStep q m A A'
  | relayed : Relayed q A A' → MessageStep q m A A'

/-- What one step of the service can do to the database. -/
def StepEffect (q : Control) (s s' : Database) : Prop :=
  aggregate s' = aggregate s ∨ ∃ m, Changes m (MessageStep q m) s s'

section Cases

variable {s s' : Database} {m : String}

theorem stepEffect_of_eq {q : Control} (h : s' = s) : StepEffect q s s' :=
  Or.inl (congrArg aggregate h)

theorem stepEffect_of_moved {q : Control} {source : SmsStatus → Bool} {target : SmsStatus}
    {data : SmsMessage → SmsMessage} {intent : Option OutboxIntent}
    (htransition : Transition m source target data intent)
    (h : Changes m (Moved m source target data intent) s s') : StepEffect q s s' :=
  Or.inr ⟨m, h.mono fun _ _ hmoved => .moved htransition hmoved⟩

theorem stepEffect_of_beginProcessing {q : Control} {r : Except Failure BeginProcessingResult}
    (h : beginProcessingSpec m s r s') : StepEffect q s s' := by
  rcases r with e | (message | _)
  · exact h.elim
  · exact stepEffect_of_moved .begun h.1
  · exact stepEffect_of_eq h.1

theorem stepEffect_of_recoverCandidate {q : Control} {r : Except Failure Bool}
    (h : recoverCandidateSpec m s r s') : StepEffect q s s' := by
  rcases r with e | (_ | _)
  · exact h.elim
  · exact stepEffect_of_eq h
  · exact stepEffect_of_moved .recovered h

theorem stepEffect_of_reserveProviderAttempt {q : Control} {providerName : String}
    (hq : reserving? q = some (m, providerName)) {r : Except Failure ReserveProviderAttemptResult}
    (h : reserveProviderAttemptSpec m providerName s r s') : StepEffect q s s' := by
  rcases r with e | (attemptId | _)
  · exact h.elim
  · exact Or.inr ⟨m, h.1.mono fun _ _ hreserved => .reserved _ _ hq hreserved⟩
  · exact stepEffect_of_eq h

theorem stepEffect_of_finalizeProviderAttempt {q : Control} {attemptId : String}
    {input : FinalizeProviderAttemptInput} (hq : finalizing? q = some (m, attemptId, input))
    {r : Except Failure Unit} (h : finalizeProviderAttemptSpec m attemptId input s r s') :
    StepEffect q s s' := by
  cases r with
  | error e => exact stepEffect_of_eq h.1
  | ok _ => exact Or.inr ⟨m, Changes.mono (fun _ _ hfinal => .finalized _ _ hq hfinal) h⟩

theorem stepEffect_of_resolveTwilioAttempt {q : Control} {attemptId : String}
    {input : ResolveTwilioAttemptInput} {r : Except Failure ResolveTwilioAttemptResult}
    (h : resolveTwilioAttemptSpec m attemptId input s r s') : StepEffect q s s' := by
  rcases r with e | (message | message | _ | _ | _ | _)
  · exact stepEffect_of_eq h
  · exact Or.inr ⟨m, h.1.mono fun _ _ hresolved => .resolved _ _ hresolved⟩
  · exact stepEffect_of_eq h.1
  all_goals exact stepEffect_of_eq h

theorem stepEffect_of_guardedTransition {q : Control} {target : SmsStatus}
    {data : SmsMessage → SmsMessage} {intent : Option OutboxIntent}
    {r : Except Failure LifecycleSmsMessage}
    (htransition : Transition m (isValidTransition · target) target data intent)
    (h : guardedTransitionSpec m target data intent s r s') : StepEffect q s s' := by
  cases r with
  | error e => exact stepEffect_of_eq h
  | ok message => exact stepEffect_of_moved htransition h.1

theorem stepEffect_of_createOrGetMessage {q : Control} {call : CreateOrGetMessage}
    {r : Except Failure CreateOrGetSmsMessageResult}
    (h : createOrGetMessageSpec call s r s') : StepEffect q s s' := by
  rcases r with e | ⟨_ | _, message⟩
  · exact stepEffect_of_eq h.1
  · exact stepEffect_of_eq h.1
  · exact Or.inr ⟨_, h.2.1.mono fun _ _ hcreated => .created call hcreated⟩

theorem relayed_of_updateOutboxEvent {q : Control} {id : String}
    {data : Choice → OutboxEvent → OutboxEvent}
    (hq : updating? q = some (id, data)) {r : Except Failure Unit}
    (h : updateOutboxEventSpec id data s r s') : s' = s ∨ ∃ m, Changes m (Relayed q) s s' := by
  cases r with
  | error e => exact Or.inl h
  | ok _ =>
      obtain ⟨row, c, hrow, hupdate⟩ := h
      have hid : row.id = id := Table.idOf_of_find hrow
      have hmem : row ∈ (aggregate s row.aggregateId).outbox := by
        rw [mem_outbox_iff, hid]
        exact ⟨hrow, rfl⟩
      exact Or.inr ⟨_, _, ⟨row, hmem, data, c, hid ▸ hq, rfl⟩, hupdate⟩

theorem stepEffect_of_updateOutboxEvent {q : Control} {id : String}
    {data : Choice → OutboxEvent → OutboxEvent}
    (hq : updating? q = some (id, data)) {r : Except Failure Unit}
    (h : updateOutboxEventSpec id data s r s') : StepEffect q s s' := by
  obtain hsame | ⟨m, hrelayed⟩ := relayed_of_updateOutboxEvent hq h
  · exact stepEffect_of_eq hsame
  · exact Or.inr ⟨m, hrelayed.mono fun _ _ hstep => .relayed hstep⟩

theorem exists_of_maps {α β : Type} {f : α → β}
    {spec : Database → Except Failure α → Database → Prop} {r : Except Failure β}
    (h : Maps f spec s r s') : ∃ r', spec s r' s' := by
  cases r with
  | error e => exact ⟨.error e, h⟩
  | ok b =>
      obtain ⟨a, _, ha⟩ := h
      exact ⟨.ok a, ha⟩

theorem stepEffect_of_operation {op : Operation} {r : Except Failure Answer}
    (h : operationSpec op s r s') : StepEffect (.calling op) s s' := by
  cases op with
  | resetForRequeue m =>
      obtain ⟨r', h⟩ := exists_of_maps h
      rcases r' with e | (message | _ | _)
      · exact h.elim
      · exact Or.inr ⟨m, h.1.mono fun _ _ hrequeued => .requeued rfl hrequeued⟩
      · exact stepEffect_of_eq h
      · exact stepEffect_of_eq h
  | beginProcessing m =>
      obtain ⟨r', h⟩ := exists_of_maps h
      exact stepEffect_of_beginProcessing h
  | reserveProviderAttempt m providerName =>
      obtain ⟨r', h⟩ := exists_of_maps h
      exact stepEffect_of_reserveProviderAttempt rfl h
  | finalizeProviderAttempt m attemptId input =>
      obtain ⟨r', h⟩ := exists_of_maps h
      exact stepEffect_of_finalizeProviderAttempt rfl h
  | resolveTwilioAttempt m attemptId input =>
      obtain ⟨r', h⟩ := exists_of_maps h
      exact stepEffect_of_resolveTwilioAttempt h
  | scheduleRetry m opts =>
      obtain ⟨r', h⟩ := exists_of_maps h
      exact stepEffect_of_guardedTransition (.retried opts) h
  | markPermanentProviderFailure m status lastError =>
      obtain ⟨r', h⟩ := exists_of_maps h
      exact stepEffect_of_guardedTransition (.permanent status lastError) h
  | markFatalFailure m lastError =>
      obtain ⟨r', h⟩ := exists_of_maps h
      exact stepEffect_of_guardedTransition (.fatal lastError) h
  | expireAmbiguousOutcome m =>
      obtain ⟨r', h⟩ := exists_of_maps h
      rcases r' with e | (_ | _)
      · exact h.elim
      · exact stepEffect_of_moved .expired h
      · exact stepEffect_of_eq h.1
  | applyDeliveryReport input =>
      obtain ⟨r', h⟩ := exists_of_maps h
      rcases r' with e | (message | _ | _ | _)
      · exact stepEffect_of_eq h
      · exact stepEffect_of_moved (.reported input.terminalStatus) h.1
      all_goals exact stepEffect_of_eq h

theorem stepEffect_of_dispatch {config : SmsProcessor.Config} {state : SmsProcessor.State}
    {r : Except Failure Control} (h : dispatchSpec config state s r s') :
    StepEffect (.dispatch state) s s' := by
  cases state with
  | beginning task =>
      obtain ⟨r', h⟩ := exists_of_maps h
      exact stepEffect_of_beginProcessing h
  | loading task begin =>
      obtain ⟨r', h⟩ := exists_of_maps h
      cases r' with
      | error e => exact h.elim
      | ok row => exact stepEffect_of_eq h.1
  | markingMissing task =>
      obtain ⟨r', h⟩ := exists_of_maps h
      exact stepEffect_of_guardedTransition (.fatal _) h
  | reserving pass provider rest =>
      obtain ⟨r', h⟩ := exists_of_maps h
      exact stepEffect_of_reserveProviderAttempt rfl h
  | finalizing hold input =>
      obtain ⟨r', h⟩ := exists_of_maps h
      exact stepEffect_of_finalizeProviderAttempt rfl h
  | schedulingRetry pass opts =>
      obtain ⟨r', h⟩ := exists_of_maps h
      exact stepEffect_of_guardedTransition (.retried opts) h
  | markingFatal pass lastError reason =>
      obtain ⟨r', h⟩ := exists_of_maps h
      exact stepEffect_of_guardedTransition (.fatal lastError) h
  | _ => exact h.elim

theorem stepEffect_of_relay {state : OutboxRelayService.State} {r : Except Failure Control}
    (h : relaySpec state s r s') : StepEffect (.relay state) s s' := by
  cases state with
  | fetching batchSize =>
      obtain ⟨r', h⟩ := exists_of_maps h
      cases r' with
      | error e => exact h.elim
      | ok events => exact stepEffect_of_eq h.1
  | marking event rest =>
      obtain ⟨r', h⟩ := exists_of_maps h
      exact stepEffect_of_updateOutboxEvent rfl h
  | recording event description rest =>
      obtain ⟨r', h⟩ := exists_of_maps h
      exact stepEffect_of_updateOutboxEvent rfl h
  | _ => exact h.elim

theorem stepEffect_of_sweep {state : Sweep} {r : Except Failure Control}
    (h : sweepSpec state s r s') : StepEffect (.sweep state) s s' := by
  cases state with
  | selecting cutoff limit =>
      obtain ⟨r', h⟩ := exists_of_maps h
      cases r' with
      | error e => exact h.elim
      | ok candidates => exact stepEffect_of_eq h
  | recovering cutoff candidate rest recovered =>
      obtain ⟨r', h⟩ := exists_of_maps h
      exact stepEffect_of_recoverCandidate h
  | _ => exact h.elim

theorem stepEffect_of_controlSpec {config : Config} {q : Control} {r : Except Failure Control}
    (h : controlSpec config q s r s') : StepEffect q s s' := by
  cases q with
  | calling op =>
      obtain ⟨r', h⟩ := exists_of_maps h
      exact stepEffect_of_operation h
  | creating call again =>
      obtain ⟨r', h⟩ := exists_of_maps h
      exact stepEffect_of_createOrGetMessage h
  | sweep state => exact stepEffect_of_sweep h
  | dispatch state => exact stepEffect_of_dispatch h
  | relay state => exact stepEffect_of_relay h
  | _ => exact h.elim

end Cases

theorem record_id (input : FinalizeProviderAttemptInput) (old : SmsAttempt) :
    (input.record old).id = old.id := by
  cases input <;> rfl

theorem record_smsMessageId (input : FinalizeProviderAttemptInput) (old : SmsAttempt) :
    (input.record old).smsMessageId = old.smsMessageId := by
  cases input <;> rfl

theorem record_provider (input : FinalizeProviderAttemptInput) (old : SmsAttempt) :
    (input.record old).provider = old.provider := by
  cases input <;> rfl

theorem Finalized.attempts {m attemptId : String} {input : FinalizeProviderAttemptInput}
    {A A' : Aggregate} (h : Finalized m attemptId input A A') :
    ∃ old ∈ A.attempts, old.id = attemptId ∧ old.outcome = .reserved ∧
      A'.attempts = smsAttempt.replace (input.record old) A.attempts ∧
      A'.resolutions = A.resolutions := by
  obtain ⟨old, hold, hid, hreserved, hrest⟩ := h
  refine ⟨old, hold, hid, hreserved, ?_⟩
  rcases input with providerMessageId | ⟨_ | _, isRetryable, errorMessage, delayMs⟩
  · obtain ⟨row, now, _, _, rfl⟩ := hrest
    exact ⟨rfl, rfl⟩
  · obtain ⟨row, now, _, _, rfl⟩ := hrest
    exact ⟨rfl, rfl⟩
  · obtain ⟨delay, events', _, _, rfl⟩ := hrest
    exact ⟨rfl, rfl⟩

/-- Attempts keep their id and provider, resolutions stay as they are. -/
def RowsPersist (A A' : Aggregate) : Prop :=
  (∀ a ∈ A.attempts, ∃ a' ∈ A'.attempts, a'.id = a.id ∧ a'.provider = a.provider) ∧
    ∀ row ∈ A.resolutions, row ∈ A'.resolutions

theorem rowsPersist_of_eq {A A' : Aggregate} (hattempts : A'.attempts = A.attempts)
    (hresolutions : A'.resolutions = A.resolutions) : RowsPersist A A' :=
  ⟨fun a ha => ⟨a, hattempts ▸ ha, rfl, rfl⟩, fun _ hrow => hresolutions ▸ hrow⟩

theorem Moved.rowsPersist {m : String} {source : SmsStatus → Bool} {target : SmsStatus}
    {data : SmsMessage → SmsMessage} {intent : Option OutboxIntent} {A A' : Aggregate}
    (h : Moved m source target data intent A A') : RowsPersist A A' := by
  obtain ⟨row, now, events', _, _, _, rfl⟩ := h
  exact rowsPersist_of_eq rfl rfl

theorem MessageStep.rowsPersist {q : Control} {m : String} {A A' : Aggregate}
    (hnodup : (A.attempts.map SmsAttempt.id).Nodup) (h : MessageStep q m A A') :
    RowsPersist A A' := by
  cases h with
  | created call h =>
      obtain ⟨c, events', _, _, _, _, rfl⟩ := h
      exact rowsPersist_of_eq rfl rfl
  | moved htransition h => exact Moved.rowsPersist h
  | requeued hq h => exact Moved.rowsPersist h
  | reserved providerName attemptId _ h =>
      obtain ⟨row, now, c, _, _, _, rfl⟩ := h
      exact ⟨fun a ha => ⟨a, List.mem_append_left _ ha, rfl, rfl⟩, fun r hr => hr⟩
  | finalized attemptId input hq h =>
      obtain ⟨old, hold, _, _, hattempts, hresolutions⟩ := Finalized.attempts h
      refine ⟨fun a ha => ?_, fun r hr => hresolutions ▸ hr⟩
      rw [hattempts]
      by_cases hid : a.id = (input.record old).id
      · have hsame : a = old :=
          List.inj_on_of_nodup_map hnodup ha hold (hid.trans (record_id input old))
        exact ⟨_, Table.mem_replace_of_eq ha hid, hid.symm, by rw [record_provider, hsame]⟩
      · exact ⟨a, Table.mem_replace_of_ne ha hid, rfl, rfl⟩
  | resolved attemptId input h =>
      obtain ⟨row, c, c', _, _, _, rfl⟩ := h
      exact ⟨fun a ha => ⟨a, ha, rfl, rfl⟩, fun r hr => List.mem_append_left _ hr⟩
  | relayed h =>
      obtain ⟨row, _, data, c, _, rfl⟩ := h
      exact rowsPersist_of_eq rfl rfl

theorem persists_of_rowsPersist {s s' : Database}
    (h : ∀ m, RowsPersist (aggregate s m) (aggregate s' m)) : Persists s s' := by
  constructor
  · intro id row hrow
    have hid : row.id = id := Table.idOf_of_find hrow
    obtain ⟨row', hrow', hid', hprovider⟩ :=
      (h row.smsMessageId).1 row (mem_attempts_iff.mpr ⟨by rw [hid]; exact hrow, rfl⟩)
    obtain ⟨hfind, hm⟩ := mem_attempts_iff.mp hrow'
    rw [hid', hid] at hfind
    exact ⟨row', hfind, hm, hprovider⟩
  · intro id row hrow
    have hid : row.smsAttemptId = id := Table.idOf_of_find hrow
    have hrow' := (h row.smsMessageId).2 row
      (mem_resolutions_iff.mpr ⟨by rw [hid]; exact hrow, rfl⟩)
    rw [← hid]
    exact (mem_resolutions_iff.mp hrow').1

theorem Changes.rowsPersist {m : String} {change : Aggregate → Aggregate → Prop}
    {s s' : Database} (h : Changes m change s s')
    (hchange : ∀ A', change (aggregate s m) A' → RowsPersist (aggregate s m) A') :
    ∀ m', RowsPersist (aggregate s m') (aggregate s' m') := by
  obtain ⟨A', hA', hupdate⟩ := h
  intro m'
  rw [hupdate]
  by_cases hm : m' = m
  · subst hm
    rw [Function.update_self]
    exact hchange A' hA'
  · rw [Function.update_of_ne hm]
    exact rowsPersist_of_eq rfl rfl

theorem persists_of_stepEffect {q : Control} {s s' : Database} (h : StepEffect q s s') :
    Persists s s' := by
  refine persists_of_rowsPersist ?_
  rcases h with hsame | ⟨m, h⟩
  · intro m
    rw [hsame]
    exact rowsPersist_of_eq rfl rfl
  · exact Changes.rowsPersist h fun A' hstep => hstep.rowsPersist (keyed s m).attempts

theorem takesEffect_findMessage {rely : Database → Database → Prop} (m : String) {s : Database} :
    TakesEffect Choice.supplied rely (findMessageSpec m) (findMessage m) s [] := by
  rw [← Tx.bind_done (findMessage m)]
  exact takesEffect_read fun _ s' _ _ => takesEffect_done_nil _ ⟨rfl, rfl⟩

theorem takesEffect_staleCandidates (cutoff : Int) (limit : Nat) {s : Database} :
    TakesEffect Choice.supplied Persists querySpec (staleCandidates cutoff limit) s [] := by
  rw [← Tx.bind_done (staleCandidates cutoff limit)]
  exact takesEffect_read fun _ s' _ _ => takesEffect_done_nil _ rfl

theorem takesEffect_operation (op : Operation) (s : Database) :
    TakesEffect Choice.supplied Persists (operationSpec op) (runOperation op) s [] := by
  cases op with
  | beginProcessing m => exact (takesEffect_beginProcessing m).map _
  | reserveProviderAttempt m providerName =>
      exact (takesEffect_reserveProviderAttempt m providerName).map _
  | finalizeProviderAttempt m attemptId input =>
      exact (takesEffect_finalizeProviderAttempt m attemptId input).map _
  | resolveTwilioAttempt m attemptId input =>
      exact (takesEffect_resolveTwilioAttempt m attemptId input fun _ _ h => h).map _
  | scheduleRetry m opts => exact (takesEffect_scheduleRetry m opts).map _
  | markPermanentProviderFailure m status lastError =>
      exact (takesEffect_markPermanentProviderFailure m status lastError).map _
  | markFatalFailure m lastError => exact (takesEffect_markFatalFailure m lastError).map _
  | expireAmbiguousOutcome m => exact (takesEffect_expireAmbiguousOutcome m).map _
  | resetForRequeue m => exact (takesEffect_resetForRequeue m).map _
  | applyDeliveryReport input => exact (takesEffect_applyDeliveryReport input).map _

theorem dispatch_takesEffect {rely : Database → Database → Prop} (config : SmsProcessor.Config)
    {state : SmsProcessor.State} {t : Sql Control} {onError : Failure → Control}
    (hcode : dispatchCode config state = .tx t onError) (s : Database) :
    TakesEffect Choice.supplied rely (dispatchSpec config state) t s [] := by
  cases state with
  | beginning task =>
      obtain ⟨rfl, _⟩ := Code.tx.inj hcode
      exact (takesEffect_beginProcessing _).map _
  | loading task begin =>
      obtain ⟨rfl, _⟩ := Code.tx.inj hcode
      exact (takesEffect_findMessage _).map _
  | markingMissing task =>
      obtain ⟨rfl, _⟩ := Code.tx.inj hcode
      exact (takesEffect_markFatalFailure _ _).map _
  | reserving pass provider rest =>
      obtain ⟨rfl, _⟩ := Code.tx.inj hcode
      exact (takesEffect_reserveProviderAttempt _ _).map _
  | finalizing hold input =>
      obtain ⟨rfl, _⟩ := Code.tx.inj hcode
      exact (takesEffect_finalizeProviderAttempt _ _ _).map _
  | schedulingRetry pass opts =>
      obtain ⟨rfl, _⟩ := Code.tx.inj hcode
      exact (takesEffect_scheduleRetry _ _).map _
  | markingFatal pass lastError reason =>
      obtain ⟨rfl, _⟩ := Code.tx.inj hcode
      exact (takesEffect_markFatalFailure _ _).map _
  | _ => simp [dispatchCode] at hcode

theorem relay_takesEffect {state : OutboxRelayService.State} {t : Sql Control}
    {onError : Failure → Control} (hcode : relayCode state = .tx t onError) (s : Database) :
    TakesEffect Choice.supplied Persists (relaySpec state) t s [] := by
  cases state with
  | fetching batchSize =>
      obtain ⟨rfl, _⟩ := Code.tx.inj hcode
      exact (takesEffect_fetchUnpublishedOutbox _).map _
  | marking event rest =>
      obtain ⟨rfl, _⟩ := Code.tx.inj hcode
      exact (takesEffect_markOutboxPublished _).map _
  | recording event description rest =>
      obtain ⟨rfl, _⟩ := Code.tx.inj hcode
      exact (takesEffect_recordOutboxPublishFailure _ _).map _
  | _ => simp [relayCode] at hcode

theorem sweep_takesEffect {state : Sweep} {t : Sql Control} {onError : Failure → Control}
    (hcode : sweepCode state = .tx t onError) (s : Database) :
    TakesEffect Choice.supplied Persists (sweepSpec state) t s [] := by
  cases state with
  | selecting cutoff limit =>
      obtain ⟨rfl, _⟩ := Code.tx.inj hcode
      exact (takesEffect_staleCandidates cutoff limit).map _
  | recovering cutoff candidate rest recovered =>
      obtain ⟨rfl, _⟩ := Code.tx.inj hcode
      exact (takesEffect_recoverCandidate cutoff candidate).map _
  | _ => simp [sweepCode] at hcode

theorem control_takesEffect (config : Config) {q : Control} {t : Sql Control}
    {onError : Failure → Control} (hq : Lifecycle q) (hcode : code config q = .tx t onError)
    (s : Database) : TakesEffect Choice.supplied Persists (controlSpec config q) t s [] := by
  cases q with
  | calling op =>
      obtain ⟨rfl, _⟩ := Code.tx.inj hcode
      exact (takesEffect_operation op s).map _
  | creating call again =>
      obtain ⟨rfl, _⟩ := Code.tx.inj hcode
      exact (takesEffect_createOrGetMessageInTransaction call).map _
  | sweep state => exact sweep_takesEffect hcode s
  | dispatch state => exact dispatch_takesEffect _ hcode s
  | relay state => exact relay_takesEffect hcode s
  | purging now batchSize => exact absurd rfl hq.1
  | maintenance state => exact absurd rfl hq.2
  | _ => simp [code] at hcode

theorem persists_refl (s : Database) : Persists s s :=
  ⟨fun _ row hrow => ⟨row, hrow, rfl, rfl⟩, fun _ _ hrow => hrow⟩

/-- What an external call does, one case for each await. -/
inductive Acts (config : Config) (c : Choice) (o : Outside) :
    Control → Outside → Control → Prop where
  | took {o' : Outside} {job : QueueConstants.Job} :
      o.takeJob .smsDispatch c.pick = some (o', job) →
      Acts config c o (.dispatch .idle) o' (.dispatch (SmsProcessor.process job))
  | acquired (hold : SmsProcessor.Hold) : c.served →
      Acts config c o (.dispatch (.acquiring hold)) o (.dispatch (.calling hold))
  | notAcquired (hold : SmsProcessor.Hold) : c.served = false →
      Acts config c o (.dispatch (.acquiring hold)) o (.dispatch (.failing hold.pass.task))
  | started (hold : SmsProcessor.Hold) :
      Acts config c o (.dispatch (.calling hold)) (o.startCall hold.call)
        (.dispatch (.awaiting hold o.calls.length))
  | answered (hold : SmsProcessor.Hold) (call : Nat) {o' : Outside} :
      o.answerCall call c.reply = some o' →
      Acts config c o (.dispatch (.awaiting hold call)) o'
        (.dispatch (SmsProcessor.afterSend config.processor hold c.reply))
  | finished (task : SmsProcessor.Task) (outcome : SmsProcessor.ProcessOutcome) :
      Acts config c o (.dispatch (.finishing task outcome)) (o.removeJob task.job)
        (.dispatch (.finished outcome))
  | failed (task : SmsProcessor.Task) :
      Acts config c o (.dispatch (.failing task)) (o.removeJob task.job) (.dispatch .failed)
  | added (event : UnpublishedOutboxEvent) (queueJob : OutboxRelayService.QueueJob)
      (rest : List UnpublishedOutboxEvent) :
      Acts config c o (.relay (.adding event queueJob rest))
        (o.acknowledgeJob (queueJob.toJob event.id)) (.relay (.marking event rest))
  | notAdded (event : UnpublishedOutboxEvent) (queueJob : OutboxRelayService.QueueJob)
      (rest : List UnpublishedOutboxEvent) {o' : Outside} :
      o' = o ∨ o' = o.addJob (queueJob.toJob event.id) →
      Acts config c o (.relay (.adding event queueJob rest)) o'
        (.relay (.recording event c.text rest))
  | tookMaintenance (processor : MaintenanceProcessor) {o' : Outside}
      {job : QueueConstants.Job} :
      o.takeJob .smsMaintenance c.pick = some (o', job) →
      Acts config c o (.maintenance (.idle processor)) o'
        (.maintenance (MaintenanceProcessors.process config.maintenance processor job c.now))
  | completed (task : MaintenanceProcessors.Task) (performed : List MaintenanceEffect) :
      Acts config c o (.maintenance (.finishing task performed))
        { o.removeJob task.job with
          completed := o.completed ++ [⟨task.job, task.processor, performed⟩] }
        (.maintenance .ended)
  | failedMaintenance (task : MaintenanceProcessors.Task) :
      Acts config c o (.maintenance (.failing task)) (o.removeJob task.job)
        (.maintenance .ended)

section Transitions

variable {config : Config} {q q' : Control} {s s' : Database}

theorem acts_of_code {act : Choice → Outside → Option (Outside × Control)} {c : Choice}
    {o o' : Outside} (hcode : code config q = .ext act) (hact : act c o = some (o', q')) :
    Acts config c o q o' q' := by
  cases q with
  | dispatch state =>
      cases state with
      | idle =>
          obtain rfl := Code.ext.inj hcode
          obtain ⟨⟨o'', job⟩, htake, hq⟩ := Option.map_eq_some_iff.mp hact
          obtain ⟨rfl, rfl⟩ := Prod.mk.inj hq
          exact .took htake
      | acquiring hold =>
          obtain rfl := Code.ext.inj hcode
          obtain ⟨rfl, hq⟩ := Prod.mk.inj (Option.some.inj hact)
          by_cases hserved : c.served
          · rw [← hq, if_pos hserved]
            exact .acquired hold hserved
          · rw [← hq, if_neg hserved]
            exact .notAcquired hold (Bool.eq_false_iff.mpr hserved)
      | calling hold =>
          obtain rfl := Code.ext.inj hcode
          obtain ⟨rfl, rfl⟩ := Prod.mk.inj (Option.some.inj hact)
          exact .started hold
      | awaiting hold call =>
          obtain rfl := Code.ext.inj hcode
          obtain ⟨o'', hanswer, hq⟩ := Option.map_eq_some_iff.mp hact
          obtain ⟨rfl, rfl⟩ := Prod.mk.inj hq
          exact .answered hold call hanswer
      | finishing task outcome =>
          obtain rfl := Code.ext.inj hcode
          obtain ⟨rfl, rfl⟩ := Prod.mk.inj (Option.some.inj hact)
          exact .finished task outcome
      | failing task =>
          obtain rfl := Code.ext.inj hcode
          obtain ⟨rfl, rfl⟩ := Prod.mk.inj (Option.some.inj hact)
          exact .failed task
      | _ => simp [code, dispatchCode] at hcode
  | relay state =>
      cases state with
      | adding event queueJob rest =>
          obtain rfl := Code.ext.inj hcode
          by_cases hserved : c.served
          · simp only [hserved, if_true] at hact
            obtain ⟨rfl, rfl⟩ := Prod.mk.inj (Option.some.inj hact)
            exact .added event queueJob rest
          · simp only [hserved] at hact
            obtain ⟨rfl, rfl⟩ := Prod.mk.inj (Option.some.inj hact)
            refine .notAdded event queueJob rest ?_
            split
            · exact Or.inr rfl
            · exact Or.inl rfl
      | _ => simp [code, relayCode] at hcode
  | maintenance state =>
      cases state with
      | idle processor =>
          obtain rfl := Code.ext.inj hcode
          obtain ⟨⟨o'', job⟩, htake, hq⟩ := Option.map_eq_some_iff.mp hact
          obtain ⟨rfl, rfl⟩ := Prod.mk.inj hq
          exact .tookMaintenance processor htake
      | finishing task performed =>
          obtain rfl := Code.ext.inj hcode
          obtain ⟨rfl, rfl⟩ := Prod.mk.inj (Option.some.inj hact)
          exact .completed task performed
      | failing task =>
          obtain rfl := Code.ext.inj hcode
          obtain ⟨rfl, rfl⟩ := Prod.mk.inj (Option.some.inj hact)
          exact .failedMaintenance task
      | _ => simp [code, maintenanceCode] at hcode
  | sweep state => cases state <;> simp [code, sweepCode] at hcode
  | _ => simp [code, creatingCode] at hcode

theorem Acts.family {c : Choice} {o o' : Outside} (h : Acts config c o q o' q') :
    family q' = family q ∧ isCall q' = false := by
  cases h <;> exact ⟨rfl, rfl⟩

theorem Acts.clock {c : Choice} {o o' : Outside} (h : Acts config c o q o' q') :
    o'.clock = o.clock := by
  cases h with
  | took htake | tookMaintenance _ htake =>
      obtain ⟨_, _, _, _, _, rfl⟩ := Outside.takeJob_eq_some htake
      rfl
  | answered _ _ hanswer =>
      obtain ⟨_, _, _, _, rfl, _⟩ := Outside.answerCall_eq_some hanswer
      rfl
  | notAdded _ _ _ ho => rcases ho with rfl | rfl <;> rfl
  | _ => rfl

theorem family_of_ok (h : controlSpec config q s (.ok q') s') :
    family q' = family q ∧ isCall q' = false := by
  cases q with
  | calling op =>
      obtain ⟨_, rfl, _⟩ := h
      exact ⟨rfl, rfl⟩
  | creating call again =>
      obtain ⟨_, rfl, _⟩ := h
      exact ⟨rfl, rfl⟩
  | sweep state =>
      cases state
      case selecting | recovering =>
        obtain ⟨_, rfl, _⟩ := h
        exact ⟨rfl, rfl⟩
      all_goals exact h.elim
  | dispatch state =>
      cases state
      case beginning | loading | markingMissing | reserving | finalizing | schedulingRetry
        | markingFatal =>
        obtain ⟨_, rfl, _⟩ := h
        exact ⟨rfl, rfl⟩
      all_goals exact h.elim
  | relay state =>
      cases state
      case fetching | marking | recording =>
        obtain ⟨_, rfl, _⟩ := h
        exact ⟨rfl, rfl⟩
      all_goals exact h.elim
  | _ => exact h.elim

theorem family_of_error {t : Sql Control} {onError : Failure → Control}
    (hcode : code config q = .tx t onError) (e : Failure) :
    family (onError e) = family q ∧ isCall (onError e) = false := by
  cases q with
  | creating call again =>
      obtain ⟨_, rfl⟩ := Code.tx.inj hcode
      dsimp only
      split <;> exact ⟨rfl, rfl⟩
  | sweep state =>
      cases state
      case selecting | recovering =>
        obtain ⟨_, rfl⟩ := Code.tx.inj hcode
        exact ⟨rfl, rfl⟩
      all_goals simp [code, sweepCode] at hcode
  | dispatch state =>
      cases state
      case beginning | loading | markingMissing | reserving | finalizing | schedulingRetry
        | markingFatal =>
        obtain ⟨_, rfl⟩ := Code.tx.inj hcode
        exact ⟨rfl, rfl⟩
      all_goals simp [code, dispatchCode] at hcode
  | relay state =>
      cases state
      case fetching | marking | recording =>
        obtain ⟨_, rfl⟩ := Code.tx.inj hcode
        exact ⟨rfl, rfl⟩
      all_goals simp [code, relayCode] at hcode
  | maintenance state =>
      cases state
      case purging | selecting | recovering | expiring =>
        obtain ⟨_, rfl⟩ := Code.tx.inj hcode
        exact ⟨rfl, rfl⟩
      all_goals simp [code, maintenanceCode] at hcode
  | calling op =>
      obtain ⟨_, rfl⟩ := Code.tx.inj hcode
      exact ⟨rfl, rfl⟩
  | purging now batchSize =>
      obtain ⟨_, rfl⟩ := Code.tx.inj hcode
      exact ⟨rfl, rfl⟩
  | _ => simp [code] at hcode

theorem dispatch_of_error {t : Sql Control} {onError : Failure → Control}
    (hcode : code config q = .tx t onError) (e : Failure) (hq : family q = .dispatch) :
    ∃ state task, q = .dispatch state ∧ state.task? = some task ∧
      (onError e = .dispatch (.failing task) ∨
        onError e = .dispatch (.finishing task .skipped)) := by
  cases q with
  | dispatch state =>
      refine ⟨state, ?_⟩
      cases state
      case beginning | loading | reserving | finalizing =>
        obtain ⟨_, rfl⟩ := Code.tx.inj hcode
        exact ⟨_, rfl, rfl, Or.inl rfl⟩
      case markingMissing | schedulingRetry | markingFatal =>
        obtain ⟨_, rfl⟩ := Code.tx.inj hcode
        cases e with
        | concurrentModification => exact ⟨_, rfl, rfl, Or.inr rfl⟩
        | _ => exact ⟨_, rfl, rfl, Or.inl rfl⟩
      all_goals simp [code, dispatchCode] at hcode
  | _ => simp [family] at hq

theorem commitsAs_family {t : Sql Control} {onError : Failure → Control}
    (hcode : code config q = .tx t onError) :
    CommitsAs (fun q' => family q' = family q) true t := by
  cases q with
  | calling op =>
      obtain ⟨rfl, _⟩ := Code.tx.inj hcode
      exact .values fun _ => rfl
  | creating call again =>
      obtain ⟨rfl, _⟩ := Code.tx.inj hcode
      exact .values fun _ => rfl
  | purging now batchSize =>
      obtain ⟨rfl, _⟩ := Code.tx.inj hcode
      exact .values fun _ => rfl
  | sweep state =>
      cases state
      case selecting | recovering =>
        obtain ⟨rfl, _⟩ := Code.tx.inj hcode
        exact .values fun _ => rfl
      all_goals simp [code, sweepCode] at hcode
  | dispatch state =>
      cases state
      case beginning | loading | markingMissing | reserving | finalizing | schedulingRetry
        | markingFatal =>
        obtain ⟨rfl, _⟩ := Code.tx.inj hcode
        exact .values fun _ => rfl
      all_goals simp [code, dispatchCode] at hcode
  | relay state =>
      cases state
      case fetching | marking | recording =>
        obtain ⟨rfl, _⟩ := Code.tx.inj hcode
        exact .values fun _ => rfl
      all_goals simp [code, relayCode] at hcode
  | maintenance state =>
      cases state
      case purging | selecting | recovering | expiring =>
        obtain ⟨rfl, _⟩ := Code.tx.inj hcode
        exact .values fun _ => rfl
      all_goals simp [code, maintenanceCode] at hcode
  | _ => simp [code] at hcode

theorem calling_of_returned {op : Operation} {answer : Answer}
    (h : controlSpec config q s (.ok (.returned op answer)) s') :
    q = .calling op ∧ operationSpec op s (.ok answer) s' := by
  have hfamily := (family_of_ok h).1
  cases q with
  | calling op' =>
      obtain ⟨answer', heq, hop⟩ := h
      obtain ⟨rfl, rfl⟩ := Control.returned.inj heq
      exact ⟨rfl, hop⟩
  | returned _ _ => exact h.elim
  | rejected _ _ => exact h.elim
  | _ => simp [family] at hfamily

theorem not_returned_of_error {t : Sql Control} {onError : Failure → Control}
    (hcode : code config q = .tx t onError) (e : Failure) (op : Operation) (answer : Answer) :
    onError e ≠ .returned op answer := by
  intro heq
  have hfamily := (family_of_error hcode e).1
  rw [heq] at hfamily
  cases q with
  | calling op' =>
      obtain ⟨_, rfl⟩ := Code.tx.inj hcode
      cases heq
  | returned _ _ => simp [code] at hcode
  | rejected _ _ => simp [code] at hcode
  | _ => simp [family] at hfamily

theorem family_crash (q : Control) :
    (family (crash q) = family q ∨ family (crash q) = .crash) ∧ isCall (crash q) = false := by
  cases q <;> first | exact ⟨Or.inl rfl, rfl⟩ | exact ⟨Or.inr rfl, rfl⟩

theorem lifecycle_of_family (h : family q' = family q ∨ family q' = .crash) (hq : Lifecycle q) :
    Lifecycle q' := by
  unfold Lifecycle at hq ⊢
  rcases h with h | h
  · rw [h]
    exact hq
  · rw [h]
    decide

end Transitions

theorem sound (config : Config) :
    Sound (service config) Lifecycle Persists (controlSpec config) where
  refl := persists_refl
  trans _ _ _ h₁ h₂ := h₁.trans h₂
  guarantee _ _ _ _ _ h := persists_of_stepEffect (stepEffect_of_controlSpec h)
  takesEffect _ _ _ hq hcode s := control_takesEffect config hq hcode s
  live_ok _ _ _ _ _ _ hq _ h := lifecycle_of_family (Or.inl (family_of_ok h).1) hq
  live_error _ _ _ e hq hcode := lifecycle_of_family (Or.inl (family_of_error hcode e).1) hq
  live_act _ _ _ _ _ _ hq hcode hact :=
    lifecycle_of_family (Or.inl (acts_of_code hcode hact).family.1) hq
  live_crashed q hq := lifecycle_of_family (family_crash q).1 hq

end SmsNotification.ServiceEffects

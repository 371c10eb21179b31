import SmsNotification.PurgeTransaction
import SmsNotification.RetryBackoff

namespace SmsNotification.OutboxAgreement

open SmsNotification.ActorSystem
open SmsNotification.LabelledRuns
open SmsNotification.KeyedStore
open SmsNotification.OutboxPublication
open SmsNotification.OutboxRelayService
open SmsNotification.PurgeTransaction
open SmsNotification.QueueConstants
open SmsNotification.ReadCommitted
open SmsNotification.RetentionService
open SmsNotification.RetryBackoff
open SmsNotification.Schema
open SmsNotification.Service
open SmsNotification.ServiceEffects
open SmsNotification.ServiceRuns
open SmsNotification.SmsLifecycleRepository
open SmsNotification.SmsPersistenceRepository
open SmsNotification.SmsStateMachine
open SmsNotification.StrandedMessages
open SmsNotification.Surroundings

/-- A delay that the relay accepts. -/
abbrev Delay :=
  { ms : ℚ // isDelay ms }

def delay? (ms : ℚ) : Option Delay :=
  if h : isDelay ms then some ⟨ms, h⟩ else none

/-- What records an outbox row, with the delay that it chooses. -/
inductive Writer where
  | queued
  | retried (delayMs : Delay)
  | deadLettered
  | requeued
  | recovered
  | expiry (delayMs : Delay)

namespace Writer

def intent (m : String) : Writer → OutboxIntent
  | queued => messageQueued m
  | retried delayMs => retryScheduled m delayMs
  | deadLettered => SmsLifecycleRepository.deadLettered m
  | requeued => SmsLifecycleRepository.requeued m
  | recovered => processingRecovered m
  | expiry delayMs => ambiguousOutcomeExpiryScheduled m delayMs

/-- The job that a writer asks for. -/
def queueJob (m : String) : Writer → QueueJob
  | queued => ⟨.smsDispatch, "dispatch", m, none⟩
  | retried delayMs => ⟨.smsDispatch, "retry", m, some delayMs⟩
  | deadLettered => ⟨.smsDlq, "dead-letter", m, none⟩
  | requeued => ⟨.smsDispatch, "requeue", m, none⟩
  | recovered => ⟨.smsDispatch, "recovered", m, none⟩
  | expiry delayMs => ⟨.smsMaintenance, ambiguousOutcomeExpiryJob, m, some delayMs⟩

/-- The row is one of the writer's. -/
def Wrote (writer : Writer) (row : OutboxEvent) : Prop :=
  row.eventType = (writer.intent row.aggregateId).eventType ∧
    row.payload = (writer.intent row.aggregateId).payload

theorem wrote_row (writer : Writer) (m : String) (c : Choice) :
    writer.Wrote ((writer.intent m).row m c) :=
  ⟨rfl, rfl⟩

theorem Wrote.of_sameEvent {writer : Writer} {row row' : OutboxEvent} (h : writer.Wrote row)
    (hsame : SameEvent row row') : writer.Wrote row' := by
  obtain ⟨_, haggregate, htype, hpayload⟩ := hsame
  rw [Wrote, htype, hpayload, haggregate]
  exact h

end Writer

theorem queueJobFor_of_wrote {writer : Writer} {row : OutboxEvent} (h : writer.Wrote row) :
    queueJobFor (unpublishedSelect row) = .ok (writer.queueJob row.aggregateId) := by
  have htype : (unpublishedSelect row).eventType = (writer.intent row.aggregateId).eventType := h.1
  have hpayload : (unpublishedSelect row).payload = (writer.intent row.aggregateId).payload := h.2
  rw [queueJobFor, htype, hpayload]
  cases writer with
  | retried delayMs =>
      rw [Writer.intent, retryScheduled, readDispatchPayload_delayed, if_pos delayMs.2]
      rfl
  | expiry delayMs =>
      rw [Writer.intent, ambiguousOutcomeExpiryScheduled, readDispatchPayload_delayed,
        if_pos delayMs.2]
      rfl
  | _ => rfl

/-- The relay makes of the row the job that its writer asks for, and where this is an
expiry its processor accepts it. -/
structure Relayable (writer : Writer) (row : OutboxEvent) : Prop where
  wrote : writer.Wrote row
  queueJob : queueJobFor (unpublishedSelect row) = .ok (writer.queueJob row.aggregateId)
  accepted : ∀ delayMs, writer = .expiry delayMs →
    ∃ task, MaintenanceProcessors.AmbiguousOutcomeExpiryProcessor.process
      ((writer.queueJob row.aggregateId).toJob row.id) = .expiring task row.aggregateId

theorem relayable_of_wrote {writer : Writer} {row : OutboxEvent} (h : writer.Wrote row) :
    Relayable writer row where
  wrote := h
  queueJob := queueJobFor_of_wrote h
  accepted := by
    rintro delayMs rfl
    exact ⟨_, rfl⟩

def operationWriter? : Operation → Option Writer
  | .finalizeProviderAttempt _ _ (.failed true _ _ (some delayMs)) =>
      (delay? delayMs).map .expiry
  | .scheduleRetry _ opts => (delay? opts.delayMs).map .retried
  | .markFatalFailure _ _ => some .deadLettered
  | .resetForRequeue _ => some .requeued
  | _ => none

/-- What the transaction of a control state records its outbox row as. -/
def writer? : Control → Option Writer
  | .creating _ _ => some .queued
  | .calling op => operationWriter? op
  | .sweep (.recovering _ _ _ _) => some .recovered
  | .maintenance (.recovering _ _ _ _) => some .recovered
  | .dispatch (.markingMissing _) => some .deadLettered
  | .dispatch (.finalizing hold input) => operationWriter?
      (.finalizeProviderAttempt hold.pass.task.messageId hold.attemptId input)
  | .dispatch (.schedulingRetry pass opts) =>
      operationWriter? (.scheduleRetry pass.task.messageId opts)
  | .dispatch (.markingFatal _ _ _) => some .deadLettered
  | _ => none

/-- The delay that a control state is about to schedule a retry with. -/
def retryDelay? : Control → Option ℚ
  | .calling (.scheduleRetry _ opts) => some opts.delayMs
  | .dispatch (.schedulingRetry _ opts) => some opts.delayMs
  | _ => none

/-- A retry is scheduled with a whole number of milliseconds that is not negative. -/
def Delayed (q : Control) : Prop :=
  ∀ delayMs, retryDelay? q = some delayMs → isDelay delayMs

/-- A change of the row under one key by which an outbox row comes from `writer` or
stays the one for its event. -/
def Puts (writer : Option Writer) (before after : Option Row) : Prop :=
  ∀ row, after = some (.outbox row) →
    (∃ old, before = some (.outbox old) ∧ SameEvent old row) ∨
      ('#' ∉ row.id.toList ∧ ∃ chosen, writer = some chosen ∧ chosen.Wrote row)

def OnlyPuts (writer : Option Writer) (s s' : Database) : Prop :=
  ∀ k, Puts writer (s.find k) (s'.find k)

/-- The ids of the rows come from a generator that never yields a `#`. -/
def Plain (c : Choice) : Prop :=
  '#' ∉ c.uuid.toList

/-- Of the transaction every outbox row comes from the writer. -/
abbrev Checked {α : Type} (writer : Option Writer) (t : Sql α) : Prop :=
  WritesFrom Plain (fun before w => Puts writer before w.after) t

section Changes

variable {writer : Option Writer}

theorem puts_refl (b : Option Row) : Puts writer b b :=
  fun row hrow => Or.inl ⟨row, hrow, rfl, rfl, rfl, rfl⟩

theorem Puts.trans {b₁ b₂ b₃ : Option Row} (h : Puts writer b₁ b₂) (h' : Puts writer b₂ b₃) :
    Puts writer b₁ b₃ := by
  intro row hrow
  obtain ⟨mid, hmid, hsame⟩ | hnew := h' row hrow
  · obtain ⟨old, hold, hsame'⟩ | ⟨hplain, chosen, hchosen, hwrote⟩ := h mid hmid
    · exact Or.inl ⟨old, hold, hsame.1.trans hsame'.1, hsame.2.1.trans hsame'.2.1,
        hsame.2.2.1.trans hsame'.2.2.1, hsame.2.2.2.trans hsame'.2.2.2⟩
    · exact Or.inr ⟨hsame.1 ▸ hplain, chosen, hchosen, hwrote.of_sameEvent hsame⟩
  · exact Or.inr hnew

theorem puts_other {b after : Option Row} (h : ∀ row, after ≠ some (.outbox row)) :
    Puts writer b after :=
  fun row hrow => absurd hrow (h row)

theorem onlyPuts_apply (s : Database) (w : Write Row.key)
    (h : Puts writer (s.find w.target) w.after) : OnlyPuts writer s (s.apply w) := by
  intro k
  rw [Store.find_apply]
  by_cases hk : w.target = k
  · subst hk
    rw [if_pos rfl]
    exact h
  · rw [if_neg hk]
    exact puts_refl _

theorem takesEffect_onlyPuts {α : Type} {t : Sql α} (h : Checked writer t)
    {rely : Database → Database → Prop} (s : Database) :
    TakesEffect Choice.supplied rely (fun s _ s' => OnlyPuts writer s s') t s [] :=
  h.takesEffect (fun _ _ hsupplied => Table.notMem_supplied hsupplied) (fun _ _ => puts_refl _)
    (fun _ _ _ h₁ h₂ k => (h₁ k).trans (h₂ k)) onlyPuts_apply (by simp)

end Changes

section Programs

variable {writer : Option Writer} {m : String}

theorem checked_updateMessage {guard : SmsMessage → Bool} {data : Choice → SmsMessage → SmsMessage}
    (hid : ∀ c row, (data c row).id = row.id) :
    Checked writer (smsMessage.updateMany m guard data) :=
  .of_writes (Table.writes_updateMany fun c row hrow _ =>
    ⟨(hid c row).trans hrow, puts_other fun _ heq => by cases heq⟩)

theorem checked_readLifecycle : Checked writer (readLifecycle m) := by
  refine .bind (.of_writes (.read _)) fun found => ?_
  cases found with
  | none => exact .abort _
  | some row => exact .done _

theorem checked_createOutboxEvent (writer : Writer) :
    Checked (some writer) (createOutboxEvent m (writer.intent m)) := by
  refine Table.writesFrom_create fun c hplain row hrow => Or.inr ?_
  obtain rfl : (writer.intent m).row m c = row := Row.outbox.inj (Option.some.inj hrow)
  exact ⟨hplain, writer, rfl, writer.wrote_row m c⟩

theorem checked_beginProcessing : Checked writer (beginProcessing m) := by
  refine .bind (checked_updateMessage fun _ _ => rfl) fun claimed => ?_
  split
  · exact .done _
  · exact .bind checked_readLifecycle fun _ => .done _

theorem checked_recoverCandidate (cutoff : Int) :
    Checked (some .recovered) (recoverCandidate cutoff m) := by
  refine .bind (checked_updateMessage fun _ _ => rfl) fun updated => ?_
  split
  · exact .done _
  · exact .bind (checked_createOutboxEvent .recovered) fun _ => .done _

theorem checked_reserveProviderAttempt (providerName : String) :
    Checked writer (reserveProviderAttempt m providerName) := by
  refine .bind (checked_updateMessage fun _ _ => rfl) fun reserved => ?_
  split
  · exact .done _
  · exact .bind (Table.writesFrom_create fun _ _ => puts_other fun _ heq => by cases heq)
      fun _ => .done _

theorem checked_leaveAwaiting {target : SmsStatus} {data : Choice → SmsMessage → SmsMessage}
    (hid : ∀ c row, (data c row).id = row.id) : Checked writer (leaveAwaiting m target data) := by
  refine .bind (checked_updateMessage hid) fun count => ?_
  split
  · exact .abort _
  · exact .done _

theorem delay_of_isPositiveInteger {ms : ℚ} (h : isPositiveInteger ms) :
    ∃ delayMs : Delay, delay? ms = some delayMs ∧ delayMs.1 = ms := by
  simp only [isPositiveInteger, Bool.and_eq_true, decide_eq_true_eq] at h
  have hdelay : isDelay ms := by simp [isDelay, h.1, h.2.le]
  exact ⟨⟨ms, hdelay⟩, dif_pos hdelay, rfl⟩

theorem checked_finalizeProviderAttempt (attemptId : String)
    (input : FinalizeProviderAttemptInput) :
    Checked (operationWriter? (.finalizeProviderAttempt m attemptId input))
      (finalizeProviderAttempt m attemptId input) := by
  refine .bind (.of_writes (Table.writes_updateMany fun _ row hrow _ => ?_)) fun finalized => ?_
  · have hid : (input.record row).id = row.id := by cases input <;> rfl
    exact ⟨hid.trans hrow, puts_other fun _ heq => by cases heq⟩
  · split
    · exact .abort _
    · rcases input with providerMessageId | ⟨_ | _, isRetryable, errorMessage, delayMs⟩
      · exact checked_leaveAwaiting fun _ _ => rfl
      · exact checked_leaveAwaiting fun _ _ => rfl
      · dsimp only
        split
        · exact .abort _
        · rename_i ms hms
          obtain ⟨hsome, hpositive⟩ := Option.filter_eq_some_iff.mp hms
          obtain ⟨chosen, hchosen, rfl⟩ := delay_of_isPositiveInteger hpositive
          rw [hsome, operationWriter?, hchosen]
          exact .bind (checked_createOutboxEvent (.expiry chosen)) fun _ => .done _

theorem checked_answerExisting (existing : SmsAttemptResolution)
    (input : ResolveTwilioAttemptInput) : Checked writer (answerExisting m existing input) := by
  unfold answerExisting
  split
  · exact .bind checked_readLifecycle fun _ => .done _
  · exact .done _

theorem checked_applyDecision (attemptId : String) (input : ResolveTwilioAttemptInput) :
    Checked writer (applyDecision m attemptId input) := by
  refine .bind (checked_updateMessage fun c row => ?_) fun updated => ?_
  · rcases input with sid | ⟨⟨⟩⟩ <;> rfl
  · split
    · refine .bind (.of_writes (.read _)) fun found => ?_
      cases found with
      | none => exact .done _
      | some existing => exact checked_answerExisting existing input
    · refine .bind (Table.writesFrom_create fun _ _ => puts_other fun _ heq => by cases heq)
        fun _ => ?_
      exact .bind checked_readLifecycle fun _ => .done _

theorem checked_resolveTwilioAttempt (attemptId : String) (input : ResolveTwilioAttemptInput) :
    Checked writer (resolveTwilioAttempt m attemptId input) := by
  refine .bind (.bind (.of_writes (.read _)) fun _ => ?_) fun _ =>
    .bind (.of_writes (.read _)) fun current => ?_
  · cases input with
    | undelivered evidenceCode => exact .done _
    | knownSid sid =>
        dsimp only
        split
        · exact .done _
        · exact .abort _
  · cases current with
    | none => exact .done _
    | some current =>
        refine .bind (.of_writes (.read _)) fun existing => ?_
        cases existing with
        | some existing => exact checked_answerExisting existing input
        | none =>
            dsimp only
            split
            · exact .done _
            · refine .bind (.of_writes (.read _)) fun attempt => ?_
              split
              · exact .done _
              · exact checked_applyDecision attemptId input

theorem checked_guardedTransition (target : SmsStatus) {data : SmsMessage → SmsMessage}
    (hid : ∀ row, (data row).id = row.id) {intent : Option OutboxIntent}
    (hintent : ∀ recorded, intent = some recorded →
      ∃ chosen : Writer, writer = some chosen ∧ recorded = chosen.intent m) :
    Checked writer (guardedTransition m target data intent) := by
  refine .bind (.of_writes (.read _)) fun current => ?_
  cases current with
  | none => exact .abort _
  | some current =>
      dsimp only
      split
      · exact .abort _
      · refine .bind (checked_updateMessage fun c row => hid row) fun updated => ?_
        split
        · exact .abort _
        · cases intent with
          | none => exact checked_readLifecycle
          | some recorded =>
              obtain ⟨chosen, rfl, rfl⟩ := hintent recorded rfl
              exact .bind (checked_createOutboxEvent chosen) fun _ => checked_readLifecycle

theorem checked_scheduleRetry {opts : ScheduleRetryOptions} (h : isDelay opts.delayMs) :
    Checked (operationWriter? (.scheduleRetry m opts)) (scheduleRetry m opts) := by
  refine checked_guardedTransition _ (fun _ => by rfl) ?_
  rintro _ ⟨⟩
  refine ⟨.retried ⟨opts.delayMs, h⟩, ?_, rfl⟩
  rw [operationWriter?, delay?, dif_pos h]
  rfl

theorem checked_markFatalFailure (lastError : String) :
    Checked (some .deadLettered) (markFatalFailure m lastError) :=
  checked_guardedTransition _ (fun _ => by rfl) fun _ heq =>
    ⟨.deadLettered, rfl, (Option.some.inj heq).symm⟩

theorem checked_expireAmbiguousOutcome : Checked writer (expireAmbiguousOutcome m) :=
  .bind (checked_updateMessage fun _ _ => by rfl) fun _ => .done _

theorem checked_resetForRequeue : Checked (some .requeued) (resetForRequeue m) := by
  refine .bind (.of_writes (.read _)) fun current => ?_
  cases current with
  | none => exact .done _
  | some current =>
      dsimp only
      split
      · exact .done _
      · refine .bind (checked_updateMessage fun _ _ => rfl) fun updated => ?_
        split
        · exact .done _
        · refine .bind (checked_createOutboxEvent .requeued) fun _ => ?_
          exact .bind checked_readLifecycle fun _ => .done _

theorem checked_applyDeliveryReport (input : ApplyDeliveryReportInput) :
    Checked writer (applyDeliveryReport input) := by
  refine .bind (.of_writes (.read _)) fun found => ?_
  cases found with
  | none => exact .done _
  | some current =>
      dsimp only
      split
      · exact .bind checked_readLifecycle fun _ => .done _
      · split
        · exact .done _
        · refine .bind (checked_updateMessage fun _ _ => rfl) fun updated => ?_
          split
          · exact .done _
          · exact .bind checked_readLifecycle fun _ => .done _

theorem checked_createMessage (call : CreateOrGetMessage) :
    Checked (some .queued) (createMessage call) := by
  refine .bind (.of_writes (.require _ _)) fun _ => ?_
  refine .bind (Table.writesFrom_create fun _ _ => puts_other fun _ heq => by cases heq)
    fun message => .bind (checked_createOutboxEvent .queued) fun _ => ?_
  refine .bind (.of_writes (.require _ _)) fun _ => ?_
  exact .bind (Table.writesFrom_create fun _ _ => puts_other fun _ heq => by cases heq)
    fun _ => .done _

theorem checked_createOrGetMessage (call : CreateOrGetMessage) :
    Checked (some .queued) (createOrGetMessageInTransaction call) := by
  refine .bind (.of_writes (.read _)) fun existing => ?_
  cases existing with
  | none => exact checked_createMessage call
  | some owner =>
      dsimp only
      split
      · exact .done _
      · refine .bind (.of_writes (.bind (.read _) fun found => .deleteMany fun _ _ => ?_))
          fun _ => checked_createMessage call
        exact ⟨puts_other fun _ heq => (by cases heq),
          fun _ _ _ => puts_other fun _ heq => (by cases heq)⟩

theorem checked_updateOutboxEvent (id : String) {data : Choice → OutboxEvent → OutboxEvent}
    (hdata : ∀ c row, SameEvent row (data c row)) : Checked writer (updateOutboxEvent id data) := by
  refine .bind (.of_writes (Table.writes_updateMany fun c row hid _ => ⟨?_, ?_⟩)) fun count => ?_
  · exact (hdata c row).1.trans hid
  · rintro _ ⟨⟩
    exact Or.inl ⟨row, rfl, hdata c row⟩
  · split
    · exact .abort _
    · exact .done _

theorem checked_markOutboxPublished (id : String) : Checked writer (markOutboxPublished id) :=
  checked_updateOutboxEvent id fun _ _ => ⟨rfl, rfl, rfl, rfl⟩

theorem checked_recordOutboxPublishFailure (id error : String) :
    Checked writer (recordOutboxPublishFailure id error) :=
  checked_updateOutboxEvent id fun _ _ => ⟨rfl, rfl, rfl, rfl⟩

theorem checked_purgeExpired (now : Int) (batchSize : Nat) :
    Checked writer (purgeExpired now batchSize) :=
  .of_writes (writes_purgeExpired (fun _ _ => puts_other fun _ heq => by cases heq) now batchSize)

theorem checked_operation {op : Operation} (h : Delayed (.calling op)) :
    Checked (operationWriter? op) (runOperation op) := by
  cases op with
  | beginProcessing m => exact checked_beginProcessing.map _
  | reserveProviderAttempt m providerName =>
      exact (checked_reserveProviderAttempt providerName).map _
  | finalizeProviderAttempt m attemptId input =>
      exact (checked_finalizeProviderAttempt attemptId input).map _
  | resolveTwilioAttempt m attemptId input =>
      exact (checked_resolveTwilioAttempt attemptId input).map _
  | scheduleRetry m opts => exact (checked_scheduleRetry (h _ rfl)).map _
  | markPermanentProviderFailure m status lastError =>
      have hchecked : Checked none (markPermanentProviderFailure m status lastError) :=
        checked_guardedTransition _ (fun _ => by rfl) fun _ heq => by cases heq
      exact hchecked.map _
  | markFatalFailure m lastError => exact (checked_markFatalFailure lastError).map _
  | expireAmbiguousOutcome m =>
      exact checked_expireAmbiguousOutcome.map _
  | resetForRequeue m => exact checked_resetForRequeue.map _
  | applyDeliveryReport input => exact (checked_applyDeliveryReport input).map _

end Programs

section Soundness

variable {config : Config} {q : Control} {t : Sql Control} {onError : Failure → Control}

theorem checked_dispatch {state : SmsProcessor.State} (hq : Delayed (.dispatch state))
    (hcode : dispatchCode config.processor state = .tx t onError) :
    Checked (writer? (.dispatch state)) t := by
  cases state with
  | beginning task =>
      obtain ⟨rfl, _⟩ := Code.tx.inj hcode
      exact checked_beginProcessing.map _
  | loading task begin =>
      obtain ⟨rfl, _⟩ := Code.tx.inj hcode
      exact (WritesFrom.of_writes (.read _)).map _
  | markingMissing task =>
      obtain ⟨rfl, _⟩ := Code.tx.inj hcode
      exact (checked_markFatalFailure _).map _
  | reserving pass provider rest =>
      obtain ⟨rfl, _⟩ := Code.tx.inj hcode
      exact (checked_reserveProviderAttempt provider).map _
  | finalizing hold input =>
      obtain ⟨rfl, _⟩ := Code.tx.inj hcode
      exact (checked_finalizeProviderAttempt _ input).map _
  | schedulingRetry pass opts =>
      obtain ⟨rfl, _⟩ := Code.tx.inj hcode
      exact (checked_scheduleRetry (hq _ rfl)).map _
  | markingFatal pass lastError reason =>
      obtain ⟨rfl, _⟩ := Code.tx.inj hcode
      exact (checked_markFatalFailure lastError).map _
  | _ => simp [dispatchCode] at hcode

theorem checked_sweep {state : Sweep} (hcode : sweepCode state = .tx t onError) :
    Checked (writer? (.sweep state)) t := by
  cases state with
  | selecting cutoff limit =>
      obtain ⟨rfl, _⟩ := Code.tx.inj hcode
      exact (WritesFrom.of_writes (.read _)).map _
  | recovering cutoff candidate rest recovered =>
      obtain ⟨rfl, _⟩ := Code.tx.inj hcode
      exact (checked_recoverCandidate cutoff).map _
  | _ => simp [sweepCode] at hcode

theorem checked_relay {state : OutboxRelayService.State}
    (hcode : relayCode state = .tx t onError) : Checked (writer? (.relay state)) t := by
  cases state with
  | fetching batchSize =>
      obtain ⟨rfl, _⟩ := Code.tx.inj hcode
      exact (WritesFrom.of_writes (.read _)).map _
  | marking event rest =>
      obtain ⟨rfl, _⟩ := Code.tx.inj hcode
      exact (checked_markOutboxPublished event.id).map _
  | recording event description rest =>
      obtain ⟨rfl, _⟩ := Code.tx.inj hcode
      exact (checked_recordOutboxPublishFailure event.id description).map _
  | _ => simp [relayCode] at hcode

theorem checked_maintenance {state : MaintenanceProcessors.State}
    (hcode : maintenanceCode config.maintenance state = .tx t onError) :
    Checked (writer? (.maintenance state)) t := by
  cases state with
  | purging task now =>
      obtain ⟨rfl, _⟩ := Code.tx.inj hcode
      exact (checked_purgeExpired now _).map _
  | selecting task cutoff =>
      obtain ⟨rfl, _⟩ := Code.tx.inj hcode
      exact (WritesFrom.of_writes (.read _)).map _
  | recovering task cutoff candidate rest =>
      obtain ⟨rfl, _⟩ := Code.tx.inj hcode
      exact (checked_recoverCandidate cutoff).map _
  | expiring task m =>
      obtain ⟨rfl, _⟩ := Code.tx.inj hcode
      exact checked_expireAmbiguousOutcome.map _
  | _ => simp [maintenanceCode] at hcode

theorem checked_of_code (hq : Delayed q) (hcode : code config q = .tx t onError) :
    Checked (writer? q) t := by
  cases q with
  | calling op =>
      obtain ⟨rfl, _⟩ := Code.tx.inj hcode
      exact (checked_operation hq).map _
  | creating call again =>
      obtain ⟨rfl, _⟩ := Code.tx.inj hcode
      exact (checked_createOrGetMessage call).map _
  | purging now batchSize =>
      obtain ⟨rfl, _⟩ := Code.tx.inj hcode
      exact (checked_purgeExpired now batchSize).map _
  | sweep state => exact checked_sweep hcode
  | dispatch state => exact checked_dispatch hq hcode
  | relay state => exact checked_relay hcode
  | maintenance state => exact checked_maintenance hcode
  | _ => simp [code] at hcode

theorem delayed_of_none (h : retryDelay? q = none) : Delayed q := by
  intro delayMs hdelay
  rw [h] at hdelay
  cases hdelay

theorem delayed_nextProvider (pass : SmsProcessor.Pass) (providers : List String) :
    Delayed (.dispatch (SmsProcessor.nextProvider config.processor pass providers)) := by
  intro delayMs hdelay
  cases providers with
  | cons provider rest => cases hdelay
  | nil =>
      simp only [SmsProcessor.nextProvider, SmsProcessor.endOfPass] at hdelay
      split at hdelay
      · obtain rfl := Option.some.inj hdelay
        simp [isDelay]
      · cases hdelay

theorem delayed_afterLoad (task : SmsProcessor.Task) (begin : LifecycleSmsMessage)
    (row : Option SmsMessage) :
    Delayed (.dispatch (SmsProcessor.afterLoad config.processor task begin row)) := by
  cases row with
  | none => exact delayed_of_none rfl
  | some row =>
      rw [SmsProcessor.afterLoad]
      split
      · exact delayed_of_none rfl
      · exact delayed_nextProvider _ _

theorem delayed_afterFinalize (hold : SmsProcessor.Hold) (input : FinalizeProviderAttemptInput) :
    Delayed (.dispatch (SmsProcessor.afterFinalize config.processor hold input)) := by
  rcases input with _ | ⟨_ | _, _, _, _⟩
  · exact delayed_of_none rfl
  · exact delayed_nextProvider _ _
  · exact delayed_of_none rfl

theorem delayed_of_family {q' : Control} (h : family q' = family q) (hcall : family q ≠ .call)
    (hdispatch : family q ≠ .dispatch) : Delayed q' := by
  rw [← h] at hcall hdispatch
  refine delayed_of_none ?_
  cases q' <;> first | rfl | exact absurd rfl hcall | exact absurd rfl hdispatch

theorem delayed_of_code (hcode : code config q = .tx t onError) : CommitsAs Delayed true t := by
  cases q with
  | calling op =>
      obtain ⟨rfl, _⟩ := Code.tx.inj hcode
      exact .values fun _ => delayed_of_none rfl
  | returned _ _ | rejected _ _ => simp [code] at hcode
  | dispatch state =>
      cases state with
      | loading task begin =>
          obtain ⟨rfl, _⟩ := Code.tx.inj hcode
          exact .values fun row => delayed_afterLoad task begin row
      | finalizing hold input =>
          obtain ⟨rfl, _⟩ := Code.tx.inj hcode
          exact .values fun _ => delayed_afterFinalize hold input
      | beginning task =>
          obtain ⟨rfl, _⟩ := Code.tx.inj hcode
          exact .values fun begin => delayed_of_none (by cases begin <;> rfl)
      | reserving pass provider rest =>
          obtain ⟨rfl, _⟩ := Code.tx.inj hcode
          exact .values fun reservation => delayed_of_none (by cases reservation <;> rfl)
      | markingMissing | schedulingRetry | markingFatal =>
          obtain ⟨rfl, _⟩ := Code.tx.inj hcode
          exact .values fun _ => delayed_of_none rfl
      | _ => simp [code, dispatchCode] at hcode
  | _ =>
      exact (commitsAs_family hcode).mono fun q' hfamily =>
        delayed_of_family hfamily (by simp [family]) (by simp [family])

theorem delayed_of_error (hcode : code config q = .tx t onError) (e : Failure) :
    Delayed (onError e) := by
  cases q with
  | calling op =>
      obtain ⟨_, rfl⟩ := Code.tx.inj hcode
      exact delayed_of_none rfl
  | returned _ _ | rejected _ _ => simp [code] at hcode
  | dispatch state =>
      obtain ⟨_, _, _, _, h | h⟩ := dispatch_of_error hcode e rfl
      all_goals
        rw [h]
        exact delayed_of_none rfl
  | _ =>
      exact delayed_of_family (family_of_error hcode e).1 (by simp [family]) (by simp [family])

theorem delayed_of_acts {c : Choice} {o o' : Outside} {q' : Control}
    (h : Acts config c o q o' q') : Delayed q' := by
  refine delayed_of_none ?_
  cases h with
  | took _ =>
      unfold SmsProcessor.process
      split <;> rfl
  | answered hold call _ => cases c.reply <;> rfl
  | _ => rfl

/-- What the transaction of a control state records, and what it goes on with. -/
def agreementSpec (q : Control) (s : Database) (r : Except Failure Control) (s' : Database) :
    Prop :=
  OnlyPuts (writer? q) s s' ∧ ∀ q', r = .ok q' → Delayed q'

theorem sound_agreement (config : Config) :
    Sound (service config) Delayed (fun _ _ => True) agreementSpec where
  refl _ := trivial
  trans _ _ _ _ _ := trivial
  guarantee _ _ _ _ _ _ := trivial
  takesEffect _ _ _ hq hcode s :=
    (takesEffect_onlyPuts (checked_of_code hq hcode) s).and (delayed_of_code hcode).answers
  live_ok _ _ _ _ q' _ _ _ h := h.2 q' rfl
  live_error _ _ _ e _ hcode := delayed_of_error hcode e
  live_act _ _ _ _ _ _ _ hcode hact := delayed_of_acts (acts_of_code hcode hact)
  live_crashed q _ := by cases q <;> exact delayed_of_none rfl

end Soundness

/-- The relay makes of every outbox row the job that its writer asks for, and no job
twice. -/
structure Agreed (s : Database) : Prop where
  plain : ∀ row, outboxEvent.find s row.id = some row → '#' ∉ row.id.toList
  wrote : ∀ row, outboxEvent.find s row.id = some row → ∃ writer : Writer, writer.Wrote row

section Runs

variable {config : Config} {w w' : ServiceWorld} {l : ServiceLabel}

theorem Agreed.step {s s' : Database} {writer : Option Writer} (h : Agreed s)
    (hputs : OnlyPuts writer s s') : Agreed s' := by
  have hrow : ∀ row, outboxEvent.find s' row.id = some row → '#' ∉ row.id.toList ∧
      ∃ writer : Writer, writer.Wrote row := by
    intro row hrow
    obtain ⟨old, hold, hsame⟩ | ⟨hplain, chosen, _, hwrote⟩ :=
      hputs _ row (Table.find_eq_some_iff.mp hrow)
    · have hfind : outboxEvent.find s old.id = some old :=
        Table.find_eq_some_iff.mpr (hsame.1 ▸ hold)
      obtain ⟨writer, hwrote⟩ := h.wrote old hfind
      exact ⟨hsame.1 ▸ h.plain old hfind, writer, hwrote.of_sameEvent hsame⟩
    · exact ⟨hplain, chosen, hwrote⟩
  exact ⟨fun row hfind => (hrow row hfind).1, fun row hfind => (hrow row hfind).2⟩

theorem Agreed.empty : Agreed (Store.empty Row.key) where
  plain row h := by simp [Table.find] at h
  wrote row h := by simp [Table.find] at h

theorem agreed_of_reaches (h : Reaches config (Spawning Delayed) Initial w) : Agreed w.store := by
  have hatomic := (reachable_abs (sound_agreement config) (fun _ q hl => hl q rfl) h).2
  have hinit : ∀ a, Initial a → Agreed a.store := fun a h0 => h0.store ▸ Agreed.empty
  refine Reachable.invariant hinit (fun a l a' _ hagreed _ hstep => ?_) hatomic
  obtain hsame | ⟨i, q, q', _, _, hspec⟩ := hstep.store
  · exact hsame ▸ hagreed
  · exact hagreed.step hspec.1

theorem wrote_of_step (h : Reaches config (Spawning Delayed) Initial w)
    (hl : Spawning Delayed w.abs l) (hstep : (service config).step w l = some w')
    {row : OutboxEvent} (hbefore : outboxEvent.find w.store row.id = none)
    (hrow : outboxEvent.find w'.store row.id = some row) :
    ∃ (i : Nat) (q : Control) (writer : Writer), w.abs.controls[i]? = some q ∧
      (l = .commit i ∨ l = .lost i) ∧ writer? q = some writer ∧ writer.Wrote row := by
  have hconsistent := (reachable_abs (sound_agreement config) (fun _ q hl => hl q rfl) h).1
  obtain hsame | hatomic := (simulates (sound_agreement config) hconsistent hl hstep).2
  · have hstore : w'.store = w.store := congrArg Snapshot.store hsame
    rw [hstore, hbefore] at hrow
    cases hrow
  · obtain hsame | ⟨i, q, q', hq, hlabel, hspec⟩ := hatomic.store
    · have hstore : w'.store = w.store := hsame
      rw [hstore, hbefore] at hrow
      cases hrow
    · obtain ⟨old, hold, hevent⟩ | ⟨_, writer, hwriter, hwrote⟩ :=
        hspec.1 _ row (Table.find_eq_some_iff.mp hrow)
      · have hfind : outboxEvent.find w.store row.id = some old :=
          Table.find_eq_some_iff.mpr hold
        rw [hbefore] at hfind
        cases hfind
      · exact ⟨i, q, writer, hq, hlabel, hwriter, hwrote⟩

/-- Every outbox row of every reachable state is relayed as the job that its writer
asks for, different rows as jobs with different ids, and the writer of a new row is
that of the call that has recorded it. -/
theorem outbox_agreement (h : Reaches config (Spawning Delayed) Initial w) :
    (∀ row, outboxEvent.find w.store row.id = some row →
      ∃ writer : Writer, Relayable writer row) ∧
    (∀ row row' queueJob queueJob', outboxEvent.find w.store row.id = some row →
      outboxEvent.find w.store row'.id = some row' →
      queueJobFor (unpublishedSelect row) = .ok queueJob →
      queueJobFor (unpublishedSelect row') = .ok queueJob' →
      (queueJob.toJob row.id).jobId = (queueJob'.toJob row'.id).jobId → row = row') ∧
    ∀ l w' row, Spawning Delayed w.abs l → (service config).step w l = some w' →
      outboxEvent.find w.store row.id = none → outboxEvent.find w'.store row.id = some row →
      ∃ (i : Nat) (q : Control) (writer : Writer), w.abs.controls[i]? = some q ∧
        (l = .commit i ∨ l = .lost i) ∧ writer? q = some writer ∧ Relayable writer row := by
  have hagreed := agreed_of_reaches h
  refine ⟨fun row hrow => ?_, fun row row' queueJob queueJob' hrow hrow' _ _ hid => ?_,
    fun l w' row hl hstep hbefore hrow => ?_⟩
  · obtain ⟨writer, hwrote⟩ := hagreed.wrote row hrow
    exact ⟨writer, relayable_of_wrote hwrote⟩
  · obtain ⟨_, hevent⟩ := eq_of_jobIdFor (hagreed.plain row hrow) (hagreed.plain row' hrow') hid
    rw [hevent] at hrow
    exact Option.some.inj (hrow.symm.trans hrow')
  · obtain ⟨i, q, writer, hq, hlabel, hwriter, hwrote⟩ := wrote_of_step h hl hstep hbefore hrow
    exact ⟨i, q, writer, hq, hlabel, hwriter, relayable_of_wrote hwrote⟩

instance Delayed.decidable (q : Control) : Decidable (Delayed q) :=
  decidable_of_iff _ (Option.all_eq_true isDelay (retryDelay? q))

/-- The retry of a message that its provider has refused. -/
theorem outbox_agreement_retried :
    ∃ w row writer, Reaches sampleConfig (Spawning Delayed) Initial w ∧
      outboxEvent.find w.store row.id = some row ∧ row.eventType = "SMS_RETRY_SCHEDULED" ∧
      Relayable writer row := by
  obtain ⟨w, hw, hretried⟩ := exists_reaches_of_exec sampleConfig (Spawning Delayed)
    (creation ++ .spawn (.relay (.fetching 1)) :: statements 1 3 (sampleChoice "" 1) ++
      .commit 1 :: refusing ++ [.commit 2])
    (fun w => (outboxEvent.find w.store "r").any fun row =>
      row.id = "r" ∧ row.eventType = "SMS_RETRY_SCHEDULED") (by decide +kernel)
  obtain ⟨row, hrow, hevent⟩ := (Option.any_eq_true _ _).mp hretried
  obtain ⟨hid, htype⟩ := of_decide_eq_true hevent
  rw [← hid] at hrow
  obtain ⟨writer, hrelayable⟩ := (outbox_agreement hw).1 row hrow
  exact ⟨w, row, writer, hw, hrow, htype, hrelayable⟩

end Runs

end SmsNotification.OutboxAgreement

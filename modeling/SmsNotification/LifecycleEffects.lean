import SmsNotification.MessageAggregate

/-!
What a call of a repository method does. For each method there is the change it
makes to the aggregate of its message and a `…Spec` that ties the answer of the
call to that change; the theorems say that the method takes effect so at Read
Committed, whatever commits between its statements.
-/

namespace SmsNotification.LifecycleEffects

open SmsNotification.KeyedStore
open SmsNotification.MessageAggregate
open SmsNotification.ReadCommitted
open SmsNotification.Schema
open SmsNotification.SmsLifecycleRepository
open SmsNotification.SmsPersistenceRepository
open SmsNotification.SmsStateMachine

/-- The aggregate of one message changes and all others stay. -/
def Changes (m : String) (change : Aggregate → Aggregate → Prop) (s s' : Database) : Prop :=
  ∃ A', change (aggregate s m) A' ∧ aggregate s' = Function.update (aggregate s) m A'

theorem Changes.mono {m : String} {change change' : Aggregate → Aggregate → Prop}
    (himp : ∀ A A', change A A' → change' A A') {s s' : Database}
    (h : Changes m change s s') : Changes m change' s s' := by
  obtain ⟨A', hchange, hupdate⟩ := h
  exact ⟨A', himp _ _ hchange, hupdate⟩

/-- One new outbox row, last, for the intent about the message. -/
def Intended (m : String) (intent : OutboxIntent) (events events' : List OutboxEvent) : Prop :=
  ∃ c : Choice, '#' ∉ c.uuid.toList ∧ (∀ event ∈ events, event.id ≠ c.uuid) ∧
    events' = events ++ [intent.row m c]

/-- The message leaves a status that passes `source` for `target`; `data` is what
else changes in its row, and `intent` is recorded with the change. -/
def Moved (m : String) (source : SmsStatus → Bool) (target : SmsStatus)
    (data : SmsMessage → SmsMessage) (intent : Option OutboxIntent) (A A' : Aggregate) : Prop :=
  ∃ row now events', A.message = some row ∧ source row.status ∧
    (match intent with
      | none => events' = A.outbox
      | some intent => Intended m intent A.outbox events') ∧
    A' = { A with
      message := some { data row with status := target, updatedAt := now }
      outbox := events' }

section Rules

variable {α : Type} {rely : Database → Database → Prop}
  {spec : Database → Except Failure α → Database → Prop} {s : Database}
  {ps : List (Pending Row.key)} {m : String}

theorem takesEffect_readLifecycle {next : LifecycleSmsMessage → Sql α}
    (hnone : ∀ s', rely s s' → Current s' ps → smsMessage.find (view s' ps) m = none →
      spec s' (.error (.messageNotFound m)) s')
    (hsome : ∀ s' row, rely s s' → Current s' ps → smsMessage.find (view s' ps) m = some row →
      TakesEffect Choice.supplied rely spec (next (lifecycleSelect row)) s' ps) :
    TakesEffect Choice.supplied rely spec (readLifecycle m >>= next) s ps := by
  rw [readLifecycle, Tx.bind_assoc]
  refine takesEffect_read fun _ s' hrely hcurrent => ?_
  cases hfind : smsMessage.find (view s' ps) m with
  | none => exact hnone s' hrely hcurrent hfind
  | some row => exact hsome s' row hrely hcurrent hfind

theorem takesEffect_readOwn {new : SmsMessage} {next : LifecycleSmsMessage → Sql α}
    (hown : ∀ s', smsMessage.find (view s' ps) m = some new)
    (h : ∀ s', rely s s' → Current s' ps →
      TakesEffect Choice.supplied rely spec (next (lifecycleSelect new)) s' ps) :
    TakesEffect Choice.supplied rely spec (readLifecycle m >>= next) s ps := by
  refine takesEffect_readLifecycle (fun s' _ _ hnone => ?_) fun s' row hrely hcurrent hrow => ?_
  · simp [hown s'] at hnone
  · obtain rfl : new = row := Option.some.inj ((hown s').symm.trans hrow)
    exact h s' hrely hcurrent

theorem takesEffect_assertValidTwilioResolution {input : ResolveTwilioAttemptInput}
    {next : Unit → Sql α}
    (hinvalid : ∀ s', spec s' (.error .invalidTwilioResolution) s')
    (hvalid : ∀ s', rely s s' → TakesEffect Choice.supplied rely spec (next ()) s' []) :
    TakesEffect Choice.supplied rely spec (assertValidTwilioResolution input >>= next) s [] := by
  unfold assertValidTwilioResolution
  rw [Tx.bind_assoc]
  refine takesEffect_read fun _ s' hs' _ => ?_
  cases input with
  | undelivered evidenceCode => exact hvalid s' hs'
  | knownSid providerMessageId =>
      by_cases hsid : isTwilioMessageSid providerMessageId
      · simpa [hsid] using hvalid s' hs'
      · simpa [hsid] using takesEffect_abort _ (hinvalid s')

theorem takesEffect_createOutboxEvent {intent : OutboxIntent} {next : OutboxEvent → Sql α}
    (hfree : ∀ s' id, outboxEvent.find (view s' ps) id = outboxEvent.find s' id)
    (hmissing : ∀ s', rely s s' → Current s' ps → smsMessage.find (view s' ps) m = none →
      spec s' (.error .foreignKeyViolation) s')
    (hnext : ∀ c s', rely s s' → '#' ∉ c.uuid.toList →
      TakesEffect Choice.supplied rely spec (next (intent.row m c)) s'
        (ps ++ [⟨.put (outboxEvent.wrap (intent.row m c)), none⟩])) :
    TakesEffect Choice.supplied rely spec (createOutboxEvent m intent >>= next) s ps := by
  refine Table.takesEffect_create (fun c s' hsupply _ _ htaken => ?_)
    (fun c s' hrely hcurrent hgone => ?_) fun c s' new hsupply hrely _ hnew _ => ?_
  · rw [hfree, show outboxEvent.idOf (intent.row m c) = c.uuid from rfl,
      Table.find_supplied_outbox hsupply] at htaken
    simp at htaken
  · obtain ⟨k, hk, hnone⟩ := hgone
    obtain rfl : k = .message m := List.mem_singleton.mp hk
    exact hmissing s' hrely hcurrent (Table.find_eq_none_iff.mpr hnone)
  · subst hnew
    exact hnext c s' hrely (Table.notMem_supplied hsupply)

theorem takesEffect_createOwnIntent {new : SmsMessage} {intent : OutboxIntent}
    {next : OutboxEvent → Sql α}
    (hfree : ∀ s' id, outboxEvent.find (view s' ps) id = outboxEvent.find s' id)
    (hown : ∀ s', smsMessage.find (view s' ps) m = some new)
    (hnext : ∀ c s', rely s s' → '#' ∉ c.uuid.toList →
      TakesEffect Choice.supplied rely spec (next (intent.row m c)) s'
        (ps ++ [⟨.put (outboxEvent.wrap (intent.row m c)), none⟩])) :
    TakesEffect Choice.supplied rely spec (createOutboxEvent m intent >>= next) s ps :=
  takesEffect_createOutboxEvent hfree
    (fun s' _ _ hnone => absurd ((hown s').symm.trans hnone) (by simp)) hnext

end Rules

section Commits

variable {s : Database} {m : String} {row new : SmsMessage}

theorem aggregate_commit_message (hid : new.id = m) :
    aggregate (s.apply (.put (smsMessage.wrap new))) =
      Function.update (aggregate s) m { aggregate s m with message := some new } := by
  subst hid
  exact aggregate_put_message s new

theorem aggregate_commit_intent {event : OutboxEvent} (hid : new.id = m)
    (hevent : event.aggregateId = m) (hfresh : outboxEvent.find s event.id = none) :
    aggregate ((s.apply (.put (smsMessage.wrap new))).apply (.put (outboxEvent.wrap event))) =
      Function.update (aggregate s) m
        { aggregate s m with
          message := some new, outbox := (aggregate s m).outbox ++ [event] } := by
  subst hid
  have hfresh' : outboxEvent.find (s.apply (.put (smsMessage.wrap new))) event.id = none := by
    rw [Table.find_put_other s (by decide), hfresh]
  rw [aggregate_create_outbox hfresh', hevent, aggregate_put_message, Function.update_self,
    Function.update_idem]

theorem intended_of_fresh {intent : OutboxIntent} {c : Choice} (hc : '#' ∉ c.uuid.toList)
    (hfresh : outboxEvent.find s c.uuid = none) :
    Intended m intent (aggregate s m).outbox ((aggregate s m).outbox ++ [intent.row m c]) := by
  refine ⟨c, hc, fun event hevent hid => ?_, rfl⟩
  rw [mem_outbox_iff, hid, hfresh] at hevent
  simp at hevent

theorem aggregate_commit_attempt {old attempt : SmsAttempt} (hid : new.id = m)
    (hold : smsAttempt.find s attempt.id = some old)
    (hsame : attempt.smsMessageId = old.smsMessageId) (hm : attempt.smsMessageId = m) :
    aggregate ((s.apply (.put (smsAttempt.wrap attempt))).apply (.put (smsMessage.wrap new))) =
      Function.update (aggregate s) m
        { aggregate s m with
          message := some new
          attempts := smsAttempt.replace attempt (aggregate s m).attempts } := by
  subst hid
  rw [aggregate_put_message, aggregate_update_attempt hold hsame, hm, Function.update_self,
    Function.update_idem]

theorem aggregate_commit_attempt_intent {old attempt : SmsAttempt} {event : OutboxEvent}
    (hold : smsAttempt.find s attempt.id = some old)
    (hsame : attempt.smsMessageId = old.smsMessageId) (hm : attempt.smsMessageId = m)
    (hevent : event.aggregateId = m) (hfresh : outboxEvent.find s event.id = none) :
    aggregate ((s.apply (.put (smsAttempt.wrap attempt))).apply
        (.put (outboxEvent.wrap event))) =
      Function.update (aggregate s) m
        { aggregate s m with
          attempts := smsAttempt.replace attempt (aggregate s m).attempts
          outbox := (aggregate s m).outbox ++ [event] } := by
  have hfresh' : outboxEvent.find (s.apply (.put (smsAttempt.wrap attempt))) event.id = none := by
    rw [Table.find_put_other s (by decide), hfresh]
  rw [aggregate_create_outbox hfresh', hevent, aggregate_update_attempt hold hsame, hm,
    Function.update_self, Function.update_idem]

theorem aggregate_commit_resolution {resolution : SmsAttemptResolution} (hid : new.id = m)
    (hm : resolution.smsMessageId = m)
    (hfresh : smsAttemptResolution.find s resolution.smsAttemptId = none) :
    aggregate ((s.apply (.put (smsMessage.wrap new))).apply
        (.put (smsAttemptResolution.wrap resolution))) =
      Function.update (aggregate s) m
        { aggregate s m with
          message := some new
          resolutions := (aggregate s m).resolutions ++ [resolution] } := by
  subst hid
  have hfresh' : smsAttemptResolution.find (s.apply (.put (smsMessage.wrap new)))
      resolution.smsAttemptId = none := by
    rw [Table.find_put_other s (by decide), hfresh]
  rw [aggregate_create_resolution hfresh', hm, aggregate_put_message, Function.update_self,
    Function.update_idem]

theorem own_message (hid : new.id = m) (s : Database) :
    smsMessage.find (view s [⟨.put (smsMessage.wrap new), some (smsMessage.wrap row)⟩]) m =
      some new := by
  simp [Table.find_put, hid]

theorem own_message_intent (hid : new.id = m) (event : OutboxEvent) (s : Database) :
    smsMessage.find (view s [⟨.put (smsMessage.wrap new), some (smsMessage.wrap row)⟩,
      ⟨.put (outboxEvent.wrap event), none⟩]) m = some new := by
  rw [view_cons, view_cons, view_nil, Table.find_put_other _ (by decide)]
  simp [Table.find_put, hid]

theorem outbox_under_message (s : Database) (id : String) :
    outboxEvent.find (view s [⟨.put (smsMessage.wrap new), some (smsMessage.wrap row)⟩]) id =
      outboxEvent.find s id := by
  rw [view_cons, view_nil, Table.find_put_other _ (by decide)]

variable {source : SmsStatus → Bool} {target : SmsStatus} {data : SmsMessage → SmsMessage}
  {now : Int}

theorem moved_of_commit (hid : new.id = m) (hguard : source row.status)
    (hnew : new = { data row with status := target, updatedAt := now })
    (hcurrent : Current s [⟨.put (smsMessage.wrap new), some (smsMessage.wrap row)⟩]) :
    Changes m (Moved m source target data none) s
      (view s [⟨.put (smsMessage.wrap new), some (smsMessage.wrap row)⟩]) := by
  have hrow := (Table.current_update.mp hcurrent).1
  rw [smsMessage_idOf, hid] at hrow
  exact ⟨_, ⟨row, now, _, hrow, hguard, rfl, by rw [← hnew]⟩, aggregate_commit_message hid⟩

theorem moved_of_commit_intent {intent : OutboxIntent} {c : Choice} (hid : new.id = m)
    (hguard : source row.status)
    (hnew : new = { data row with status := target, updatedAt := now })
    (hc : '#' ∉ c.uuid.toList)
    (hcurrent : Current s [⟨.put (smsMessage.wrap new), some (smsMessage.wrap row)⟩,
      ⟨.put (outboxEvent.wrap (intent.row m c)), none⟩]) :
    Changes m (Moved m source target data (some intent)) s
      (view s [⟨.put (smsMessage.wrap new), some (smsMessage.wrap row)⟩,
        ⟨.put (outboxEvent.wrap (intent.row m c)), none⟩]) := by
  obtain ⟨hrow, hrest⟩ := Table.current_update.mp hcurrent
  have hfresh := (Table.current_create.mp hrest).1
  rw [Table.find_put_other s (by decide)] at hfresh
  rw [smsMessage_idOf, hid] at hrow
  exact ⟨_, ⟨row, now, _, hrow, hguard, intended_of_fresh hc hfresh, by rw [← hnew]⟩,
    aggregate_commit_intent hid rfl hfresh⟩

end Commits

/-- The answer `message` of a call that has changed the message. -/
def Answers (m : String) (message : LifecycleSmsMessage) (s : Database) : Prop :=
  ∃ row, smsMessage.find s m = some row ∧ message = lifecycleSelect row

def beginProcessingSpec (m : String) (s : Database)
    (r : Except Failure BeginProcessingResult) (s' : Database) : Prop :=
  match r with
  | .ok (.started message) =>
      Changes m (Moved m beginProcessingFrom.contains .processing id none) s s' ∧
        Answers m message s'
  | .ok .notStartable => s' = s ∧ ∀ row, smsMessage.find s m = some row →
      beginProcessingFrom.contains row.status = false
  | .error _ => False

def recoverCandidateSpec (m : String) (s : Database) (r : Except Failure Bool)
    (s' : Database) : Prop :=
  match r with
  | .ok true =>
      Changes m (Moved m (· = .processing) .retryScheduled id (some (processingRecovered m))) s s'
  | .ok false => s' = s
  | .error _ => False

/-- An attempt is reserved for the message. -/
def Reserved (m providerName attemptId : String) (A A' : Aggregate) : Prop :=
  ∃ row now c, A.message = some row ∧ row.status = .processing ∧ c.uuid = attemptId ∧
    A' = { A with
      message := some { row with
        status := .awaitingProviderResult
        selectedProvider := some providerName
        deliveryAttempts := row.deliveryAttempts + 1
        updatedAt := now }
      attempts := A.attempts ++ [reservation m providerName c] }

def reserveProviderAttemptSpec (m providerName : String) (s : Database)
    (r : Except Failure ReserveProviderAttemptResult) (s' : Database) : Prop :=
  match r with
  | .ok (.reserved attemptId) => Changes m (Reserved m providerName attemptId) s s' ∧
      smsAttempt.find s attemptId = none
  | .ok .notReservable => s' = s
  | .error _ => False

/-- The observed result is recorded against its reservation. -/
def Finalized (m attemptId : String) (input : FinalizeProviderAttemptInput)
    (A A' : Aggregate) : Prop :=
  ∃ old, old ∈ A.attempts ∧ old.id = attemptId ∧ old.outcome = .reserved ∧
    match input with
    | .accepted providerMessageId => ∃ row now, A.message = some row ∧
        row.status = .awaitingProviderResult ∧
        A' = { A with
          message := some { row with
            status := .sent, providerMessageId := some providerMessageId, updatedAt := now }
          attempts := smsAttempt.replace (input.record old) A.attempts }
    | .failed true _ _ _ => ∃ delayMs events', isPositiveInteger delayMs ∧
        Intended m (ambiguousOutcomeExpiryScheduled m delayMs) A.outbox events' ∧
        A' = { A with
          attempts := smsAttempt.replace (input.record old) A.attempts
          outbox := events' }
    | .failed false _ _ _ => ∃ row now, A.message = some row ∧
        row.status = .awaitingProviderResult ∧
        A' = { A with
          message := some { row with status := .processing, updatedAt := now }
          attempts := smsAttempt.replace (input.record old) A.attempts }

/-- Why `finalizeProviderAttempt` rejects: there is no such reservation, the
message is no longer waiting or not there, or the expiry is not a positive
integer. -/
def FinalizeRefused (m attemptId : String) (input : FinalizeProviderAttemptInput)
    (s : Database) : Prop :=
  (∀ row, smsAttempt.find s attemptId = some row →
    ¬(row.smsMessageId = m ∧ row.outcome = .reserved)) ∨
  (∀ row, smsMessage.find s m = some row → row.status ≠ .awaitingProviderResult) ∨
  ∃ isRetryable errorMessage delayMs,
    input = .failed true isRetryable errorMessage delayMs ∧
      delayMs.filter isPositiveInteger = none

def finalizeProviderAttemptSpec (m attemptId : String) (input : FinalizeProviderAttemptInput)
    (s : Database) (r : Except Failure Unit) (s' : Database) : Prop :=
  match r with
  | .ok _ => Changes m (Finalized m attemptId input) s s'
  | .error _ => s' = s ∧ FinalizeRefused m attemptId input s

/-- A decision about an attempt of the message is applied and recorded. -/
def Resolved (m attemptId : String) (input : ResolveTwilioAttemptInput) (A A' : Aggregate) :
    Prop :=
  ∃ row c c', A.message = some row ∧ row.status = .awaitingProviderResult ∧
    (∃ attempt ∈ A.attempts, attempt.id = attemptId ∧ attempt.provider = "twilio") ∧
    A' = { A with
      message := some (input.apply c row)
      resolutions := A.resolutions ++ [input.row m attemptId c'] }

def resolveTwilioAttemptSpec (m attemptId : String) (input : ResolveTwilioAttemptInput)
    (s : Database) (r : Except Failure ResolveTwilioAttemptResult) (s' : Database) : Prop :=
  match r with
  | .ok (.resolved message) => Changes m (Resolved m attemptId input) s s' ∧
      smsAttemptResolution.find s attemptId = none ∧ Answers m message s'
  | .ok (.alreadyResolved message) => s' = s ∧ Answers m message s ∧
      ∃ row, smsAttemptResolution.find s attemptId = some row ∧ matchesResolution row input
  | .ok _ => s' = s
  | .error _ => s' = s

def guardedTransitionSpec (m : String) (target : SmsStatus) (data : SmsMessage → SmsMessage)
    (intent : Option OutboxIntent) (s : Database)
    (r : Except Failure LifecycleSmsMessage) (s' : Database) : Prop :=
  match r with
  | .ok message => Changes m (Moved m (isValidTransition · target) target data intent) s s' ∧
      Answers m message s'
  | .error _ => s' = s

def scheduleRetrySpec (m : String) (opts : ScheduleRetryOptions) :
    Database → Except Failure LifecycleSmsMessage → Database → Prop :=
  guardedTransitionSpec m .retryScheduled opts.data (some (retryScheduled m opts.delayMs))

/-- The row data of a message with an error. -/
def withError (lastError : String) (row : SmsMessage) : SmsMessage :=
  { row with lastError := some lastError }

def markPermanentProviderFailureSpec (m : String) (status : PermanentProviderFailureStatus)
    (lastError : String) : Database → Except Failure LifecycleSmsMessage → Database → Prop :=
  guardedTransitionSpec m status.status (withError lastError) none

def markFatalFailureSpec (m lastError : String) :
    Database → Except Failure LifecycleSmsMessage → Database → Prop :=
  guardedTransitionSpec m .fatalFailure (withError lastError) (some (deadLettered m))

/-- The row data of an expired ambiguous outcome. -/
def ambiguousOutcomeExpired (row : SmsMessage) : SmsMessage :=
  { row with lastError := some "AMBIGUOUS_OUTCOME_EXPIRED" }

def expireAmbiguousOutcomeSpec (m : String) (s : Database)
    (r : Except Failure ExpireAmbiguousOutcomeResult) (s' : Database) : Prop :=
  match r with
  | .ok .expired =>
      Changes m
        (Moved m (· = .awaitingProviderResult) .undelivered ambiguousOutcomeExpired none) s s'
  | .ok .notAwaitingProviderResult => s' = s ∧ ∀ row, smsMessage.find s m = some row →
      row.status ≠ .awaitingProviderResult
  | .error _ => False

/-- The row data of a requeued message. -/
def retryBudgetRestored (row : SmsMessage) : SmsMessage :=
  { row with retryRounds := 0, lastError := none }

def resetForRequeueSpec (m : String) (s : Database)
    (r : Except Failure ResetForRequeueResult) (s' : Database) : Prop :=
  match r with
  | .ok (.requeued message) =>
      Changes m (Moved m (· = .fatalFailure) .retryScheduled retryBudgetRestored
        (some (requeued m))) s s' ∧ Answers m message s'
  | .ok _ => s' = s
  | .error _ => False

def applyDeliveryReportSpec (input : ApplyDeliveryReportInput) (s : Database)
    (r : Except Failure ApplyDeliveryReportResult) (s' : Database) : Prop :=
  match r with
  | .ok (.applied message) =>
      Changes message.id (Moved message.id (isValidTransition · input.terminalStatus.status)
        input.terminalStatus.status id none) s s' ∧ Answers message.id message s'
  | .ok _ => s' = s
  | .error _ => s' = s

/-- The message is created. -/
def Created (call : CreateOrGetMessage) (m : String) (A A' : Aggregate) : Prop :=
  ∃ c events', A.message = none ∧ c.uuid = m ∧ '#' ∉ m.toList ∧
    Intended m (messageQueued m) A.outbox events' ∧
    A' = { A with message := some (call.message c), outbox := events' }

def createOrGetMessageSpec (call : CreateOrGetMessage) (s : Database)
    (r : Except Failure CreateOrGetSmsMessageResult) (s' : Database) : Prop :=
  let key := call.input.idempotencyKey
  match r with
  | .ok ⟨true, message⟩ => (isTime call.retentionExpiresAt && isTime call.expiresAt) ∧
      Changes message.id (Created call message.id) s s' ∧
      (∀ owner, smsIdempotencyKey.find s key = some owner → owner.expiresAt ≤ call.now) ∧
      ∃ c, ∀ k, smsIdempotencyKey.find s' k =
        if k = key then some (call.owner message.id c) else smsIdempotencyKey.find s k
  | .ok ⟨false, message⟩ => s' = s ∧ ∃ owner, smsIdempotencyKey.find s key = some owner ∧
      call.now < owner.expiresAt ∧ smsMessage.find s owner.smsMessageId = some message
  | .error e => s' = s ∧
      (e = .invalidDate ∧ !(isTime call.retentionExpiresAt && isTime call.expiresAt) ∨
        e = .uniqueViolation ∧ (smsIdempotencyKey.find s key).isSome)

def fetchUnpublishedOutboxSpec (limit : Nat) (s : Database)
    (r : Except Failure (List UnpublishedOutboxEvent)) (s' : Database) : Prop :=
  match r with
  | .ok events => s' = s ∧ ∃ c, events = unpublished limit c s
  | .error _ => False

/-- The outbox row once its job has been added. -/
def published (c : Choice) (row : OutboxEvent) : OutboxEvent :=
  { row with publishedAt := some c.now, updatedAt := c.now }

/-- The outbox row after a failed publication. -/
def publishFailed (error : String) (c : Choice) (row : OutboxEvent) : OutboxEvent :=
  { row with retryCount := row.retryCount + 1, lastError := some error, updatedAt := c.now }

/-- The outbox row is updated in its place. -/
def updateOutboxEventSpec (id : String) (data : Choice → OutboxEvent → OutboxEvent)
    (s : Database) (r : Except Failure Unit) (s' : Database) : Prop :=
  match r with
  | .ok _ => ∃ row c, outboxEvent.find s id = some row ∧
      aggregate s' = Function.update (aggregate s) row.aggregateId
        { aggregate s row.aggregateId with
          outbox := outboxEvent.replace (data c row) (aggregate s row.aggregateId).outbox }
  | .error _ => s' = s

/-- What the repository methods rely on between their statements: attempts and
resolutions stay, under the message and the provider they were made for. -/
def Persists (s s' : Database) : Prop :=
  (∀ id row, smsAttempt.find s id = some row → ∃ row', smsAttempt.find s' id = some row' ∧
    row'.smsMessageId = row.smsMessageId ∧ row'.provider = row.provider) ∧
  ∀ id row, smsAttemptResolution.find s id = some row →
    smsAttemptResolution.find s' id = some row

theorem Persists.trans {s₁ s₂ s₃ : Database} (h : Persists s₁ s₂) (h' : Persists s₂ s₃) :
    Persists s₁ s₃ := by
  refine ⟨fun id row hrow => ?_, fun id row hrow => h'.2 id row (h.2 id row hrow)⟩
  obtain ⟨row₂, hrow₂, hm₂, hp₂⟩ := h.1 id row hrow
  obtain ⟨row₃, hrow₃, hm₃, hp₃⟩ := h'.1 id row₂ hrow₂
  exact ⟨row₃, hrow₃, hm₃.trans hm₂, hp₃.trans hp₂⟩

section Effects

variable {rely : Database → Database → Prop} {s : Database}

theorem takesEffect_beginProcessing (m : String) :
    TakesEffect Choice.supplied rely (beginProcessingSpec m) (beginProcessing m) s [] := by
  refine Table.takesEffect_updateMany (fun s' _ _ hmiss => ?_)
    (fun c s' row new _ _ _ _ hguard hnew hid => ?_) fun _ _ => rfl
  · exact takesEffect_done_nil _ ⟨rfl, hmiss⟩
  · refine takesEffect_readOwn (own_message hid) fun s'' _ _ => ?_
    refine takesEffect_commit _ (by simp) fun s₃ _ hcurrent => ?_
    exact ⟨moved_of_commit hid hguard hnew hcurrent, new, own_message hid s₃, rfl⟩

theorem takesEffect_recoverCandidate (cutoff : Int) (m : String) :
    TakesEffect Choice.supplied rely (recoverCandidateSpec m) (recoverCandidate cutoff m) s
      [] := by
  refine Table.takesEffect_updateMany (fun s' _ _ _ => ?_)
    (fun c s' row new _ _ _ _ hguard hnew hid => ?_) fun _ _ => rfl
  · exact takesEffect_done_nil _ rfl
  · refine takesEffect_createOwnIntent outbox_under_message (own_message hid)
      fun c' s'' _ hc' => ?_
    refine takesEffect_commit _ (by simp) fun s₃ _ hcurrent => ?_
    rw [Bool.and_eq_true] at hguard
    exact moved_of_commit_intent hid hguard.1 hnew hc' hcurrent

theorem takesEffect_reserveProviderAttempt_refusing (m providerName : String) :
    TakesEffect Choice.supplied rely
      (fun s r s' => reserveProviderAttemptSpec m providerName s r s' ∧
        (r = .ok .notReservable → ∀ row, smsMessage.find s m = some row →
          row.status ≠ .processing))
      (reserveProviderAttempt m providerName) s [] := by
  refine Table.takesEffect_updateMany (fun s' _ _ hmiss => ?_)
    (fun c s' row new _ _ _ _ hguard hnew hid => ?_) fun _ _ => rfl
  · exact takesEffect_done_nil _ ⟨rfl, fun _ row hrow => of_decide_eq_false (hmiss row hrow)⟩
  · refine Table.takesEffect_create (fun c' s'' hsupply _ _ htaken => ?_)
      (fun c' s'' _ _ hgone => ?_) fun c' s'' attempt _ _ _ hattempt _ => ?_
    · rw [List.nil_append, view_cons, view_nil, Table.find_put_other _ (by decide),
        show smsAttempt.idOf (reservation m providerName c') = c'.uuid from rfl,
        Table.find_supplied_attempt hsupply] at htaken
      simp at htaken
    · obtain ⟨k, hk, hnone⟩ := hgone
      obtain rfl : k = .message m := List.mem_singleton.mp hk
      have hmissing := Table.find_eq_none_iff (t := smsMessage).mpr hnone
      exact absurd ((own_message hid s'').symm.trans hmissing) (by simp)
    · refine takesEffect_commit _ (by simp) fun s₃ _ hcurrent => ?_
      obtain ⟨hrow, hrest⟩ := Table.current_update.mp hcurrent
      have hfresh := (Table.current_create.mp hrest).1
      have hid' : new.id = m := hid
      have hmessage : attempt.smsMessageId = new.id := by rw [hattempt, hid']; rfl
      have haggregate : aggregate (view s₃
          [⟨.put (smsMessage.wrap new), some (smsMessage.wrap row)⟩,
            ⟨.put (smsAttempt.wrap attempt), none⟩]) = Function.update (aggregate s₃) m
          { aggregate s₃ m with
            message := some new, attempts := (aggregate s₃ m).attempts ++ [attempt] } := by
        rw [view_cons, view_cons, view_nil, aggregate_create_attempt hfresh, hmessage,
          aggregate_put_message, Function.update_self, Function.update_idem, hid']
      rw [Table.find_put_other _ (by decide)] at hfresh
      rw [hid] at hrow
      refine ⟨⟨⟨_, ⟨row, c.now, c', hrow, by simpa using hguard, ?_, ?_⟩, haggregate⟩, hfresh⟩,
        fun h => by cases h⟩
      · rw [hattempt]; rfl
      · rw [← hnew, hattempt]

theorem takesEffect_reserveProviderAttempt (m providerName : String) :
    TakesEffect Choice.supplied rely (reserveProviderAttemptSpec m providerName)
      (reserveProviderAttempt m providerName) s [] :=
  (takesEffect_reserveProviderAttempt_refusing m providerName).mono fun _ _ _ h => h.1

theorem takesEffect_leaveAwaiting {spec : Database → Except Failure Unit → Database → Prop}
    {ps : List (Pending Row.key)} {m : String} {target : SmsStatus}
    {data : Choice → SmsMessage → SmsMessage} (hid : ∀ c row, (data c row).id = row.id)
    (hgone : ∀ s', rely s s' → Current s' ps →
      (∀ row, smsMessage.find (view s' ps) m = some row → row.status ≠ .awaitingProviderResult) →
      spec s' (.error (.concurrentModification m .awaitingProviderResult target)) s')
    (hcommit : ∀ c row s', row.status = .awaitingProviderResult → (data c row).id = m →
      Current s' (ps ++ [⟨.put (smsMessage.wrap (data c row)), some (smsMessage.wrap row)⟩]) →
      spec s' (.ok ()) (view s'
        (ps ++ [⟨.put (smsMessage.wrap (data c row)), some (smsMessage.wrap row)⟩]))) :
    TakesEffect Choice.supplied rely spec (leaveAwaiting m target data) s ps := by
  refine Table.takesEffect_updateMany (fun s' hrely hcurrent hmiss => ?_)
    (fun c s' row new _ _ _ _ hguard hnew hnewid => ?_) hid
  · exact takesEffect_abort _ (hgone s' hrely hcurrent fun row hrow => by
      simpa using hmiss row hrow)
  · subst hnew
    exact takesEffect_commit _ (by simp) fun s'' _ hcurrent =>
      hcommit c row s'' (by simpa using hguard) hnewid hcurrent

theorem takesEffect_finalizeProviderAttempt (m attemptId : String)
    (input : FinalizeProviderAttemptInput) :
    TakesEffect Choice.supplied rely (finalizeProviderAttemptSpec m attemptId input)
      (finalizeProviderAttempt m attemptId input) s [] := by
  refine Table.takesEffect_updateMany (fun s' _ _ hmiss => ?_)
    (fun c s' old new _ _ _ _ hguard hnew hid => ?_) fun _ row => by cases input <;> rfl
  · exact takesEffect_abort _ ⟨rfl, Or.inl fun row hrow => by simpa using hmiss row hrow⟩
  · simp only [Bool.and_eq_true, decide_eq_true_eq] at hguard
    obtain ⟨hm, hreserved⟩ := hguard
    have hsame : new.smsMessageId = old.smsMessageId := by
      rw [hnew]
      cases input <;> rfl
    have hidOld : new.id = old.id := by
      rw [hnew]
      cases input <;> rfl
    have hidNew : new.id = attemptId := hid
    have hreservation : ∀ s₃, smsAttempt.find s₃ new.id = some old →
        old ∈ (aggregate s₃ m).attempts ∧ old.id = attemptId ∧ old.outcome = .reserved := by
      intro s₃ hold
      rw [hidOld] at hold
      exact ⟨mem_attempts_iff.mpr ⟨hold, hm⟩, hidOld.symm.trans hidNew, hreserved⟩
    -- the two definitive results differ only in what the message becomes
    have hleave : ∀ target (data : Choice → SmsMessage → SmsMessage),
        (∀ c row, (data c row).id = row.id) →
        (∀ c row A, A.message = some row → row.status = .awaitingProviderResult →
          old ∈ A.attempts → Finalized m attemptId input A { A with
            message := some (data c row), attempts := smsAttempt.replace new A.attempts }) →
        TakesEffect Choice.supplied rely (finalizeProviderAttemptSpec m attemptId input)
          (leaveAwaiting m target data) s'
          [⟨.put (smsAttempt.wrap new), some (smsAttempt.wrap old)⟩] := by
      intro target data hdata hfinal
      refine takesEffect_leaveAwaiting hdata (fun s'' _ _ hgone => ?_)
        fun c' row s'' hrow hidRow hcurrent => ?_
      · refine ⟨rfl, Or.inr (Or.inl fun row hrow => hgone row ?_)⟩
        rw [view_cons, view_nil, Table.find_put_other _ (by decide), hrow]
      · obtain ⟨hold, hrest⟩ := Table.current_update.mp hcurrent
        have hmessage := (Table.current_update.mp hrest).1
        rw [Table.find_put_other _ (by decide), smsMessage_idOf, hidRow] at hmessage
        exact ⟨_, hfinal c' row (aggregate s'' m) hmessage hrow (hreservation s'' hold).1,
          aggregate_commit_attempt hidRow hold hsame (hsame.trans hm)⟩
    cases input with
    | accepted providerMessageId =>
        refine hleave _ _ (fun _ _ => rfl) fun c' row A hmessage hrow hmem => ?_
        exact ⟨old, hmem, hidOld.symm.trans hidNew, hreserved, row, c'.now, hmessage, hrow,
          by rw [hnew]⟩
    | failed isAmbiguous isRetryable errorMessage delayMs =>
        cases isAmbiguous with
        | true =>
            cases hdelay : delayMs.filter isPositiveInteger with
            | none =>
                simp only [Nat.one_ne_zero, if_false, hdelay]
                exact takesEffect_abort _
                  ⟨rfl, Or.inr (Or.inr ⟨isRetryable, errorMessage, delayMs, rfl, hdelay⟩)⟩
            | some delay =>
                simp only [Nat.one_ne_zero, if_false, hdelay]
                refine takesEffect_createOutboxEvent (fun s'' id => ?_)
                  (fun s'' _ _ hnone => ?_) fun c' s'' _ hc' => ?_
                · rw [List.nil_append, view_cons, view_nil, Table.find_put_other _ (by decide)]
                · rw [List.nil_append, view_cons, view_nil,
                    Table.find_put_other _ (by decide)] at hnone
                  exact ⟨rfl, Or.inr (Or.inl fun row hrow => by simp [hnone] at hrow)⟩
                · refine takesEffect_commit _ (by simp) fun s₃ _ hcurrent => ?_
                  obtain ⟨hold, hrest⟩ := Table.current_update.mp hcurrent
                  have hfresh := (Table.current_create.mp hrest).1
                  rw [Table.find_put_other _ (by decide)] at hfresh
                  obtain ⟨hmem, hattempt, houtcome⟩ := hreservation s₃ hold
                  refine ⟨_, ⟨old, hmem, hattempt, houtcome, delay, _, ?_,
                    intended_of_fresh hc' hfresh, by rw [← hnew]⟩,
                    aggregate_commit_attempt_intent hold hsame (hsame.trans hm) rfl hfresh⟩
                  exact (Option.filter_eq_some_iff.mp hdelay).2
        | false =>
            refine hleave _ _ (fun _ _ => rfl) fun c' row A hmessage hrow hmem => ?_
            exact ⟨old, hmem, hidOld.symm.trans hidNew, hreserved, row, c'.now, hmessage, hrow,
              by rw [hnew]⟩

/-- The rest of a guarded transition once the status that was read may be left. -/
def guardedUpdate (m : String) (source target : SmsStatus) (data : SmsMessage → SmsMessage)
    (intent : Option OutboxIntent) : Sql LifecycleSmsMessage := do
  let updated ← smsMessage.updateMany m (fun row => row.status = source)
    fun c row => { data row with status := target, updatedAt := c.now }
  if updated = 0 then
    .abort (.concurrentModification m source target)
  else
    match intent with
    | some intent =>
        let _ ← createOutboxEvent m intent
        readLifecycle m
    | none => readLifecycle m

/-- The first statement of a guarded transition reads the message. -/
def guardedNext (m : String) (target : SmsStatus) (data : SmsMessage → SmsMessage)
    (intent : Option OutboxIntent) : Option SmsMessage → Sql LifecycleSmsMessage
  | none => .abort (.messageNotFound m)
  | some current =>
      if !isValidTransition current.status target then
        .abort (.invalidTransition current.status target)
      else guardedUpdate m current.status target data intent

theorem guardedTransition_eq (m : String) (target : SmsStatus) (data : SmsMessage → SmsMessage)
    (intent : Option OutboxIntent) : guardedTransition m target data intent =
      .stmt (fun _ _ => []) fun _ s => guardedNext m target data intent (smsMessage.find s m) := by
  refine congrArg (Tx.stmt _) (funext fun c => funext fun s => ?_)
  simp only [Tx.bind_eq, Tx.done_bind]
  cases smsMessage.find s m <;> rfl

theorem takesEffect_guardedUpdate {m : String} {source target : SmsStatus}
    {data : SmsMessage → SmsMessage} {intent : Option OutboxIntent}
    (hvalid : isValidTransition source target) (hdata : ∀ row, (data row).id = row.id) :
    TakesEffect Choice.supplied rely
      (fun s r s' => guardedTransitionSpec m target data intent s r s' ∧
        ∀ e, r = .error e → e = .concurrentModification m source target ∧
          ∀ row, smsMessage.find s m = some row → row.status ≠ source)
      (guardedUpdate m source target data intent) s [] := by
  refine Table.takesEffect_updateMany
    (fun s' _ _ hmiss => takesEffect_abort _ ⟨rfl, fun e he => ⟨(Except.error.inj he).symm,
      fun row hrow => of_decide_eq_false (hmiss row hrow)⟩⟩)
    (fun c s' row new _ _ _ _ hguard hnew hid => ?_) fun _ row => hdata row
  have hsource : isValidTransition row.status target := by
    simpa [of_decide_eq_true hguard] using hvalid
  cases intent with
  | none =>
      rw [← Tx.bind_done (readLifecycle m)]
      refine takesEffect_readOwn (own_message hid) fun s₃ _ _ => ?_
      refine takesEffect_commit _ (by simp) fun s₄ _ hcurrent => ?_
      exact ⟨⟨moved_of_commit hid hsource hnew hcurrent, new, own_message hid s₄, rfl⟩,
        fun e he => by cases he⟩
  | some intent =>
      refine takesEffect_createOwnIntent outbox_under_message (own_message hid)
        fun c' s₃ _ hc' => ?_
      rw [← Tx.bind_done (readLifecycle m)]
      refine takesEffect_readOwn (own_message_intent hid _) fun s₄ _ _ => ?_
      refine takesEffect_commit _ (by simp) fun s₅ _ hcurrent => ?_
      exact ⟨⟨moved_of_commit_intent hid hsource hnew hc' hcurrent, new,
        own_message_intent hid _ s₅, rfl⟩, fun e he => by cases he⟩

theorem takesEffect_guardedTransition_rejecting (m : String) (target : SmsStatus)
    (data : SmsMessage → SmsMessage) (intent : Option OutboxIntent)
    (hdata : ∀ row, (data row).id = row.id) :
    TakesEffect Choice.supplied rely
      (fun s r s' => guardedTransitionSpec m target data intent s r s' ∧
        ∀ e, r = .error e → ∀ source, (∀ status, isValidTransition status target ↔
          status = source) → ∀ row, smsMessage.find s m = some row → row.status ≠ source)
      (guardedTransition m target data intent) s [] := by
  rw [guardedTransition_eq]
  intro c s' _ _ _
  change TakesEffect Choice.supplied rely _
    (guardedNext m target data intent (smsMessage.find s' m)) s' []
  cases hfind : smsMessage.find s' m with
  | none => exact takesEffect_abort _ ⟨rfl, fun _ _ _ _ row hrow => by simp [hfind] at hrow⟩
  | some current =>
      cases hvalid : isValidTransition current.status target with
      | false =>
          simp only [guardedNext, hvalid, Bool.not_false, if_true]
          refine takesEffect_abort _ ⟨rfl, fun _ _ source hsole row hrow hstatus => ?_⟩
          obtain rfl := Option.some.inj (hfind.symm.trans hrow)
          simp [(hsole current.status).mpr hstatus] at hvalid
      | true =>
          simp only [guardedNext, hvalid, Bool.not_true, Bool.false_eq_true, if_false]
          refine (takesEffect_guardedUpdate hvalid hdata).mono fun s r s' h => ⟨h.1, ?_⟩
          intro e he source hsole
          obtain rfl := (hsole current.status).mp hvalid
          exact (h.2 e he).2

theorem takesEffect_guardedTransition (m : String) (target : SmsStatus)
    (data : SmsMessage → SmsMessage) (intent : Option OutboxIntent)
    (hdata : ∀ row, (data row).id = row.id) :
    TakesEffect Choice.supplied rely (guardedTransitionSpec m target data intent)
      (guardedTransition m target data intent) s [] :=
  (takesEffect_guardedTransition_rejecting m target data intent hdata).mono fun _ _ _ h => h.1

theorem takesEffect_scheduleRetry (m : String) (opts : ScheduleRetryOptions) :
    TakesEffect Choice.supplied rely (scheduleRetrySpec m opts) (scheduleRetry m opts) s [] :=
  takesEffect_guardedTransition m _ opts.data _ fun _ => rfl

theorem takesEffect_markPermanentProviderFailure (m : String)
    (status : PermanentProviderFailureStatus) (lastError : String) :
    TakesEffect Choice.supplied rely (markPermanentProviderFailureSpec m status lastError)
      (markPermanentProviderFailure m status lastError) s [] :=
  takesEffect_guardedTransition m _ (withError lastError) _ fun _ => rfl

theorem takesEffect_markFatalFailure (m lastError : String) :
    TakesEffect Choice.supplied rely (markFatalFailureSpec m lastError)
      (markFatalFailure m lastError) s [] :=
  takesEffect_guardedTransition m _ (withError lastError) _ fun _ => rfl

theorem takesEffect_expireAmbiguousOutcome (m : String) :
    TakesEffect Choice.supplied rely (expireAmbiguousOutcomeSpec m)
      (expireAmbiguousOutcome m) s [] := by
  refine Table.takesEffect_updateMany (fun s' _ _ hmiss => ?_)
    (fun c s' row new _ _ _ _ hguard hnew hid => ?_) fun _ _ => rfl
  · exact takesEffect_done_nil _ ⟨rfl, fun row hrow => by simpa using hmiss row hrow⟩
  · refine takesEffect_commit _ (by simp) fun s'' _ hcurrent => ?_
    exact moved_of_commit hid hguard hnew hcurrent

theorem takesEffect_resetForRequeue (m : String) :
    TakesEffect Choice.supplied rely (resetForRequeueSpec m) (resetForRequeue m) s [] := by
  refine takesEffect_read fun _ s' _ _ => ?_
  cases smsMessage.find (view s' []) m with
  | none => exact takesEffect_done_nil _ rfl
  | some current =>
      by_cases hfatal : current.status = .fatalFailure
      · simp only [hfatal, ne_eq, not_true_eq_false, if_false]
        refine Table.takesEffect_updateMany (fun s'' _ _ _ => takesEffect_done_nil _ rfl)
          (fun c s'' row new _ _ _ _ hguard hnew hid => ?_) fun _ _ => rfl
        refine takesEffect_createOwnIntent outbox_under_message (own_message hid)
          fun c' s₃ _ hc' => ?_
        refine takesEffect_readOwn (own_message_intent hid _) fun s₄ _ _ => ?_
        refine takesEffect_commit _ (by simp) fun s₅ _ hcurrent => ?_
        exact ⟨moved_of_commit_intent hid hguard hnew hc' hcurrent, new,
          own_message_intent hid _ s₅, rfl⟩
      · simp only [ne_eq, hfatal, not_false_eq_true, if_true]
        exact takesEffect_done_nil _ rfl

theorem takesEffect_applyDeliveryReport (input : ApplyDeliveryReportInput) :
    TakesEffect Choice.supplied rely (applyDeliveryReportSpec input)
      (applyDeliveryReport input) s [] := by
  refine takesEffect_read fun c s' _ _ => ?_
  cases hfound : (unordered c SmsMessage.id (smsMessage.rows (view s' []) fun row =>
      row.providerMessageId = some input.providerMessageId)).head? with
  | none => exact takesEffect_done_nil _ rfl
  | some current =>
      by_cases hsame : isSameState current.status input.terminalStatus.status
      · simp only [hsame, if_true]
        exact takesEffect_readLifecycle (fun s'' _ _ _ => rfl) fun s'' row _ _ _ =>
          takesEffect_done_nil _ rfl
      · cases hvalid : isValidTransition current.status input.terminalStatus.status with
        | false =>
            simp only [hsame, hvalid, Bool.false_eq_true, if_false, Bool.not_false, if_true]
            exact takesEffect_done_nil _ rfl
        | true =>
            simp only [hsame, hvalid, Bool.false_eq_true, if_false, Bool.not_true]
            refine Table.takesEffect_updateMany (fun s'' _ _ _ => takesEffect_done_nil _ rfl)
              (fun c s'' row new _ _ _ _ hguard hnew hid => ?_) fun _ _ => rfl
            have hsource : isValidTransition row.status input.terminalStatus.status := by
              simpa [of_decide_eq_true hguard] using hvalid
            refine takesEffect_readOwn (own_message hid) fun s₃ _ _ => ?_
            refine takesEffect_commit _ (by simp) fun s₄ _ hcurrent => ?_
            exact ⟨moved_of_commit rfl hsource hnew hcurrent, new, own_message rfl s₄, rfl⟩

theorem takesEffect_answerExisting {m attemptId : String} {existing : SmsAttemptResolution}
    {input : ResolveTwilioAttemptInput} (hrely : ∀ s s', rely s s' → Persists s s')
    (hexisting : smsAttemptResolution.find s attemptId = some existing) :
    TakesEffect Choice.supplied rely (resolveTwilioAttemptSpec m attemptId input)
      (answerExisting m existing input) s [] := by
  unfold answerExisting
  split
  · rename_i hmatches
    refine takesEffect_readLifecycle (fun s' _ _ _ => rfl) fun s' row hs' _ hrow =>
      takesEffect_done_nil _ ?_
    exact ⟨rfl, ⟨row, hrow, rfl⟩, existing, (hrely _ _ hs').2 _ _ hexisting, hmatches⟩
  · exact takesEffect_done_nil _ rfl

theorem takesEffect_applyDecision {m attemptId : String} {attempt : SmsAttempt}
    {input : ResolveTwilioAttemptInput} (hrely : ∀ s s', rely s s' → Persists s s')
    (hattempt : smsAttempt.find s attemptId = some attempt)
    (hresolvable : isResolvable m attempt) :
    TakesEffect Choice.supplied rely (resolveTwilioAttemptSpec m attemptId input)
      (applyDecision m attemptId input) s [] := by
  refine Table.takesEffect_updateMany (fun s₁ _ _ _ => ?_)
    (fun c s₁ row new _ h₁ _ _ hguard hnew hid => ?_) fun _ row => by
      rcases input with _ | _ | _ <;> rfl
  · refine takesEffect_read fun _ s₂ _ _ => ?_
    cases hexisting : smsAttemptResolution.find (view s₂ []) attemptId with
    | none => exact takesEffect_done_nil _ rfl
    | some existing => exact takesEffect_answerExisting hrely hexisting
  · refine Table.takesEffect_create (fun _ _ _ _ _ _ => rfl) (fun _ _ _ _ _ => rfl)
      fun c' s₂ resolution _ h₂ _ hresolution _ => ?_
    have hown : ∀ s, smsMessage.find (view s
        [⟨.put (smsMessage.wrap new), some (smsMessage.wrap row)⟩,
          ⟨.put (smsAttemptResolution.wrap resolution), none⟩]) m = some new := by
      intro s
      rw [view_cons, view_cons, view_nil, Table.find_put_other _ (by decide)]
      simp [Table.find_put, show new.id = m from hid]
    refine takesEffect_readOwn hown fun s₃ h₃ _ => ?_
    refine takesEffect_commit _ (by simp) fun s₄ h₄ hcurrent => ?_
    obtain ⟨hrow, hrest⟩ := Table.current_update.mp hcurrent
    have hfresh := (Table.current_create.mp hrest).1
    rw [Table.find_put_other _ (by decide)] at hfresh
    rw [hid] at hrow
    have hpersists := ((hrely _ _ h₁).trans (hrely _ _ h₂)).trans
      ((hrely _ _ h₃).trans (hrely _ _ h₄))
    obtain ⟨attempt', hattempt', hm', hp'⟩ := hpersists.1 _ _ hattempt
    simp only [isResolvable, Bool.and_eq_true, decide_eq_true_eq] at hresolvable
    have hidAttempt : attempt'.id = attemptId := Table.idOf_of_find hattempt'
    refine ⟨⟨_, ⟨row, c, c', hrow, by simpa using hguard, ⟨attempt', ?_, hidAttempt, ?_⟩, ?_⟩,
      aggregate_commit_resolution hid (by rw [hresolution]; rfl) hfresh⟩, ?_, new, hown s₄, rfl⟩
    · rw [mem_attempts_iff, hidAttempt]
      exact ⟨hattempt', hm'.trans hresolvable.1.1⟩
    · exact hp'.trans hresolvable.1.2
    · rw [hnew, hresolution]
    · rw [hresolution] at hfresh
      exact hfresh

theorem takesEffect_resolveTwilioAttempt (m attemptId : String)
    (input : ResolveTwilioAttemptInput) (hrely : ∀ s s', rely s s' → Persists s s') :
    TakesEffect Choice.supplied rely (resolveTwilioAttemptSpec m attemptId input)
      (resolveTwilioAttempt m attemptId input) s [] := by
  refine takesEffect_assertValidTwilioResolution (fun s' => rfl) fun s' _ => ?_
  refine takesEffect_read fun _ s₁ _ _ => ?_
  cases smsMessage.find (view s₁ []) m with
  | none => exact takesEffect_done_nil _ rfl
  | some current =>
      refine takesEffect_read fun _ s₂ _ _ => ?_
      cases hexisting : smsAttemptResolution.find (view s₂ []) attemptId with
      | some existing => exact takesEffect_answerExisting hrely hexisting
      | none =>
          by_cases hstatus : current.status = .awaitingProviderResult
          · simp only [hstatus, ne_eq, not_true_eq_false, if_false]
            refine takesEffect_read fun _ s₃ _ _ => ?_
            cases hattempt : smsAttempt.find (view s₃ []) attemptId with
            | none => exact takesEffect_done_nil _ rfl
            | some attempt =>
                cases hresolvable : isResolvable m attempt with
                | false => simpa [hresolvable] using takesEffect_done_nil _ rfl
                | true =>
                    simp only [Option.any_some, hresolvable, Bool.not_true,
                      Bool.false_eq_true, if_false]
                    exact takesEffect_applyDecision hrely hattempt hresolvable
          · simp only [ne_eq, hstatus, not_false_eq_true, if_true]
            exact takesEffect_done_nil _ rfl

/-- The uncommitted writes before the inserts of `createOrGetMessage`: none, or the
removal of an owner that has expired. -/
def ExpiredRemoved (call : CreateOrGetMessage) (ps : List (Pending Row.key)) : Prop :=
  ps = [] ∨ ∃ old, old.key = call.input.idempotencyKey ∧ old.expiresAt ≤ call.now ∧
    ps = [⟨.delete (.idempotencyKey call.input.idempotencyKey),
      some (smsIdempotencyKey.wrap old)⟩]

namespace ExpiredRemoved

variable {call : CreateOrGetMessage} {ps : List (Pending Row.key)}

theorem find_other {α : Type} {t : Table α} (h : ExpiredRemoved call ps)
    (hname : TableName.smsIdempotencyKeys ≠ t.name) (s : Database) (id : String) :
    t.find (view s ps) id = t.find s id := by
  rcases h with rfl | ⟨old, _, _, rfl⟩
  · rfl
  · exact t.find_other s (w := .delete (.idempotencyKey _)) hname id

theorem aggregate_view (h : ExpiredRemoved call ps) (s : Database) :
    aggregate (view s ps) = aggregate s := by
  rcases h with rfl | ⟨old, _, _, rfl⟩
  · rfl
  · exact aggregate_of_idempotencyKey s (w := .delete (.idempotencyKey _)) rfl

theorem find_key (h : ExpiredRemoved call ps) (s : Database) {k : String}
    (hk : k ≠ call.input.idempotencyKey) :
    smsIdempotencyKey.find (view s ps) k = smsIdempotencyKey.find s k := by
  rcases h with rfl | ⟨old, _, _, rfl⟩
  · rfl
  · exact (smsIdempotencyKey.find_delete s _ k).trans (if_neg (Ne.symm hk))

theorem isSome (h : ExpiredRemoved call ps) {s : Database}
    (hsome : (smsIdempotencyKey.find (view s ps) call.input.idempotencyKey).isSome) :
    (smsIdempotencyKey.find s call.input.idempotencyKey).isSome := by
  rcases h with rfl | ⟨old, _, _, rfl⟩
  · exact hsome
  · have hnone := (smsIdempotencyKey.find_delete s call.input.idempotencyKey
      call.input.idempotencyKey).trans (if_pos rfl)
    rw [view_cons, view_nil] at hsome
    simp [show smsIdempotencyKey.find (s.apply (.delete
      (.idempotencyKey call.input.idempotencyKey))) _ = none from hnone] at hsome

theorem expired (h : ExpiredRemoved call ps) {s : Database} (hcurrent : Current s ps)
    (hfree : smsIdempotencyKey.find (view s ps) call.input.idempotencyKey = none) :
    ∀ owner, smsIdempotencyKey.find s call.input.idempotencyKey = some owner →
      owner.expiresAt ≤ call.now := by
  intro owner howner
  rcases h with rfl | ⟨old, hkey, hold, rfl⟩
  · rw [view_nil, howner] at hfree
    simp at hfree
  · have hfind : smsIdempotencyKey.find s call.input.idempotencyKey = some old :=
      Table.find_eq_some_iff.mpr hcurrent.1
    rw [howner] at hfind
    exact Option.some.inj hfind ▸ hold

end ExpiredRemoved

theorem takesEffect_createMessage {call : CreateOrGetMessage} {ps : List (Pending Row.key)}
    (h : ExpiredRemoved call ps) :
    TakesEffect Choice.supplied rely (createOrGetMessageSpec call) (createMessage call) s ps := by
  refine takesEffect_require (fun hnot => ⟨rfl, Or.inl ⟨rfl, by simp [hnot]⟩⟩)
    fun hretention => ?_
  refine Table.takesEffect_create (fun c s' hsupply _ _ htaken => ?_)
    (fun c s' _ _ hgone => ?_) fun c s₁ message hsupply _ _ hmessage _ => ?_
  · rw [h.find_other (by decide), show smsMessage.idOf (call.message c) = c.uuid from rfl,
      Table.find_supplied_message hsupply] at htaken
    simp at htaken
  · obtain ⟨k, hk, _⟩ := hgone
    exact absurd hk List.not_mem_nil
  have hown : ∀ s, smsMessage.find (view s (ps ++ [⟨.put (smsMessage.wrap message), none⟩]))
      message.id = some message := by
    intro s
    simp [view_append, Table.find_put]
  refine takesEffect_createOwnIntent (fun s' id => ?_) hown fun c' s₂ _ hc' => ?_
  · rw [view_append, view_cons, view_nil, Table.find_put_other _ (by decide),
      h.find_other (by decide)]
  refine takesEffect_require (fun hnot => ⟨rfl, Or.inl ⟨rfl, by simp [hnot]⟩⟩)
    fun hexpires => ?_
  refine Table.takesEffect_create (fun c'' s₃ _ _ _ htaken => ?_)
    (fun c'' s₃ _ _ hgone => ?_) fun c'' s₃ owner _ _ _ howner _ => ?_
  · rw [view_append, view_append, view_cons, view_nil, view_cons, view_nil,
      Table.find_put_other _ (by decide), Table.find_put_other _ (by decide)] at htaken
    exact ⟨rfl, Or.inr ⟨rfl, h.isSome htaken⟩⟩
  · obtain ⟨k, hk, hnone⟩ := hgone
    obtain rfl : k = .message message.id := List.mem_singleton.mp hk
    have hmissing := Table.find_eq_none_iff (t := smsMessage).mpr hnone
    rw [view_append, view_cons, view_nil, Table.find_put_other _ (by decide)] at hmissing
    exact absurd ((hown s₃).symm.trans hmissing) (by simp)
  refine takesEffect_commit _ (by simp) fun s₄ _ hcurrent => ?_
  simp only [List.append_assoc, List.cons_append, List.nil_append] at hcurrent ⊢
  obtain ⟨hbefore, hinserts⟩ := current_append.mp hcurrent
  obtain ⟨hmessageFree, hrest⟩ := Table.current_create.mp hinserts
  obtain ⟨heventFree, hrest⟩ := Table.current_create.mp hrest
  obtain ⟨hkeyFree, _⟩ := Table.current_create.mp hrest
  rw [h.find_other (by decide)] at hmessageFree
  rw [Table.find_put_other _ (by decide)] at heventFree
  rw [Table.find_put_other _ (by decide), Table.find_put_other _ (by decide)] at hkeyFree
  have hkey : owner.key = call.input.idempotencyKey := by rw [howner]; rfl
  have hid : message.id = c.uuid := by rw [hmessage]; rfl
  have haggregate : aggregate (view s₄ (ps ++ [⟨.put (smsMessage.wrap message), none⟩,
      ⟨.put (outboxEvent.wrap ((messageQueued message.id).row message.id c')), none⟩,
      ⟨.put (smsIdempotencyKey.wrap owner), none⟩])) = Function.update (aggregate s₄) message.id
        { aggregate s₄ message.id with
          message := some message
          outbox := (aggregate s₄ message.id).outbox ++
            [(messageQueued message.id).row message.id c'] } := by
    rw [view_append, view_cons, view_cons, view_cons, view_nil,
      aggregate_of_idempotencyKey _ (w := .put (smsIdempotencyKey.wrap owner)) rfl,
      ← h.aggregate_view s₄]
    exact aggregate_commit_intent rfl rfl heventFree
  refine ⟨by simp [hretention, hexpires],
    ⟨_, ⟨c, _, hmessageFree, hid.symm, ?_, ?_, by rw [← hmessage]⟩, haggregate⟩, ?_, c'',
    fun k => ?_⟩
  · rw [hid]
    exact Table.notMem_supplied hsupply
  · rw [h.find_other (by decide)] at heventFree
    exact intended_of_fresh hc' heventFree
  · exact h.expired hbefore (by rw [← hkey]; exact hkeyFree)
  · rw [view_append, view_cons, view_cons, view_cons, view_nil, Table.find_put,
      Table.find_put_other _ (by decide), Table.find_put_other _ (by decide)]
    by_cases hk : k = call.input.idempotencyKey
    · have hown : smsIdempotencyKey.idOf owner = k := hkey.trans hk.symm
      rw [if_pos hown, if_pos hk, howner]
    · rw [if_neg (by simpa [hkey] using Ne.symm hk), if_neg hk, h.find_key _ hk]

theorem takesEffect_createOrGetMessageInTransaction (call : CreateOrGetMessage) :
    TakesEffect Choice.supplied rely (createOrGetMessageSpec call)
      (createOrGetMessageInTransaction call) s [] := by
  refine takesEffect_read fun _ s' _ _ => ?_
  cases hfound : (smsIdempotencyKey.find (view s' []) call.input.idempotencyKey).bind
      fun owner => (smsMessage.find (view s' []) owner.smsMessageId).map
        fun message => (owner, message) with
  | none => exact takesEffect_createMessage (Or.inl rfl)
  | some found =>
      obtain ⟨owner, message⟩ := found
      by_cases hlive : owner.expiresAt > call.now
      · simp only [hlive, if_true]
        obtain ⟨owner', howner, hmessage⟩ := Option.bind_eq_some_iff.mp hfound
        obtain ⟨message', hmessage', hpair⟩ := Option.map_eq_some_iff.mp hmessage
        obtain ⟨rfl, rfl⟩ := Prod.mk.inj hpair
        exact takesEffect_done_nil _ ⟨rfl, owner', howner, hlive, hmessage'⟩
      · simp only [hlive, if_false]
        rw [CreateOrGetMessage.deleteExpiredOwner, Tx.bind_assoc]
        refine takesEffect_read fun _ s₂ _ _ => ?_
        refine takesEffect_deleteOne (fun s₃ _ _ _ => takesEffect_createMessage (Or.inl rfl))
          fun s₃ row _ _ hrow hguard => takesEffect_createMessage (Or.inr ?_)
        obtain ⟨old, hold, hexpired⟩ := (Option.any_eq_true _ _).mp hguard
        obtain rfl := (smsIdempotencyKey.unwrap_eq_some_iff _ _).mp hold
        simp only [Bool.and_eq_true, decide_eq_true_eq] at hexpired
        have hkey := Table.idOf_of_find (t := smsIdempotencyKey) (Table.find_eq_some_iff.mpr hrow)
        exact ⟨old, hkey, hexpired.1, rfl⟩

theorem takesEffect_fetchUnpublishedOutbox (limit : Nat) :
    TakesEffect Choice.supplied rely (fetchUnpublishedOutboxSpec limit)
      (fetchUnpublishedOutbox limit) s [] := by
  rw [← Tx.bind_done (fetchUnpublishedOutbox limit)]
  refine takesEffect_read fun c s' _ _ => takesEffect_done_nil _ ⟨rfl, c, rfl⟩

theorem takesEffect_updateOutboxEvent (id : String)
    {data : Choice → OutboxEvent → OutboxEvent} (hdata : ∀ c row, (data c row).id = row.id ∧
      (data c row).aggregateId = row.aggregateId) :
    TakesEffect Choice.supplied rely (updateOutboxEventSpec id data)
      (updateOutboxEvent id data) s [] := by
  refine Table.takesEffect_updateMany (fun s' _ _ _ => takesEffect_abort _ rfl)
    (fun c s' row new _ _ _ _ _ hnew hid => ?_) fun c row => (hdata c row).1
  refine takesEffect_commit _ (by simp) fun s'' _ hcurrent => ?_
  have hrow := (Table.current_update.mp hcurrent).1
  have hsame : new.aggregateId = row.aggregateId := by rw [hnew, (hdata c row).2]
  refine ⟨row, c, by rw [← hid]; exact hrow, ?_⟩
  rw [← hnew, ← hsame]
  exact aggregate_update_outbox hrow hsame

theorem takesEffect_markOutboxPublished (id : String) :
    TakesEffect Choice.supplied rely (updateOutboxEventSpec id published)
      (markOutboxPublished id) s [] :=
  takesEffect_updateOutboxEvent id fun _ _ => ⟨rfl, rfl⟩

theorem takesEffect_recordOutboxPublishFailure (id error : String) :
    TakesEffect Choice.supplied rely (updateOutboxEventSpec id (publishFailed error))
      (recordOutboxPublishFailure id error) s [] :=
  takesEffect_updateOutboxEvent id fun _ _ => ⟨rfl, rfl⟩

end Effects

end SmsNotification.LifecycleEffects

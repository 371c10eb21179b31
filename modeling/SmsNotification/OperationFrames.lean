import SmsNotification.ServiceRuns

namespace SmsNotification.OperationFrames

open SmsNotification.ActorSystem
open SmsNotification.KeyedStore
open SmsNotification.LabelledRuns
open SmsNotification.LifecycleEffects
open SmsNotification.MessageAggregate
open SmsNotification.ReadCommitted
open SmsNotification.Schema
open SmsNotification.Service
open SmsNotification.ServiceEffects
open SmsNotification.ServiceRuns
open SmsNotification.SmsLifecycleRepository
open SmsNotification.SmsPersistenceRepository
open SmsNotification.SmsStateMachine

/-- The columns of a message that no update touches. -/
structure SameMessage (old new : SmsMessage) : Prop where
  id : new.id = old.id
  idempotencyKey : new.idempotencyKey = old.idempotencyKey
  recipientPhone : new.recipientPhone = old.recipientPhone
  encryptedMessage : new.encryptedMessage = old.encryptedMessage
  metadata : new.metadata = old.metadata
  retentionExpiresAt : new.retentionExpiresAt = old.retentionExpiresAt
  createdAt : new.createdAt = old.createdAt

theorem SameMessage.trans {r₁ r₂ r₃ : SmsMessage} (h : SameMessage r₁ r₂)
    (h' : SameMessage r₂ r₃) : SameMessage r₁ r₃ :=
  ⟨h'.id.trans h.id, h'.idempotencyKey.trans h.idempotencyKey,
    h'.recipientPhone.trans h.recipientPhone, h'.encryptedMessage.trans h.encryptedMessage,
    h'.metadata.trans h.metadata, h'.retentionExpiresAt.trans h.retentionExpiresAt,
    h'.createdAt.trans h.createdAt⟩

/-- A change of the row under one key that concerns the message `m`: its own row,
a new or finalized attempt, a new resolution or a new outbox row of it. -/
inductive RowChange (m : String) : Option Row → Option Row → Prop where
  | same (b : Option Row) : RowChange m b b
  | message {old new : SmsMessage} : old.id = m → SameMessage old new →
      RowChange m (some (.message old)) (some (.message new))
  | attempt {new : SmsAttempt} : new.smsMessageId = m → RowChange m none (some (.attempt new))
  | finalized {old new : SmsAttempt} : old.smsMessageId = m → new.smsMessageId = m →
      old.outcome = .reserved → new.outcome ≠ .reserved →
      RowChange m (some (.attempt old)) (some (.attempt new))
  | resolution {new : SmsAttemptResolution} : new.smsMessageId = m →
      RowChange m none (some (.resolution new))
  | outbox {new : OutboxEvent} : new.aggregateId = m → RowChange m none (some (.outbox new))

theorem RowChange.trans {m : String} {b₁ b₂ b₃ : Option Row} (h : RowChange m b₁ b₂)
    (h' : RowChange m b₂ b₃) : RowChange m b₁ b₃ := by
  cases h with
  | same => exact h'
  | message hold hnew =>
      cases h' with
      | same => exact .message hold hnew
      | message _ hnew' => exact .message hold (hnew.trans hnew')
  | attempt hnew =>
      cases h' with
      | same => exact .attempt hnew
      | finalized _ hnew' _ _ => exact .attempt hnew'
  | finalized hold hnew hreserved hfinal =>
      cases h' with
      | same => exact .finalized hold hnew hreserved hfinal
      | finalized _ _ hreserved' _ => exact absurd hreserved' hfinal
  | resolution hnew =>
      cases h'
      exact .resolution hnew
  | outbox hnew =>
      cases h'
      exact .outbox hnew

/-- Every changed row concerns the message. -/
def OnlyConcerns (m : String) (s s' : Database) : Prop :=
  ∀ k, RowChange m (s.find k) (s'.find k)

/-- A write that concerns the message, over the row it finds. -/
def Concerns (m : String) (before : Option Row) (w : Write Row.key) : Prop :=
  RowChange m before w.after

theorem onlyConcerns_refl (m : String) (s : Database) : OnlyConcerns m s s :=
  fun _ => .same _

theorem onlyConcerns_apply {m : String} (s : Database) (w : Write Row.key)
    (h : Concerns m (s.find w.target) w) : OnlyConcerns m s (s.apply w) := by
  intro k
  rw [Store.find_apply]
  by_cases hk : w.target = k
  · subst hk
    rw [if_pos rfl]
    exact h
  · rw [if_neg hk]
    exact .same _

theorem takesEffect_onlyConcerns {α : Type} {m : String} {t : Sql α} (h : Writes (Concerns m) t)
    {rely : Database → Database → Prop} {s : Database} :
    TakesEffect Choice.supplied rely (fun s _ s' => OnlyConcerns m s s') t s [] :=
  h.takesEffect (onlyConcerns_refl m) (fun _ _ _ h₁ h₂ k => (h₁ k).trans (h₂ k))
    onlyConcerns_apply (by simp)

section Writes

variable {m : String}

theorem writes_updateMessage {guard : SmsMessage → Bool} {data : Choice → SmsMessage → SmsMessage}
    (hsame : ∀ c row, SameMessage row (data c row)) :
    Writes (Concerns m) (smsMessage.updateMany m guard data) :=
  Table.writes_updateMany fun c row hrow _ =>
    ⟨(hsame c row).id.trans hrow, .message hrow (hsame c row)⟩

theorem writes_createOutboxEvent (intent : OutboxIntent) :
    Writes (Concerns m) (createOutboxEvent m intent) :=
  Table.writes_create fun _ => .outbox rfl

theorem writes_readLifecycle (id : String) : Writes (Concerns m) (readLifecycle id) := by
  refine .bind (.read _) fun found => ?_
  cases found with
  | none => exact .abort _
  | some row => exact .done _

theorem writes_beginProcessing : Writes (Concerns m) (beginProcessing m) := by
  refine .bind (writes_updateMessage fun _ _ => by constructor <;> rfl) fun claimed => ?_
  split
  · exact .done _
  · exact .bind (writes_readLifecycle m) fun _ => .done _

theorem writes_reserveProviderAttempt (providerName : String) :
    Writes (Concerns m) (reserveProviderAttempt m providerName) := by
  refine .bind (writes_updateMessage fun _ _ => by constructor <;> rfl) fun reserved => ?_
  split
  · exact .done _
  · exact .bind (Table.writes_create fun _ => .attempt rfl) fun _ => .done _

theorem writes_leaveAwaiting {target : SmsStatus} {data : Choice → SmsMessage → SmsMessage}
    (hsame : ∀ c row, SameMessage row (data c row)) :
    Writes (Concerns m) (leaveAwaiting m target data) := by
  refine .bind (writes_updateMessage hsame) fun count => ?_
  split
  · exact .abort _
  · exact .done _

theorem writes_finalizeProviderAttempt (attemptId : String)
    (input : FinalizeProviderAttemptInput) :
    Writes (Concerns m) (finalizeProviderAttempt m attemptId input) := by
  refine .bind (Table.writes_updateMany fun _ row hrow hguard => ?_) fun finalized => ?_
  · simp only [Bool.and_eq_true, decide_eq_true_eq] at hguard
    have hrecord : (input.record row).id = row.id ∧
        (input.record row).smsMessageId = row.smsMessageId ∧
        (input.record row).outcome ≠ .reserved := by
      cases input <;> exact ⟨rfl, rfl, by simp [FinalizeProviderAttemptInput.record]⟩
    exact ⟨hrecord.1.trans hrow,
      .finalized hguard.1 (hrecord.2.1.trans hguard.1) hguard.2 hrecord.2.2⟩
  · split
    · exact .abort _
    · rcases input with providerMessageId | ⟨_ | _, isRetryable, errorMessage, delayMs⟩
      · exact writes_leaveAwaiting fun _ _ => by constructor <;> rfl
      · exact writes_leaveAwaiting fun _ _ => by constructor <;> rfl
      · dsimp only
        split
        · exact .abort _
        · exact .bind (writes_createOutboxEvent _) fun _ => .done _

theorem writes_answerExisting (existing : SmsAttemptResolution)
    (input : ResolveTwilioAttemptInput) :
    Writes (Concerns m) (answerExisting m existing input) := by
  unfold answerExisting
  split
  · exact .bind (writes_readLifecycle m) fun _ => .done _
  · exact .done _

theorem writes_applyDecision (attemptId : String) (input : ResolveTwilioAttemptInput) :
    Writes (Concerns m) (applyDecision m attemptId input) := by
  refine .bind (writes_updateMessage fun c row => ?_) fun updated => ?_
  · rcases input with sid | ⟨⟨⟩⟩ <;> constructor <;> rfl
  · split
    · refine .bind (.read _) fun found => ?_
      cases found with
      | none => exact .done _
      | some existing => exact writes_answerExisting existing input
    · refine .bind (Table.writes_create fun _ => .resolution rfl) fun _ => ?_
      exact .bind (writes_readLifecycle m) fun _ => .done _

theorem writes_resolveTwilioAttempt (attemptId : String) (input : ResolveTwilioAttemptInput) :
    Writes (Concerns m) (resolveTwilioAttempt m attemptId input) := by
  refine .bind (.bind (.read _) fun _ => ?_) fun _ => .bind (.read _) fun current => ?_
  · cases input with
    | undelivered evidenceCode => exact .done _
    | knownSid sid =>
        dsimp only
        split
        · exact .done _
        · exact .abort _
  · cases current with
    | none => exact .done _
    | some current =>
        refine .bind (.read _) fun existing => ?_
        cases existing with
        | some existing => exact writes_answerExisting existing input
        | none =>
            dsimp only
            split
            · exact .done _
            · refine .bind (.read _) fun attempt => ?_
              split
              · exact .done _
              · exact writes_applyDecision attemptId input

theorem writes_guardedTransition (target : SmsStatus) {data : SmsMessage → SmsMessage}
    (hsame : ∀ row, SameMessage row (data row)) (intent : Option OutboxIntent) :
    Writes (Concerns m) (guardedTransition m target data intent) := by
  refine .bind (.read _) fun current => ?_
  cases current with
  | none => exact .abort _
  | some current =>
      dsimp only
      split
      · exact .abort _
      · have hupdate : ∀ (c : Choice) row,
            SameMessage row { data row with status := target, updatedAt := c.now } :=
          fun c row => (hsame row).trans (by constructor <;> rfl)
        refine .bind (writes_updateMessage hupdate) fun updated => ?_
        split
        · exact .abort _
        · cases intent with
          | none => exact writes_readLifecycle m
          | some intent =>
              exact .bind (writes_createOutboxEvent intent) fun _ => writes_readLifecycle m

theorem writes_expireAmbiguousOutcome : Writes (Concerns m) (expireAmbiguousOutcome m) :=
  .bind (writes_updateMessage fun _ _ => by constructor <;> rfl) fun _ => .done _

theorem writes_resetForRequeue : Writes (Concerns m) (resetForRequeue m) := by
  refine .bind (.read _) fun current => ?_
  cases current with
  | none => exact .done _
  | some current =>
      dsimp only
      split
      · exact .done _
      · refine .bind (writes_updateMessage fun _ _ => by constructor <;> rfl) fun updated => ?_
        split
        · exact .done _
        · refine .bind (writes_createOutboxEvent _) fun _ => ?_
          exact .bind (writes_readLifecycle m) fun _ => .done _

theorem writes_report (status target : SmsStatus) :
    Writes (Concerns m) (if isSameState status target then
        readLifecycle m >>= fun message => .done (.duplicate message)
      else if !isValidTransition status target then .done (.invalidTransition status)
      else smsMessage.updateMany m (fun row => row.status = status)
        (fun c row => { row with status := target, updatedAt := c.now }) >>= fun updated =>
          if updated = 0 then .done (.invalidTransition status)
          else readLifecycle m >>= fun message => .done (.applied message) :
        Sql ApplyDeliveryReportResult) := by
  split
  · exact .bind (writes_readLifecycle m) fun _ => .done _
  · split
    · exact .done _
    · refine .bind (writes_updateMessage fun _ _ => by constructor <;> rfl) fun updated => ?_
      split
      · exact .done _
      · exact .bind (writes_readLifecycle m) fun _ => .done _

end Writes

/-- The answers of calls that have done what they were asked to. -/
def succeeds : Answer → Bool
  | .begun (.started _) => true
  | .reservation (.reserved _) => true
  | .finalized => true
  | .resolution (.resolved _) => true
  | .transitioned _ => true
  | .expiry .expired => true
  | .requeue (.requeued _) => true
  | .report (.applied _) => true
  | _ => false

section Commits

variable {α : Type} {ok : α → Prop} {wrote : Bool} {m : String}

theorem commitsAs_readLifecycle {next : LifecycleSmsMessage → Sql α}
    (h : ∀ message, CommitsAs ok wrote (next message)) :
    CommitsAs ok wrote (readLifecycle m >>= next) := by
  rw [readLifecycle, Tx.bind_assoc]
  refine .read_bind fun found => ?_
  cases found with
  | none => exact .abort _
  | some row => exact h _

theorem commitsAs_beginProcessing :
    CommitsAs (fun result => succeeds (.begun result)) false (beginProcessing m) :=
  .update_bind (.quiet _) (commitsAs_readLifecycle fun _ => .done rfl)

theorem commitsAs_reserveProviderAttempt (providerName : String) :
    CommitsAs (fun result => succeeds (.reservation result)) false
      (reserveProviderAttempt m providerName) :=
  .update_bind (.quiet _) (.insert_bind fun _ => .done rfl)

theorem commitsAs_answerExisting (existing : SmsAttemptResolution)
    (input : ResolveTwilioAttemptInput) :
    CommitsAs (fun result => succeeds (.resolution result)) false
      (answerExisting m existing input) := by
  unfold answerExisting
  split
  · exact commitsAs_readLifecycle fun _ => .quiet _
  · exact .quiet _

theorem commitsAs_assertValidTwilioResolution {input : ResolveTwilioAttemptInput}
    {next : Unit → Sql α} (h : CommitsAs ok wrote (next ())) :
    CommitsAs ok wrote (assertValidTwilioResolution input >>= next) := by
  unfold assertValidTwilioResolution
  rw [Tx.bind_assoc]
  refine .read_bind fun _ => ?_
  cases input with
  | undelivered evidenceCode => exact h
  | knownSid sid =>
      by_cases hsid : isTwilioMessageSid sid
      · simpa [hsid] using h
      · simpa [hsid] using CommitsAs.abort _

theorem commitsAs_applyDecision (attemptId : String) (input : ResolveTwilioAttemptInput) :
    CommitsAs (fun result => succeeds (.resolution result)) false
      (applyDecision m attemptId input) := by
  refine .update_bind (.read_bind fun found => ?_)
    (.insert_bind fun _ => commitsAs_readLifecycle fun _ => .done rfl)
  cases found with
  | none => exact .quiet _
  | some existing => exact commitsAs_answerExisting existing input

theorem commitsAs_resolveTwilioAttempt (attemptId : String) (input : ResolveTwilioAttemptInput) :
    CommitsAs (fun result => succeeds (.resolution result)) false
      (resolveTwilioAttempt m attemptId input) := by
  refine commitsAs_assertValidTwilioResolution (.read_bind fun current => ?_)
  cases current with
  | none => exact .quiet _
  | some current =>
      refine .read_bind fun existing => ?_
      cases existing with
      | some existing => exact commitsAs_answerExisting existing input
      | none =>
          dsimp only
          split
          · exact .quiet _
          · refine .read_bind fun attempt => ?_
            split
            · exact .quiet _
            · exact commitsAs_applyDecision attemptId input

theorem commitsAs_expireAmbiguousOutcome :
    CommitsAs (fun result => succeeds (.expiry result)) false (expireAmbiguousOutcome m) :=
  .update_bind (.quiet _) (.done rfl)

theorem commitsAs_resetForRequeue :
    CommitsAs (fun result => succeeds (.requeue result)) false (resetForRequeue m) := by
  refine .read_bind fun current => ?_
  cases current with
  | none => exact .quiet _
  | some current =>
      dsimp only
      split
      · exact .quiet _
      · exact .update_bind (.quiet _)
          (.insert_bind fun _ => commitsAs_readLifecycle fun _ => .done rfl)

theorem commitsAs_applyDeliveryReport (input : ApplyDeliveryReportInput) :
    CommitsAs (fun result => succeeds (.report result)) false (applyDeliveryReport input) := by
  refine .read_bind fun current => ?_
  cases current with
  | none => exact .quiet _
  | some current =>
      dsimp only
      split
      · exact commitsAs_readLifecycle fun _ => .quiet _
      · split
        · exact .quiet _
        · exact .update_bind (.quiet _) (commitsAs_readLifecycle fun _ => .done rfl)

theorem commitsAs_operation (op : Operation) :
    CommitsAs (fun answer => succeeds answer) false (runOperation op) := by
  cases op with
  | beginProcessing m => exact commitsAs_beginProcessing.map
  | reserveProviderAttempt m providerName =>
      exact (commitsAs_reserveProviderAttempt providerName).map
  | finalizeProviderAttempt m attemptId input => exact .values fun _ => rfl
  | resolveTwilioAttempt m attemptId input =>
      exact (commitsAs_resolveTwilioAttempt attemptId input).map
  | scheduleRetry m opts => exact .values fun _ => rfl
  | markPermanentProviderFailure m status lastError => exact .values fun _ => rfl
  | markFatalFailure m lastError => exact .values fun _ => rfl
  | expireAmbiguousOutcome m => exact commitsAs_expireAmbiguousOutcome.map
  | resetForRequeue m => exact commitsAs_resetForRequeue.map
  | applyDeliveryReport input => exact (commitsAs_applyDeliveryReport input).map

end Commits

/-- The message an operation is about, where its call names it. -/
def messageId? : Operation → Option String
  | .beginProcessing m => some m
  | .reserveProviderAttempt m _ => some m
  | .finalizeProviderAttempt m _ _ => some m
  | .resolveTwilioAttempt m _ _ => some m
  | .scheduleRetry m _ => some m
  | .markPermanentProviderFailure m _ _ => some m
  | .markFatalFailure m _ => some m
  | .expireAmbiguousOutcome m => some m
  | .resetForRequeue m => some m
  | .applyDeliveryReport _ => none

/-- All that an operation may leave in the database. -/
def Leaves (op : Operation) (s : Database) (r : Except Failure Answer) (s' : Database) : Prop :=
  (s' = s ∨ ∃ answer, r = .ok answer ∧ succeeds answer) ∧
    ∃ m, (∀ id, messageId? op = some id → m = id) ∧ OnlyConcerns m s s'

section Effects

variable {rely : Database → Database → Prop} {s : Database}

theorem takesEffect_applyDeliveryReport_concerns (input : ApplyDeliveryReportInput) :
    TakesEffect Choice.supplied rely (fun s _ s' => ∃ m, OnlyConcerns m s s')
      (applyDeliveryReport input) s [] := by
  refine takesEffect_read fun _ s' _ _ => ?_
  split
  · exact takesEffect_done_nil _ ⟨"", onlyConcerns_refl _ _⟩
  · rename_i current _
    exact (takesEffect_onlyConcerns (writes_report current.status
      input.terminalStatus.status)).mono fun _ _ _ h => ⟨current.id, h⟩

theorem takesEffect_operation_concerns (op : Operation) :
    TakesEffect Choice.supplied rely
      (fun s _ s' => ∃ m, (∀ id, messageId? op = some id → m = id) ∧ OnlyConcerns m s s')
      (runOperation op) s [] := by
  have hwrites : ∀ {α : Type} {m : String} {t : Sql α} {f : α → Answer},
      messageId? op = some m → Writes (Concerns m) t →
        TakesEffect Choice.supplied rely
          (fun s _ s' => ∃ m, (∀ id, messageId? op = some id → m = id) ∧ OnlyConcerns m s s')
          (t.map f) s [] := by
    intro α m t f hm ht
    refine (takesEffect_onlyConcerns (ht.map f)).mono fun s _ s' hconcerns => ⟨m, ?_, hconcerns⟩
    intro id hid
    exact Option.some.inj (hm.symm.trans hid)
  cases op with
  | beginProcessing m => exact hwrites rfl writes_beginProcessing
  | reserveProviderAttempt m providerName =>
      exact hwrites rfl (writes_reserveProviderAttempt providerName)
  | finalizeProviderAttempt m attemptId input =>
      exact hwrites rfl (writes_finalizeProviderAttempt attemptId input)
  | resolveTwilioAttempt m attemptId input =>
      exact hwrites rfl (writes_resolveTwilioAttempt attemptId input)
  | scheduleRetry m opts =>
      exact hwrites rfl (writes_guardedTransition _ (fun _ => by constructor <;> rfl) _)
  | markPermanentProviderFailure m status lastError =>
      exact hwrites rfl (writes_guardedTransition _ (fun _ => by constructor <;> rfl) _)
  | markFatalFailure m lastError =>
      exact hwrites rfl (writes_guardedTransition _ (fun _ => by constructor <;> rfl) _)
  | expireAmbiguousOutcome m => exact hwrites rfl writes_expireAmbiguousOutcome
  | resetForRequeue m => exact hwrites rfl writes_resetForRequeue
  | applyDeliveryReport input =>
      refine ((takesEffect_applyDeliveryReport_concerns input).map Answer.report).mono
        fun s r s' h => ?_
      cases r with
      | error e => exact h.imp fun m hm => ⟨by simp [messageId?], hm⟩
      | ok answer => exact h.choose_spec.2.imp fun m hm => ⟨by simp [messageId?], hm⟩

theorem takesEffect_leaves (op : Operation) :
    TakesEffect Choice.supplied rely (Leaves op) (runOperation op) s [] :=
  ((commitsAs_operation op).takesEffect fun _ => rfl).and (takesEffect_operation_concerns op)

end Effects

/-- A change of the row under a key that `createOrGetMessage` makes for the new
message `m`: the message, its outbox row, and the owner of the call's key in
place of none or of one that has expired. -/
inductive IngestChange (call : CreateOrGetMessage) (m : String) :
    RowKey → Option Row → Option Row → Prop where
  | same (k : RowKey) (b : Option Row) : IngestChange call m k b b
  | message {new : SmsMessage} : new.id = m →
      IngestChange call m (.message m) none (some (.message new))
  | outbox {id : String} {new : OutboxEvent} : new.aggregateId = m →
      IngestChange call m (.outbox id) none (some (.outbox new))
  | released {old : SmsIdempotencyKey} : old.expiresAt ≤ call.now →
      IngestChange call m (.idempotencyKey call.input.idempotencyKey)
        (some (.idempotencyKey old)) none
  | owned {new : SmsIdempotencyKey} : new.smsMessageId = m →
      IngestChange call m (.idempotencyKey call.input.idempotencyKey)
        none (some (.idempotencyKey new))
  | replaced {old new : SmsIdempotencyKey} : old.expiresAt ≤ call.now →
      new.smsMessageId = m →
      IngestChange call m (.idempotencyKey call.input.idempotencyKey)
        (some (.idempotencyKey old)) (some (.idempotencyKey new))

theorem IngestChange.trans {call : CreateOrGetMessage} {m : String} {k : RowKey}
    {b₁ b₂ b₃ : Option Row} (h : IngestChange call m k b₁ b₂) (h' : IngestChange call m k b₂ b₃) :
    IngestChange call m k b₁ b₃ := by
  cases h with
  | same => exact h'
  | message hnew =>
      cases h'
      exact .message hnew
  | outbox hnew =>
      cases h'
      exact .outbox hnew
  | released hold =>
      cases h' with
      | same => exact .released hold
      | owned hnew => exact .replaced hold hnew
  | owned hnew =>
      cases h' with
      | same => exact .owned hnew
      | released _ => exact .same _ _
      | replaced _ hnew' => exact .owned hnew'
  | replaced hold hnew =>
      cases h' with
      | same => exact .replaced hold hnew
      | released _ => exact .released hold
      | replaced _ hnew' => exact .replaced hold hnew'

/-- Every changed row is part of the ingestion of the message. -/
def OnlyIngests (call : CreateOrGetMessage) (m : String) (s s' : Database) : Prop :=
  ∀ k, IngestChange call m k (s.find k) (s'.find k)

section Ingestion

variable {call : CreateOrGetMessage} {m : String} {rely : Database → Database → Prop}
  {s : Database} {ps : List (Pending Row.key)}

/-- A write that is part of the ingestion, over the row it finds. -/
def Ingests (call : CreateOrGetMessage) (m : String) (before : Option Row)
    (w : Write Row.key) : Prop :=
  IngestChange call m w.target before w.after

theorem onlyIngests_refl (s : Database) : OnlyIngests call m s s :=
  fun _ => .same _ _

theorem onlyIngests_apply (s : Database) (w : Write Row.key)
    (h : Ingests call m (s.find w.target) w) : OnlyIngests call m s (s.apply w) := by
  intro k
  rw [Store.find_apply]
  by_cases hk : w.target = k
  · subst hk
    rw [if_pos rfl]
    exact h
  · rw [if_neg hk]
    exact .same _ _

theorem writes_createOwner (message : SmsMessage) :
    Writes (Ingests call message.id) (createOutboxEvent message.id (messageQueued message.id) >>=
      fun _ => requireDate call.expiresAt >>= fun _ =>
        smsIdempotencyKey.create (call.owner message.id) >>= fun _ =>
          (Tx.done { created := true, message := message } :
            Sql CreateOrGetSmsMessageResult)) := by
  refine .bind (Table.writes_create fun _ => .outbox rfl) fun _ => ?_
  refine .bind (.require _ _) fun _ => ?_
  exact .bind (Table.writes_create fun _ => .owned rfl) fun _ => .done _

theorem takesEffect_createMessage_ingests
    (hps : ∀ m, ∀ p ∈ ps, Ingests call m p.before p.write) :
    TakesEffect Choice.supplied rely (fun s _ s' => ∃ m, OnlyIngests call m s s')
      (createMessage call) s ps := by
  refine takesEffect_require (fun _ => ⟨"", onlyIngests_refl s⟩) fun _ => ?_
  refine Table.takesEffect_create (fun _ s' _ _ _ _ => ⟨"", onlyIngests_refl s'⟩)
    (fun _ s' _ _ _ => ⟨"", onlyIngests_refl s'⟩) fun c s' message _ _ _ _ _ => ?_
  refine TakesEffect.mono (fun s _ s' h => ⟨message.id, h⟩)
    ((writes_createOwner message).takesEffect onlyIngests_refl
      (fun _ _ _ h₁ h₂ k => (h₁ k).trans (h₂ k)) onlyIngests_apply fun p hp => ?_)
  rcases List.mem_append.mp hp with hp | hp
  · exact hps _ p hp
  · obtain rfl := List.mem_singleton.mp hp
    exact .message rfl

theorem takesEffect_ingests (call : CreateOrGetMessage) :
    TakesEffect Choice.supplied rely (fun s _ s' => ∃ m, OnlyIngests call m s s')
      (createOrGetMessageInTransaction call) s [] := by
  refine takesEffect_read fun _ s' _ _ => ?_
  split
  · rename_i owner message _
    split
    · exact takesEffect_done_nil _ ⟨"", onlyIngests_refl _⟩
    · rw [CreateOrGetMessage.deleteExpiredOwner, Tx.bind_assoc]
      refine takesEffect_read fun _ s₂ _ _ => ?_
      refine takesEffect_deleteOne (fun s₃ _ _ _ => takesEffect_createMessage_ingests (by simp))
        fun s₃ row _ _ hrow hguard => takesEffect_createMessage_ingests fun m p hp => ?_
      obtain rfl := List.mem_singleton.mp hp
      obtain ⟨old, hold, hexpired⟩ := (Option.any_eq_true _ _).mp hguard
      obtain rfl := (smsIdempotencyKey.unwrap_eq_some_iff _ _).mp hold
      simp only [Bool.and_eq_true, decide_eq_true_eq] at hexpired
      exact .released hexpired.1
  · exact takesEffect_createMessage_ingests (by simp)

end Ingestion

section Runs

variable {config : Config} {w w' : ServiceWorld} {l : ServiceLabel} {i : Nat}

/-- What the calls of the claim's methods leave; nothing is said of other actors. -/
def leavesSpec : Control → Database → Except Failure Control → Database → Prop
  | .calling op => Maps (.returned op) (Leaves op)
  | .creating call _ => Maps (.created call) fun s r s' =>
      createOrGetMessageSpec call s r s' ∧ ∃ m, OnlyIngests call m s s'
  | _ => fun _ _ _ => True

theorem sound_leaves (config : Config) :
    Sound (service config) (fun _ => True) (fun _ _ => True) leavesSpec where
  refl _ := trivial
  trans _ _ _ _ _ := trivial
  guarantee _ _ _ _ _ _ := trivial
  takesEffect q t onError _ hcode s := by
    cases q with
    | calling op =>
        obtain ⟨rfl, _⟩ := Code.tx.inj hcode
        exact (takesEffect_leaves op).map _
    | creating call again =>
        obtain ⟨rfl, _⟩ := Code.tx.inj hcode
        exact ((takesEffect_createOrGetMessageInTransaction call).and
          (takesEffect_ingests call)).map _
    | _ => exact takesEffect_trivial t
  live_ok _ _ _ _ _ _ _ _ _ := trivial
  live_error _ _ _ _ _ _ := trivial
  live_act _ _ _ _ _ _ _ _ _ := trivial
  live_crashed _ _ := trivial

/-- The worlds that any actors reach from any database. -/
abbrev Anywhere (config : Config) : ServiceWorld → Prop :=
  Reaches config (fun _ _ => True) fun _ => True

theorem consistent_of_reaches {ok : ServiceSnapshot → ServiceLabel → Prop}
    {init : ServiceSnapshot → Prop} (h : Reaches config ok init w) :
    Consistent (service config) (fun _ => True) (fun _ _ => True) leavesSpec w :=
  (reachable_abs (sound_leaves config) (fun _ _ _ => trivial) h).1

theorem leaves_of_step (h : Anywhere config w) (hstep : (service config).step w l = some w') :
    w'.abs = w.abs ∨ Atomic (service config) leavesSpec w.abs l w'.abs :=
  (simulates (sound_leaves config) (consistent_of_reaches h) (fun _ _ => trivial) hstep).2

/-- The step of an actor itself, but for a commit whose answer does not arrive. -/
def OwnStep (i : Nat) (l : ServiceLabel) : Prop :=
  (∃ c, l = .run i c) ∨ l = .commit i ∨ l = .fault i ∨ l = .crash i

/-- A step of an actor changes the database only as its commit does, and where the answer
of the commit arrives, the actor has it. -/
theorem store_of_ownStep (h : Anywhere config w) (hstep : (service config).step w l = some w')
    (hl : OwnStep i l ∨ l = .lost i) {q : Control} (hq : w.abs.controls[i]? = some q) :
    w'.store = w.store ∨ ∃ q', (OwnStep i l → w'.abs.controls[i]? = some q') ∧
      leavesSpec q w.store (.ok q') w'.store := by
  obtain habs | hatomic := leaves_of_step h hstep
  · exact Or.inl (congrArg Snapshot.store habs)
  have hstore : ∀ {a}, Atomic (service config) leavesSpec w.abs l a →
      a.store = w.store ∨ ∃ q', (OwnStep i l → a.controls[i]? = some q') ∧
        leavesSpec q w.store (.ok q') a.store := by
    intro a hatomic
    cases hatomic with
    | @commit j q₀ q' t onError s hq₀ _ hspec =>
        obtain rfl : j = i := by simpa [OwnStep] using hl
        obtain rfl : q = q₀ := Option.some.inj (hq.symm.trans hq₀)
        have hlength := (List.getElem?_eq_some_iff.mp hq).1
        exact Or.inr ⟨q', fun _ => List.getElem?_set_self hlength, hspec⟩
    | @lost j q₀ q' t onError s hq₀ _ hspec =>
        obtain rfl : j = i := by simpa [OwnStep] using hl
        obtain rfl : q = q₀ := Option.some.inj (hq.symm.trans hq₀)
        exact Or.inr ⟨q', fun hown => by simp [OwnStep] at hown, hspec⟩
    | _ => exact Or.inl rfl
  exact hstore hatomic

/-- A call that throws or answers that it has had nothing to do has changed
nothing, and one that succeeds has changed the rows of one message only, in any
database and beside any other transactions. Where the answer of a commit is lost, the
call has changed nothing or what one with an answer that succeeds may change. -/
theorem only_own_message (h : Anywhere config w)
    (hstep : (service config).step w l = some w') (hl : OwnStep i l ∨ l = .lost i) :
    (∀ op, w.abs.controls[i]? = some (.calling op) →
      w'.store = w.store ∨ ∃ answer m,
        (OwnStep i l → w'.abs.controls[i]? = some (.returned op answer)) ∧
          succeeds answer ∧ (∀ id, messageId? op = some id → m = id) ∧
            OnlyConcerns m w.store w'.store) ∧
    ∀ call again, w.abs.controls[i]? = some (.creating call again) →
      w'.store = w.store ∨ ∃ message m,
        (OwnStep i l → w'.abs.controls[i]? = some (.created call ⟨true, message⟩)) ∧
          OnlyIngests call m w.store w'.store := by
  refine ⟨fun op hop => ?_, fun call again hcall => ?_⟩
  · obtain hsame | ⟨q', hq', answer, rfl, hleaves, m, hm, hconcerns⟩ :=
      store_of_ownStep h hstep hl hop
    · exact Or.inl hsame
    · rcases hleaves with hsame | ⟨answer', hanswer, hsucceeds⟩
      · exact Or.inl hsame
      · obtain rfl := Except.ok.inj hanswer
        exact Or.inr ⟨answer, m, hq', hsucceeds, hm, hconcerns⟩
  · obtain hsame | ⟨q', hq', ⟨_ | _, message⟩, rfl, hspec, m, hingests⟩ :=
      store_of_ownStep h hstep hl hcall
    · exact Or.inl hsame
    · exact Or.inl hspec.1
    · exact Or.inr ⟨message, m, hq', hingests⟩

/-- The message that a call begins to process. -/
def begun? : Control → Option String
  | .calling (.beginProcessing m) => some m
  | _ => none

/-- A claim of a message that commits beside another one, and the same one whose answer is
lost. -/
theorem only_own_message_claimed :
    ∃ w w' w'' answer, Anywhere sampleConfig w ∧
      (service sampleConfig).step w (.commit 1) = some w' ∧
      (service sampleConfig).step w (.lost 1) = some w'' ∧
      (aggregate w.store "m").status = some .queued ∧
      (aggregate w''.store "m").status = some .processing ∧
      w'.abs.controls[1]? = some (.returned (.beginProcessing "m") answer) ∧ succeeds answer ∧
      OnlyConcerns "m" w.store w'.store ∧ OnlyConcerns "m" w.store w''.store := by
  obtain ⟨w, hw, hclaims, hqueued, hcommit, hlost⟩ := exists_reaches_on sampleConfig
    (fun _ _ => True) (fun _ => True) (Store.empty Row.key) trivial
    (creation ++ .spawn (.calling (.beginProcessing "m")) ::
      .spawn (.calling (.beginProcessing "m")) :: statements 1 2 (sampleChoice "" 1))
    (fun w => w.abs.controls[1]?.any (fun q => begun? q = some "m") ∧
      (aggregate w.store "m").status = some .queued ∧
      (((service sampleConfig).step w (.commit 1)).any fun w' =>
        (aggregate w'.store "m").status = some .processing) ∧
      ((service sampleConfig).step w (.lost 1)).any fun w' =>
        (aggregate w'.store "m").status = some .processing) (by decide +kernel)
  obtain ⟨q, hq, hop⟩ := (Option.any_eq_true _ _).mp hclaims
  obtain ⟨w', hcommit, hprocessing⟩ := (Option.any_eq_true _ _).mp hcommit
  obtain ⟨w'', hlost, hlostProcessing⟩ := (Option.any_eq_true _ _).mp hlost
  simp only [decide_eq_true_eq] at hprocessing hlostProcessing
  obtain rfl : q = .calling (.beginProcessing "m") := by
    unfold begun? at hop
    split at hop <;> simp_all
  have hown : OwnStep 1 (.commit 1) := Or.inr (Or.inl rfl)
  obtain hsame | ⟨answer, m, hanswer, hsucceeds, hm, hconcerns⟩ :=
    (only_own_message hw hcommit (Or.inl hown)).1 _ hq
  · cases hqueued.symm.trans (hsame ▸ hprocessing)
  obtain hsame | ⟨-, m', -, -, hm', hconcerns'⟩ := (only_own_message hw hlost (Or.inr rfl)).1 _ hq
  · cases hqueued.symm.trans (hsame ▸ hlostProcessing)
  obtain rfl := hm "m" rfl
  obtain rfl := hm' "m" rfl
  exact ⟨w, w', w'', answer, hw, hcommit, hlost, hqueued, hlostProcessing, hanswer hown,
    hsucceeds, hconcerns, hconcerns'⟩

end Runs

end SmsNotification.OperationFrames

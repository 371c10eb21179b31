import SmsNotification.AttemptLedger
import SmsNotification.GrowingLists

namespace SmsNotification.AuditTrail

open SmsNotification.AttemptLedger
open SmsNotification.GrowingLists
open SmsNotification.LifecycleEffects
open SmsNotification.MessageAggregate
open SmsNotification.Schema
open SmsNotification.Service
open SmsNotification.ServiceEffects
open SmsNotification.ServiceRuns
open SmsNotification.SmsLifecycleRepository

/-- What of a message is written once: all that was accepted with it, and the id that a
provider knows it by. The attempts only count up. -/
structure KeptMessage (row row' : SmsMessage) : Prop where
  id : row'.id = row.id
  idempotencyKey : row'.idempotencyKey = row.idempotencyKey
  recipientPhone : row'.recipientPhone = row.recipientPhone
  encryptedMessage : row'.encryptedMessage = row.encryptedMessage
  metadata : row'.metadata = row.metadata
  retentionExpiresAt : row'.retentionExpiresAt = row.retentionExpiresAt
  createdAt : row'.createdAt = row.createdAt
  providerMessageId : ∀ x, row.providerMessageId = some x → row'.providerMessageId = some x
  deliveryAttempts : row.deliveryAttempts ≤ row'.deliveryAttempts

/-- A reservation may still get its result; a result stays as it is. -/
structure KeptAttempt (a a' : SmsAttempt) : Prop where
  id : a'.id = a.id
  smsMessageId : a'.smsMessageId = a.smsMessageId
  provider : a'.provider = a.provider
  createdAt : a'.createdAt = a.createdAt
  result : a.outcome ≠ .reserved → a' = a

/-- The relay marks an event and counts its failures; what the event says stays. -/
structure KeptEvent (e e' : OutboxEvent) : Prop where
  id : e'.id = e.id
  aggregateType : e'.aggregateType = e.aggregateType
  aggregateId : e'.aggregateId = e.aggregateId
  eventType : e'.eventType = e.eventType
  payload : e'.payload = e.payload
  createdAt : e'.createdAt = e.createdAt
  published : e.publishedAt.isSome → e'.publishedAt.isSome
  retryCount : e.retryCount ≤ e'.retryCount

/-- The records of a message after some more steps: the earlier ones are still there,
in their order, and new ones come after them. -/
structure Extends (A A' : Aggregate) : Prop where
  message : ∀ row, A.message = some row → ∃ row', A'.message = some row' ∧ KeptMessage row row'
  attempts : Grows KeptAttempt A.attempts A'.attempts
  resolutions : A.resolutions <+: A'.resolutions
  outbox : Grows KeptEvent A.outbox A'.outbox

section Order

theorem KeptMessage.refl (row : SmsMessage) : KeptMessage row row :=
  ⟨rfl, rfl, rfl, rfl, rfl, rfl, rfl, fun _ h => h, le_refl _⟩

theorem KeptMessage.trans {row row' row'' : SmsMessage} (h : KeptMessage row row')
    (h' : KeptMessage row' row'') : KeptMessage row row'' where
  id := h'.id.trans h.id
  idempotencyKey := h'.idempotencyKey.trans h.idempotencyKey
  recipientPhone := h'.recipientPhone.trans h.recipientPhone
  encryptedMessage := h'.encryptedMessage.trans h.encryptedMessage
  metadata := h'.metadata.trans h.metadata
  retentionExpiresAt := h'.retentionExpiresAt.trans h.retentionExpiresAt
  createdAt := h'.createdAt.trans h.createdAt
  providerMessageId x hx := h'.providerMessageId x (h.providerMessageId x hx)
  deliveryAttempts := h.deliveryAttempts.trans h'.deliveryAttempts

theorem KeptAttempt.refl (a : SmsAttempt) : KeptAttempt a a :=
  ⟨rfl, rfl, rfl, rfl, fun _ => rfl⟩

theorem KeptAttempt.trans (a a' a'' : SmsAttempt) (h : KeptAttempt a a')
    (h' : KeptAttempt a' a'') : KeptAttempt a a'' where
  id := h'.id.trans h.id
  smsMessageId := h'.smsMessageId.trans h.smsMessageId
  provider := h'.provider.trans h.provider
  createdAt := h'.createdAt.trans h.createdAt
  result hresult := by
    obtain rfl := h.result hresult
    exact h'.result hresult

theorem KeptEvent.refl (e : OutboxEvent) : KeptEvent e e :=
  ⟨rfl, rfl, rfl, rfl, rfl, rfl, fun h => h, le_refl _⟩

theorem KeptEvent.trans (e e' e'' : OutboxEvent) (h : KeptEvent e e') (h' : KeptEvent e' e'') :
    KeptEvent e e'' where
  id := h'.id.trans h.id
  aggregateType := h'.aggregateType.trans h.aggregateType
  aggregateId := h'.aggregateId.trans h.aggregateId
  eventType := h'.eventType.trans h.eventType
  payload := h'.payload.trans h.payload
  createdAt := h'.createdAt.trans h.createdAt
  published hpublished := h'.published (h.published hpublished)
  retryCount := h.retryCount.trans h'.retryCount

theorem Extends.refl (A : Aggregate) : Extends A A :=
  ⟨fun row hrow => ⟨row, hrow, .refl row⟩, .refl .refl _, List.prefix_refl _, .refl .refl _⟩

theorem Extends.trans {A A' A'' : Aggregate} (h : Extends A A') (h' : Extends A' A'') :
    Extends A A'' where
  message row hrow := by
    obtain ⟨row', hrow', hkept⟩ := h.message row hrow
    obtain ⟨row'', hrow'', hkept'⟩ := h'.message row' hrow'
    exact ⟨row'', hrow'', hkept.trans hkept'⟩
  attempts := h.attempts.trans KeptAttempt.trans h'.attempts
  resolutions := h.resolutions.trans h'.resolutions
  outbox := h.outbox.trans KeptEvent.trans h'.outbox

end Order

section Steps

variable {m : String} {A A' : Aggregate}

theorem grows_replace {α : Type} {t : Table α} {R : α → α → Prop} (hrefl : ∀ x, R x x)
    {xs : List α} (hnodup : (xs.map t.idOf).Nodup) {old new : α} (hold : old ∈ xs)
    (hid : t.idOf new = t.idOf old) (h : R old new) : Grows R xs (t.replace new xs) := by
  refine grows_map fun x hx => ?_
  by_cases hsame : t.idOf x = t.idOf new
  · obtain rfl := List.inj_on_of_nodup_map hnodup hx hold (hsame.trans hid)
    rw [if_pos hsame]
    exact h
  · rw [if_neg hsame]
    exact hrefl x

theorem grows_intended {intent : OutboxIntent} {events events' : List OutboxEvent}
    (h : Intended m intent events events') : Grows KeptEvent events events' := by
  obtain ⟨c, _, _, rfl⟩ := h
  exact (Grows.refl .refl events).append _

theorem Extends.withMessage {row row' : SmsMessage} {events : List OutboxEvent}
    (hrow : A.message = some row) (hkept : KeptMessage row row')
    (hevents : Grows KeptEvent A.outbox events) :
    Extends A { A with message := some row', outbox := events } := by
  refine ⟨fun old hold => ?_, .refl .refl _, List.prefix_refl _, hevents⟩
  obtain rfl := Option.some.inj (hrow.symm.trans hold)
  exact ⟨row', rfl, hkept⟩

theorem keptMessage_of_transition {source : SmsStateMachine.SmsStatus → Bool}
    {target : SmsStateMachine.SmsStatus} {data : SmsMessage → SmsMessage}
    {intent : Option OutboxIntent} (h : Transition m source target data intent)
    (row : SmsMessage) : KeptMessage row (data row) := by
  cases h with
  | retried opts => exact ⟨rfl, rfl, rfl, rfl, rfl, rfl, rfl, fun _ h => h, Nat.le_succ _⟩
  | _ => exact ⟨rfl, rfl, rfl, rfl, rfl, rfl, rfl, fun _ h => h, le_refl _⟩

theorem Moved.extends {source : SmsStateMachine.SmsStatus → Bool}
    {target : SmsStateMachine.SmsStatus} {data : SmsMessage → SmsMessage}
    {intent : Option OutboxIntent} (hdata : ∀ row, KeptMessage row (data row))
    (h : Moved m source target data intent A A') : Extends A A' := by
  obtain ⟨row, now, events', hrow, _, hevents, rfl⟩ := h
  refine Extends.withMessage hrow ?_ ?_
  · obtain ⟨h₁, h₂, h₃, h₄, h₅, h₆, h₇, h₈, h₉⟩ := hdata row
    exact ⟨h₁, h₂, h₃, h₄, h₅, h₆, h₇, h₈, h₉⟩
  · cases intent with
    | none => exact hevents ▸ .refl .refl _
    | some intent => exact grows_intended hevents

theorem keptAttempt_record (input : FinalizeProviderAttemptInput) {old : SmsAttempt}
    (hreserved : old.outcome = .reserved) : KeptAttempt old (input.record old) := by
  refine ⟨record_id input old, record_smsMessageId input old, record_provider input old, ?_,
    fun hresult => absurd hreserved hresult⟩
  cases input <;> rfl

theorem Finalized.extends {attemptId : String} {input : FinalizeProviderAttemptInput}
    (hledger : Ledger A) (hkeyed : A.Keyed) (h : Finalized m attemptId input A A') :
    Extends A A' := by
  obtain ⟨old, hold, _, hreserved, hrest⟩ := h
  have hattempts := grows_replace (t := smsAttempt) KeptAttempt.refl hkeyed.attempts hold
    (record_id input old) (keptAttempt_record input hreserved)
  rcases input with providerMessageId | ⟨_ | _, isRetryable, errorMessage, delayMs⟩
  · obtain ⟨row, now, hrow, hstatus, rfl⟩ := hrest
    refine ⟨fun row' hrow' => ⟨_, rfl, ?_⟩, hattempts, List.prefix_refl _, .refl .refl _⟩
    obtain rfl := Option.some.inj (hrow.symm.trans hrow')
    have hnone := hledger.providerMessageId_eq_none hrow (by rw [hstatus]; rfl)
    exact ⟨rfl, rfl, rfl, rfl, rfl, rfl, rfl, fun x hx => by simp [hnone] at hx, le_refl _⟩
  · obtain ⟨row, now, hrow, hstatus, rfl⟩ := hrest
    refine ⟨fun row' hrow' => ⟨_, rfl, ?_⟩, hattempts, List.prefix_refl _, .refl .refl _⟩
    obtain rfl := Option.some.inj (hrow.symm.trans hrow')
    exact ⟨rfl, rfl, rfl, rfl, rfl, rfl, rfl, fun _ h => h, le_refl _⟩
  · obtain ⟨delay, events', _, hevents, rfl⟩ := hrest
    exact ⟨fun row hrow => ⟨row, hrow, .refl row⟩, hattempts, List.prefix_refl _,
      grows_intended hevents⟩

theorem Resolved.extends {attemptId : String} {input : ResolveTwilioAttemptInput}
    (hledger : Ledger A) (h : Resolved m attemptId input A A') : Extends A A' := by
  obtain ⟨row, c, c', hrow, hstatus, _, rfl⟩ := h
  refine ⟨fun row' hrow' => ⟨_, rfl, ?_⟩, .refl .refl _, List.prefix_append _ _, .refl .refl _⟩
  obtain rfl := Option.some.inj (hrow.symm.trans hrow')
  have hnone := hledger.providerMessageId_eq_none hrow (by rw [hstatus]; rfl)
  rcases input with sid | ⟨⟨⟩⟩
  · exact ⟨rfl, rfl, rfl, rfl, rfl, rfl, rfl, fun x hx => by simp [hnone] at hx, le_refl _⟩
  · exact ⟨rfl, rfl, rfl, rfl, rfl, rfl, rfl, fun _ h => h, le_refl _⟩

theorem Relayed.extends {q : Control} (hkeyed : A.Keyed) (h : Relayed q A A') : Extends A A' := by
  obtain ⟨row, hrow, data, c, hq, rfl⟩ := h
  have hkept : KeptEvent row (data c row) := by
    rcases data_of_updating hq with rfl | ⟨error, rfl⟩
    · exact ⟨rfl, rfl, rfl, rfl, rfl, rfl, fun _ => rfl, le_refl _⟩
    · exact ⟨rfl, rfl, rfl, rfl, rfl, rfl, fun h => h, Nat.le_succ _⟩
  exact ⟨fun row hrow => ⟨row, hrow, .refl row⟩, .refl .refl _, List.prefix_refl _,
    grows_replace .refl hkeyed.outbox hrow hkept.id hkept⟩

theorem MessageStep.extends {q : Control} (hledger : Ledger A) (hkeyed : A.Keyed)
    (h : MessageStep q m A A') : Extends A A' := by
  cases h with
  | created call hcreated =>
      obtain ⟨c, events', hnone, _, _, hevents, rfl⟩ := hcreated
      exact ⟨fun row hrow => by simp [hnone] at hrow, .refl .refl _, List.prefix_refl _,
        grows_intended hevents⟩
  | moved htransition hmoved => exact Moved.extends (keptMessage_of_transition htransition) hmoved
  | requeued _ hrequeued =>
      have hdata : ∀ row, KeptMessage row (retryBudgetRestored row) :=
        fun _ => ⟨rfl, rfl, rfl, rfl, rfl, rfl, rfl, fun _ h => h, le_refl _⟩
      exact Moved.extends hdata hrequeued
  | reserved providerName attemptId _ hreserved =>
      obtain ⟨row, now, c, hrow, _, _, rfl⟩ := hreserved
      refine ⟨fun row' hrow' => ⟨_, rfl, ?_⟩, (Grows.refl .refl _).append _, List.prefix_refl _,
        .refl .refl _⟩
      obtain rfl := Option.some.inj (hrow.symm.trans hrow')
      exact ⟨rfl, rfl, rfl, rfl, rfl, rfl, rfl, fun _ h => h, Nat.le_succ _⟩
  | finalized attemptId input _ hfinalized => exact Finalized.extends hledger hkeyed hfinalized
  | resolved attemptId input hresolved => exact Resolved.extends hledger hresolved
  | relayed hrelayed => exact Relayed.extends hkeyed hrelayed

end Steps

section Runs

variable {config : Config} {w w' : ServiceWorld}

theorem extends_of_step (h : Reaches config (Spawning Lifecycle) Initial w) {l : ServiceLabel}
    (hl : Spawning Lifecycle w.abs l) (hstep : (service config).step w l = some w') (m : String) :
    Extends (aggregate w.store m) (aggregate w'.store m) := by
  obtain hsame | ⟨i, q, _, _, hmessage⟩ :=
    messageStep_of_step (fun _ q hq => hq q rfl) h hl hstep m
  · exact hsame ▸ .refl _
  · have hledger := ledger_of_reachable (h.atomic fun _ q hq => hq q rfl).2 m
    exact MessageStep.extends hledger (keyed _ _) hmessage

theorem extends_of_later (h : Reaches config (Spawning Lifecycle) Initial w)
    (hlater : Later config (Spawning Lifecycle) w w') (m : String) :
    Extends (aggregate w.store m) (aggregate w'.store m) := by
  induction hlater with
  | start h0 => exact h0 ▸ .refl _
  | next l hprev hl hstep ih =>
      have hreach := h.later (fun _ _ hl => hl) hprev
      exact ih.trans (extends_of_step hreach hl hstep m)

/-- The audit trail is append-only: what a run has recorded about a message, its
columns that are written once, its attempts, their results, its resolutions and its
outbox events, is still recorded at every later time. -/
theorem audit_trail_append_only (h : Reaches config (Spawning Lifecycle) Initial w)
    (hlater : Later config (Spawning Lifecycle) w w') (m : String) :
    Extends (aggregate w.store m) (aggregate w'.store m) :=
  extends_of_later h hlater m

end Runs

/-- A message whose attempt is refused, and what is left of it when the message has been
dead-lettered. -/
theorem audit_trail_append_only_refused :
    ∃ w w', Reaches sampleConfig (Spawning Lifecycle) Initial w ∧
      Later sampleConfig (Spawning Lifecycle) w w' ∧
      (aggregate w.store "m").attempts.map SmsAttempt.outcome = [.failed] ∧
      Extends (aggregate w.store "m") (aggregate w'.store "m") := by
  obtain ⟨w, hw, hfailed, hstep⟩ := exists_reaches_of_exec sampleConfig (Spawning Lifecycle)
    (creation ++
      .spawn (.calling (.beginProcessing "m")) :: statements 1 2 (sampleChoice "" 1) ++ .commit 1 ::
      .spawn (.calling (.reserveProviderAttempt "m" "twilio")) ::
        statements 2 2 (sampleChoice "a" 2) ++ .commit 2 ::
      .spawn (.calling (.finalizeProviderAttempt "m" "a" (.failed false false "refused" none))) ::
        statements 3 2 (sampleChoice "" 3) ++ .commit 3 ::
      .spawn (.calling (.markFatalFailure "m" "refused")) ::
        statements 4 4 (sampleChoice "f" 4))
    (fun w => (aggregate w.store "m").attempts.map SmsAttempt.outcome = [.failed] ∧
      ((service sampleConfig).step w (.commit 4)).isSome)
    (by decide +kernel)
  obtain ⟨w', hw'⟩ := Option.isSome_iff_exists.mp hstep
  have hlater : Later sampleConfig (Spawning Lifecycle) w w' :=
    .next (.commit 4) (.start rfl) (fun _ hq => by cases hq) hw'
  exact ⟨w, w', hw, hlater, hfailed, audit_trail_append_only hw hlater "m"⟩

end SmsNotification.AuditTrail

import SmsNotification.AttemptLedger
import SmsNotification.LifecycleConformance

namespace SmsNotification.OutboxConservation

open SmsNotification.LabelledRuns
open SmsNotification.LifecycleConformance
open SmsNotification.LifecycleEffects
open SmsNotification.MessageAggregate
open SmsNotification.Schema
open SmsNotification.Service
open SmsNotification.ServiceEffects
open SmsNotification.ServiceRuns
open SmsNotification.SmsLifecycleRepository
open SmsNotification.SmsPersistenceRepository
open SmsNotification.SmsStateMachine

/-- The events that ask for a dispatch. -/
def isDispatchEvent (eventType : String) : Bool :=
  ["SMS_MESSAGE_QUEUED", "SMS_RETRY_SCHEDULED", "SMS_PROCESSING_RECOVERED",
    "SMS_REQUEUED"].contains eventType

def isDeadLetterEvent (eventType : String) : Bool :=
  eventType = "SMS_DEAD_LETTERED"

def isExpiryEvent (eventType : String) : Bool :=
  eventType = "SMS_AMBIGUOUS_OUTCOME_EXPIRY_SCHEDULED"

/-- The statuses from which a message is dispatched. -/
def isDispatchable (status : SmsStatus) : Bool :=
  status = .queued || status = .retryScheduled

/-- An attempt finalized without a definitive outcome. -/
def isUnresolved (a : SmsAttempt) : Bool :=
  a.outcome = .failed && a.isAmbiguous

theorem live_of_isUnresolved {a : SmsAttempt} (h : isUnresolved a) : AttemptLedger.Live a := by
  simp only [isUnresolved, Bool.and_eq_true] at h
  exact Or.inl h.2

/-- The number of outbox rows of a kind. -/
def intents (kind : String → Bool) (A : Aggregate) : Nat :=
  A.outbox.countP fun event => kind event.eventType

/-- The status of the message has become one of the given ones. -/
def enters (entered : SmsStatus → Bool) (A A' : Aggregate) : Bool :=
  A'.status ≠ A.status && A'.status.any entered

section Steps

variable {m : String} {A A' : Aggregate} {kind : String → Bool} {entered : SmsStatus → Bool}

theorem countP_intended (kind : String → Bool) {intent : OutboxIntent}
    {events events' : List OutboxEvent}
    (h : Intended m intent events events') :
    (events'.countP fun event => kind event.eventType) =
      (events.countP fun event => kind event.eventType) +
        if kind intent.eventType then 1 else 0 := by
  obtain ⟨c, _, _, rfl⟩ := h
  rw [List.countP_append, List.countP_singleton]
  rfl

theorem intents_of_relayed {q : Control} (hkeyed : A.Keyed) (h : Relayed q A A') :
    intents kind A' = intents kind A := by
  obtain ⟨row, hrow, data, c, hq, rfl⟩ := h
  obtain ⟨before, after, houtbox⟩ := List.append_of_mem hrow
  have hid : (data c row).id = row.id ∧ (data c row).eventType = row.eventType := by
    rcases data_of_updating hq with rfl | ⟨error, rfl⟩ <;> exact ⟨rfl, rfl⟩
  have hnodup := hkeyed.outbox
  simp only [intents]
  rw [houtbox] at hnodup ⊢
  rw [Table.replace_append hnodup hid.1]
  simp [List.countP_cons, hid.2]

/-- A kind of event and the statuses whose entry it records. -/
structure Records (kind : String → Bool) (entered : SmsStatus → Bool) : Prop where
  created : kind "SMS_MESSAGE_QUEUED" = entered .queued
  requeued : kind "SMS_REQUEUED" = entered .retryScheduled
  expiry : kind "SMS_AMBIGUOUS_OUTCOME_EXPIRY_SCHEDULED" = false
  pending : entered .processing = false ∧ entered .awaitingProviderResult = false
  final : entered .sent = false ∧ entered .undelivered = false
  transition : ∀ {m source target data intent}, Transition m source target data intent →
    intent.any (fun intent => kind intent.eventType) = entered target

theorem records_dispatch : Records isDispatchEvent isDispatchable where
  created := by decide
  requeued := by decide
  expiry := by decide
  pending := by decide
  final := by decide
  transition h := by
    cases h with
    | permanent status => cases status <;> rfl
    | reported status => cases status <;> rfl
    | _ => simp [isDispatchEvent, isDispatchable, processingRecovered, retryScheduled, deadLettered]

theorem records_deadLetter : Records isDeadLetterEvent (· = .fatalFailure) where
  created := by decide
  requeued := by decide
  expiry := by decide
  pending := by decide
  final := by decide
  transition h := by
    cases h with
    | permanent status => cases status <;> rfl
    | reported status => cases status <;> rfl
    | _ => simp [isDeadLetterEvent, processingRecovered, retryScheduled, deadLettered]

section Moves

variable {source : SmsStatus → Bool} {target : SmsStatus} {data : SmsMessage → SmsMessage}
  {intent : Option OutboxIntent}

theorem intents_of_moved (kind : String → Bool) (h : Moved m source target data intent A A') :
    intents kind A' =
      intents kind A + if intent.any (fun intent => kind intent.eventType) then 1 else 0 := by
  obtain ⟨row, now, events', _, _, hevents, rfl⟩ := h
  cases intent with
  | none => simp [intents, hevents]
  | some intent => exact countP_intended kind hevents

theorem enters_of_moved (hne : ∀ status, source status → status ≠ target)
    (h : Moved m source target data intent A A') : enters entered A A' = entered target := by
  obtain ⟨status, hstatus, hsource, htarget⟩ := Moved.status h
  simp [enters, hstatus, htarget, (hne status hsource).symm]

end Moves

theorem intents_of_messageStep {q : Control} (hrecords : Records kind entered)
    (hkeyed : A.Keyed) (h : MessageStep q m A A') :
    intents kind A' =
      intents kind A + if enters entered A A' then 1 else 0 := by
  cases h with
  | created call h =>
      obtain ⟨c, events', hnone, _, _, hevents, rfl⟩ := h
      have hcount := countP_intended kind hevents
      simpa [intents, enters, Aggregate.status, hnone, CreateOrGetMessage.message,
        messageQueued, hrecords.created] using hcount
  | moved htransition hmoved =>
      rw [intents_of_moved kind hmoved, hrecords.transition htransition,
        enters_of_moved (fun status hsource =>
          isValidTransition_ne (isValidTransition_of_transition htransition hsource)) hmoved]
  | requeued _ hrequeued =>
      have hne : ∀ status : SmsStatus, decide (status = .fatalFailure) →
          status ≠ .retryScheduled := by
        intro status hsource
        rw [of_decide_eq_true hsource]
        decide
      rw [intents_of_moved kind hrequeued, enters_of_moved hne hrequeued, ← hrecords.requeued]
      rfl
  | reserved providerName attemptId _ h =>
      obtain ⟨row, now, c, hrow, hprocessing, _, rfl⟩ := h
      simp [intents, enters, Aggregate.status, hrecords.pending.2]
  | finalized attemptId input _ h =>
      obtain ⟨old, _, _, _, hrest⟩ := h
      rcases input with providerMessageId | ⟨_ | _, isRetryable, errorMessage, delayMs⟩
      · obtain ⟨row, now, hrow, _, rfl⟩ := hrest
        simp [intents, enters, Aggregate.status, hrecords.final.1]
      · obtain ⟨row, now, hrow, _, rfl⟩ := hrest
        simp [intents, enters, Aggregate.status, hrecords.pending.1]
      · obtain ⟨delay, events', _, hevents, rfl⟩ := hrest
        have hcount := countP_intended kind hevents
        simpa [intents, enters, Aggregate.status, ambiguousOutcomeExpiryScheduled,
          hrecords.expiry] using hcount
  | resolved attemptId input h =>
      obtain ⟨row, c, c', hrow, _, _, rfl⟩ := h
      rcases input with sid | ⟨⟨⟩⟩ <;>
        simp [intents, enters, Aggregate.status, ResolveTwilioAttemptInput.apply,
          hrecords.final]
  | relayed h =>
      rw [intents_of_relayed hkeyed h]
      obtain ⟨row, _, data, c, _, rfl⟩ := h
      simp [enters, Aggregate.status]

/-- The expiries that are scheduled are those of the unresolved attempts. -/
def ExpiriesScheduled (A : Aggregate) : Prop :=
  intents isExpiryEvent A = A.attempts.countP isUnresolved

theorem not_expiry_of_transition {source : SmsStatus → Bool} {target : SmsStatus}
    {data : SmsMessage → SmsMessage} {intent : Option OutboxIntent}
    (h : Transition m source target data intent) :
    intent.any (fun intent => isExpiryEvent intent.eventType) = false := by
  cases h <;> simp [isExpiryEvent, processingRecovered, retryScheduled, deadLettered]

theorem countP_record (input : FinalizeProviderAttemptInput) {old : SmsAttempt}
    (hkeyed : A.Keyed) (hold : old ∈ A.attempts) (hreserved : old.outcome = .reserved) :
    (smsAttempt.replace (input.record old) A.attempts).countP isUnresolved =
      A.attempts.countP isUnresolved + if isUnresolved (input.record old) then 1 else 0 := by
  obtain ⟨before, after, hattempts⟩ := List.append_of_mem hold
  have hnodup := hkeyed.attempts
  rw [hattempts] at hnodup ⊢
  rw [Table.replace_append hnodup (record_id input old)]
  simp [List.countP_cons, isUnresolved, hreserved, Nat.add_assoc]

theorem expiriesScheduled_of_messageStep {q : Control} (hkeyed : A.Keyed)
    (hinv : ExpiriesScheduled A) (h : MessageStep q m A A') : ExpiriesScheduled A' := by
  unfold ExpiriesScheduled at hinv ⊢
  cases h with
  | created call h =>
      obtain ⟨c, events', hnone, _, _, hevents, rfl⟩ := h
      rw [← hinv]
      exact countP_intended isExpiryEvent hevents
  | moved htransition hmoved =>
      rw [intents_of_moved isExpiryEvent hmoved, not_expiry_of_transition htransition, hinv]
      obtain ⟨row, now, events', _, _, _, rfl⟩ := hmoved
      rfl
  | requeued _ hrequeued =>
      rw [intents_of_moved isExpiryEvent hrequeued]
      obtain ⟨row, now, events', _, _, _, rfl⟩ := hrequeued
      exact hinv
  | reserved providerName attemptId _ h =>
      obtain ⟨row, now, c, hrow, hprocessing, _, rfl⟩ := h
      rw [List.countP_append, ← hinv]
      rfl
  | finalized attemptId input _ h =>
      obtain ⟨old, hold, _, hreserved, hrest⟩ := h
      have hcount := countP_record input hkeyed hold hreserved
      rw [← hinv] at hcount
      rcases input with providerMessageId | ⟨_ | _, isRetryable, errorMessage, delayMs⟩
      · obtain ⟨row, now, hrow, _, rfl⟩ := hrest
        exact hcount.symm
      · obtain ⟨row, now, hrow, _, rfl⟩ := hrest
        exact hcount.symm
      · obtain ⟨delay, events', _, hevents, rfl⟩ := hrest
        exact (countP_intended isExpiryEvent hevents).trans hcount.symm
  | resolved attemptId input h =>
      obtain ⟨row, c, c', hrow, _, _, rfl⟩ := h
      exact hinv
  | relayed h =>
      rw [intents_of_relayed hkeyed h, hinv]
      obtain ⟨row, _, data, c, _, rfl⟩ := h
      rfl

end Steps

section Runs

variable {config : Config} {w : ServiceWorld} {past : List ServiceWorld}

/-- Along a run, the outbox rows of a kind count the entries that it records. -/
theorem intents_eq_occurrences {kind : String → Bool} {entered : SmsStatus → Bool}
    (hrecords : Records kind entered) (h : Runs config (Spawning Lifecycle) Initial (w :: past))
    (m : String) :
    intents kind (aggregate w.store m) =
      occurrences (fun w w' => enters entered (aggregate w.store m) (aggregate w'.store m))
        (w :: past) := by
  refine Run.count_eq (fun w => intents kind (aggregate w.store m)) _ (fun w hinit => ?_)
    (fun w l w' hreach hl hstep => ?_) h
  · rw [show w.store = _ from hinit.2.store, aggregate_empty]
    rfl
  · obtain hsame | ⟨i, q, _, _, hmessage⟩ :=
      messageStep_of_step (fun _ q hq => hq q rfl) hreach hl hstep m
    · simp [hsame, enters]
    · exact intents_of_messageStep hrecords (keyed _ _) hmessage

theorem expiriesScheduled_of_reaches (h : Reaches config (Spawning Lifecycle) Initial w)
    (m : String) : ExpiriesScheduled (aggregate w.store m) := by
  refine aggregate_invariant (fun _ A => ExpiriesScheduled A) (fun a hinit m => ?_)
    (fun q m A A' hkeyed hinv hstep => expiriesScheduled_of_messageStep hkeyed hinv hstep)
    (h.atomic fun _ q hq => hq q rfl).2 m
  rw [hinit.store, aggregate_empty]
  rfl

/-- Outbox conservation: in every run from an empty database, the rows that ask
for a dispatch, the dead letters and the scheduled expiries of a message are as
many as what they stand for. -/
theorem outbox_conservation (h : Runs config (Spawning Lifecycle) Initial (w :: past))
    (m : String) :
    let A := aggregate w.store m
    let entries := fun entered => occurrences
      (fun w w' => enters entered (aggregate w.store m) (aggregate w'.store m)) (w :: past)
    (A.outbox.countP fun event => isDispatchEvent event.eventType) =
        entries (fun status => status = .queued || status = .retryScheduled) ∧
      (A.outbox.countP fun event => event.eventType = "SMS_DEAD_LETTERED") =
        entries (fun status => status = .fatalFailure) ∧
      (A.outbox.countP fun event =>
          event.eventType = "SMS_AMBIGUOUS_OUTCOME_EXPIRY_SCHEDULED") =
        A.attempts.countP fun a => a.outcome = .failed && a.isAmbiguous := by
  refine ⟨intents_eq_occurrences records_dispatch h m,
    intents_eq_occurrences records_deadLetter h m, ?_⟩
  exact expiriesScheduled_of_reaches (Run.reachable h w List.mem_cons_self) m

/-- Two requeues of one message, of which the second loses the race. -/
theorem outbox_conservation_requeues :
    ∃ w past, Runs sampleConfig (Spawning Lifecycle) Initial (w :: past) ∧
      ((aggregate w.store "m").outbox.countP fun event => isDispatchEvent event.eventType) = 2 ∧
      occurrences (fun w w' => enters (fun status => status = .queued || status = .retryScheduled)
        (aggregate w.store "m") (aggregate w'.store "m")) (w :: past) = 2 := by
  obtain ⟨states, hruns, hcount⟩ := exists_runs_of_replay sampleConfig (Spawning Lifecycle)
    (creation ++
      .spawn (.calling (.beginProcessing "m")) :: statements 1 2 (sampleChoice "" 1) ++ .commit 1 ::
      .spawn (.calling (.markFatalFailure "m" "no provider")) ::
        statements 2 4 (sampleChoice "f" 2) ++ .commit 2 ::
      .spawn (.calling (.resetForRequeue "m")) :: .spawn (.calling (.resetForRequeue "m")) ::
        statements 3 1 (sampleChoice "" 3) ++ statements 4 1 (sampleChoice "" 3) ++
        statements 3 3 (sampleChoice "r" 4) ++ .commit 3 :: statements 4 1 (sampleChoice "r'" 5))
    (fun states => states.head?.map (fun w =>
      (aggregate w.store "m").outbox.countP fun event => isDispatchEvent event.eventType) = some 2)
    (by decide +kernel)
  cases states with
  | nil => simp at hcount
  | cons w past =>
      have hcount := Option.some.inj hcount
      exact ⟨w, past, hruns, hcount, (outbox_conservation hruns "m").1.symm.trans hcount⟩

end Runs

end SmsNotification.OutboxConservation

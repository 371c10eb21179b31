import SmsNotification.AuditTrail
import SmsNotification.OutboxConservation

namespace SmsNotification.OutboxJournal

open SmsNotification.AttemptLedger
open SmsNotification.AuditTrail
open SmsNotification.LifecycleConformance
open SmsNotification.LifecycleEffects
open SmsNotification.MessageAggregate
open SmsNotification.OutboxConservation
open SmsNotification.Schema
open SmsNotification.Service
open SmsNotification.ServiceEffects
open SmsNotification.ServiceRuns
open SmsNotification.SmsLifecycleRepository
open SmsNotification.SmsStateMachine

/-- Where the events leave a message: not created, asked to be dispatched, with the
retries since it was created or requeued, dead-lettered, or with an outcome that nobody
knows. -/
inductive Journal where
  | blank
  | asked (retries : Nat)
  | deadLettered
  | expiring
  deriving DecidableEq, Repr

/-- The next event; none where it cannot come here. -/
def Journal.read (journal : Journal) (eventType : String) : Option Journal :=
  match journal with
  | .blank => if eventType = "SMS_MESSAGE_QUEUED" then some (.asked 0) else none
  | .asked retries =>
      if eventType = "SMS_RETRY_SCHEDULED" then some (.asked (retries + 1))
      else if eventType = "SMS_PROCESSING_RECOVERED" then some (.asked retries)
      else if eventType = "SMS_DEAD_LETTERED" then some .deadLettered
      else if eventType = "SMS_AMBIGUOUS_OUTCOME_EXPIRY_SCHEDULED" then some .expiring
      else none
  | .deadLettered => if eventType = "SMS_REQUEUED" then some (.asked 0) else none
  | .expiring => none

/-- The journal of a list of event types. -/
def journalOf (eventTypes : List String) : Option Journal :=
  eventTypes.foldlM Journal.read .blank

def eventTypes (A : Aggregate) : List String :=
  A.outbox.map OutboxEvent.eventType

/-- What the state of the journal says about the message. -/
def Tells (A : Aggregate) : Journal → Prop
  | .blank => A.message = none
  | .asked retries => ∃ row, A.message = some row ∧ row.status ≠ .fatalFailure ∧
      row.retryRounds ≤ retries ∧ ∀ a ∈ A.attempts, isUnresolved a = false
  | .deadLettered => ∃ row, A.message = some row ∧ row.status = .fatalFailure
  | .expiring => ∃ row, A.message = some row ∧ row.status ≠ .fatalFailure ∧
      ∃ a ∈ A.attempts, isUnresolved a

/-- The outbox of the message is a word of the journal, and the journal is right. -/
def Journaled (A : Aggregate) : Prop :=
  ∃ journal, journalOf (eventTypes A) = some journal ∧ Tells A journal

theorem journalOf_concat (eventTypes : List String) (eventType : String) :
    journalOf (eventTypes ++ [eventType]) =
      (journalOf eventTypes).bind fun journal => journal.read eventType := by
  simp [journalOf, List.foldlM_append]

section Steps

variable {m : String} {A A' : Aggregate} {journal : Journal}

theorem eventTypes_of_intended {intent : OutboxIntent} {events events' : List OutboxEvent}
    (h : Intended m intent events events') :
    events'.map OutboxEvent.eventType =
      events.map OutboxEvent.eventType ++ [intent.eventType] := by
  obtain ⟨c, _, _, rfl⟩ := h
  rw [List.map_append]
  rfl

theorem resolved_of_open (hledger : Ledger A) {row : SmsMessage} (hrow : A.message = some row)
    (hopen : isOpen row.status) : ∀ a ∈ A.attempts, isUnresolved a = false := by
  intro a ha
  by_contra hunresolved
  rw [Bool.not_eq_false] at hunresolved
  exact hledger.idle row hrow hopen a ha (live_of_isUnresolved hunresolved)

theorem tells_of_row (h : Tells A journal) {row : SmsMessage} (hrow : A.message = some row)
    (hstatus : row.status ≠ .fatalFailure) :
    (∃ retries, journal = .asked retries ∧ row.retryRounds ≤ retries ∧
      ∀ a ∈ A.attempts, isUnresolved a = false) ∨
      (journal = .expiring ∧ ∃ a ∈ A.attempts, isUnresolved a) := by
  cases journal with
  | blank => simp [show A.message = none from h] at hrow
  | asked retries =>
      obtain ⟨row', hrow', _, hrounds, hresolved⟩ := h
      obtain rfl := Option.some.inj (hrow.symm.trans hrow')
      exact Or.inl ⟨retries, rfl, hrounds, hresolved⟩
  | deadLettered =>
      obtain ⟨row', hrow', hfatal⟩ := h
      obtain rfl := Option.some.inj (hrow.symm.trans hrow')
      exact absurd hfatal hstatus
  | expiring =>
      obtain ⟨row', hrow', _, hunresolved⟩ := h
      exact Or.inr ⟨rfl, hunresolved⟩

theorem asked_of_open (hledger : Ledger A) (h : Tells A journal) {row : SmsMessage}
    (hrow : A.message = some row) (hstatus : row.status ≠ .fatalFailure)
    (hopen : isOpen row.status) :
    ∃ retries, journal = .asked retries ∧ row.retryRounds ≤ retries := by
  obtain ⟨retries, hjournal, hrounds, _⟩ | ⟨_, a, ha, hunresolved⟩ := tells_of_row h hrow hstatus
  · exact ⟨retries, hjournal, hrounds⟩
  · simp [resolved_of_open hledger hrow hopen a ha] at hunresolved

theorem Tells.withMessage (h : Tells A journal) {row new : SmsMessage}
    (hrow : A.message = some row) (hsource : row.status ≠ .fatalFailure)
    (htarget : new.status ≠ .fatalFailure) (hrounds : new.retryRounds = row.retryRounds) :
    Tells { A with message := some new } journal := by
  obtain ⟨retries, rfl, hle, hresolved⟩ | ⟨rfl, hunresolved⟩ := tells_of_row h hrow hsource
  · exact ⟨new, rfl, htarget, hrounds ▸ hle, hresolved⟩
  · exact ⟨new, rfl, htarget, hunresolved⟩

theorem silent_or_recorded {source : SmsStatus → Bool} {target status : SmsStatus}
    {data : SmsMessage → SmsMessage} {intent : Option OutboxIntent}
    (h : Transition m source target data intent) (hsource : source status) :
    (intent = none ∧ target ≠ .fatalFailure ∧ ∀ row, (data row).retryRounds = row.retryRounds) ∨
      (status = .processing ∧ ∃ recorded, intent = some recorded ∧ ∀ row retries,
        row.retryRounds ≤ retries → ∃ journal,
          (Journal.asked retries).read recorded.eventType = some journal ∧
          ((target = .fatalFailure ∧ journal = .deadLettered) ∨
            (target ≠ .fatalFailure ∧ ∃ retries', journal = .asked retries' ∧
              (data row).retryRounds ≤ retries'))) := by
  cases h with
  | begun => exact Or.inl ⟨rfl, by decide, fun _ => rfl⟩
  | recovered =>
      exact Or.inr ⟨of_decide_eq_true hsource, _, rfl, fun row retries hle =>
        ⟨.asked retries, rfl, Or.inr ⟨by decide, retries, rfl, hle⟩⟩⟩
  | retried opts =>
      refine Or.inr ⟨?_, _, rfl, fun row retries hle =>
        ⟨.asked (retries + 1), rfl, Or.inr ⟨by decide, retries + 1, rfl, ?_⟩⟩⟩
      · cases status <;> simp_all [isValidTransition, transitionTable]
      · simp only [ScheduleRetryOptions.data]
        split <;> omega
  | permanent status' => exact Or.inl ⟨rfl, by cases status' <;> decide, fun _ => rfl⟩
  | fatal lastError =>
      refine Or.inr ⟨?_, _, rfl, fun row retries _ => ⟨.deadLettered, rfl, Or.inl ⟨rfl, rfl⟩⟩⟩
      cases status <;> simp_all [isValidTransition, transitionTable]
  | expired => exact Or.inl ⟨rfl, by decide, fun _ => rfl⟩
  | reported status' => exact Or.inl ⟨rfl, by cases status' <;> decide, fun _ => rfl⟩

theorem Journaled.moved (h : Journaled A) (hledger : Ledger A) {source : SmsStatus → Bool}
    {target : SmsStatus} {data : SmsMessage → SmsMessage} {intent : Option OutboxIntent}
    (htransition : Transition m source target data intent)
    (hmoved : Moved m source target data intent A A') : Journaled A' := by
  obtain ⟨journal, hjournal, htells⟩ := h
  obtain ⟨row, now, events', hrow, hsource, hevents, rfl⟩ := hmoved
  have hfatal : row.status ≠ .fatalFailure := by
    intro hfatal
    have hvalid := isValidTransition_of_transition htransition hsource
    simp [hfatal, isValidTransition, transitionTable] at hvalid
  obtain ⟨rfl, htarget, hrounds⟩ | ⟨hprocessing, recorded, rfl, hread⟩ :=
    silent_or_recorded htransition hsource
  · obtain rfl : events' = A.outbox := hevents
    exact ⟨journal, hjournal, htells.withMessage hrow hfatal htarget (hrounds row)⟩
  · have hopen : isOpen row.status := by rw [hprocessing]; rfl
    have hresolved := resolved_of_open hledger hrow hopen
    obtain ⟨retries, rfl, hle⟩ := asked_of_open hledger htells hrow hfatal hopen
    obtain ⟨journal', hread, hcases⟩ := hread row retries hle
    refine ⟨journal', ?_, ?_⟩
    · rw [eventTypes, eventTypes_of_intended hevents, journalOf_concat,
        show journalOf (A.outbox.map OutboxEvent.eventType) = _ from hjournal]
      exact hread
    · rcases hcases with ⟨htarget, rfl⟩ | ⟨htarget, retries', rfl, hle'⟩
      · exact ⟨_, rfl, htarget⟩
      · exact ⟨_, rfl, htarget, hle', hresolved⟩

theorem Journaled.requeued (h : Journaled A) (hledger : Ledger A) (hrequeued : Requeued m A A') :
    Journaled A' := by
  obtain ⟨journal, hjournal, htells⟩ := h
  obtain ⟨row, now, events', hrow, hsource, hevents, rfl⟩ := hrequeued
  have hfatal := of_decide_eq_true hsource
  have hdead : journal = .deadLettered := by
    cases journal with
    | blank => simp [show A.message = none from htells] at hrow
    | deadLettered => rfl
    | asked retries =>
        obtain ⟨row', hrow', hstatus, _⟩ := htells
        exact absurd hfatal (Option.some.inj (hrow.symm.trans hrow') ▸ hstatus)
    | expiring =>
        obtain ⟨row', hrow', hstatus, _⟩ := htells
        exact absurd hfatal (Option.some.inj (hrow.symm.trans hrow') ▸ hstatus)
  have hresolved := resolved_of_open hledger hrow (by rw [hfatal]; rfl)
  refine ⟨.asked 0, ?_, _, rfl, by simp, le_refl _, hresolved⟩
  rw [eventTypes, eventTypes_of_intended hevents, journalOf_concat,
    show journalOf (A.outbox.map OutboxEvent.eventType) = _ from hjournal, hdead]
  rfl

theorem Journaled.created (h : Journaled A) (hledger : Ledger A)
    {call : SmsPersistenceRepository.CreateOrGetMessage} (hcreated : Created call m A A') :
    Journaled A' := by
  obtain ⟨journal, hjournal, htells⟩ := h
  obtain ⟨c, events', hnone, _, _, hevents, rfl⟩ := hcreated
  have hblank : journal = .blank := by
    cases journal with
    | blank => rfl
    | asked retries => simp [Tells, hnone] at htells
    | deadLettered => simp [Tells, hnone] at htells
    | expiring => simp [Tells, hnone] at htells
  refine ⟨.asked 0, ?_, _, rfl, by simp [SmsPersistenceRepository.CreateOrGetMessage.message],
    le_refl _, by simp [(hledger.absent hnone).1]⟩
  rw [eventTypes, eventTypes_of_intended hevents, journalOf_concat,
    show journalOf (A.outbox.map OutboxEvent.eventType) = _ from hjournal, hblank]
  rfl

theorem Journaled.reserved (h : Journaled A) {providerName attemptId : String}
    (hreserved : Reserved m providerName attemptId A A') : Journaled A' := by
  obtain ⟨journal, hjournal, htells⟩ := h
  obtain ⟨row, now, c, hrow, hstatus, _, rfl⟩ := hreserved
  refine ⟨journal, hjournal, ?_⟩
  obtain ⟨retries, rfl, hle, hresolved⟩ | ⟨rfl, a, ha, hunresolved⟩ :=
    tells_of_row htells hrow (by simp [hstatus])
  · refine ⟨_, rfl, by simp, hle, fun a ha => ?_⟩
    rcases List.mem_append.mp ha with ha | ha
    · exact hresolved a ha
    · rw [List.mem_singleton.mp ha]
      rfl
  · exact ⟨_, rfl, by simp, a, List.mem_append_left _ ha, hunresolved⟩

theorem asked_of_reserved (hledger : Ledger A) (h : Tells A journal) {old : SmsAttempt}
    (hold : old ∈ A.attempts) (hreserved : old.outcome = .reserved) :
    ∃ row retries, A.message = some row ∧ row.status ≠ .fatalFailure ∧
      journal = .asked retries ∧ row.retryRounds ≤ retries ∧
      ∀ a ∈ A.attempts, isUnresolved a = false := by
  have hlive := hledger.live_of_reserved hold hreserved
  cases hrow : A.message with
  | none =>
      rw [(hledger.absent hrow).1] at hold
      simp at hold
  | some row =>
      have hfatal : row.status ≠ .fatalFailure := fun hfatal =>
        hledger.idle row hrow (by rw [hfatal]; rfl) old hold hlive
      obtain ⟨retries, hjournal, hle, hresolved⟩ | ⟨_, a, ha, hunresolved⟩ :=
        tells_of_row h hrow hfatal
      · exact ⟨row, retries, rfl, hfatal, hjournal, hle, hresolved⟩
      · -- the reservation would be the attempt without an outcome
        obtain rfl := hledger.eq_of_live ha hold (live_of_isUnresolved hunresolved) hlive
        simp [isUnresolved, hreserved] at hunresolved

theorem Journaled.finalized (h : Journaled A) (hledger : Ledger A) {attemptId : String}
    {input : FinalizeProviderAttemptInput} (hfinalized : Finalized m attemptId input A A') :
    Journaled A' := by
  obtain ⟨journal, hjournal, htells⟩ := h
  obtain ⟨old, hold, _, hreserved, hrest⟩ := hfinalized
  obtain ⟨row, retries, hrow, hfatal, rfl, hle, hresolved⟩ :=
    asked_of_reserved hledger htells hold hreserved
  have hothers : isUnresolved (input.record old) = false →
      ∀ a ∈ smsAttempt.replace (input.record old) A.attempts, isUnresolved a = false := by
    intro hnew a ha
    rcases Table.mem_of_mem_replace ha with rfl | ⟨ha, _⟩
    · exact hnew
    · exact hresolved a ha
  rcases input with providerMessageId | ⟨_ | _, isRetryable, errorMessage, delayMs⟩
  · obtain ⟨row', now, hrow', _, rfl⟩ := hrest
    obtain rfl := Option.some.inj (hrow.symm.trans hrow')
    exact ⟨_, hjournal, _, rfl, by simp, hle, hothers rfl⟩
  · obtain ⟨row', now, hrow', _, rfl⟩ := hrest
    obtain rfl := Option.some.inj (hrow.symm.trans hrow')
    exact ⟨_, hjournal, _, rfl, by simp, hle, hothers rfl⟩
  · obtain ⟨delay, events', _, hevents, rfl⟩ := hrest
    refine ⟨.expiring, ?_, row, hrow, hfatal, _,
      Table.mem_replace_of_eq hold (record_id _ old).symm, rfl⟩
    rw [eventTypes, eventTypes_of_intended hevents, journalOf_concat,
      show journalOf (A.outbox.map OutboxEvent.eventType) = _ from hjournal]
    rfl

theorem Journaled.resolved (h : Journaled A) {attemptId : String}
    {input : ResolveTwilioAttemptInput} (hresolved : Resolved m attemptId input A A') :
    Journaled A' := by
  obtain ⟨journal, hjournal, htells⟩ := h
  obtain ⟨row, c, c', hrow, hstatus, _, rfl⟩ := hresolved
  have hsource : row.status ≠ .fatalFailure := by simp [hstatus]
  have happlied : (input.apply c row).status ≠ .fatalFailure ∧
      (input.apply c row).retryRounds = row.retryRounds := by
    rcases input with sid | ⟨⟨⟩⟩ <;> simp [ResolveTwilioAttemptInput.apply]
  exact ⟨journal, hjournal, htells.withMessage hrow hsource happlied.1 happlied.2⟩

theorem eventTypes_of_relayed {q : Control} (hkeyed : A.Keyed) (h : Relayed q A A') :
    eventTypes A' = eventTypes A := by
  have hkept := (Relayed.extends hkeyed h).outbox.map_prefix
    (f := OutboxEvent.eventType) fun _ _ hkept => hkept.eventType.symm
  obtain ⟨row, _, data, c, _, rfl⟩ := h
  exact (hkept.eq_of_length (by simp [Table.replace])).symm

theorem Journaled.relayed (h : Journaled A) {q : Control} (hkeyed : A.Keyed)
    (hrelayed : Relayed q A A') : Journaled A' := by
  obtain ⟨journal, hjournal, htells⟩ := h
  refine ⟨journal, by rw [eventTypes_of_relayed hkeyed hrelayed, hjournal], ?_⟩
  obtain ⟨row, _, data, c, _, rfl⟩ := hrelayed
  cases journal <;> exact htells

/-- Every step of the service writes the journal on. -/
theorem Journaled.step {q : Control} (h : Journaled A) (hledger : Ledger A) (hkeyed : A.Keyed)
    (hstep : MessageStep q m A A') : Journaled A' := by
  cases hstep with
  | created call hcreated => exact h.created hledger hcreated
  | moved htransition hmoved => exact h.moved hledger htransition hmoved
  | requeued _ hrequeued => exact h.requeued hledger hrequeued
  | reserved providerName attemptId _ hreserved => exact h.reserved hreserved
  | finalized attemptId input _ hfinalized => exact h.finalized hledger hfinalized
  | resolved attemptId input hresolved => exact h.resolved hresolved
  | relayed hrelayed => exact h.relayed hkeyed hrelayed

end Steps

theorem journaled_of_reaches {config : Config} {w : ServiceWorld}
    (h : Reaches config (Spawning Lifecycle) Initial w) (m : String) :
    Journaled (aggregate w.store m) := by
  refine (aggregate_invariant (fun _ A => Ledger A ∧ Journaled A) (fun a hinit m => ?_)
    (fun q m A A' hkeyed hinv hstep =>
      ⟨hinv.1.step hkeyed hstep, hinv.2.step hinv.1 hkeyed hstep⟩)
    (h.atomic fun _ q hq => hq q rfl).2 m).2
  rw [hinit.store, aggregate_empty]
  exact ⟨by constructor <;> simp, .blank, rfl, rfl⟩

/-- The outbox is a journal of its message in every reachable state: the event types come
only in the order that the journal reads, the message is dead-lettered exactly where the
last event says so, an expiry is scheduled exactly where an attempt ended without a
definitive outcome and is the last event of all, and the retry rounds used are among the
retries recorded since the message was created or requeued. -/
theorem outbox_journal {config : Config} {w : ServiceWorld}
    (h : Reaches config (Spawning Lifecycle) Initial w) (m : String) :
    ∃ journal, journalOf ((aggregate w.store m).outbox.map OutboxEvent.eventType) =
      some journal ∧ Tells (aggregate w.store m) journal := by
  obtain ⟨journal, hjournal, htells⟩ := journaled_of_reaches h m
  exact ⟨journal, hjournal, htells⟩

/-- A message that has been retried and then dead-lettered. -/
theorem outbox_journal_retried :
    ∃ w, Reaches sampleConfig (Spawning Lifecycle) Initial w ∧
      (aggregate w.store "m").outbox.map OutboxEvent.eventType =
        ["SMS_MESSAGE_QUEUED", "SMS_RETRY_SCHEDULED", "SMS_DEAD_LETTERED"] ∧
      ∃ journal, journalOf ((aggregate w.store "m").outbox.map OutboxEvent.eventType) =
        some journal ∧ Tells (aggregate w.store "m") journal := by
  obtain ⟨w, hw, htypes⟩ := exists_reaches_of_exec sampleConfig (Spawning Lifecycle)
    (creation ++
      .spawn (.calling (.beginProcessing "m")) :: statements 1 2 (sampleChoice "" 1) ++ .commit 1 ::
      .spawn (.calling (.scheduleRetry "m" ⟨true, 2000, none⟩)) ::
        statements 2 4 (sampleChoice "r" 2) ++ .commit 2 ::
      .spawn (.calling (.beginProcessing "m")) :: statements 3 2 (sampleChoice "" 3) ++ .commit 3 ::
      .spawn (.calling (.markFatalFailure "m" "refused")) ::
        statements 4 4 (sampleChoice "f" 4) ++ [.commit 4])
    (fun w => (aggregate w.store "m").outbox.map OutboxEvent.eventType =
      ["SMS_MESSAGE_QUEUED", "SMS_RETRY_SCHEDULED", "SMS_DEAD_LETTERED"])
    (by decide +kernel)
  exact ⟨w, hw, htypes, outbox_journal hw "m"⟩

end SmsNotification.OutboxJournal

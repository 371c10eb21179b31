import SmsNotification.AttemptLedger

namespace SmsNotification.VerdictEvidence

open SmsNotification.AttemptLedger
open SmsNotification.LifecycleEffects
open SmsNotification.MessageAggregate
open SmsNotification.Schema
open SmsNotification.Service
open SmsNotification.ServiceEffects
open SmsNotification.ServiceRuns
open SmsNotification.SmsLifecycleRepository
open SmsNotification.SmsStateMachine

/-- A provider has accepted one of the attempts. -/
def HasAccepted (A : Aggregate) : Prop :=
  ∃ a ∈ A.attempts, a.outcome = .accepted

/-- The row of a message with its evidence. -/
structure Evidence (A : Aggregate) : Prop where
  selected : ∀ row, A.message = some row →
    row.selectedProvider = A.attempts.getLast?.map SmsAttempt.provider
  identified : ∀ row x, A.message = some row →
    (row.providerMessageId = some x ↔ Correlated A x)
  judged : ∀ row, A.message = some row → HasAccepted A ∨ A.resolutions ≠ [] → isSent row.status
  single : A.resolutions.length ≤ 1 ∧ (HasAccepted A → A.resolutions = [])
  waiting : ∀ row, A.message = some row → row.status = .awaitingProviderResult →
    ∃ last, A.attempts.getLast? = some last ∧ last.isAmbiguous
  sent : ∀ row, A.message = some row → row.status = .sent → row.providerMessageId.isSome
  counted : ∀ row, A.message = some row → A.attempts.length ≤ row.deliveryAttempts

section Preservation

variable {m : String} {A A' : Aggregate}

theorem Evidence.unjudged (h : Evidence A) {row : SmsMessage} (hrow : A.message = some row)
    (hstatus : isSent row.status = false) : ¬HasAccepted A ∧ A.resolutions = [] := by
  constructor
  · intro haccepted
    simp [h.judged row hrow (Or.inl haccepted)] at hstatus
  · by_contra hresolved
    simp [h.judged row hrow (Or.inr hresolved)] at hstatus

theorem Evidence.withMessage (h : Evidence A) {row new : SmsMessage} {events : List OutboxEvent}
    (hrow : A.message = some row) (hselected : new.selectedProvider = row.selectedProvider)
    (hid : new.providerMessageId = row.providerMessageId)
    (hcounted : row.deliveryAttempts ≤ new.deliveryAttempts)
    (hjudged : isSent row.status → isSent new.status)
    (hwaiting : new.status ≠ .awaitingProviderResult) (hsent : new.status ≠ .sent) :
    Evidence { A with message := some new, outbox := events } where
  selected new' hnew := by
    obtain rfl := Option.some.inj hnew
    exact hselected.trans (h.selected row hrow)
  identified new' x hnew := by
    obtain rfl := Option.some.inj hnew
    rw [hid]
    exact h.identified row x hrow
  judged new' hnew hevidence := by
    obtain rfl := Option.some.inj hnew
    exact hjudged (h.judged row hrow hevidence)
  single := h.single
  waiting new' hnew hstatus := by
    obtain rfl := Option.some.inj hnew
    exact absurd hstatus hwaiting
  sent new' hnew hstatus := by
    obtain rfl := Option.some.inj hnew
    exact absurd hstatus hsent
  counted new' hnew := by
    obtain rfl := Option.some.inj hnew
    exact (h.counted row hrow).trans hcounted

theorem Evidence.moved (h : Evidence A) {source : SmsStatus → Bool} {target : SmsStatus}
    {data : SmsMessage → SmsMessage} {intent : Option OutboxIntent}
    (hdata : ∀ row, (data row).selectedProvider = row.selectedProvider ∧
      (data row).providerMessageId = row.providerMessageId ∧
      row.deliveryAttempts ≤ (data row).deliveryAttempts)
    (hjudged : ∀ status, source status → isSent status → isSent target)
    (htarget : target ≠ .awaitingProviderResult ∧ target ≠ .sent)
    (hmoved : Moved m source target data intent A A') : Evidence A' := by
  obtain ⟨row, now, events', hrow, hsource, _, rfl⟩ := hmoved
  obtain ⟨hselected, hid, hcounted⟩ := hdata row
  exact h.withMessage hrow hselected hid hcounted (hjudged _ hsource) htarget.1 htarget.2

theorem kept_of_transition {source : SmsStatus → Bool} {target : SmsStatus}
    {data : SmsMessage → SmsMessage} {intent : Option OutboxIntent}
    (h : Transition m source target data intent) :
    (∀ row, (data row).selectedProvider = row.selectedProvider ∧
      (data row).providerMessageId = row.providerMessageId ∧
      row.deliveryAttempts ≤ (data row).deliveryAttempts) ∧
    target ≠ .awaitingProviderResult ∧ target ≠ .sent := by
  cases h with
  | retried opts => exact ⟨fun _ => ⟨rfl, rfl, Nat.le_succ _⟩, by decide⟩
  | permanent status => cases status <;> exact ⟨fun _ => ⟨rfl, rfl, le_refl _⟩, by decide⟩
  | reported status => cases status <;> exact ⟨fun _ => ⟨rfl, rfl, le_refl _⟩, by decide⟩
  | _ => exact ⟨fun _ => ⟨rfl, rfl, le_refl _⟩, by decide⟩

theorem Evidence.created (h : Evidence A) (hledger : Ledger A)
    {call : SmsPersistenceRepository.CreateOrGetMessage} (hcreated : Created call m A A') :
    Evidence A' := by
  obtain ⟨c, events', hnone, _, _, _, rfl⟩ := hcreated
  obtain ⟨hattempts, hresolutions⟩ := hledger.absent hnone
  have hevidence : ∀ x,
      ¬Correlated { A with message := some (call.message c), outbox := events' } x := by
    intro x hx
    simp [Correlated, hattempts, hresolutions] at hx
  constructor
  · intro row hrow
    obtain rfl := Option.some.inj hrow
    simp [hattempts, SmsPersistenceRepository.CreateOrGetMessage.message]
  · intro row x hrow
    obtain rfl := Option.some.inj hrow
    exact iff_of_false (by simp [SmsPersistenceRepository.CreateOrGetMessage.message])
      (hevidence x)
  · intro row hrow hjudged
    simp [HasAccepted, hattempts, hresolutions] at hjudged
  · exact h.single
  · intro row hrow hstatus
    obtain rfl := Option.some.inj hrow
    simp [SmsPersistenceRepository.CreateOrGetMessage.message] at hstatus
  · intro row hrow hstatus
    obtain rfl := Option.some.inj hrow
    simp [SmsPersistenceRepository.CreateOrGetMessage.message] at hstatus
  · intro row hrow
    simp [hattempts]

theorem Evidence.reserve (h : Evidence A) (hledger : Ledger A) {providerName attemptId : String}
    (hreserved : Reserved m providerName attemptId A A') : Evidence A' := by
  obtain ⟨row, now, c, hrow, hstatus, _, rfl⟩ := hreserved
  have hnone := hledger.providerMessageId_eq_none hrow (by rw [hstatus]; rfl)
  obtain ⟨haccepted, hresolutions⟩ := h.unjudged hrow (by rw [hstatus]; rfl)
  have hunaccepted : ∀ a ∈ A.attempts ++ [reservation m providerName c],
      a.outcome ≠ .accepted := by
    intro a ha hout
    rcases List.mem_append.mp ha with ha | ha
    · exact haccepted ⟨a, ha, hout⟩
    · rw [List.mem_singleton.mp ha] at hout
      cases hout
  constructor
  · intro new hnew
    obtain rfl := Option.some.inj hnew
    simp [reservation]
  · intro new x hnew
    obtain rfl := Option.some.inj hnew
    refine iff_of_false (by simp [hnone]) ?_
    rintro (⟨a, ha, hout, _⟩ | ⟨r, hr, _⟩)
    · exact hunaccepted a ha hout
    · simp [hresolutions] at hr
  · rintro new _ (⟨a, ha, hout⟩ | hresolved)
    · exact absurd hout (hunaccepted a ha)
    · exact absurd hresolutions hresolved
  · exact ⟨h.single.1, fun _ => hresolutions⟩
  · intro new hnew _
    exact ⟨reservation m providerName c, by simp, rfl⟩
  · intro new hnew hsent
    obtain rfl := Option.some.inj hnew
    simp at hsent
  · intro new hnew
    obtain rfl := Option.some.inj hnew
    simpa using h.counted row hrow

section Results

variable {old : SmsAttempt} {input : FinalizeProviderAttemptInput}

theorem getLast?_record (hledger : Ledger A) (hold : old ∈ A.attempts)
    (hreserved : old.outcome = .reserved) (input : FinalizeProviderAttemptInput) :
    (smsAttempt.replace (input.record old) A.attempts).getLast? = some (input.record old) := by
  rw [Table.replace, List.getLast?_map,
    hledger.getLast?_eq hold (hledger.live_of_reserved hold hreserved)]
  exact congrArg some (if_pos (record_id input old).symm)

theorem accepted_record_iff (hkeyed : A.Keyed) (hold : old ∈ A.attempts)
    (hreserved : old.outcome = .reserved) (hfailed : (input.record old).outcome = .failed)
    {p : SmsAttempt → Prop} :
    (∃ a ∈ smsAttempt.replace (input.record old) A.attempts, a.outcome = .accepted ∧ p a) ↔
      ∃ a ∈ A.attempts, a.outcome = .accepted ∧ p a := by
  constructor
  · rintro ⟨a, ha, hout, hp⟩
    rcases Table.mem_of_mem_replace ha with rfl | ⟨ha, _⟩
    · simp [hfailed] at hout
    · exact ⟨a, ha, hout, hp⟩
  · rintro ⟨a, ha, hout, hp⟩
    refine ⟨a, mem_record hkeyed.attempts hold ha ?_, hout, hp⟩
    rintro rfl
    simp [hreserved] at hout

theorem Evidence.failed (h : Evidence A) (hledger : Ledger A) (hkeyed : A.Keyed)
    (hold : old ∈ A.attempts) (hreserved : old.outcome = .reserved)
    (hfailed : (input.record old).outcome = .failed) {row new : SmsMessage}
    {events : List OutboxEvent} (hrow : A.message = some row)
    (hselected : new.selectedProvider = row.selectedProvider)
    (hid : new.providerMessageId = row.providerMessageId)
    (hcounted : new.deliveryAttempts = row.deliveryAttempts)
    (hjudged : isSent row.status → isSent new.status)
    (hwaiting : new.status = .awaitingProviderResult → (input.record old).isAmbiguous)
    (hsent : new.status = .sent → row.status = .sent) :
    Evidence { A with
      message := some new
      attempts := smsAttempt.replace (input.record old) A.attempts
      outbox := events } := by
  have hlast := getLast?_record hledger hold hreserved input
  have hbefore := hledger.getLast?_eq hold (hledger.live_of_reserved hold hreserved)
  have haccepted : HasAccepted { A with
        message := some new
        attempts := smsAttempt.replace (input.record old) A.attempts
        outbox := events } ↔ HasAccepted A := by
    simpa [HasAccepted] using
      accepted_record_iff (p := fun _ => True) hkeyed hold hreserved hfailed
  constructor
  · intro new' hnew
    obtain rfl := Option.some.inj hnew
    rw [hselected, h.selected row hrow, hbefore, hlast]
    exact congrArg some (record_provider input old).symm
  · intro new' x hnew
    obtain rfl := Option.some.inj hnew
    rw [hid, h.identified row x hrow]
    exact or_congr_left (accepted_record_iff hkeyed hold hreserved hfailed).symm
  · intro new' hnew hevidence
    obtain rfl := Option.some.inj hnew
    rw [haccepted] at hevidence
    exact hjudged (h.judged row hrow hevidence)
  · exact ⟨h.single.1, fun hhas => h.single.2 (haccepted.mp hhas)⟩
  · intro new' hnew hstatus
    obtain rfl := Option.some.inj hnew
    exact ⟨_, hlast, hwaiting hstatus⟩
  · intro new' hnew hstatus
    obtain rfl := Option.some.inj hnew
    rw [hid]
    exact h.sent row hrow (hsent hstatus)
  · intro new' hnew
    obtain rfl := Option.some.inj hnew
    rw [hcounted, Table.replace, List.length_map]
    exact h.counted row hrow

theorem Evidence.accepted (h : Evidence A) (hledger : Ledger A) (hold : old ∈ A.attempts)
    (hreserved : old.outcome = .reserved) {row : SmsMessage} (hrow : A.message = some row)
    (hstatus : row.status = .awaitingProviderResult) (providerMessageId : String) (now : Int) :
    Evidence { A with
      message := some { row with
        status := .sent, providerMessageId := some providerMessageId, updatedAt := now }
      attempts := smsAttempt.replace
        ((FinalizeProviderAttemptInput.accepted providerMessageId).record old) A.attempts } := by
  have hlast := getLast?_record hledger hold hreserved (.accepted providerMessageId)
  have hbefore := hledger.getLast?_eq hold (hledger.live_of_reserved hold hreserved)
  obtain ⟨haccepted, hresolutions⟩ := h.unjudged hrow (by rw [hstatus]; rfl)
  constructor
  · intro new hnew
    obtain rfl := Option.some.inj hnew
    rw [show (smsAttempt.replace _ A.attempts).getLast? = _ from hlast]
    have hselected := h.selected row hrow
    rw [hbefore] at hselected
    exact hselected
  · intro new x hnew
    obtain rfl := Option.some.inj hnew
    constructor
    · intro hx
      exact Or.inl ⟨_, Table.mem_replace_of_eq hold (record_id _ old).symm, rfl, hx⟩
    · rintro (⟨a, ha, hout, hx⟩ | ⟨r, hr, _⟩)
      · rcases Table.mem_of_mem_replace ha with rfl | ⟨ha, _⟩
        · exact hx
        · exact absurd ⟨a, ha, hout⟩ haccepted
      · simp [hresolutions] at hr
  · intro new hnew _
    obtain rfl := Option.some.inj hnew
    rfl
  · exact ⟨h.single.1, fun _ => hresolutions⟩
  · intro new hnew hwaiting
    obtain rfl := Option.some.inj hnew
    simp at hwaiting
  · intro new hnew _
    obtain rfl := Option.some.inj hnew
    rfl
  · intro new hnew
    obtain rfl := Option.some.inj hnew
    simpa [Table.replace] using h.counted row hrow

end Results

theorem Evidence.finalize (h : Evidence A) (hledger : Ledger A) (hkeyed : A.Keyed)
    {attemptId : String} {input : FinalizeProviderAttemptInput}
    (hfinalized : Finalized m attemptId input A A') : Evidence A' := by
  obtain ⟨old, hold, _, hreserved, hrest⟩ := hfinalized
  rcases input with providerMessageId | ⟨_ | _, isRetryable, errorMessage, delayMs⟩
  · obtain ⟨row, now, hrow, hstatus, rfl⟩ := hrest
    exact h.accepted hledger hold hreserved hrow hstatus providerMessageId now
  · obtain ⟨row, now, hrow, hstatus, rfl⟩ := hrest
    exact h.failed hledger hkeyed hold hreserved rfl hrow rfl rfl rfl
      (by simp [hstatus, isSent]) (by simp) (by simp)
  · obtain ⟨delay, events', _, _, rfl⟩ := hrest
    cases hrow : A.message with
    | none =>
        rw [(hledger.absent hrow).1] at hold
        simp at hold
    | some row =>
        have hfailed : (FinalizeProviderAttemptInput.record
            (.failed true isRetryable errorMessage delayMs) old).outcome = .failed := rfl
        exact h.failed hledger hkeyed hold hreserved hfailed hrow rfl rfl rfl (fun hs => hs)
          (fun _ => rfl) (fun hs => hs)

theorem Evidence.resolve (h : Evidence A) (hledger : Ledger A) {attemptId : String}
    {input : ResolveTwilioAttemptInput} (hresolved : Resolved m attemptId input A A') :
    Evidence A' := by
  obtain ⟨row, c, c', hrow, hstatus, _, rfl⟩ := hresolved
  have hnone := hledger.providerMessageId_eq_none hrow (by rw [hstatus]; rfl)
  obtain ⟨haccepted, hresolutions⟩ := h.unjudged hrow (by rw [hstatus]; rfl)
  constructor
  · intro new hnew
    obtain rfl := Option.some.inj hnew
    rcases input with sid | ⟨⟨⟩⟩ <;> exact h.selected row hrow
  · intro new x hnew
    obtain rfl := Option.some.inj hnew
    rcases input with sid | ⟨⟨⟩⟩
    · simp only [Correlated, hresolutions, List.nil_append, List.mem_singleton]
      constructor
      · intro hx
        exact Or.inr ⟨_, rfl, rfl, hx⟩
      · rintro (⟨a, ha, hout, _⟩ | ⟨r, rfl, _, hx⟩)
        · exact absurd ⟨a, ha, hout⟩ haccepted
        · exact hx
    · refine iff_of_false (by simp [ResolveTwilioAttemptInput.apply, hnone]) ?_
      rintro (⟨a, ha, hout, _⟩ | ⟨r, hr, hsid, _⟩)
      · exact haccepted ⟨a, ha, hout⟩
      · rw [hresolutions, List.nil_append, List.mem_singleton] at hr
        subst hr
        cases hsid
  · intro new hnew _
    obtain rfl := Option.some.inj hnew
    rcases input with sid | ⟨⟨⟩⟩ <;> rfl
  · exact ⟨by simp [hresolutions], fun hhas => absurd hhas haccepted⟩
  · intro new hnew hwaiting
    obtain rfl := Option.some.inj hnew
    rcases input with sid | ⟨⟨⟩⟩ <;> simp [ResolveTwilioAttemptInput.apply] at hwaiting
  · intro new hnew hsent
    obtain rfl := Option.some.inj hnew
    rcases input with sid | ⟨⟨⟩⟩
    · rfl
    · simp [ResolveTwilioAttemptInput.apply] at hsent
  · intro new hnew
    obtain rfl := Option.some.inj hnew
    rcases input with sid | ⟨⟨⟩⟩ <;> exact h.counted row hrow

/-- Every step of the service keeps a message and its evidence together. -/
theorem Evidence.step {q : Control} (h : Evidence A) (hledger : Ledger A) (hkeyed : A.Keyed)
    (hstep : MessageStep q m A A') : Evidence A' := by
  cases hstep with
  | created call hcreated => exact h.created hledger hcreated
  | moved htransition hmoved =>
      obtain ⟨hdata, htarget⟩ := kept_of_transition htransition
      exact h.moved hdata (fun _ hsource => (isOpen_of_transition htransition hsource).2)
        htarget hmoved
  | requeued _ hrequeued =>
      have hdata : ∀ row, (retryBudgetRestored row).selectedProvider = row.selectedProvider ∧
          (retryBudgetRestored row).providerMessageId = row.providerMessageId ∧
          row.deliveryAttempts ≤ (retryBudgetRestored row).deliveryAttempts :=
        fun _ => ⟨rfl, rfl, le_refl _⟩
      refine h.moved hdata (fun status hsource => ?_) (by decide) hrequeued
      cases status <;> simp_all [isSent]
  | reserved providerName attemptId _ hreserved => exact h.reserve hledger hreserved
  | finalized attemptId input _ hfinalized => exact h.finalize hledger hkeyed hfinalized
  | resolved attemptId input hresolved => exact h.resolve hledger hresolved
  | relayed hrelayed =>
      obtain ⟨row, _, data, c, _, rfl⟩ := hrelayed
      exact ⟨h.selected, h.identified, h.judged, h.single, h.waiting, h.sent, h.counted⟩

end Preservation

/-- The verdict on a message and its evidence agree in every reachable state: the selected
provider is that of the last attempt, and the provider id is the one that an accepted
attempt or a decision of an operator carries, of which there is at most one. A message
that awaits a result has an unclear attempt, a sent one has a provider id, and no attempt
is left out of the count. -/
theorem verdict_evidence {config : Config} {w : ServiceWorld}
    (h : Reaches config (Spawning Lifecycle) Initial w) (m : String) :
    Evidence (aggregate w.store m) := by
  refine (aggregate_invariant (fun _ A => Ledger A ∧ Evidence A) (fun a hinit m => ?_)
    (fun q m A A' hkeyed hinv hstep =>
      ⟨hinv.1.step hkeyed hstep, hinv.2.step hinv.1 hkeyed hstep⟩)
    (h.atomic fun _ q hq => hq q rfl).2 m).2
  rw [hinit.store, aggregate_empty]
  constructor
  · constructor <;> simp
  · constructor <;> simp [HasAccepted]

/-- A message that an operator has resolved while its worker was still about to record the
result. -/
theorem verdict_evidence_resolved :
    ∃ w, Reaches sampleConfig (Spawning Lifecycle) Initial w ∧
      (aggregate w.store "m").resolutions.length = 1 ∧
      (aggregate w.store "m").attempts.map SmsAttempt.outcome = [.failed] ∧
      Evidence (aggregate w.store "m") := by
  obtain ⟨w, hw, hresolved, hfailed⟩ :=
    exists_reaches_of_exec sampleConfig (Spawning Lifecycle)
    (creation ++
      .spawn (.calling (.beginProcessing "m")) :: statements 1 2 (sampleChoice "" 1) ++ .commit 1 ::
      .spawn (.calling (.reserveProviderAttempt "m" "twilio")) ::
        statements 2 2 (sampleChoice "a" 2) ++ .commit 2 ::
      .spawn (.calling (.resolveTwilioAttempt "m" "a"
        (.undelivered .twilioUndeliveredConfirmed))) ::
        statements 3 7 (sampleChoice "r" 3) ++ .commit 3 ::
      .spawn (.calling (.finalizeProviderAttempt "m" "a"
        (.failed true false "timeout" (some 1000)))) ::
        statements 4 2 (sampleChoice "e" 4) ++ [.commit 4])
    (fun w => (aggregate w.store "m").resolutions.length = 1 ∧
      (aggregate w.store "m").attempts.map SmsAttempt.outcome = [.failed])
    (by decide +kernel)
  exact ⟨w, hw, hresolved, hfailed, verdict_evidence hw "m"⟩

end SmsNotification.VerdictEvidence

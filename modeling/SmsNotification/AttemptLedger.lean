import SmsNotification.ServiceRuns

namespace SmsNotification.AttemptLedger

open SmsNotification.LabelledRuns
open SmsNotification.LifecycleEffects
open SmsNotification.MessageAggregate
open SmsNotification.Schema
open SmsNotification.Service
open SmsNotification.ServiceEffects
open SmsNotification.ServiceRuns
open SmsNotification.SmsLifecycleRepository
open SmsNotification.SmsStateMachine

/-- A provider may have accepted the attempt. -/
def Live (a : SmsAttempt) : Prop :=
  a.isAmbiguous ∨ a.outcome = .accepted

/-- The statuses from which another attempt may still be made. -/
def isOpen : SmsStatus → Bool
  | .queued | .processing | .retryScheduled | .fatalFailure => true
  | _ => false

/-- The statuses of a message that a provider has a message id for. -/
def isSent : SmsStatus → Bool
  | .sent | .delivered | .undelivered | .rejected => true
  | _ => false

/-- An attempt or a decision of the message carries the provider's message id. -/
def Correlated (A : Aggregate) (providerMessageId : String) : Prop :=
  (∃ a ∈ A.attempts, a.outcome = .accepted ∧ a.providerMessageId = some providerMessageId) ∨
    ∃ r ∈ A.resolutions, r.resolution = .knownSid ∧ r.providerMessageId = some providerMessageId

/-- The invariant of one message and its rows. -/
structure Ledger (A : Aggregate) : Prop where
  absent : A.message = none → A.attempts = [] ∧ A.resolutions = []
  settled : ∀ a ∈ A.attempts.dropLast, ¬Live a
  idle : ∀ row, A.message = some row → isOpen row.status → ∀ a ∈ A.attempts, ¬Live a
  reserved : ∀ a ∈ A.attempts, a.outcome = .reserved → a.isAmbiguous
  decided : ∀ r ∈ A.resolutions, ∃ a ∈ A.attempts, a.id = r.smsAttemptId
  correlated : ∀ row x, A.message = some row → row.providerMessageId = some x →
    isSent row.status ∧ Correlated A x

section Preservation

variable {m : String} {A A' : Aggregate}

theorem Ledger.providerMessageId_eq_none (h : Ledger A) {row : SmsMessage}
    (hrow : A.message = some row) (hstatus : isSent row.status = false) :
    row.providerMessageId = none := by
  rw [Option.eq_none_iff_forall_ne_some]
  intro x hx
  have hsent := (h.correlated row x hrow hx).1
  simp [hstatus] at hsent

theorem Ledger.withMessage (h : Ledger A) {row : SmsMessage} {events : List OutboxEvent}
    (hidle : isOpen row.status → ∀ a ∈ A.attempts, ¬Live a)
    (hid : ∀ x, row.providerMessageId = some x → isSent row.status ∧ Correlated A x) :
    Ledger { A with message := some row, outbox := events } where
  absent hnone := by simp at hnone
  settled := h.settled
  idle new hnew hopen := by
    obtain rfl : row = new := Option.some.inj hnew
    exact hidle hopen
  reserved := h.reserved
  decided := h.decided
  correlated new x hnew hx := by
    obtain rfl : row = new := Option.some.inj hnew
    exact hid x hx

theorem providerMessageId_of_transition {source : SmsStatus → Bool} {target : SmsStatus}
    {data : SmsMessage → SmsMessage} {intent : Option OutboxIntent}
    (h : Transition m source target data intent) (row : SmsMessage) :
    (data row).providerMessageId = row.providerMessageId := by
  cases h <;> rfl

theorem isOpen_of_transition {source : SmsStatus → Bool} {target status : SmsStatus}
    {data : SmsMessage → SmsMessage} {intent : Option OutboxIntent}
    (h : Transition m source target data intent) (hsource : source status) :
    (isOpen target → isOpen status) ∧ (isSent status → isSent target) := by
  cases h with
  | begun => cases status <;> simp_all [beginProcessingFrom, isOpen, isSent]
  | recovered => cases status <;> simp_all [isOpen, isSent]
  | retried => cases status <;> simp_all [isValidTransition, transitionTable, isOpen, isSent]
  | permanent status' =>
      cases status' <;> cases status <;>
        simp_all [isValidTransition, transitionTable, isOpen, isSent,
          PermanentProviderFailureStatus.status]
  | fatal => cases status <;> simp_all [isValidTransition, transitionTable, isOpen, isSent]
  | expired => cases status <;> simp_all [isOpen, isSent]
  | reported status' =>
      cases status' <;> cases status <;>
        simp_all [isValidTransition, transitionTable, isOpen, isSent,
          DeliveryTerminalStatus.status]

theorem Ledger.moved (h : Ledger A) {source : SmsStatus → Bool} {target : SmsStatus}
    {data : SmsMessage → SmsMessage} {intent : Option OutboxIntent}
    (hopen : ∀ status, source status →
      (isOpen target → isOpen status) ∧ (isSent status → isSent target))
    (hdata : ∀ row, (data row).providerMessageId = row.providerMessageId)
    (hmoved : Moved m source target data intent A A') : Ledger A' := by
  obtain ⟨row, now, events', hrow, hsource, _, rfl⟩ := hmoved
  refine h.withMessage (fun hnew => h.idle row hrow ((hopen _ hsource).1 hnew)) fun x hx => ?_
  obtain ⟨hsent, hcorrelated⟩ := h.correlated row x hrow ((hdata row).symm.trans hx)
  exact ⟨(hopen _ hsource).2 hsent, hcorrelated⟩

theorem Ledger.created (h : Ledger A) {call : SmsPersistenceRepository.CreateOrGetMessage}
    (hcreated : Created call m A A') : Ledger A' := by
  obtain ⟨c, events', hnone, _, _, _, rfl⟩ := hcreated
  obtain ⟨hattempts, hresolutions⟩ := h.absent hnone
  have hempty : Ledger { A with attempts := [], resolutions := [] } := by
    constructor <;> simp [hnone]
  have hcreated : Ledger { A with
      message := some (call.message c), attempts := [], resolutions := [], outbox := events' } :=
    hempty.withMessage (by simp)
      (fun x hx => by simp [SmsPersistenceRepository.CreateOrGetMessage.message] at hx)
  rwa [← hattempts, ← hresolutions] at hcreated

theorem Ledger.reserve (h : Ledger A) {providerName attemptId : String}
    (hreserved : Reserved m providerName attemptId A A') : Ledger A' := by
  obtain ⟨row, now, c, hrow, hstatus, _, rfl⟩ := hreserved
  have hidle := h.idle row hrow (by rw [hstatus]; rfl)
  have hnone := h.providerMessageId_eq_none hrow (by rw [hstatus]; rfl)
  constructor
  · intro hnone
    simp at hnone
  · simpa using hidle
  · intro new hnew hopen
    obtain rfl := Option.some.inj hnew
    simp [isOpen] at hopen
  · intro a ha hout
    rcases List.mem_append.mp ha with ha | ha
    · exact h.reserved a ha hout
    · rw [List.mem_singleton.mp ha]
      rfl
  · intro r hr
    obtain ⟨a, ha, hid⟩ := h.decided r hr
    exact ⟨a, List.mem_append_left _ ha, hid⟩
  · intro new x hnew hx
    obtain rfl := Option.some.inj hnew
    simp [hnone] at hx

theorem Ledger.getLast?_eq (h : Ledger A) {a : SmsAttempt} (ha : a ∈ A.attempts)
    (hlive : Live a) : A.attempts.getLast? = some a := by
  rcases List.eq_nil_or_concat' A.attempts with hnil | ⟨init, last, hconcat⟩
  · simp [hnil] at ha
  · have hsettled := h.settled
    rw [hconcat] at ha hsettled ⊢
    rcases List.mem_append.mp ha with ha | ha
    · exact absurd hlive (hsettled a (by simpa using ha))
    · simp [List.mem_singleton.mp ha]

theorem Ledger.eq_of_live (h : Ledger A) {a b : SmsAttempt} (ha : a ∈ A.attempts)
    (hb : b ∈ A.attempts) (hlive : Live a) (hlive' : Live b) : a = b :=
  Option.some.inj ((h.getLast?_eq ha hlive).symm.trans (h.getLast?_eq hb hlive'))

variable {old : SmsAttempt} {input : FinalizeProviderAttemptInput}

theorem Ledger.live_of_reserved (h : Ledger A) (hold : old ∈ A.attempts)
    (hreserved : old.outcome = .reserved) : Live old :=
  Or.inl (h.reserved old hold hreserved)

theorem mem_record (hnodup : (A.attempts.map SmsAttempt.id).Nodup)
    (hold : old ∈ A.attempts) {a : SmsAttempt} (ha : a ∈ A.attempts) (hne : a ≠ old) :
    a ∈ smsAttempt.replace (input.record old) A.attempts := by
  refine Table.mem_replace_of_ne ha fun hid => hne ?_
  exact List.inj_on_of_nodup_map hnodup ha hold (hid.trans (record_id input old))

theorem Ledger.record (h : Ledger A) (input : FinalizeProviderAttemptInput)
    (hnodup : (A.attempts.map SmsAttempt.id).Nodup) (hold : old ∈ A.attempts)
    (hreserved : old.outcome = .reserved) :
    Ledger { A with attempts := smsAttempt.replace (input.record old) A.attempts } := by
  have hlive := h.live_of_reserved hold hreserved
  constructor
  · intro hnone
    rw [(h.absent hnone).1] at hold
    simp at hold
  · intro a ha
    change a ∈ (smsAttempt.replace _ _).dropLast at ha
    rw [Table.dropLast_replace] at ha
    obtain ⟨b, hb, hba⟩ := List.mem_map.mp ha
    by_cases hid : b.id = (input.record old).id
    · -- the reservation is live, so it is not among the attempts before the last
      have hsame : b = old :=
        List.inj_on_of_nodup_map hnodup ((List.dropLast_sublist _).subset hb) hold
        (hid.trans (record_id input old))
      exact absurd hlive (hsame ▸ h.settled b hb)
    · change (if b.id = (input.record old).id then _ else _) = a at hba
      rw [if_neg hid] at hba
      exact hba ▸ h.settled b hb
  · intro row hrow hopen
    exact absurd hlive (h.idle row hrow hopen old hold)
  · intro a ha hout
    rcases Table.mem_of_mem_replace ha with rfl | ⟨ha, _⟩
    · cases input <;> simp [FinalizeProviderAttemptInput.record] at hout
    · exact h.reserved a ha hout
  · intro r hr
    obtain ⟨a, ha, hid⟩ := h.decided r hr
    by_cases hne : a = old
    · refine ⟨_, Table.mem_replace_of_eq hold (record_id input old).symm, ?_⟩
      rw [record_id, ← hne, hid]
    · exact ⟨a, mem_record hnodup hold ha hne, hid⟩
  · intro row x hrow hx
    obtain ⟨hsent, hcorrelated⟩ := h.correlated row x hrow hx
    refine ⟨hsent, ?_⟩
    rcases hcorrelated with ⟨a, ha, hout, hx⟩ | hdecision
    · refine Or.inl ⟨a, mem_record hnodup hold ha ?_, hout, hx⟩
      rintro rfl
      simp [hreserved] at hout
    · exact Or.inr hdecision

theorem Ledger.not_live_of_refused (h : Ledger A) (hold : old ∈ A.attempts)
    (hreserved : old.outcome = .reserved) {isRetryable : Bool} {errorMessage : String}
    {delayMs : Option ℚ} :
    ∀ a ∈ smsAttempt.replace
      ((FinalizeProviderAttemptInput.failed false isRetryable errorMessage delayMs).record old)
      A.attempts, ¬Live a := by
  intro a ha
  rcases Table.mem_of_mem_replace ha with rfl | ⟨ha, hid⟩
  · simp [Live, FinalizeProviderAttemptInput.record]
  · intro hlive
    have hsame := h.eq_of_live ha hold hlive (h.live_of_reserved hold hreserved)
    exact hid (by rw [hsame]; exact (record_id _ old).symm)

theorem Ledger.finalize (h : Ledger A) (hnodup : (A.attempts.map SmsAttempt.id).Nodup)
    {attemptId : String} (hfinalized : Finalized m attemptId input A A') : Ledger A' := by
  obtain ⟨old, hold, _, hreserved, hrest⟩ := hfinalized
  rcases input with providerMessageId | ⟨_ | _, isRetryable, errorMessage, delayMs⟩
  · obtain ⟨row, now, _, _, rfl⟩ := hrest
    refine (h.record _ hnodup hold hreserved).withMessage (by simp [isOpen]) fun x hx => ?_
    exact ⟨rfl, Or.inl ⟨_, Table.mem_replace_of_eq hold (record_id _ old).symm, rfl, hx⟩⟩
  · obtain ⟨row, now, hrow, hstatus, rfl⟩ := hrest
    have hnone := h.providerMessageId_eq_none hrow (by rw [hstatus]; rfl)
    refine (h.record _ hnodup hold hreserved).withMessage
      (fun _ => h.not_live_of_refused hold hreserved) fun x hx => ?_
    simp [hnone] at hx
  · obtain ⟨delay, events', _, _, rfl⟩ := hrest
    have hrecord := h.record (.failed true isRetryable errorMessage delayMs) hnodup hold hreserved
    exact ⟨hrecord.absent, hrecord.settled, hrecord.idle, hrecord.reserved, hrecord.decided,
      hrecord.correlated⟩

theorem Ledger.resolve (h : Ledger A) {attemptId : String} {input : ResolveTwilioAttemptInput}
    (hresolved : Resolved m attemptId input A A') : Ledger A' := by
  obtain ⟨row, c, c', hrow, hstatus, ⟨attempt, hattempt, hid, _⟩, rfl⟩ := hresolved
  have hnone := h.providerMessageId_eq_none hrow (by rw [hstatus]; rfl)
  constructor
  · intro hnone
    simp at hnone
  · exact h.settled
  · intro new hnew hopen
    obtain rfl := Option.some.inj hnew
    rcases input with sid | ⟨⟨⟩⟩ <;> simp [ResolveTwilioAttemptInput.apply, isOpen] at hopen
  · exact h.reserved
  · intro r hr
    rcases List.mem_append.mp hr with hr | hr
    · exact h.decided r hr
    · rw [List.mem_singleton.mp hr]
      exact ⟨attempt, hattempt, hid⟩
  · intro new x hnew hx
    obtain rfl := Option.some.inj hnew
    rcases input with sid | ⟨⟨⟩⟩
    · exact ⟨rfl, Or.inr ⟨_, List.mem_append_right _ List.mem_cons_self, rfl, hx⟩⟩
    · simp [ResolveTwilioAttemptInput.apply, hnone] at hx

/-- Every step of the service keeps the ledger of a message. -/
theorem Ledger.step {q : Control} (h : Ledger A) (hkeyed : A.Keyed)
    (hstep : MessageStep q m A A') : Ledger A' := by
  cases hstep with
  | created call hcreated => exact h.created hcreated
  | moved htransition hmoved =>
      exact h.moved (fun _ => isOpen_of_transition htransition)
        (providerMessageId_of_transition htransition) hmoved
  | requeued _ hrequeued =>
      have hdata : ∀ row, (retryBudgetRestored row).providerMessageId = row.providerMessageId :=
        fun _ => rfl
      refine h.moved (fun status hsource => ?_) hdata hrequeued
      cases status <;> simp_all [isOpen, isSent]
  | reserved providerName attemptId _ hreserved => exact h.reserve hreserved
  | finalized attemptId input _ hfinalized => exact h.finalize hkeyed.attempts hfinalized
  | resolved attemptId input hresolved => exact h.resolve hresolved
  | relayed hrelayed =>
      obtain ⟨row, _, data, c, _, rfl⟩ := hrelayed
      exact ⟨h.absent, h.settled, h.idle, h.reserved, h.decided, h.correlated⟩

end Preservation

theorem ledger_of_reachable {config : Config} {ok : ServiceSnapshot → ServiceLabel → Prop}
    {a : ServiceSnapshot} (h : Reachable (ServiceStep config) ok Initial a) (m : String) :
    Ledger (aggregate a.store m) := by
  refine aggregate_invariant (fun _ A => Ledger A) (fun a hinit m => ?_)
    (fun q m A A' hkeyed hledger hstep => hledger.step hkeyed hstep) h m
  rw [hinit.store, aggregate_empty]
  constructor <;> simp

theorem length_filter_le_one {α : Type} {keep : α → Bool} {xs : List α} (hnodup : xs.Nodup)
    (h : ∀ x ∈ xs, ∀ y ∈ xs, keep x → keep y → x = y) : (xs.filter keep).length ≤ 1 := by
  have hkept := hnodup.filter keep
  have hmem : ∀ x ∈ xs.filter keep, x ∈ xs ∧ keep x := fun x hx => List.mem_filter.mp hx
  rcases hfilter : xs.filter keep with _ | ⟨x, _ | ⟨y, rest⟩⟩
  · simp
  · simp
  · rw [hfilter] at hkept hmem
    have hx := hmem x (by simp)
    have hy := hmem y (by simp)
    simp [h x hx.1 y hy.1 hx.2 hy.2] at hkept

/-- The attempt ledger in every state of every run from an empty database. -/
theorem attempt_ledger {config : Config} {w : ServiceWorld}
    (h : Reaches config (Spawning Lifecycle) Initial w) (m : String) :
    let A := aggregate w.store m
    (∀ a ∈ A.attempts, a.outcome = .reserved → a.isAmbiguous) ∧
      (A.attempts.filter SmsAttempt.isAmbiguous).length ≤ 1 ∧
      (∀ a ∈ A.attempts, a.isAmbiguous → A.attempts.getLast? = some a) ∧
      (A.attempts.filter fun a => a.outcome = .accepted).length ≤ 1 ∧
      (∀ a ∈ A.attempts,
        let decisions := smsAttemptResolution.rows w.store fun r => r.smsAttemptId = a.id
        decisions.length ≤ 1 ∧ ∀ r ∈ decisions, r.smsMessageId = m) ∧
      ∀ row x, A.message = some row → row.providerMessageId = some x →
        Correlated A x ∧ row.status ∈ [.sent, .delivered, .undelivered, .rejected] := by
  intro A
  have hledger : ∀ m, Ledger (aggregate w.store m) :=
    ledger_of_reachable (h.atomic fun _ q hq => hq q rfl).2
  have hnodup : A.attempts.Nodup := (keyed w.store m).attempts.of_map _
  refine ⟨(hledger m).reserved, ?_, fun a ha hlive => (hledger m).getLast?_eq ha (Or.inl hlive),
    ?_, fun a ha => ⟨?_, fun r hr => ?_⟩, fun row x hrow hx => ?_⟩
  · exact length_filter_le_one hnodup fun a ha b hb hlive hlive' =>
      (hledger m).eq_of_live ha hb (Or.inl hlive) (Or.inl hlive')
  · exact length_filter_le_one hnodup fun a ha b hb hlive hlive' =>
      (hledger m).eq_of_live ha hb (Or.inr (of_decide_eq_true hlive))
        (Or.inr (of_decide_eq_true hlive'))
  · have hrows := smsAttemptResolution.rows_nodup w.store fun r => r.smsAttemptId = a.id
    have hid : ∀ r ∈ smsAttemptResolution.rows w.store (fun r => r.smsAttemptId = a.id),
        smsAttemptResolution.idOf r = a.id :=
      fun r hr => of_decide_eq_true (Table.mem_rows_iff.mp hr).2
    rw [List.map_eq_replicate_iff.mpr hid] at hrows
    exact List.nodup_replicate.mp hrows
  · obtain ⟨hfind, hid⟩ := Table.mem_rows_iff.mp hr
    obtain ⟨b, hb, hdecided⟩ := (hledger r.smsMessageId).decided r
      (mem_resolutions_iff.mpr ⟨hfind, rfl⟩)
    have hfound := (mem_attempts_iff.mp ha).1
    rw [← of_decide_eq_true hid, ← hdecided, (mem_attempts_iff.mp hb).1] at hfound
    rw [← (mem_attempts_iff.mp hb).2, Option.some.inj hfound, (mem_attempts_iff.mp ha).2]
  · obtain ⟨hsent, hcorrelated⟩ := (hledger m).correlated row x hrow hx
    refine ⟨hcorrelated, ?_⟩
    cases hstatus : row.status <;> simp_all [isSent]

/-- A message whose only attempt has been accepted. -/
theorem attempt_ledger_sent : ∃ w, Reaches sampleConfig (Spawning Lifecycle) Initial w ∧
    ((aggregate w.store "m").attempts.map SmsAttempt.outcome = [.accepted] ∧
      (aggregate w.store "m").message.map (·.providerMessageId) = some (some "SM1")) ∧
    ((aggregate w.store "m").attempts.filter fun a => a.outcome = .accepted).length ≤ 1 := by
  obtain ⟨w, hw, hsent⟩ := exists_reaches_of_exec sampleConfig (Spawning Lifecycle)
    (creation ++
      .spawn (.calling (.beginProcessing "m")) :: statements 1 2 (sampleChoice "" 1) ++ .commit 1 ::
      .spawn (.calling (.reserveProviderAttempt "m" "twilio")) ::
        statements 2 2 (sampleChoice "a" 2) ++ .commit 2 ::
      .spawn (.calling (.finalizeProviderAttempt "m" "a" (.accepted "SM1"))) ::
        statements 3 2 (sampleChoice "" 3) ++ [.commit 3])
    (fun w => (aggregate w.store "m").attempts.map SmsAttempt.outcome = [.accepted] ∧
      (aggregate w.store "m").message.map (·.providerMessageId) = some (some "SM1"))
    (by decide +kernel)
  exact ⟨w, hw, hsent, (attempt_ledger hw "m").2.2.2.1⟩

end SmsNotification.AttemptLedger

import SmsNotification.AttemptLedger
import SmsNotification.NoDuplicateDelivery
import SmsNotification.ProviderIsolation

namespace SmsNotification.ParkedCallbacks

open SmsNotification.AttemptLedger
open SmsNotification.KeyedStore
open SmsNotification.MessageAggregate
open SmsNotification.NoDuplicateDelivery (delivers)
open SmsNotification.ProviderIsolation
open SmsNotification.ReadCommitted
open SmsNotification.Schema
open SmsNotification.Service (Config)
open SmsNotification.ServiceEffects
open SmsNotification.ServiceRuns
open SmsNotification.SmsLifecycleRepository
open SmsNotification.SmsStateMachine
open SmsNotification.Webhooks

variable {config : Config} {w : ServiceWorld} {m : String} {row : SmsMessage}

theorem providerMessageId_of_awaiting (h : Reaches config (Spawning Lifecycle) Initial w)
    (hrow : smsMessage.find w.store m = some row)
    (hstatus : row.status = .awaitingProviderResult) : row.providerMessageId = none :=
  (ledger_of_reachable (h.atomic fun _ q hq => hq q rfl).2 m).providerMessageId_eq_none hrow
    (by rw [hstatus]; rfl)

/-- A correctly signed callback leaves a message that awaits a provider result as it
is, whatever its status and its id, and where no other message holds the id it is answered
that the id is unknown, or fails with an id that the database rejects. -/
theorem parked_message_not_reported (h : Reaches config (Spawning Lifecycle) Initial w)
    (hrow : smsMessage.find w.store m = some row) (hstatus : row.status = .awaitingProviderResult)
    {endpoints : WebhookConfig} {provider : WebhookProvider} {request : Request}
    {providerMessageId : String} {status : DeliveryTerminalStatus}
    (hcarries : readReport endpoints provider request =
      .ok ⟨provider, .str providerMessageId, some (.terminal status)⟩) (cs : Nat → Choice) :
    ∃ answer s', (handle endpoints provider request).alone cs w.store = .ok (answer, s') ∧
      smsMessage.find s' m = some row ∧
      ((∀ m' row', m' ≠ m → smsMessage.find w.store m' = some row' →
        row'.providerMessageId ≠ some providerMessageId) →
        (answer = if isQueryable (.str providerMessageId) then
          .error (.notFound "Unknown provider message id") else .error .internal) ∧
          s' = w.store) := by
  have hnone := providerMessageId_of_awaiting h hrow hstatus
  refine ⟨_, _, alone_handle hcarries, ?_, fun hother => ?_⟩
  · have hfind : w.store.find (.message m) = some (.message row) :=
      Table.find_eq_some_iff.mp hrow
    refine Table.find_eq_some_iff.mpr ((find_of_handle ⟨_, hcarries⟩ (alone_handle hcarries)
      fun row' hrow' => ?_).trans hfind)
    obtain rfl := Row.message.inj (Option.some.inj (hfind.symm.trans hrow'))
    simp [hnone]
  · cases hfound : firstMessage (· = some providerMessageId) (cs 0) w.store with
    | none =>
        simp only [answered, Option.isNone_some, Bool.false_or, hfound]
        split <;> exact ⟨rfl, rfl⟩
    | some current =>
        obtain ⟨hfind, hid⟩ := find_of_firstMessage hfound
        by_cases hm : current.id = m
        · rw [hm, hrow] at hfind
          obtain rfl := Option.some.inj hfind
          simp [hnone] at hid
        · exact absurd (by simpa using hid) (hother _ current hm hfind)

/-- The provider has accepted the call of a worker that records an ambiguous result. -/
def acceptedAmbiguously : List ServiceLabel :=
  creation ++ callingPass ++
    .env { sampleChoice "" 1 with move := .accept 0 } ::
    recordedAmbiguous

/-- The answer that the provider gets is that the id is unknown. -/
def answersNotFound (r : Except Failure (Except HttpException WebhookAck × Database)) : Bool :=
  match r with
  | .ok (.error (.notFound _), _) => true
  | _ => false

/-- The delivery of a message whose call the provider has accepted, and whose
outcome is recorded as ambiguous, is reported under the id `X` of the call. -/
theorem accepted_message_not_found :
    ∃ w, Reaches sampleConfig (Spawning (delivers ·)) Initial w ∧
      (∃ call ∈ w.ext.calls, call.messageId = "m" ∧ call.accepted) ∧
      (aggregate w.store "m").attempts.map (fun a => (a.outcome, a.isAmbiguous)) =
        [(.failed, true)] ∧
      (aggregate w.store "m").status = some .awaitingProviderResult ∧
      Carries sampleEndpoints .twilio sampleRequest "X" ∧
      answersNotFound
        ((handle sampleEndpoints .twilio sampleRequest).alone (fun _ => sampleChoice "" 2)
          w.store) := by
  obtain ⟨w, hw, hcall, hattempt, hstatus, hanswer⟩ := exists_reaches_of_exec sampleConfig
    (Spawning (delivers ·)) acceptedAmbiguously
    (fun w => (∃ call ∈ w.ext.calls, call.messageId = "m" ∧ call.accepted) ∧
      (aggregate w.store "m").attempts.map (fun a => (a.outcome, a.isAmbiguous)) =
        [(.failed, true)] ∧
      (aggregate w.store "m").status = some .awaitingProviderResult ∧
      answersNotFound
        ((handle sampleEndpoints .twilio sampleRequest).alone (fun _ => sampleChoice "" 2) w.store))
    (by decide +kernel)
  exact ⟨w, hw, hcall, hattempt, hstatus, carries_sample .twilio, hanswer⟩

/-- The callback leaves the message of that call, which is the only one, as it is. -/
theorem parked_message_not_reported_ambiguous :
    ∃ w row s', Reaches sampleConfig (Spawning Lifecycle) Initial w ∧
      smsMessage.find w.store "m" = some row ∧ row.status = .awaitingProviderResult ∧
      (handle sampleEndpoints .twilio sampleRequest).alone (fun _ => sampleChoice "" 2) w.store =
        .ok (.error (.notFound "Unknown provider message id"), s') ∧
      smsMessage.find s' "m" = some row ∧ s' = w.store := by
  obtain ⟨w, hw, hstatus, hunheld⟩ := exists_reaches_of_exec sampleConfig (Spawning Lifecycle)
    acceptedAmbiguously
    (fun w => (aggregate w.store "m").status = some .awaitingProviderResult ∧
      w.store.rows.all fun row => (smsMessage.unwrap row).all fun message =>
        message.providerMessageId ≠ some "X") (by decide +kernel)
  obtain ⟨row, hrow, hrowStatus⟩ := Option.map_eq_some_iff.mp hstatus
  have hread : readReport sampleEndpoints .twilio sampleRequest =
      .ok ⟨.twilio, .str "X", some (.terminal .delivered)⟩ := rfl
  obtain ⟨answer, s', hanswer, hkept, hnotFound⟩ :=
    parked_message_not_reported hw hrow hrowStatus hread fun _ => sampleChoice "" 2
  obtain ⟨rfl, hsame⟩ := hnotFound fun m' row' _ hrow' => by
    have hmem := Store.mem_of_find (Table.find_eq_some_iff.mp hrow')
    simpa [Table.unwrap_wrap] using List.all_eq_true.mp hunheld _ hmem
  exact ⟨w, row, s', hw, hrow, hrowStatus, hanswer, hkept, hsame⟩

end SmsNotification.ParkedCallbacks

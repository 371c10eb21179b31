import SmsNotification.ServiceRuns
import SmsNotification.Webhooks

namespace SmsNotification.ProviderIsolation

open SmsNotification.KeyedStore
open SmsNotification.ReadCommitted
open SmsNotification.Schema
open SmsNotification.ServiceRuns
open SmsNotification.SmsLifecycleRepository
open SmsNotification.SmsStateMachine
open SmsNotification.Webhooks

/-- A correctly signed request that carries a provider message id. -/
def Carries (config : WebhookConfig) (provider : WebhookProvider) (request : Request)
    (providerMessageId : String) : Prop :=
  ∃ status, readReport config provider request = .ok ⟨provider, .str providerMessageId, status⟩

/-- The messages of a provider. -/
def messagesOf (provider : WebhookProvider) (s : Database) : List SmsMessage :=
  smsMessage.rows s fun row => row.selectedProvider = some provider.name

/-- No message of another provider holds the id. -/
def Unshared (provider : WebhookProvider) (providerMessageId : String) (s : Database) : Prop :=
  ∀ m row, smsMessage.find s m = some row → row.providerMessageId = some providerMessageId →
    row.selectedProvider = some provider.name

/-- The message of a report, once it is applied. -/
def reported (current : SmsMessage) (status : DeliveryTerminalStatus) (c : Choice) : SmsMessage :=
  { current with status := status.status, updatedAt := c.now }

section Reports

variable {s : Database} {cs : Nat → Choice} {current : SmsMessage}

theorem find_of_firstMessage {keep : Option String → Bool} {c : Choice}
    (h : firstMessage keep c s = some current) :
    smsMessage.find s current.id = some current ∧ keep current.providerMessageId := by
  have hmem := (List.mem_insertionSort _).mp (List.mem_of_head? h)
  exact Table.mem_rows_iff.mp hmem

theorem alone_readLifecycle {m : String} {row : SmsMessage} (h : smsMessage.find s m = some row)
    {α : Type} (next : LifecycleSmsMessage → Sql α) :
    (readLifecycle m >>= next).alone cs s =
      (next (lifecycleSelect row)).alone (fun n => cs (n + 1)) s := by
  simp [readLifecycle, Tx.read, Tx.alone, h]

theorem alone_reportOn (h : smsMessage.find s current.id = some current)
    (status : DeliveryTerminalStatus) :
    (reportOn current status).alone cs s =
      if isSameState current.status status.status then .ok (.duplicate (lifecycleSelect current), s)
      else if isValidTransition current.status status.status then
        .ok (.applied (lifecycleSelect (reported current status (cs 0))),
          s.apply (.put (smsMessage.wrap (reported current status (cs 0)))))
      else .ok (.invalidTransition current.status, s) := by
  unfold reportOn
  by_cases hsame : isSameState current.status status.status
  · simp only [hsame, if_true]
    exact alone_readLifecycle h _
  · simp only [hsame, Bool.false_eq_true, if_false]
    cases hvalid : isValidTransition current.status status.status with
    | false =>
        simp only [Bool.not_false, if_true, Bool.false_eq_true, if_false]
        rfl
    | true =>
        simp only [Bool.not_true, Bool.false_eq_true, if_false, if_true]
        rw [Table.alone_updateMany h (by simp)]
        exact alone_readLifecycle (by simp [Table.find_put, reported]) _

section Search

variable {keep : Option String → Bool}

theorem alone_search_none (h : firstMessage keep (cs 0) s = none) (status : MappedStatus) :
    (applyDeliveryReportWhere keep status).alone cs s = .ok (.notFound, s) := by
  simp [applyDeliveryReportWhere, Tx.read, Tx.alone, h]

theorem alone_search_terminal (h : firstMessage keep (cs 0) s = some current)
    (status : DeliveryTerminalStatus) :
    (applyDeliveryReportWhere keep (.terminal status)).alone cs s =
      (reportOn current status).alone (fun n => cs (n + 1)) s := by
  simp [applyDeliveryReportWhere, Tx.read, Tx.alone, h]

theorem alone_search_inherited (h : firstMessage keep (cs 0) s = some current)
    (property : String) :
    (applyDeliveryReportWhere keep (.inherited property)).alone cs s =
      .ok (.invalidTransition current.status, s) := by
  simp [applyDeliveryReportWhere, Tx.read, Tx.alone, h]

end Search

/-- What a report answers and writes, by the message that it is matched with. -/
def outcome (c : Choice) : Option MappedStatus → Option SmsMessage →
    Except HttpException WebhookAck × List (Write Row.key)
  | none, _ => (.ok .ignored, [])
  | some _, none => (acknowledge .notFound, [])
  | some (.inherited _), some current => (acknowledge (.invalidTransition current.status), [])
  | some (.terminal status), some current =>
      if isSameState current.status status.status then (.ok .ok, [])
      else if isValidTransition current.status status.status then
        (.ok .ok, [.put (smsMessage.wrap (reported current status c))])
      else (acknowledge (.invalidTransition current.status), [])

/-- What a request with an id and a status is answered and writes. -/
def answered (cs : Nat → Choice) (providerMessageId : String) (status : Option MappedStatus)
    (s : Database) : Except HttpException WebhookAck × List (Write Row.key) :=
  if status.isNone || isQueryable (.str providerMessageId) then
    outcome (cs 1) status (firstMessage (· = some providerMessageId) (cs 0) s)
  else (.error .internal, [])

theorem alone_handle {config : WebhookConfig} {provider : WebhookProvider} {request : Request}
    {providerMessageId : String} {status : Option MappedStatus}
    (h : readReport config provider request = .ok ⟨provider, .str providerMessageId, status⟩) :
    (handle config provider request).alone cs s =
      .ok ((answered cs providerMessageId status s).1,
        s.applyAll (answered cs providerMessageId status s).2) := by
  simp only [handle, h, answered]
  split
  · cases status with
    | none => rfl
    | some status =>
        simp only [recordDeliveryReport, WebhookConfig.condition, Tx.alone_map]
        cases hfound : firstMessage (· = some providerMessageId) (cs 0) s with
        | none =>
            rw [alone_search_none hfound]
            rfl
        | some current =>
            cases status with
            | inherited property =>
                rw [alone_search_inherited hfound]
                rfl
            | terminal status =>
                rw [alone_search_terminal hfound, alone_reportOn (find_of_firstMessage hfound).1]
                simp only [outcome]
                split
                · rfl
                · split <;> rfl
  · rfl

theorem mem_outcome {c : Choice} {status : Option MappedStatus} {found : Option SmsMessage}
    {write : Write Row.key} (h : write ∈ (outcome c status found).2) :
    ∃ current status', found = some current ∧
      write = .put (smsMessage.wrap (reported current status' c)) := by
  rcases status with _ | status | property <;> rcases found with _ | current <;>
    simp only [outcome, List.not_mem_nil] at h
  split at h
  · simp at h
  · split at h
    · exact ⟨current, status, rfl, by simpa using h⟩
    · simp at h

theorem mem_answered {providerMessageId : String} {status : Option MappedStatus}
    {write : Write Row.key} (h : write ∈ (answered cs providerMessageId status s).2) :
    ∃ current status', firstMessage (· = some providerMessageId) (cs 0) s = some current ∧
      write = .put (smsMessage.wrap (reported current status' (cs 1))) := by
  rw [answered] at h
  split at h
  · exact mem_outcome h
  · cases h

theorem find_of_handle {config : WebhookConfig} {provider : WebhookProvider} {request : Request}
    {providerMessageId : String} (hcarries : Carries config provider request providerMessageId)
    {answer : Except HttpException WebhookAck} {s' : Database}
    (h : (handle config provider request).alone cs s = .ok (answer, s')) {k : RowKey}
    (hk : ∀ row, s.find k = some (.message row) →
      row.providerMessageId ≠ some providerMessageId) : s'.find k = s.find k := by
  obtain ⟨status, hstatus⟩ := hcarries
  obtain ⟨_, rfl⟩ := Prod.mk.inj (Except.ok.inj ((alone_handle hstatus).symm.trans h))
  refine Store.find_applyAll_of_untouched s fun write hwrite => ?_
  obtain ⟨current, status', hfound, rfl⟩ := mem_answered hwrite
  obtain ⟨hfind, hid⟩ := find_of_firstMessage hfound
  rintro rfl
  exact hk current (Table.find_eq_some_iff.mp hfind) (by simpa using hid)

end Reports

theorem firstMessage_of_unshared {provider : WebhookProvider} {providerMessageId : String}
    {s : Database} (hs : Unshared provider providerMessageId s) (c : Choice) :
    firstMessage (· = some providerMessageId) c s =
      (unordered c SmsMessage.id ((messagesOf provider s).filter fun row =>
        row.providerMessageId = some providerMessageId)).head? := by
  rw [firstMessage, messagesOf, Table.filter_rows]
  congr 2
  refine Table.rows_congr fun row hrow => ?_
  by_cases hid : row.providerMessageId = some providerMessageId
  · simp [hid, hs _ row hrow hid]
  · simp [hid]

/-- Where no message of another provider holds the id that a correctly signed
request carries, the request changes messages of its own provider only, and its
answer depends on these only. -/
theorem provider_isolation {config : WebhookConfig} {provider : WebhookProvider}
    {request : Request} {providerMessageId : String}
    (hcarries : Carries config provider request providerMessageId) {s : Database}
    (hs : Unshared provider providerMessageId s) (cs : Nat → Choice) :
    ∃ answer s', (handle config provider request).alone cs s = .ok (answer, s') ∧
      (∀ k, (∀ row, s.find k = some (.message row) → row.selectedProvider ≠ some provider.name) →
        s'.find k = s.find k) ∧
      ∀ s₂, Unshared provider providerMessageId s₂ →
        messagesOf provider s₂ = messagesOf provider s →
        ∃ s₂', (handle config provider request).alone cs s₂ = .ok (answer, s₂') := by
  obtain ⟨status, hstatus⟩ := id hcarries
  refine ⟨_, _, alone_handle hstatus, fun k hk => ?_, fun s₂ hs₂ hsame => ?_⟩
  · refine find_of_handle hcarries (alone_handle hstatus) fun row hrow hid => hk row hrow ?_
    have hkey := Store.key_of_find hrow
    rw [← hkey] at hrow
    exact hs row.id row (Table.find_eq_some_iff.mpr hrow) hid
  · have hfound : firstMessage (· = some providerMessageId) (cs 0) s =
        firstMessage (· = some providerMessageId) (cs 0) s₂ := by
      rw [firstMessage_of_unshared hs₂, hsame, ← firstMessage_of_unshared hs]
    have hsame : answered cs providerMessageId status s = answered cs providerMessageId status s₂ :=
      by rw [answered, hfound, answered]
    exact ⟨_, by rw [hsame]; exact alone_handle hstatus⟩

section Samples

/-- Endpoints on which every digest reads the same and every body carries the id `X`
with the status `delivered`. -/
def sampleEndpoints : WebhookConfig :=
  { authToken := some "token"
    signingKey := some "key"
    serviceUrl := "https://sms.example"
    hmacSha1Base64 := fun _ _ => "signature"
    hmacSha256Hex := fun _ _ => "signature"
    formFields := fun _ => [("MessageSid", "X"), ("MessageStatus", "delivered")]
    parseJson := fun _ => some (.obj [("id", .str "X"), ("status", .str "delivered")])
    idFilter := fun _ => none }

def sampleRequest : Request :=
  ⟨some ByteArray.empty, some "signature"⟩

theorem carries_sample (provider : WebhookProvider) :
    Carries sampleEndpoints provider sampleRequest "X" := by
  cases provider <;> exact ⟨some (.terminal .delivered), by rfl⟩

/-- A message that has been sent through a provider. -/
def sentMessage (m provider providerMessageId : String) : SmsMessage :=
  { id := m, idempotencyKey := m, recipientPhone := "", encryptedMessage := "", metadata := none
    status := .sent, selectedProvider := some provider
    providerMessageId := some providerMessageId, lastError := none, deliveryAttempts := 1
    retryRounds := 0, retentionExpiresAt := 0, createdAt := 0, updatedAt := 0 }

/-- The database with one message. -/
def holding (row : SmsMessage) : Database :=
  (Store.empty Row.key).apply (.put (smsMessage.wrap row))

theorem eq_of_find_holding {row row' : SmsMessage} {m : String}
    (h : smsMessage.find (holding row) m = some row') : row' = row := by
  have hmem : smsMessage.wrap row' ∈ [smsMessage.wrap row] :=
    Store.mem_of_find (Table.find_eq_some_iff.mp h)
  exact smsMessage.wrap_injective (List.mem_singleton.mp hmem)

/-- A Twilio request that carries the id of a message sent through Bird: the message
changes, and without it the request would be answered that the id is unknown. -/
theorem provider_isolation_shared_id :
    Carries sampleEndpoints .twilio sampleRequest "X" ∧
    (∃ s', (handle sampleEndpoints .twilio sampleRequest).alone (fun _ => sampleChoice "" 1)
        (holding (sentMessage "b" "bird" "X")) = .ok (.ok .ok, s') ∧
      smsMessage.find (holding (sentMessage "b" "bird" "X")) "b" =
        some (sentMessage "b" "bird" "X") ∧
      (smsMessage.find s' "b").map SmsMessage.status = some .delivered) ∧
    messagesOf .twilio (holding (sentMessage "b" "bird" "X")) =
      messagesOf .twilio (Store.empty Row.key) ∧
    (handle sampleEndpoints .twilio sampleRequest).alone (fun _ => sampleChoice "" 1)
      (Store.empty Row.key) =
        .ok (.error (.notFound "Unknown provider message id"), Store.empty Row.key) :=
  ⟨carries_sample .twilio, ⟨_, rfl, rfl, rfl⟩, rfl, rfl⟩

/-- A message sent through Twilio beside one sent through Bird under another id. -/
def sentBoth : Database :=
  (holding (sentMessage "a" "twilio" "X")).apply
    (.put (smsMessage.wrap (sentMessage "b" "bird" "Y")))

theorem unshared_of_rows {provider : WebhookProvider} {providerMessageId : String} {s : Database}
    (h : s.rows.all fun row => (smsMessage.unwrap row).all fun message =>
      message.providerMessageId ≠ some providerMessageId ||
        message.selectedProvider = some provider.name) :
    Unshared provider providerMessageId s := by
  intro m row hrow hid
  have hmem := Store.mem_of_find (Table.find_eq_some_iff.mp hrow)
  have hmessage := List.all_eq_true.mp h _ hmem
  simpa [Table.unwrap_wrap, hid] using hmessage

/-- A Twilio request beside a message sent through Bird under another id: the message
sent through Twilio is delivered, the other one stays, and the answer is the same
without it. -/
theorem provider_isolation_delivered :
    ∃ s' s₂', (handle sampleEndpoints .twilio sampleRequest).alone
        (fun _ => sampleChoice "" 1) sentBoth = .ok (.ok .ok, s') ∧
      (smsMessage.find s' "a").map SmsMessage.status = some .delivered ∧
      s'.find (.message "b") = some (.message (sentMessage "b" "bird" "Y")) ∧
      (handle sampleEndpoints .twilio sampleRequest).alone (fun _ => sampleChoice "" 1)
        (holding (sentMessage "a" "twilio" "X")) = .ok (.ok .ok, s₂') := by
  have hboth : Unshared .twilio "X" sentBoth := unshared_of_rows (by decide)
  obtain ⟨answer, s', hanswer, hframe, hsame⟩ := provider_isolation (carries_sample .twilio) hboth
    fun _ => sampleChoice "" 1
  obtain ⟨s₂', hanswer₂⟩ := hsame (holding (sentMessage "a" "twilio" "X"))
    (unshared_of_rows (by decide)) rfl
  have hdelivered : ∃ s', (handle sampleEndpoints .twilio sampleRequest).alone
      (fun _ => sampleChoice "" 1) sentBoth = .ok (.ok .ok, s') ∧
      (smsMessage.find s' "a").map SmsMessage.status = some .delivered := ⟨_, rfl, rfl⟩
  obtain ⟨s'', hok, hstatus⟩ := hdelivered
  obtain ⟨rfl, rfl⟩ := Prod.mk.inj (Except.ok.inj (hok.symm.trans hanswer))
  refine ⟨s'', s₂', hok, hstatus, (hframe (.message "b") fun row hrow => ?_).trans rfl, hanswer₂⟩
  obtain rfl : sentMessage "b" "bird" "Y" = row := by
    have hfind : sentBoth.find (.message "b") = some (.message (sentMessage "b" "bird" "Y")) := rfl
    exact Row.message.inj (Option.some.inj (hfind.symm.trans hrow))
  decide

end Samples

end SmsNotification.ProviderIsolation

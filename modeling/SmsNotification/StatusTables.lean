import SmsNotification.BirdPayloads

namespace SmsNotification.StatusTables

open SmsNotification.BirdPayloads (Signed birdReport_of_payload)
open SmsNotification.KeyedStore
open SmsNotification.ProviderIsolation
open SmsNotification.Schema
open SmsNotification.ServiceRuns (sampleChoice)
open SmsNotification.SmsLifecycleRepository
open SmsNotification.Webhooks

/-- The status table of a provider. -/
def statusMap : WebhookProvider → List (String × DeliveryTerminalStatus)
  | .twilio => twilioStatusMap
  | .bird => birdStatusMap

/-- The terminal status that the table of a provider lists for a status in any letter case. -/
def listed? (provider : WebhookProvider) (rawStatus : String) : Option DeliveryTerminalStatus :=
  (statusMap provider).lookup (toLowerCase rawStatus)

/-- A correctly signed callback with a provider message id and a status. -/
inductive Callback (config : WebhookConfig) (request : Request) :
    WebhookProvider → Json → String → Prop where
  | twilio {authToken : String} {rawBody : ByteArray} {providerMessageId : String}
      (token : configured config.authToken = some authToken)
      (body : request.rawBody = some rawBody)
      (signature : verifyTwilioSignature config authToken config.callbackUrl
        (parseFormParams (config.formFields rawBody)) request.signature = true)
      (sid : (parseFormParams (config.formFields rawBody)).lookup "MessageSid" =
        some providerMessageId)
      (nonempty : providerMessageId.isEmpty = false) :
      Callback config request .twilio (.str providerMessageId)
        (((parseFormParams (config.formFields rawBody)).lookup "MessageStatus").getD "")
  | bird {rawBody : ByteArray} {payload providerMessageId : Json} {rawStatus : String}
      (signed : Signed config request rawBody)
      (parsed : config.parseJson rawBody = some payload) (object : payload ≠ .null)
      (id : correlationId payload = some providerMessageId)
      (status : rawStatusOf payload = .str rawStatus) :
      Callback config request .bird providerMessageId rawStatus

/-- The id and the status that `applyDeliveryReport` is called with, if it is called. -/
def reportCall (config : WebhookConfig) (provider : WebhookProvider) (request : Request) :
    Option (Json × MappedStatus) :=
  match readReport config provider request with
  | .ok ⟨_, providerMessageId, some status⟩ => some (providerMessageId, status)
  | _ => none

/-- A callback is acknowledged as ignored: nothing is called and no row changes. -/
structure Ignored (config : WebhookConfig) (provider : WebhookProvider) (request : Request)
    (cs : Nat → Choice) (s : Database) : Prop where
  uncalled : reportCall config provider request = none
  answered : (handle config provider request).alone cs s = .ok (.ok .ignored, s)

/-- What a callback with a status should come to: a listed status is the one that is
passed on, and a callback with any other status is ignored. -/
def Honoured (config : WebhookConfig) (provider : WebhookProvider) (request : Request)
    (providerMessageId : Json) (rawStatus : String) (cs : Nat → Choice) (s : Database) : Prop :=
  match listed? provider rawStatus with
  | some status => reportCall config provider request = some (providerMessageId, .terminal status)
  | none => Ignored config provider request cs s

theorem toLower_toLower (ch : Char) : ch.toLower.toLower = ch.toLower := by
  by_cases h : ch.val ≥ 'A'.val ∧ ch.val ≤ 'Z'.val
  · have hlower : ch.toLower.val = ch.val + 32 := by
      rw [Char.toLower.eq_def, dif_pos h]
      rfl
    have hupper : ¬(ch.toLower.val ≥ 'A'.val ∧ ch.toLower.val ≤ 'Z'.val) := by
      rw [hlower]
      simp only [ge_iff_le, UInt32.le_iff_toNat_le, UInt32.toNat_add, Char.reduceVal,
        UInt32.reduceToNat] at h ⊢
      omega
    rw [Char.toLower.eq_def ch.toLower, dif_neg hupper]
  · have hsame : ch.toLower = ch := by rw [Char.toLower.eq_def ch, dif_neg h]
    rw [hsame, hsame]

theorem toLowerCase_toLowerCase (text : String) :
    toLowerCase (toLowerCase text) = toLowerCase text := by
  have htwice : Char.toLower ∘ Char.toLower = Char.toLower := funext toLower_toLower
  rw [toLowerCase, toLowerCase, String.toList_ofList, List.map_map, htwice]

theorem inherited_iff (rawStatus : String) :
    inheritedProperties.contains (toLowerCase rawStatus) ↔
      toLowerCase rawStatus = "constructor" ∨ toLowerCase rawStatus = "__proto__" := by
  have hlower : ∀ name ∈ inheritedProperties, toLowerCase name = name →
      name = "constructor" ∨ name = "__proto__" := by
    decide
  constructor
  · intro h
    exact hlower _ (List.contains_iff_mem.mp h) (toLowerCase_toLowerCase rawStatus)
  · rintro (h | h) <;> rw [h] <;> decide

theorem mapStatus_of_listed {provider : WebhookProvider} {rawStatus : String}
    {status : DeliveryTerminalStatus} (h : listed? provider rawStatus = some status) :
    mapStatus (statusMap provider) rawStatus = some (.terminal status) := by
  rw [listed?] at h
  simp only [mapStatus, h]

theorem mapStatus_of_inherited {provider : WebhookProvider} {rawStatus : String}
    (hlisted : listed? provider rawStatus = none)
    (h : inheritedProperties.contains (toLowerCase rawStatus)) :
    mapStatus (statusMap provider) rawStatus = some (.inherited (toLowerCase rawStatus)) := by
  rw [listed?] at hlisted
  simp only [mapStatus, hlisted, h, if_true]

theorem mapStatus_of_unlisted {provider : WebhookProvider} {rawStatus : String}
    (hlisted : listed? provider rawStatus = none)
    (h : ¬inheritedProperties.contains (toLowerCase rawStatus)) :
    mapStatus (statusMap provider) rawStatus = none := by
  rw [listed?] at hlisted
  simp only [mapStatus, hlisted, h, if_false, Bool.false_eq_true]

theorem listed?_of_inherited (provider : WebhookProvider) {rawStatus : String}
    (h : toLowerCase rawStatus = "constructor" ∨ toLowerCase rawStatus = "__proto__") :
    listed? provider rawStatus = none := by
  rcases h with h | h <;> rw [listed?, h] <;> cases provider <;> decide

section Callbacks

variable {config : WebhookConfig} {provider : WebhookProvider} {request : Request}
  {providerMessageId : Json} {rawStatus : String} {cs : Nat → Choice} {s : Database}

theorem readReport_of_callback (h : Callback config request provider providerMessageId rawStatus) :
    readReport config provider request =
      .ok ⟨provider, providerMessageId, mapStatus (statusMap provider) rawStatus⟩ := by
  cases h with
  | twilio token body signature sid nonempty =>
      simp [readReport, twilioReport, token, body, signature, sid, nonempty, mapTwilioStatus,
        statusMap, Option.filter]
  | bird signed parsed object id status =>
      have hreads := birdReport_of_payload signed parsed
      generalize hreport : birdReport config request = report at hreads
      cases hreads with
      | null => exact absurd rfl object
      | missing _ hid => simp [id] at hid
      | unread _ _ hstatus => exact absurd status (hstatus rawStatus)
      | report _ hid hstatus =>
          obtain rfl := Option.some.inj (id.symm.trans hid)
          obtain rfl := Json.str.inj (status.symm.trans hstatus)
          exact hreport

theorem reportCall_of_callback
    (h : Callback config request provider providerMessageId rawStatus) :
    reportCall config provider request =
      (mapStatus (statusMap provider) rawStatus).map (providerMessageId, ·) := by
  rw [reportCall, readReport_of_callback h]
  cases mapStatus (statusMap provider) rawStatus <;> rfl

theorem ignored_of_unmapped (h : Callback config request provider providerMessageId rawStatus)
    (hnone : mapStatus (statusMap provider) rawStatus = none) :
    Ignored config provider request cs s := by
  refine ⟨by rw [reportCall_of_callback h, hnone]; rfl, ?_⟩
  rw [handle, readReport_of_callback h, hnone]
  rfl

end Callbacks

/-- A correctly signed callback comes to what it should just if its status is, in lower
case, none of the names that every object inherits. -/
theorem status_honoured {config : WebhookConfig} {provider : WebhookProvider} {request : Request}
    {providerMessageId : Json} {rawStatus : String}
    (h : Callback config request provider providerMessageId rawStatus) (cs : Nat → Choice)
    (s : Database) :
    Honoured config provider request providerMessageId rawStatus cs s ↔
      toLowerCase rawStatus ≠ "constructor" ∧ toLowerCase rawStatus ≠ "__proto__" := by
  rw [← not_or, ← inherited_iff]
  constructor
  · intro hhonoured hinherited
    have hlisted := listed?_of_inherited provider ((inherited_iff rawStatus).mp hinherited)
    simp only [Honoured, hlisted] at hhonoured
    have huncalled := hhonoured.uncalled
    rw [reportCall_of_callback h, mapStatus_of_inherited hlisted hinherited] at huncalled
    cases huncalled
  · intro hinherited
    cases hlisted : listed? provider rawStatus with
    | some status =>
        simp only [Honoured, hlisted]
        rw [reportCall_of_callback h, mapStatus_of_listed hlisted]
        rfl
    | none =>
        simp only [Honoured, hlisted]
        exact ignored_of_unmapped h (mapStatus_of_unlisted hlisted hinherited)

/-- The endpoints, on which every body carries the id `X` with the given status. -/
def endpointsOn (rawStatus : String) : WebhookConfig :=
  { sampleEndpoints with
    formFields := fun _ => [("MessageSid", "X"), ("MessageStatus", rawStatus)]
    parseJson := fun _ => some (.obj [("id", .str "X"), ("status", .str rawStatus)]) }

theorem callback_endpointsOn (rawStatus : String) (provider : WebhookProvider) :
    Callback (endpointsOn rawStatus) sampleRequest provider (.str "X") rawStatus := by
  cases provider with
  | twilio =>
      exact @Callback.twilio (endpointsOn rawStatus) _ _ ByteArray.empty _ rfl rfl rfl rfl rfl
  | bird =>
      exact @Callback.bird (endpointsOn rawStatus) _ _
        (.obj [("id", .str "X"), ("status", .str rawStatus)]) _ _
        ⟨rfl, "key", rfl, rfl⟩ rfl (by simp) rfl rfl

/-- A status that is on its way is ignored. -/
theorem status_honoured_queued :
    Honoured (endpointsOn "Queued") .twilio sampleRequest (.str "X") "Queued"
      (fun _ => sampleChoice "" 1) (Store.empty Row.key) :=
  (status_honoured (callback_endpointsOn "Queued" .twilio) _ _).mpr (by decide)

/-- The status `constructor` is no listed one, and both endpoints report it: on a database
without messages the callback is answered that the id is unknown. -/
theorem constructor_not_honoured :
    Callback (endpointsOn "constructor") sampleRequest .twilio (.str "X") "constructor" ∧
    listed? .twilio "constructor" = none ∧
    (handle (endpointsOn "constructor") .twilio sampleRequest).alone (fun _ => sampleChoice "" 1)
      (Store.empty Row.key) =
        .ok (.error (.notFound "Unknown provider message id"), Store.empty Row.key) ∧
    ¬Honoured (endpointsOn "constructor") .twilio sampleRequest (.str "X") "constructor"
      (fun _ => sampleChoice "" 1) (Store.empty Row.key) ∧
    ¬Honoured (endpointsOn "constructor") .bird sampleRequest (.str "X") "constructor"
      (fun _ => sampleChoice "" 1) (Store.empty Row.key) := by
  refine ⟨callback_endpointsOn _ _, by decide, rfl, fun h => ?_, fun h => ?_⟩
  · have hignored : Ignored _ _ _ _ _ := h
    cases hignored.uncalled
  · have hignored : Ignored _ _ _ _ _ := h
    cases hignored.uncalled

end SmsNotification.StatusTables

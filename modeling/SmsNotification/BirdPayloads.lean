import SmsNotification.ProviderIsolation

namespace SmsNotification.BirdPayloads

open SmsNotification.KeyedStore
open SmsNotification.ProviderIsolation
open SmsNotification.ReadCommitted
open SmsNotification.Schema
open SmsNotification.ServiceRuns (sampleChoice)
open SmsNotification.SmsLifecycleRepository
open SmsNotification.Webhooks

/-- The provider message id that `applyDeliveryReport` is called with, if it is called. -/
def searchedId (config : WebhookConfig) (request : Request) : Option Json :=
  match birdReport config request with
  | .ok ⟨_, providerMessageId, some _⟩ => some providerMessageId
  | _ => none

/-- The answers that an authenticated request may get. -/
def isDocumented : Except HttpException WebhookAck → Bool
  | .ok _ => true
  | .error (.badRequest _) => true
  | .error (.notFound _) => true
  | .error (.conflict _) => true
  | .error _ => false

/-- The body of a request with a valid signature. -/
structure Signed (config : WebhookConfig) (request : Request) (rawBody : ByteArray) : Prop where
  body : request.rawBody = some rawBody
  signature : ∃ signingKey, configured config.signingKey = some signingKey ∧
    verifyBirdSignature config signingKey rawBody request.signature = true

/-- A request is handled: it is answered as documented, a message is looked up under
text only, and no other message than one with that id changes. -/
structure Handled (config : WebhookConfig) (request : Request) (cs : Nat → Choice)
    (s : Database) : Prop where
  answered : ∃ answer s', (handle config .bird request).alone cs s = .ok (answer, s') ∧
    isDocumented answer
  searched : ∀ providerMessageId, searchedId config request = some providerMessageId →
    ∃ text, providerMessageId = .str text ∧ text ≠ ""
  changed : ∀ answer s', (handle config .bird request).alone cs s = .ok (answer, s') →
    ∀ k, s'.find k ≠ s.find k → ∃ text row, searchedId config request = some (.str text) ∧
      s.find k = some (.message row) ∧ row.providerMessageId = some text

/-- A payload that the endpoint can read: it is not null, and where it has an id its
status is text, and so is the id itself where the status is a listed one. -/
structure Readable (payload : Json) : Prop where
  not_null : payload ≠ .null
  status : ∀ providerMessageId, correlationId payload = some providerMessageId →
    ∃ rawStatus, rawStatusOf payload = .str rawStatus ∧ (mapBirdStatus rawStatus ≠ none →
      ∃ text, providerMessageId = .str text ∧ isQueryable (.str text))

/-- What the controller reads in a payload. -/
inductive Reads : Json → Except HttpException RecordDeliveryReportInput → Prop where
  | null : Reads .null (.error .internal)
  | missing {payload : Json} : payload ≠ .null → correlationId payload = none →
      Reads payload (.error (.badRequest "Missing message correlation id"))
  | report {payload providerMessageId : Json} {rawStatus : String} : payload ≠ .null →
      correlationId payload = some providerMessageId → rawStatusOf payload = .str rawStatus →
      Reads payload (.ok ⟨.bird, providerMessageId, mapBirdStatus rawStatus⟩)
  | unread {payload providerMessageId : Json} : payload ≠ .null →
      correlationId payload = some providerMessageId →
      (∀ rawStatus, rawStatusOf payload ≠ .str rawStatus) → Reads payload (.error .internal)

section Requests

variable {config : WebhookConfig} {request : Request} {cs : Nat → Choice} {s : Database}
  {rawBody : ByteArray} {payload providerMessageId : Json} {status : Option MappedStatus}

theorem handled_of_same {answer : Except HttpException WebhookAck}
    (hsearched : searchedId config request = none)
    (halone : (handle config .bird request).alone cs s = .ok (answer, s)) :
    Handled config request cs s ↔ isDocumented answer := by
  refine ⟨fun hhandled => ?_, fun hdocumented => ⟨⟨answer, s, halone, hdocumented⟩,
    fun _ hid => by simp [hsearched] at hid, fun answer s' hrun k hk => ?_⟩⟩
  · obtain ⟨answer', s', hrun, hanswer⟩ := hhandled.answered
    rw [halone] at hrun
    obtain ⟨rfl, -⟩ := Prod.mk.inj (Except.ok.inj hrun)
    exact hanswer
  · rw [halone] at hrun
    obtain ⟨-, rfl⟩ := Prod.mk.inj (Except.ok.inj hrun)
    exact absurd rfl hk

theorem handled_of_error {e : HttpException} (h : birdReport config request = .error e) :
    Handled config request cs s ↔ isDocumented (.error e) := by
  have hsearched : searchedId config request = none := by rw [searchedId, h]
  refine handled_of_same hsearched ?_
  rw [handle, readReport, h]
  rfl

theorem handled_of_ignored (h : birdReport config request = .ok ⟨.bird, providerMessageId, none⟩) :
    Handled config request cs s := by
  have hsearched : searchedId config request = none := by rw [searchedId, h]
  have halone : (handle config .bird request).alone cs s = .ok (.ok .ignored, s) := by
    rw [handle, readReport, h]
    rfl
  exact (handled_of_same hsearched halone).mpr rfl

theorem isDocumented_outcome (c : Choice) (status : Option MappedStatus)
    (found : Option SmsMessage) : isDocumented (outcome c status found).1 := by
  rcases status with _ | status | property <;> rcases found with _ | current
  case some.terminal.some =>
    simp only [outcome]
    split
    · rfl
    · split <;> rfl
  all_goals rfl

theorem handled_of_searched {mapped : MappedStatus}
    (h : birdReport config request = .ok ⟨.bird, providerMessageId, some mapped⟩)
    (htruthy : isFalsy providerMessageId = false) :
    Handled config request cs s ↔
      ∃ text, providerMessageId = .str text ∧ isQueryable (.str text) := by
  have hsearched : searchedId config request = some providerMessageId := by rw [searchedId, h]
  constructor
  · intro hhandled
    obtain ⟨text, rfl, _⟩ := hhandled.searched _ hsearched
    obtain ⟨answer, s', hrun, hanswer⟩ := hhandled.answered
    refine ⟨text, rfl, ?_⟩
    by_contra hrejected
    have hread : readReport config .bird request = .ok ⟨.bird, .str text, some mapped⟩ := h
    rw [alone_handle hread, answered, if_neg (by simpa using hrejected)] at hrun
    obtain ⟨rfl, -⟩ := Prod.mk.inj (Except.ok.inj hrun)
    cases hanswer
  · rintro ⟨text, rfl, hqueryable⟩
    have hread : readReport config .bird request = .ok ⟨.bird, .str text, some mapped⟩ := h
    have hdocumented : isDocumented (answered cs text (some mapped) s).1 := by
      rw [answered, if_pos (by simpa using hqueryable)]
      exact isDocumented_outcome _ _ _
    refine ⟨⟨_, _, alone_handle hread, hdocumented⟩, fun _ hid => ⟨text, ?_, ?_⟩,
      fun answer s' hrun k hk => ?_⟩
    · exact Option.some.inj (hid.symm.trans hsearched)
    · rintro rfl
      simp [isFalsy] at htruthy
    · by_contra hother
      refine hk (find_of_handle ⟨_, hread⟩ hrun fun row hrow hid => hother ?_)
      exact ⟨text, row, hsearched, hrow, hid⟩

theorem birdReport_of_payload (hsigned : Signed config request rawBody)
    (hparse : config.parseJson rawBody = some payload) :
    Reads payload (birdReport config request) := by
  obtain ⟨signingKey, hkey, hsignature⟩ := hsigned.signature
  simp only [birdReport, hkey, hsigned.body, hsignature, hparse, Bool.not_true,
    Bool.false_eq_true, if_false]
  split
  · simp_all
  · obtain rfl := Option.some.inj ‹some payload = some .null›
    exact Reads.null
  · rename_i hnull heq
    obtain rfl := Option.some.inj heq
    have hnull : payload ≠ .null := fun h => hnull (by rw [h])
    split
    · exact Reads.missing hnull ‹_›
    · exact Reads.report hnull ‹_› ‹_›
    · exact Reads.unread hnull ‹_› fun rawStatus h => by simp_all

theorem birdReport_of_unparsed (hsigned : Signed config request rawBody)
    (hparse : config.parseJson rawBody = none) :
    birdReport config request = .error (.badRequest "Invalid JSON body") := by
  obtain ⟨signingKey, hkey, hsignature⟩ := hsigned.signature
  simp only [birdReport, hkey, hsigned.body, hsignature, hparse, Bool.not_true,
    Bool.false_eq_true, if_false]

theorem isFalsy_of_correlationId (h : correlationId payload = some providerMessageId) :
    isFalsy providerMessageId = false := by
  simpa using (Option.filter_eq_some_iff.mp h).2

/-- A signed request whose body is a JSON value is handled just if the value is one
that the endpoint can read. -/
theorem handled_iff_readable (hsigned : Signed config request rawBody)
    (hparse : config.parseJson rawBody = some payload) :
    Handled config request cs s ↔ Readable payload := by
  have hreads := birdReport_of_payload hsigned hparse
  generalize hreport : birdReport config request = report at hreads
  cases hreads with
  | null =>
      rw [handled_of_error hreport]
      exact ⟨fun h => (by cases h), fun h => absurd rfl h.not_null⟩
  | missing hnull hid =>
      rw [handled_of_error hreport]
      exact ⟨fun _ => ⟨hnull, fun _ h => by simp [hid] at h⟩, fun _ => rfl⟩
  | unread hnull hid hstatus =>
      rw [handled_of_error hreport]
      refine ⟨fun h => (by cases h), fun h => ?_⟩
      obtain ⟨rawStatus, htext, _⟩ := h.status _ hid
      exact absurd htext (hstatus rawStatus)
  | report hnull hid hstatus =>
      rename_i providerMessageId rawStatus
      have hreadable : Readable payload ↔ (mapBirdStatus rawStatus ≠ none →
          ∃ text, providerMessageId = .str text ∧ isQueryable (.str text)) := by
        refine ⟨fun h hlisted => ?_, fun h => ⟨hnull, fun id' hid' => ⟨rawStatus, hstatus, ?_⟩⟩⟩
        · obtain ⟨rawStatus', hstatus', htext⟩ := h.status _ hid
          obtain rfl := Json.str.inj (hstatus.symm.trans hstatus')
          exact htext hlisted
        · obtain rfl := Option.some.inj (hid.symm.trans hid')
          exact h
      rw [hreadable]
      cases hmapped : mapBirdStatus rawStatus with
      | none =>
          rw [hmapped] at hreport
          exact ⟨fun _ h => absurd rfl h, fun _ => handled_of_ignored hreport⟩
      | some mapped =>
          rw [hmapped] at hreport
          rw [handled_of_searched hreport (isFalsy_of_correlationId hid)]
          exact ⟨fun h _ => h, fun h => h (by simp)⟩

end Requests

/-- A request with a valid signature is handled on every database exactly if its body
is no JSON value or one that the endpoint can read. -/
theorem bird_body_handled {config : WebhookConfig} {request : Request} {rawBody : ByteArray}
    (hsigned : Signed config request rawBody) (cs : Nat → Choice) (s : Database) :
    Handled config request cs s ↔
      ∀ payload, config.parseJson rawBody = some payload → Readable payload := by
  cases hparse : config.parseJson rawBody with
  | none =>
      rw [handled_of_error (birdReport_of_unparsed hsigned hparse)]
      exact ⟨fun _ _ h => (by cases h), fun _ => rfl⟩
  | some payload =>
      rw [handled_iff_readable hsigned hparse]
      exact ⟨fun h _ heq => Option.some.inj heq ▸ h, fun h => h payload rfl⟩

/-- The endpoints, on which every body is the JSON value `payload`. -/
def endpointsOn (payload : Json) : WebhookConfig :=
  { sampleEndpoints with parseJson := fun _ => some payload }

theorem signed_sample (payload : Json) :
    Signed (endpointsOn payload) sampleRequest ByteArray.empty :=
  ⟨rfl, "key", rfl, by rfl⟩

/-- A body with an id and the status `delivered`, for a message that nobody has sent. -/
theorem bird_body_handled_unknown :
    Handled (endpointsOn (.obj [("id", .str "X"), ("status", .str "delivered")])) sampleRequest
      (fun _ => sampleChoice "" 1) (Store.empty Row.key) := by
  refine (bird_body_handled (signed_sample _) _ _).mpr fun payload hpayload => ?_
  obtain rfl := Option.some.inj hpayload
  refine ⟨by simp, fun providerMessageId hid => ⟨"delivered", rfl, fun _ => ⟨"X", ?_, by decide⟩⟩⟩
  exact (Option.some.inj hid).symm

/-- The body `null` ends in a runtime error. -/
theorem bird_body_null : Signed (endpointsOn .null) sampleRequest ByteArray.empty ∧
    ¬Handled (endpointsOn .null) sampleRequest (fun _ => sampleChoice "" 1)
      (Store.empty Row.key) := by
  refine ⟨signed_sample _, fun hhandled => ?_⟩
  obtain ⟨answer, s', hrun, hanswer⟩ := hhandled.answered
  obtain ⟨rfl, -⟩ := Prod.mk.inj (Except.ok.inj hrun)
  cases hanswer

end SmsNotification.BirdPayloads

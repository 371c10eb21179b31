import SmsNotification.AuditTrail
import SmsNotification.NoDuplicateDelivery

namespace SmsNotification.AcceptedPayloads

open SmsNotification.ActorSystem
open SmsNotification.AttemptLedger
open SmsNotification.AuditTrail
open SmsNotification.LabelledRuns
open SmsNotification.LifecycleEffects
open SmsNotification.MessageAggregate
open SmsNotification.NoDuplicateDelivery
open SmsNotification.Schema
open SmsNotification.Service
open SmsNotification.ServiceEffects
open SmsNotification.ServiceRuns
open SmsNotification.SmsPersistenceRepository
open SmsNotification.SmsProcessor (Hold Pass Task)
open SmsNotification.Surroundings

/-- What a worker is about to send, and for which message. -/
structure Mail where
  messageId : String
  recipientPhone : String
  body : String
  deriving DecidableEq, Repr

def mailOf (pass : Pass) : Mail :=
  ⟨pass.task.messageId, pass.recipientPhone, pass.body⟩

/-- What a call has asked a provider to send. -/
def mailOfCall (call : SendCall) : Mail :=
  ⟨call.messageId, call.recipientPhone, call.body⟩

/-- The mail of a worker that has read its message. -/
def mail? : Control → Option Mail
  | .dispatch (.reserving pass _ _) => some (mailOf pass)
  | .dispatch (.acquiring hold) => some (mailOf hold.pass)
  | .dispatch (.calling hold) => some (mailOf hold.pass)
  | .dispatch (.awaiting hold _) => some (mailOf hold.pass)
  | .dispatch (.finalizing hold _) => some (mailOf hold.pass)
  | .dispatch (.schedulingRetry pass _) => some (mailOf pass)
  | .dispatch (.markingFatal pass _ _) => some (mailOf pass)
  | _ => none

/-- A worker has the mail, or a provider has been called with it. -/
def Carried (a : ServiceSnapshot) (mail : Mail) : Prop :=
  (∃ (i : Nat) (q : Control), a.controls[i]? = some q ∧ mail? q = some mail) ∨
    ∃ call ∈ a.ext.calls, mailOfCall call = mail

/-- The mail is that of the message's row. -/
def Posted (config : Config) (s : Database) (mail : Mail) : Prop :=
  ∃ row, smsMessage.find s mail.messageId = some row ∧
    mail.recipientPhone = row.recipientPhone ∧
    config.processor.decrypt row.encryptedMessage = some mail.body

/-- The row has what the request gave. -/
structure Holds (row : SmsMessage) (input : CreateSmsMessageInput) : Prop where
  idempotencyKey : row.idempotencyKey = input.idempotencyKey
  recipientPhone : row.recipientPhone = input.recipientPhone
  encryptedMessage : row.encryptedMessage = input.encryptedMessage
  metadata : row.metadata = input.metadata

/-- The message of an answered request is there: as the request gave it where the request
created it, and else as it was found. -/
def Ingested (s : Database) (call : CreateOrGetMessage) (result : CreateOrGetSmsMessageResult) :
    Prop :=
  ∃ row, smsMessage.find s result.message.id = some row ∧
    if result.created then Holds row call.input else KeptMessage result.message row

/-- The invariant of the workers, of their calls and of the requests that have been
answered. -/
structure Faithful (config : Config) (a : ServiceSnapshot) : Prop where
  posted : ∀ mail, Carried a mail → Posted config a.store mail
  ingested : ∀ (i : Nat) call result, a.controls[i]? = some (.created call result) →
    Ingested a.store call result

section Rows

variable {config : Config} {s s' : Database}

/-- The messages stay, with what is written once. -/
def KeepsMessages (s s' : Database) : Prop :=
  ∀ m row, smsMessage.find s m = some row →
    ∃ row', smsMessage.find s' m = some row' ∧ KeptMessage row row'

theorem KeepsMessages.refl (s : Database) : KeepsMessages s s :=
  fun _ row hrow => ⟨row, hrow, .refl row⟩

theorem keepsMessages_of_stepEffect {q : Control} (hledger : ∀ m, Ledger (aggregate s m))
    (h : StepEffect q s s') : KeepsMessages s s' := by
  intro m row hrow
  obtain hsame | hmessage := message_of_stepEffect h m
  · exact ⟨row, (congrArg Aggregate.message hsame).trans hrow, .refl row⟩
  · exact (MessageStep.extends (hledger m) (keyed s m) hmessage).message row hrow

theorem Posted.kept {mail : Mail} (h : Posted config s mail) (hkept : KeepsMessages s s') :
    Posted config s' mail := by
  obtain ⟨row, hrow, hphone, hbody⟩ := h
  obtain ⟨row', hrow', hsame⟩ := hkept _ row hrow
  exact ⟨row', hrow', hphone.trans hsame.recipientPhone.symm, by
    rw [hsame.encryptedMessage]
    exact hbody⟩

theorem Ingested.kept {call : CreateOrGetMessage} {result : CreateOrGetSmsMessageResult}
    (h : Ingested s call result) (hkept : KeepsMessages s s') : Ingested s' call result := by
  obtain ⟨row, hrow, hholds⟩ := h
  obtain ⟨row', hrow', hsame⟩ := hkept _ row hrow
  refine ⟨row', hrow', ?_⟩
  split at hholds
  · rename_i hcreated
    rw [if_pos hcreated]
    exact ⟨hsame.idempotencyKey.trans hholds.idempotencyKey,
      hsame.recipientPhone.trans hholds.recipientPhone,
      hsame.encryptedMessage.trans hholds.encryptedMessage, hsame.metadata.trans hholds.metadata⟩
  · rename_i hfound
    rw [if_neg hfound]
    exact hholds.trans hsame

theorem ingested_of_spec {call : CreateOrGetMessage} {result : CreateOrGetSmsMessageResult}
    (h : createOrGetMessageSpec call s (.ok result) s') : Ingested s' call result := by
  rcases result with ⟨_ | _, message⟩
  · obtain ⟨rfl, owner, _, _, hmessage⟩ := h
    have hid : message.id = owner.smsMessageId := Table.idOf_of_find hmessage
    exact ⟨message, by rw [hid, hmessage], .refl message⟩
  · obtain ⟨_, ⟨A', ⟨c, events', _, _, _, _, rfl⟩, hupdate⟩, _⟩ := h
    have hrow := congrArg Aggregate.message (congrFun hupdate message.id)
    rw [Function.update_self] at hrow
    exact ⟨call.message c, hrow, rfl, rfl, rfl, rfl⟩

end Rows

section Controls

variable {config : Config} {s s' : Database} {q q' : Control}

theorem mail?_nextProvider (pass : Pass) (providers : List String) :
    mail? (.dispatch (SmsProcessor.nextProvider config.processor pass providers)) =
      some (mailOf pass) := by
  cases providers with
  | nil =>
      rw [SmsProcessor.nextProvider, SmsProcessor.endOfPass]
      split <;> rfl
  | cons provider rest => rfl

theorem mail?_eq_none (h : family q ≠ .dispatch) : mail? q = none := by
  cases q <;> first | rfl | exact absurd rfl h

theorem mail_of_ok (h : controlSpec config q s (.ok q') s') {mail : Mail}
    (hmail : mail? q' = some mail) : mail? q = some mail ∨ (s' = s ∧ Posted config s mail) := by
  by_cases hq : family q = .dispatch
  · cases q with
    | dispatch state =>
        cases state
        case beginning task =>
          obtain ⟨begin, rfl, _⟩ := h
          cases begin <;> cases hmail
        case loading task begin =>
          obtain ⟨found, rfl, hsame, hfound⟩ := h
          cases found with
          | none => cases hmail
          | some row =>
              simp only [SmsProcessor.afterLoad] at hmail
              split at hmail
              · cases hmail
              · rename_i body hbody
                rw [mail?_nextProvider] at hmail
                obtain rfl := Option.some.inj hmail
                exact Or.inr ⟨hsame, row, hfound.symm, rfl, hbody⟩
        case reserving pass provider rest =>
          obtain ⟨reservation, rfl, _⟩ := h
          cases reservation with
          | reserved attemptId => exact Or.inl hmail
          | notReservable => cases hmail
        case finalizing hold input =>
          obtain ⟨_, rfl, _⟩ := h
          rcases input with providerMessageId | ⟨_ | _, isRetryable, errorMessage, delayMs⟩
          · cases hmail
          · rw [SmsProcessor.afterFinalize, mail?_nextProvider] at hmail
            exact Or.inl hmail
          · cases hmail
        case markingMissing | schedulingRetry | markingFatal =>
          obtain ⟨_, rfl, _⟩ := h
          cases hmail
        all_goals exact h.elim
    | _ => simp [family] at hq
  · rw [mail?_eq_none ((family_of_ok h).1 ▸ hq)] at hmail
    cases hmail

theorem mail_of_error {t : ReadCommitted.Tx Choice Row.key Failure Control}
    {onError : Failure → Control} (hcode : code config q = .tx t onError) (e : Failure) :
    mail? (onError e) = none := by
  by_cases hq : family q = .dispatch
  · obtain ⟨_, _, _, _, h | h⟩ := dispatch_of_error hcode e hq <;> rw [h] <;> rfl
  · exact mail?_eq_none ((family_of_error hcode e).1 ▸ hq)

theorem mail_of_crash (q : Control) : mail? (crash q) = none := by
  cases q <;> rfl

theorem mail_of_acts {c : Choice} {o o' : Outside} (h : Acts config c o q o' q')
    {mail : Mail} (hmail : mail? q' = some mail) : mail? q = some mail := by
  cases h with
  | acquired => exact hmail
  | started => exact hmail
  | answered =>
      cases hreply : c.reply with
      | none =>
          rw [hreply] at hmail
          cases hmail
      | some result =>
          rw [hreply] at hmail
          exact hmail
  | took =>
      unfold SmsProcessor.process at hmail
      split at hmail <;> cases hmail
  | _ => cases hmail

theorem created_of_ok {call : CreateOrGetMessage} {result : CreateOrGetSmsMessageResult}
    (h : controlSpec config q s (.ok (.created call result)) s') :
    createOrGetMessageSpec call s (.ok result) s' := by
  have hfamily := (family_of_ok h).1
  cases q with
  | creating call' again =>
      obtain ⟨result', heq, hspec⟩ := h
      obtain ⟨rfl, rfl⟩ := Control.created.inj heq
      exact hspec
  | created _ _ => exact h.elim
  | createFailed _ _ _ => exact h.elim
  | _ => simp [family] at hfamily

theorem not_created_of_onError {t : ReadCommitted.Tx Choice Row.key Failure Control}
    {onError : Failure → Control} (hcode : code config q = .tx t onError) (e : Failure)
    (call : CreateOrGetMessage) (result : CreateOrGetSmsMessageResult) :
    onError e ≠ .created call result := by
  intro heq
  have hfamily := (family_of_error hcode e).1
  rw [heq] at hfamily
  cases q with
  | creating call' again =>
      obtain ⟨_, rfl⟩ := Code.tx.inj hcode
      simp only at heq
      split at heq <;> cases heq
  | created _ _ => simp [code] at hcode
  | createFailed _ _ _ => simp [code] at hcode
  | _ => simp [family] at hfamily

end Controls

section Runs

variable {config : Config} {a a' : ServiceSnapshot} {w : ServiceWorld}

theorem Faithful.set (h : Faithful config a) {i : Nat} {q' : Control} {s : Database}
    {x : Outside} (hkept : KeepsMessages a.store s)
    (hmail : ∀ mail, mail? q' = some mail → Posted config s mail)
    (hcalls : ∀ call ∈ x.calls, Carried a (mailOfCall call))
    (hcreated : ∀ call result, q' = .created call result → Ingested s call result) :
    Faithful config ⟨s, a.controls.set i q', x⟩ where
  posted mail hcarried := by
    rcases hcarried with ⟨j, q, hq, hq'⟩ | ⟨call, hcall, rfl⟩
    · rcases getElem?_set_eq_some hq with ⟨_, rfl⟩ | ⟨_, hq⟩
      · exact hmail mail hq'
      · exact (h.posted mail (Or.inl ⟨j, q, hq, hq'⟩)).kept hkept
    · exact (h.posted _ (hcalls call hcall)).kept hkept
  ingested j call result hq := by
    rcases getElem?_set_eq_some hq with ⟨_, heq⟩ | ⟨_, hq⟩
    · exact hcreated call result heq.symm
    · exact (h.ingested j call result hq).kept hkept

theorem Faithful.ok (h : Faithful config a) (hledger : ∀ m, Ledger (aggregate a.store m))
    {i : Nat} {q q' : Control} {s : Database} (hq : a.controls[i]? = some q)
    (hspec : controlSpec config q a.store (.ok q') s) :
    Faithful config ⟨s, a.controls.set i q', a.ext⟩ := by
  have hkept := keepsMessages_of_stepEffect hledger (stepEffect_of_controlSpec hspec)
  refine h.set hkept (fun mail hmail => ?_) (fun call hcall => Or.inr ⟨call, hcall, rfl⟩)
    fun call result heq => ?_
  · obtain hbefore | ⟨_, hposted⟩ := mail_of_ok hspec hmail
    · exact (h.posted mail (Or.inl ⟨i, q, hq, hbefore⟩)).kept hkept
    · exact hposted.kept hkept
  · rw [heq] at hspec
    exact ingested_of_spec (created_of_ok hspec)

theorem Faithful.error (h : Faithful config a) {i : Nat} {q : Control} {s : Database}
    {t : ReadCommitted.Tx Choice Row.key Failure Control} {onError : Failure → Control}
    (hcode : code config q = .tx t onError) (e : Failure) (hkept : KeepsMessages a.store s) :
    Faithful config ⟨s, a.controls.set i (onError e), a.ext⟩ := by
  refine h.set hkept (fun mail hmail => ?_) (fun call hcall => Or.inr ⟨call, hcall, rfl⟩)
    fun call result heq => ?_
  · simp [mail_of_error hcode] at hmail
  · exact absurd heq (not_created_of_onError hcode e call result)

theorem carried_of_step {l : ServiceLabel} (hstep : ServiceStep config a l a') (call : SendCall)
    (hcall : call ∈ a'.ext.calls) : Carried a (mailOfCall call) := by
  obtain hcalls | ⟨k, started, state, accepted, hk, _, hcalls⟩ | ⟨i, hold, hq, hcalls⟩ :=
    calls_of_step hstep
  · exact Or.inr ⟨call, hcalls ▸ hcall, rfl⟩
  · rw [hcalls] at hcall
    rcases List.mem_or_eq_of_mem_set hcall with hcall | rfl
    · exact Or.inr ⟨call, hcall, rfl⟩
    · exact Or.inr ⟨started, List.mem_of_getElem? hk, rfl⟩
  · rw [hcalls] at hcall
    rcases List.mem_append.mp hcall with hcall | hcall
    · exact Or.inr ⟨call, hcall, rfl⟩
    · obtain rfl := List.mem_singleton.mp hcall
      exact Or.inl ⟨i, _, hq, rfl⟩

theorem Faithful.step (h : Faithful config a) (hledger : ∀ m, Ledger (aggregate a.store m))
    {l : ServiceLabel} (hl : Spawning (delivers ·) a l) (hstep : ServiceStep config a l a') :
    Faithful config a' := by
  have hcalls := carried_of_step hstep
  cases hstep with
  | spawn q =>
      constructor
      · rintro mail (⟨i, q', hq', hmail⟩ | hcalled)
        · rcases getElem?_concat_eq_some hq' with hq' | rfl
          · exact h.posted mail (Or.inl ⟨i, q', hq', hmail⟩)
          · have hdelivers := hl q' rfl
            unfold mail? at hmail
            split at hmail <;> first | cases hdelivers | cases hmail
        · exact h.posted mail (Or.inr hcalled)
      · intro i call result hq'
        rcases getElem?_concat_eq_some hq' with hq' | rfl
        · exact h.ingested i call result hq'
        · exact absurd (hl _ rfl) (by simp [delivers])
  | answer hq _ hspec => exact h.ok hledger hq hspec
  | commit hq _ hspec => exact h.ok hledger hq hspec
  | error hq hcode _ => exact h.error hcode _ (.refl _)
  | fault hq hcode => exact h.error hcode _ (.refl _)
  | lost hq hcode hspec =>
      exact h.error hcode _ (keepsMessages_of_stepEffect hledger (stepEffect_of_controlSpec hspec))
  | act hq hcode hact =>
      have hacts := acts_of_code hcode hact
      refine h.set (.refl _) (fun mail hmail => ?_) hcalls fun call result heq => ?_
      · exact h.posted mail (Or.inl ⟨_, _, hq, mail_of_acts hacts hmail⟩)
      · subst heq
        cases hacts
  | @crash i q hq _ =>
      refine h.set (.refl _) (fun mail hmail => ?_) hcalls fun call result heq => ?_
      · rw [show (service config).crashed q = crash q from rfl, mail_of_crash] at hmail
        cases hmail
      · cases q <;> cases heq
  | env _ =>
      refine ⟨?_, h.ingested⟩
      rintro mail (hworker | ⟨call, hcall, rfl⟩)
      · exact h.posted mail (Or.inl hworker)
      · exact h.posted _ (hcalls call hcall)

theorem faithful_of_reaches (h : Reaches config (Spawning (delivers ·)) Initial w) :
    Faithful config w.abs := by
  have hlive : ∀ a q, Spawning (delivers ·) a (.spawn q) → Lifecycle q :=
    fun a q hq => (holds_nothing_of_delivers (hq q rfl)).1
  refine Reachable.invariant (fun a hinit => ?_) (fun a l a' hreach hinv hl hstep => ?_)
    (h.atomic hlive).2
  · constructor <;> simp [Carried, hinit.controls, hinit.ext, Outside.empty]
  · exact hinv.step (fun m => ledger_of_reachable hreach m) hl hstep

theorem Faithful.mail_of_answer (h : Faithful config a) {i : Nat} {call : CreateOrGetMessage}
    {result : CreateOrGetSmsMessageResult} {mail : Mail}
    (hcall : a.controls[i]? = some (.created call result)) (hmail : Carried a mail)
    (hmessage : mail.messageId = result.message.id) :
    (result.created = true → mail.recipientPhone = call.input.recipientPhone ∧
        config.processor.decrypt call.input.encryptedMessage = some mail.body) ∧
      (result.created = false → mail.recipientPhone = result.message.recipientPhone ∧
        config.processor.decrypt result.message.encryptedMessage = some mail.body) := by
  obtain ⟨row, hrow, hphone, hbody⟩ := h.posted mail hmail
  obtain ⟨row', hrow', hholds⟩ := h.ingested i call result hcall
  obtain rfl := Option.some.inj (hrow.symm.trans (hmessage ▸ hrow'))
  refine ⟨fun hcreated => ?_, fun hfound => ?_⟩
  · rw [if_pos hcreated] at hholds
    rw [← hholds.recipientPhone, ← hholds.encryptedMessage]
    exact ⟨hphone, hbody⟩
  · rw [if_neg (by simp [hfound])] at hholds
    rw [← hholds.recipientPhone, ← hholds.encryptedMessage]
    exact ⟨hphone, hbody⟩

/-- What is sent is what was accepted: in every run, a worker that has read its message
and every call of a provider carry the recipient and the decrypted body of the request
that created the message; and a request answered with a message that was there already
is answered with the recipient and body that are sent. -/
theorem accepted_payload_sent (h : Reaches config (Spawning (delivers ·)) Initial w)
    {i : Nat} {call : CreateOrGetMessage} {result : CreateOrGetSmsMessageResult} {mail : Mail}
    (hcall : w.abs.controls[i]? = some (.created call result)) (hmail : Carried w.abs mail)
    (hmessage : mail.messageId = result.message.id) :
    (result.created = true → mail.recipientPhone = call.input.recipientPhone ∧
        config.processor.decrypt call.input.encryptedMessage = some mail.body) ∧
      (result.created = false → mail.recipientPhone = result.message.recipientPhone ∧
        config.processor.decrypt result.message.encryptedMessage = some mail.body) :=
  (faithful_of_reaches h).mail_of_answer hcall hmail hmessage

end Runs

/-- A request that has been answered, with its answer. -/
def answered? : Control → Option (CreateOrGetMessage × CreateOrGetSmsMessageResult)
  | .created call result => some (call, result)
  | _ => none

theorem eq_created_of_answered? {q : Control}
    {answer : CreateOrGetMessage × CreateOrGetSmsMessageResult} (h : answered? q = some answer) :
    q = .created answer.1 answer.2 := by
  cases q <;> cases h
  rfl

/-- A worker has called a provider for a message that has just been created. -/
theorem accepted_payload_sent_calling :
    ∃ w call, Reaches sampleConfig (Spawning (delivers ·)) Initial w ∧ call ∈ w.ext.calls ∧
      call.recipientPhone = "+15550100" ∧
      sampleConfig.processor.decrypt "body" = some call.body := by
  obtain ⟨w, hw, hanswered, hcalled⟩ := exists_reaches_of_exec sampleConfig
    (Spawning (delivers ·))
    (creation ++ callingPass)
    (fun w => ((w.abs.controls[0]?.bind answered?).any fun answer =>
        answer.2.created && answer.2.message.id = "m" &&
          answer.1.input.recipientPhone = "+15550100" &&
          answer.1.input.encryptedMessage = "body") ∧
      w.ext.calls.any (·.messageId = "m"))
    (by decide +kernel)
  obtain ⟨answer, hanswer, hcreated⟩ := (Option.any_eq_true _ _).mp hanswered
  obtain ⟨created, hq, hsome⟩ := Option.bind_eq_some_iff.mp hanswer
  obtain ⟨call, hcall, hmessage⟩ := List.any_eq_true.mp hcalled
  simp only [Bool.and_eq_true, decide_eq_true_eq] at hcreated hmessage
  obtain ⟨⟨⟨hcreated, hid⟩, hphone⟩, hbody⟩ := hcreated
  rw [eq_created_of_answered? hsome] at hq
  have hsent := (accepted_payload_sent hw hq (Or.inr ⟨call, hcall, rfl⟩)
    (hmessage.trans hid.symm)).1 hcreated
  exact ⟨w, call, hw, hcall, hsent.1.trans hphone, hbody ▸ hsent.2⟩

end SmsNotification.AcceptedPayloads

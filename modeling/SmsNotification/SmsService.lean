import SmsNotification.AcceptedPayloads
import SmsNotification.BoundedMetadata
import SmsNotification.EncryptionService
import SmsNotification.JavaScriptText
import SmsNotification.ReferentialIntegrity

namespace SmsNotification.SmsService

open SmsNotification.AcceptedPayloads
open SmsNotification.ActorSystem
open SmsNotification.AttemptLedger
open SmsNotification.AuditTrail (extends_of_later)
open SmsNotification.BoundedMetadata (isBoundedMetadata)
open SmsNotification.EncryptionService (Primitives ivLengthBytes)
open SmsNotification.IdempotentIngestion
open SmsNotification.JsonValues
open SmsNotification.LabelledRuns
open SmsNotification.LifecycleEffects
open SmsNotification.MessageAggregate
open SmsNotification.NoDuplicateDelivery
open SmsNotification.ReferentialIntegrity
open SmsNotification.Schema
open SmsNotification.Service
open SmsNotification.ServiceEffects
open SmsNotification.ServiceRuns
open SmsNotification.SmsPersistenceRepository
open SmsNotification.SmsProcessor (isTrimmed)
open SmsNotification.SmsStateMachine
open SmsNotification.UnicodeText

/-- The fields of a body that are read, of which the recipient is called `to`; none where
a field is absent. -/
structure SendSmsBody where
  recipient : Option Value
  message : Option Value
  metadata : Option Value

/-- The constraints of the decorators. -/
inductive Constraint where
  | recipientMatches
  | messageIsString
  | messageIsNotEmpty
  | metadataIsObject
  | metadataIsBounded
  deriving DecidableEq, Repr

def Constraint.message : Constraint → String
  | .recipientMatches => "Recipient phone number must be a valid E.164 number"
  | .messageIsString => "message must be a string"
  | .messageIsNotEmpty => "message should not be empty"
  | .metadataIsObject => "metadata must be an object"
  | .metadataIsBounded =>
      "metadata must serialize to at most " ++ toString BoundedMetadata.maxMetadataBytes ++ " bytes"

def isDigit (u : UInt16) : Bool :=
  0x30 ≤ u.toNat && u.toNat ≤ 0x39

/-- `/^\+[1-9]\d{1,14}$/` -/
def isE164 : List UInt16 → Bool
  | plus :: first :: rest =>
      plus = 0x2b && (0x31 ≤ first.toNat && first.toNat ≤ 0x39) &&
        (1 ≤ rest.length && rest.length ≤ 14) && rest.all isDigit
  | _ => false

/-- A field that `IsOptional` leaves unchecked. -/
def isMissing : Option Value → Bool
  | none | some .null => true
  | _ => false

def Constraint.holds (body : SendSmsBody) : Constraint → Bool
  | .recipientMatches =>
      match body.recipient with
      | some (.string text) => isE164 text
      | _ => false
  | .messageIsString =>
      match body.message with
      | some (.string _) => true
      | _ => false
  | .messageIsNotEmpty =>
      match body.message with
      | some (.string text) => !text.isEmpty
      | message => !isMissing message
  | .metadataIsObject =>
      match body.metadata with
      | some (.object _) => true
      | metadata => isMissing metadata
  | .metadataIsBounded =>
      match body.metadata with
      | some (.object entries) => BoundedMetadata.validate (.object entries)
      | some (.array items) => BoundedMetadata.validate (.array items)
      | _ => true

def constraints : List Constraint :=
  [.recipientMatches, .messageIsString, .messageIsNotEmpty, .metadataIsObject, .metadataIsBounded]

def broken (body : SendSmsBody) : List Constraint :=
  constraints.filter fun c => !c.holds body

section Bodies

variable {body : SendSmsBody} {text : List UInt16}

theorem holds_of_unbroken (h : broken body = []) (c : Constraint) : c.holds body := by
  have hmem : c ∈ constraints := by cases c <;> decide
  simpa using List.filter_eq_nil_iff.mp h c hmem

theorem isE164_iff : isE164 text ↔ ∃ first rest, text = 0x2b :: first :: rest ∧
    (0x31 ≤ first.toNat ∧ first.toNat ≤ 0x39) ∧ (1 ≤ rest.length ∧ rest.length ≤ 14) ∧
      ∀ u ∈ rest, isDigit u := by
  constructor
  · intro h
    unfold isE164 at h
    split at h
    · rename_i plus first rest
      simp only [Bool.and_eq_true, decide_eq_true_eq, List.all_eq_true] at h
      obtain ⟨⟨⟨rfl, hfirst⟩, hlength⟩, hrest⟩ := h
      exact ⟨first, rest, rfl, hfirst, hlength, hrest⟩
    · cases h
  · rintro ⟨first, rest, rfl, hfirst, hlength, hrest⟩
    simp only [isE164, Bool.and_eq_true, decide_eq_true_eq, List.all_eq_true]
    exact ⟨⟨⟨trivial, hfirst⟩, hlength⟩, hrest⟩

theorem range_of_isE164 (h : isE164 text) : ∀ u ∈ text, 0x2b ≤ u.toNat ∧ u.toNat ≤ 0x39 := by
  obtain ⟨first, rest, rfl, hfirst, _, hrest⟩ := isE164_iff.mp h
  intro u hu
  rcases List.mem_cons.mp hu with rfl | hu
  · decide
  · rcases List.mem_cons.mp hu with rfl | hu
    · omega
    · have hdigit := hrest u hu
      simp only [isDigit, Bool.and_eq_true, decide_eq_true_eq] at hdigit
      omega

theorem isE164_of_unbroken (hrecipient : body.recipient = some (.string text))
    (h : broken body = []) : isE164 text := by
  have hmatches := holds_of_unbroken h .recipientMatches
  simp only [Constraint.holds, hrecipient] at hmatches
  exact hmatches

theorem ne_nil_of_unbroken (hmessage : body.message = some (.string text))
    (h : broken body = []) : text ≠ [] := by
  have hnotEmpty := holds_of_unbroken h .messageIsNotEmpty
  simp only [Constraint.holds, hmessage] at hnotEmpty
  rintro rfl
  cases hnotEmpty

end Bodies

/-- A body whose constraints hold. -/
structure SendSmsDto where
  recipient : List UInt16
  message : List UInt16
  metadata : Option Value
  isE164_recipient : isE164 recipient
  message_ne_nil : message ≠ []

/-- The body as the validation passes it on, or the constraints that it breaks. -/
def validate (body : SendSmsBody) : Except (List Constraint) SendSmsDto :=
  match hrecipient : body.recipient, hmessage : body.message with
  | some (.string recipient), some (.string message) =>
      if h : broken body = [] then
        .ok ⟨recipient, message, body.metadata, isE164_of_unbroken hrecipient h,
          ne_nil_of_unbroken hmessage h⟩
      else .error (broken body)
  | _, _ => .error (broken body)

section Validation

variable {raw : SendSmsBody} {body : SendSmsDto}

theorem validate_eq_ok_iff : validate raw = .ok body ↔
    raw = ⟨some (.string body.recipient), some (.string body.message), body.metadata⟩ ∧
      broken raw = [] := by
  constructor
  · intro h
    unfold validate at h
    split at h
    · rename_i recipient message hrecipient hmessage
      split at h
      · rename_i hunbroken
        obtain rfl := Except.ok.inj h
        have hfields : raw = ⟨some (.string recipient), some (.string message), raw.metadata⟩ := by
          rw [← hrecipient, ← hmessage]
        exact ⟨hfields, hunbroken⟩
      · cases h
    · cases h
  · rintro ⟨rfl, h⟩
    simp [validate, h]

end Validation

def phonePlaceholder : String := "[redacted-phone]"

def minMaskablePhoneLength : Nat := 9

def trimUnits (text : List UInt16) : List UInt16 :=
  let isTrimmedUnit := fun u => isTrimmed (single u)
  ((text.dropWhile isTrimmedUnit).reverse.dropWhile isTrimmedUnit).reverse

/-- `maskPhone` of a value that is a string, and of any other. -/
def maskPhone : Option (List UInt16) → List UInt16
  | none => encode phonePlaceholder.toList
  | some text =>
      let trimmed := trimUnits text
      if trimmed.length < minMaskablePhoneLength then encode phonePlaceholder.toList
      else trimmed.take 5 ++ encode "***".toList ++ trimmed.drop (trimmed.length - 4)

def maskBody (body : Option (List UInt16)) : String :=
  "[body len=" ++ toString (body.elim 0 List.length) ++ "]"

/-- The record of the event `MESSAGE_QUEUED`. -/
structure LogRecord where
  event : String
  messageId : String
  recipient : List UInt16
  message : String
  deriving DecidableEq

def defaultMaxMessageLength : Nat := 160

def defaultIdempotencyTtlHours : Nat := 24

/-- The settings of the service, its encryption, and how its metadata are written. -/
structure SmsConfig where
  maxMessageLength : Option Nat
  idempotencyTtlHours : Option Nat
  primitives : Primitives
  encryption : EncryptionService.Service
  metadataColumn : Value → Json

/-- The text of a column: surrogates that stand alone cannot be stored. -/
def columnText (text : List UInt16) : String :=
  String.ofList (decode text)

def trimmedKey (idempotencyKey : Option String) : String :=
  String.ofList (JavaScriptText.trim (idempotencyKey.getD "").toList)

/-- `acceptMessage` up to its await: the message of the `BadRequestException`, or the call
of the repository, with the time and the initialization vector that are drawn for it. -/
def acceptMessage (config : SmsConfig) (now : Int) (iv : List UInt8)
    (idempotencyKey : Option String) (body : SendSmsDto) : Except String CreateOrGetMessage :=
  let maxMessageLength := config.maxMessageLength.getD defaultMaxMessageLength
  if trimmedKey idempotencyKey = "" then .error "X-Idempotency-Key header is required"
  else if maxMessageLength < body.message.length then
    .error ("message must be at most " ++ toString maxMessageLength ++ " characters")
  else if body.metadata.any fun metadata => !isBoundedMetadata metadata then
    .error "metadata exceeds supported size or complexity limits"
  else
    .ok
      { input :=
          { idempotencyKey := trimmedKey idempotencyKey
            recipientPhone := columnText body.recipient
            encryptedMessage := columnText
              (EncryptionService.encrypt config.primitives config.encryption iv body.message)
            metadata := body.metadata.map config.metadataColumn }
        now := now
        idempotencyTtlHours := config.idempotencyTtlHours.getD defaultIdempotencyTtlHours }

/-- What `acceptMessage` logs when its await returns. -/
def messageQueued (body : SendSmsDto) (result : CreateOrGetSmsMessageResult) : Option LogRecord :=
  if result.created then
    some ⟨"MESSAGE_QUEUED", result.message.id, maskPhone (some body.recipient),
      maskBody (some body.message)⟩
  else none

structure AcceptedSmsResult where
  messageId : String
  status : SmsStatus
  createdAt : Int

def AcceptedSmsResult.of (result : CreateOrGetSmsMessageResult) : AcceptedSmsResult :=
  ⟨result.message.id, result.message.status, result.message.createdAt⟩

/-- The text that a worker decrypts from a column; none where decryption throws. -/
def decryptColumn (primitives : Primitives) (service : EncryptionService.Service)
    (column : String) : Option String :=
  match EncryptionService.decrypt primitives service (encode column.toList) with
  | .ok text => some (columnText text)
  | .error _ => none

section Texts

variable {config : SmsConfig} {iv : List UInt8}

theorem isWellFormed_of_not_surrogate {text : List UInt16}
    (h : ∀ u ∈ text, isSurrogate u = false) : isWellFormed text := by
  induction text with
  | nil => rfl
  | cons u rest ih =>
      rw [isWellFormed_cons_single (h u List.mem_cons_self)]
      exact ih fun v hv => h v (List.mem_cons_of_mem u hv)

theorem not_surrogate_of_lt {u : UInt16} (h : u.toNat < 0x80) : isSurrogate u = false := by
  rw [Bool.eq_false_iff, Ne, isSurrogate_iff]
  omega

theorem isWellFormed_of_isE164 {text : List UInt16} (h : isE164 text) : isWellFormed text :=
  isWellFormed_of_not_surrogate fun u hu => not_surrogate_of_lt (by
    have hrange := range_of_isE164 h u hu
    omega)

theorem decryptColumn_encrypt (hsound : config.primitives.Sound)
    (hbase64 : ∀ bytes, isWellFormed (config.primitives.toBase64 bytes))
    (hiv : iv.length = ivLengthBytes) (message : List UInt16) :
    decryptColumn config.primitives config.encryption (columnText
        (EncryptionService.encrypt config.primitives config.encryption iv message)) =
      some (columnText message) := by
  have hcolumn : encode (columnText
      (EncryptionService.encrypt config.primitives config.encryption iv message)).toList =
        EncryptionService.encrypt config.primitives config.encryption iv message := by
    rw [columnText, String.toList_ofList]
    exact encode_decode_of_isWellFormed (hbase64 _)
  rw [decryptColumn, hcolumn, EncryptionService.decrypt_encrypt hsound hiv]
  exact congrArg (fun text => some (String.ofList text)) (decode_encode _)

theorem input_of_accepted {now : Int} {idempotencyKey : Option String} {body : SendSmsDto}
    {call : CreateOrGetMessage}
    (h : acceptMessage config now iv idempotencyKey body = .ok call) :
    call.input.idempotencyKey = trimmedKey idempotencyKey ∧
      call.input.recipientPhone = columnText body.recipient ∧
      call.input.encryptedMessage = columnText
        (EncryptionService.encrypt config.primitives config.encryption iv body.message) := by
  unfold acceptMessage at h
  simp only at h
  split at h
  · cases h
  · split at h
    · cases h
    · split at h
      · cases h
      · obtain rfl := Except.ok.inj h
        exact ⟨rfl, rfl, rfl⟩

end Texts

section Masks

variable {text : List UInt16}

end Masks

/-- The message is there, and it was created under the key. -/
def CreatedUnder (s : Database) (key messageId : String) : Prop :=
  ∃ row, smsMessage.find s messageId = some row ∧ row.idempotencyKey = key

/-- Every key leads to a message that was created under it. -/
def NamesOwn (s : Database) : Prop :=
  ∀ k owner, owner? s k = some owner → CreatedUnder s k owner.smsMessageId

/-- The invariant of the keys and of the requests that have been answered. -/
structure OwnAnswers (a : ServiceSnapshot) : Prop where
  ledger : ∀ m, Ledger (aggregate a.store m)
  names : NamesOwn a.store
  answered : ∀ (i : Nat) call result, a.controls[i]? = some (.created call result) →
    CreatedUnder a.store call.input.idempotencyKey result.message.id

section Keys

variable {config : Config} {s s' : Database} {q q' : Control} {a a' : ServiceSnapshot}
  {l : ServiceLabel} {w : ServiceWorld}

theorem CreatedUnder.kept {key messageId : String} (h : CreatedUnder s key messageId)
    (hkept : KeepsMessages s s') : CreatedUnder s' key messageId := by
  obtain ⟨row, hrow, hkey⟩ := h
  obtain ⟨row', hrow', hsame⟩ := hkept _ row hrow
  exact ⟨row', hrow', hsame.idempotencyKey.trans hkey⟩

theorem createdUnder_of_spec (h : NamesOwn s) {call : CreateOrGetMessage}
    {result : CreateOrGetSmsMessageResult} (hspec : createOrGetMessageSpec call s (.ok result) s') :
    CreatedUnder s' call.input.idempotencyKey result.message.id := by
  rcases result with ⟨_ | _, message⟩
  · obtain ⟨rfl, owner, howner, _, hmessage⟩ := hspec
    rw [show message.id = owner.smsMessageId from Table.idOf_of_find hmessage]
    exact h _ owner howner
  · obtain ⟨_, ⟨A', ⟨c, events', _, _, _, _, rfl⟩, hupdate⟩, _⟩ := hspec
    have hrow := congrArg Aggregate.message (congrFun hupdate message.id)
    rw [Function.update_self] at hrow
    exact ⟨call.message c, hrow, rfl⟩

theorem NamesOwn.created (h : NamesOwn s) (hkept : KeepsMessages s s')
    {call : CreateOrGetMessage} {message : SmsMessage}
    (hcreated : createOrGetMessageSpec call s (.ok ⟨true, message⟩) s') : NamesOwn s' := by
  have hown := createdUnder_of_spec h hcreated
  obtain ⟨_, _, _, c, howners⟩ := hcreated
  intro k owner howner
  rw [show owner? s' k = _ from howners k] at howner
  split at howner
  · rename_i hk
    obtain rfl := Option.some.inj howner
    exact hk ▸ hown
  · exact (h k owner howner).kept hkept

theorem NamesOwn.step (h : NamesOwn s) (hkept : KeepsMessages s s')
    (hspec : integralSpec config q s (.ok q') s') : NamesOwn s' := by
  by_cases hq : family q = .create
  · cases q with
    | creating call again =>
        obtain ⟨⟨_ | _, message⟩, _, hcreated⟩ := hspec.1
        · rw [hcreated.1]
          exact h
        · exact h.created hkept hcreated
    | created _ _ | createFailed _ _ _ => exact hspec.1.elim
    | _ => cases hq
  · intro k owner howner
    rw [(hspec.2 hq).owner?] at howner
    exact (h k owner howner).kept hkept

theorem ledger_of_stepEffect (h : ∀ m, Ledger (aggregate s m)) (heffect : StepEffect q s s')
    (m : String) : Ledger (aggregate s' m) := by
  obtain hsame | hmessage := message_of_stepEffect heffect m
  · exact hsame ▸ h m
  · exact (h m).step (keyed _ _) hmessage

theorem OwnAnswers.set (h : OwnAnswers a) {i : Nat} {x : Surroundings.Outside}
    (hledger : ∀ m, Ledger (aggregate s m)) (hkept : KeepsMessages a.store s)
    (hnames : NamesOwn s) (hanswer : ∀ call result, q' = .created call result →
      CreatedUnder s call.input.idempotencyKey result.message.id) :
    OwnAnswers ⟨s, a.controls.set i q', x⟩ where
  ledger := hledger
  names := hnames
  answered j call result hq := by
    rcases getElem?_set_eq_some hq with ⟨_, heq⟩ | ⟨_, hq⟩
    · exact hanswer call result heq.symm
    · exact (h.answered j call result hq).kept hkept

theorem OwnAnswers.ok (h : OwnAnswers a) (hspec : integralSpec config q a.store (.ok q') s)
    (i : Nat) : OwnAnswers ⟨s, a.controls.set i q', a.ext⟩ := by
  have heffect := stepEffect_of_controlSpec hspec.1
  have hkept := keepsMessages_of_stepEffect h.ledger heffect
  refine h.set (ledger_of_stepEffect h.ledger heffect) hkept (h.names.step hkept hspec) ?_
  rintro call result rfl
  exact createdUnder_of_spec h.names (created_of_ok hspec.1)

theorem OwnAnswers.step (h : OwnAnswers a) (hl : Spawning (delivers ·) a l)
    (hstep : Atomic (service config) (integralSpec config) a l a') : OwnAnswers a' := by
  have herror : ∀ {i : Nat} {q : Control} {t : Sql Control} {onError : Failure → Control}
      (e : Failure), code config q = .tx t onError →
      OwnAnswers ⟨a.store, a.controls.set i (onError e), a.ext⟩ :=
    fun e hcode => h.set h.ledger (.refl _) h.names fun call result heq =>
      absurd heq (not_created_of_onError hcode e call result)
  cases hstep with
  | spawn q =>
      refine ⟨h.ledger, h.names, fun i call result hq => ?_⟩
      rcases getElem?_concat_eq_some hq with hq | rfl
      · exact h.answered i call result hq
      · exact absurd (hl _ rfl) (by simp [delivers])
  | answer _ _ hspec => exact h.ok hspec _
  | commit _ _ hspec => exact h.ok hspec _
  | error _ hcode _ => exact herror _ hcode
  | fault _ hcode => exact herror _ hcode
  | lost _ hcode hspec =>
      have heffect := stepEffect_of_controlSpec hspec.1
      have hkept := keepsMessages_of_stepEffect h.ledger heffect
      refine h.set (ledger_of_stepEffect h.ledger heffect) hkept (h.names.step hkept hspec)
        fun call result heq => ?_
      exact absurd heq (not_created_of_onError hcode _ call result)
  | act hq hcode hact =>
      refine h.set h.ledger (.refl _) h.names fun call result heq => ?_
      subst heq
      cases acts_of_code hcode hact
  | @crash i q _ _ =>
      refine h.set h.ledger (.refl _) h.names fun call result heq => ?_
      cases q <;> cases heq
  | env _ => exact ⟨h.ledger, h.names, h.answered⟩

theorem ownAnswers_of_reaches (h : Reaches config (Spawning (delivers ·)) Initial w) :
    OwnAnswers w.abs := by
  have hatomic := (h.simulated (sound_integral config)
    fun a q hq => (holds_nothing_of_delivers (hq q rfl)).1).2
  refine Reachable.invariant (fun a hinit => ?_) (fun a l a' _ hinv hl hstep => hinv.step hl hstep)
    hatomic
  refine ⟨fun m => ?_, fun k owner howner => ?_, by simp [hinit.controls]⟩
  · rw [hinit.store, aggregate_empty]
    constructor <;> simp
  · rw [hinit.store] at howner
    simp [owner?, Table.find] at howner

theorem keepsMessages_of_later (h : Reaches config (Spawning (delivers ·)) Initial w)
    {w' : ServiceWorld} (hlater : Later config (Spawning (delivers ·)) w w') :
    KeepsMessages w.store w'.store := by
  have hlifecycle : ∀ a l, Spawning (delivers ·) a l → Spawning Lifecycle a l :=
    fun a l hl q hq => (holds_nothing_of_delivers (hl q hq)).1
  exact fun m row hrow => (extends_of_later (Reachable.mono (fun _ _ => hlifecycle _ _) h)
    (Reachable.mono (fun _ _ => hlifecycle _ _) hlater) m).message row hrow

/-- Nobody is answered with the message of another's key: in every run, whatever requests
race, are retried and are repeated, the message that a request is answered with has been
created under the very key that the request has given, and it is there from the answer
on, in every later state. -/
theorem answered_under_own_key (h : Reaches config (Spawning (delivers ·)) Initial w)
    {sms : SmsConfig} {now : Int} {iv : List UInt8} {idempotencyKey : Option String}
    {body : SendSmsDto} {call : CreateOrGetMessage} {result : CreateOrGetSmsMessageResult}
    (haccepted : acceptMessage sms now iv idempotencyKey body = .ok call) {i : Nat}
    (hcall : w.abs.controls[i]? = some (.created call result)) {w' : ServiceWorld}
    (hlater : Later config (Spawning (delivers ·)) w w') :
    ∃ row, smsMessage.find w'.store (AcceptedSmsResult.of result).messageId = some row ∧
      row.idempotencyKey = trimmedKey idempotencyKey := by
  obtain ⟨row, hrow, hkey⟩ := ((ownAnswers_of_reaches h).answered i call result hcall).kept
    (keepsMessages_of_later h hlater)
  exact ⟨row, hrow, hkey.trans (input_of_accepted haccepted).1⟩

/-- What a client sends is what a provider is asked to send: the worker that carries the
message of an accepted request, and each call that it makes, carries the recipient of the
request, and its text letter by letter, with the surrogates replaced that stand alone. -/
theorem sent_as_accepted (h : Reaches config (Spawning (delivers ·)) Initial w)
    {sms : SmsConfig} (hsound : sms.primitives.Sound)
    (hbase64 : ∀ bytes, isWellFormed (sms.primitives.toBase64 bytes))
    (hdecrypt : config.processor.decrypt = decryptColumn sms.primitives sms.encryption)
    {now : Int} {iv : List UInt8} (hiv : iv.length = ivLengthBytes)
    {idempotencyKey : Option String} {body : SendSmsDto} {call : CreateOrGetMessage}
    (haccepted : acceptMessage sms now iv idempotencyKey body = .ok call)
    {result : CreateOrGetSmsMessageResult} (hcreated : result.created) {i : Nat}
    (hcall : w.abs.controls[i]? = some (.created call result)) {mail : Mail}
    (hmail : Carried w.abs mail)
    (hmessage : mail.messageId = (AcceptedSmsResult.of result).messageId) :
    encode mail.recipientPhone.toList = body.recipient ∧
      encode mail.body.toList = encode (decode body.message) ∧
      ∀ raw, validate raw = .ok body →
        raw.recipient = some (.string (encode mail.recipientPhone.toList)) ∧
          raw.message = some (.string body.message) := by
  obtain ⟨_, hphone, htoken⟩ := input_of_accepted haccepted
  obtain ⟨hrecipient, hbody⟩ :=
    ((faithful_of_reaches h).mail_of_answer hcall hmail hmessage).1 hcreated
  have hnumber : encode mail.recipientPhone.toList = body.recipient := by
    rw [hrecipient, hphone, columnText, String.toList_ofList]
    exact encode_decode_of_isWellFormed (isWellFormed_of_isE164 body.isE164_recipient)
  refine ⟨hnumber, ?_, fun raw hraw => ?_⟩
  · rw [htoken, hdecrypt, decryptColumn_encrypt hsound hbase64 hiv] at hbody
    rw [← Option.some.inj hbody, columnText, String.toList_ofList]
  · rw [hnumber, (validate_eq_ok_iff.mp hraw).1]
    exact ⟨rfl, rfl⟩

end Keys

section Samples

def sampleSms : SmsConfig :=
  ⟨none, none, EncryptionService.samplePrimitives, EncryptionService.sampleService, fun _ => .null⟩

/-- The message `Hi` to a number. -/
def sampleBody : SendSmsDto :=
  ⟨encode "+15550100".toList, [72, 105], none, by decide, by decide⟩

def sampleAccepted : CreateOrGetMessage where
  input :=
    { idempotencyKey := "k"
      recipientPhone := "+15550100"
      encryptedMessage := columnText (EncryptionService.encrypt EncryptionService.samplePrimitives
        EncryptionService.sampleService EncryptionService.sampleIv [72, 105])
      metadata := none }
  now := 0
  idempotencyTtlHours := 24

theorem acceptMessage_sample :
    acceptMessage sampleSms 0 EncryptionService.sampleIv (some " k ") sampleBody =
      .ok sampleAccepted := by
  have hkey : trimmedKey (some " k ") = "k" := by decide +kernel
  have hphone : columnText sampleBody.recipient = "+15550100" := by decide +kernel
  rw [acceptMessage, hkey, hphone]
  rfl

theorem isWellFormed_sampleBase64 (bytes : List UInt8) :
    isWellFormed (EncryptionService.samplePrimitives.toBase64 bytes) := by
  have htexts : ∀ entry ∈ EncryptionService.sampleTexts, isWellFormed entry.2 := by decide
  simp only [EncryptionService.samplePrimitives]
  cases hlookup : EncryptionService.sampleTexts.lookup bytes with
  | some text =>
      obtain ⟨l₁, l₂, heq, _⟩ := List.lookup_eq_some_iff.mp hlookup
      exact htexts (bytes, text) (heq ▸ List.mem_append_right _ List.mem_cons_self)
  | none =>
      refine isWellFormed_of_not_surrogate fun u hu => ?_
      obtain ⟨b, _, rfl⟩ := List.mem_map.mp hu
      have hlt := b.toNat_lt
      rw [Bool.eq_false_iff, Ne, isSurrogate_iff, UInt16.toNat_ofNat']
      omega

/-- The service with the sample encryption. -/
def encryptingConfig : Config :=
  ⟨.read none none ["twilio"] (decryptColumn EncryptionService.samplePrimitives
    EncryptionService.sampleService), .read none none none⟩

def isSampleAccepted (call : CreateOrGetMessage) : Bool :=
  call.input.idempotencyKey = sampleAccepted.input.idempotencyKey &&
    call.input.recipientPhone = sampleAccepted.input.recipientPhone &&
    call.input.encryptedMessage = sampleAccepted.input.encryptedMessage &&
    call.input.metadata.isNone && call.now = 0 && call.idempotencyTtlHours = 24

theorem eq_of_isSampleAccepted {call : CreateOrGetMessage} (h : isSampleAccepted call) :
    call = sampleAccepted := by
  rcases call with ⟨⟨key, recipientPhone, encryptedMessage, metadata⟩, now, ttl⟩
  simp only [isSampleAccepted, Bool.and_eq_true, decide_eq_true_eq, Option.isNone_iff_eq_none] at h
  obtain ⟨⟨⟨⟨⟨rfl, rfl⟩, rfl⟩, rfl⟩, rfl⟩, rfl⟩ := h
  rfl

/-- The request has been answered with the message `m`, which it has created. -/
def isAnswered (w : ServiceWorld) : Bool :=
  (w.abs.controls[0]?.bind answered?).any fun answer =>
    answer.2.created && answer.2.message.id = "m" && isSampleAccepted answer.1

theorem exists_answer {w : ServiceWorld} (h : isAnswered w) :
    ∃ result : CreateOrGetSmsMessageResult, result.created ∧ result.message.id = "m" ∧
      w.abs.controls[0]? = some (.created sampleAccepted result) := by
  obtain ⟨answer, hanswer, hcreated⟩ := (Option.any_eq_true _ _).mp h
  obtain ⟨q, hq, hsome⟩ := Option.bind_eq_some_iff.mp hanswer
  simp only [Bool.and_eq_true, decide_eq_true_eq] at hcreated
  obtain ⟨⟨hcreated, hid⟩, hsample⟩ := hcreated
  rw [eq_created_of_answered? hsome, eq_of_isSampleAccepted hsample] at hq
  exact ⟨answer.2, hcreated, hid, hq⟩

/-- The request is answered. -/
def answeredOnce : List ServiceLabel :=
  .spawn (.creating sampleAccepted false) :: statements 0 4 (sampleChoice "m" 0) ++ [.commit 0]

/-- A worker has taken the message up since the request was answered. -/
theorem answered_under_own_key_sample : ∃ w w' result row,
    Reaches encryptingConfig (Spawning (delivers ·)) Initial w ∧
      w.abs.controls[0]? = some (.created sampleAccepted result) ∧
      Later encryptingConfig (Spawning (delivers ·)) w w' ∧
      smsMessage.find w'.store (AcceptedSmsResult.of result).messageId = some row ∧
      row.status ≠ result.message.status ∧ row.idempotencyKey = trimmedKey (some " k ") := by
  obtain ⟨w, hw, hanswered, hlater⟩ := exists_reaches_of_exec encryptingConfig
    (Spawning (delivers ·)) answeredOnce
    (fun w => isAnswered w ∧
      ((w.abs.controls[0]?.bind answered?).any fun answer => answer.2.message.status = .queued) ∧
      (exec (service encryptingConfig).step (fun w l => Spawning (delivers ·) w.abs l) w
        callingPass).any fun w' =>
          (smsMessage.find w'.store "m").any (·.status = .awaitingProviderResult))
    (by decide +kernel)
  obtain ⟨w', hw', hmoved⟩ := (Option.any_eq_true _ _).mp hlater.2
  obtain ⟨result, _, hid, hcall⟩ := exists_answer hanswered
  have hlater' : Later encryptingConfig (Spawning (delivers ·)) w w' :=
    reachable_of_exec (Reachable.start rfl) hw'
  obtain ⟨row, hrow, hkey⟩ := answered_under_own_key hw acceptMessage_sample hcall hlater'
  refine ⟨w, w', result, row, hw, hcall, hlater', hrow, ?_, hkey⟩
  have hqueued := hlater.1
  rw [hcall] at hqueued
  obtain hqueued := of_decide_eq_true hqueued
  rw [show smsMessage.find w'.store "m" = some row by rw [← hid]; exact hrow] at hmoved
  rw [hqueued, of_decide_eq_true hmoved]
  decide

/-- The text `Hi` on its way to the provider. -/
theorem sent_as_accepted_hi : ∃ w call,
    Reaches encryptingConfig (Spawning (delivers ·)) Initial w ∧ call ∈ w.ext.calls ∧
      encode call.recipientPhone.toList = encode "+15550100".toList ∧
      encode call.body.toList = [72, 105] := by
  obtain ⟨w, hw, hanswered, hcalled⟩ := exists_reaches_of_exec encryptingConfig
    (Spawning (delivers ·)) (answeredOnce ++ callingPass)
    (fun w => isAnswered w ∧ w.ext.calls.any (·.messageId = "m")) (by decide +kernel)
  obtain ⟨result, hcreated, hid, hanswer⟩ := exists_answer hanswered
  obtain ⟨call, hcall, hmessage⟩ := List.any_eq_true.mp hcalled
  obtain ⟨hrecipient, hbody, _⟩ := sent_as_accepted hw EncryptionService.sound_samplePrimitives
    isWellFormed_sampleBase64 rfl rfl acceptMessage_sample hcreated hanswer
    (Or.inr ⟨call, hcall, rfl⟩) ((of_decide_eq_true hmessage).trans hid.symm)
  exact ⟨w, call, hw, hcall, hrecipient, hbody⟩

end Samples

end SmsNotification.SmsService

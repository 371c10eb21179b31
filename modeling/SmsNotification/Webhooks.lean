import Mathlib.Data.List.Lex
import SmsNotification.JavaScriptText

namespace SmsNotification.Webhooks

open SmsNotification.JavaScriptText (trim)
open SmsNotification.ReadCommitted
open SmsNotification.Schema
open SmsNotification.SmsLifecycleRepository
open SmsNotification.SmsStateMachine

inductive WebhookProvider where
  | twilio
  | bird
  deriving DecidableEq, Repr

/-- The name of a provider, as messages and attempts record it. -/
def WebhookProvider.name : WebhookProvider → String
  | twilio => "twilio"
  | bird => "bird"

inductive WebhookAck where
  | ok
  | ignored
  deriving DecidableEq, Repr

/-- What a request is rejected with. An error that nothing handles is internal. -/
inductive HttpException where
  | notFound (message : String)
  | badRequest (message : String)
  | forbidden (message : String)
  | conflict (message : String)
  | internal
  deriving DecidableEq, Repr

/-- What the lookup of a status yields: a listed status, or a property that every
object inherits. -/
inductive MappedStatus where
  | terminal (status : DeliveryTerminalStatus)
  | inherited (property : String)
  deriving DecidableEq

structure RecordDeliveryReportInput where
  provider : WebhookProvider
  providerMessageId : Json
  terminalStatus : Option MappedStatus

def twilioStatusMap : List (String × DeliveryTerminalStatus) :=
  [("delivered", .delivered), ("undelivered", .undelivered), ("failed", .rejected)]

def birdStatusMap : List (String × DeliveryTerminalStatus) :=
  [("delivered", .delivered), ("delivery_failed", .undelivered), ("failed", .undelivered),
    ("undelivered", .undelivered), ("rejected", .rejected)]

/-- The properties of `Object.prototype`. -/
def inheritedProperties : List String :=
  ["constructor", "__defineGetter__", "__defineSetter__", "hasOwnProperty", "__lookupGetter__",
    "__lookupSetter__", "isPrototypeOf", "propertyIsEnumerable", "toString", "valueOf",
    "__proto__", "toLocaleString"]

/-- The lower case of a text, as far as it matters for the lookup of a status: no
letter outside ASCII has its lower case in a key of a table. -/
def toLowerCase (text : String) : String :=
  String.ofList (text.toList.map Char.toLower)

/-- Property access on a status table. -/
def mapStatus (table : List (String × DeliveryTerminalStatus)) (rawStatus : String) :
    Option MappedStatus :=
  match table.lookup (toLowerCase rawStatus) with
  | some status => some (.terminal status)
  | none =>
      if inheritedProperties.contains (toLowerCase rawStatus) then
        some (.inherited (toLowerCase rawStatus))
      else none

def mapTwilioStatus (rawStatus : String) : Option MappedStatus :=
  mapStatus twilioStatusMap rawStatus

def mapBirdStatus (rawStatus : String) : Option MappedStatus :=
  mapStatus birdStatusMap rawStatus

/-- The message a report is matched with. -/
def firstMessage (keep : Option String → Bool) (c : Choice) (s : Database) : Option SmsMessage :=
  (unordered c SmsMessage.id
    (smsMessage.rows s fun row => keep row.providerMessageId)).head?

/-- The rest of a delivery report once its message has been found. -/
def reportOn (current : SmsMessage) (terminalStatus : DeliveryTerminalStatus) :
    Sql ApplyDeliveryReportResult := do
  let target := terminalStatus.status
  if isSameState current.status target then
    let message ← readLifecycle current.id
    return .duplicate message
  else if !isValidTransition current.status target then
    return .invalidTransition current.status
  else
    let updated ← smsMessage.updateMany current.id (fun row => row.status = current.status)
      fun c row => { row with status := target, updatedAt := c.now }
    if updated = 0 then
      return .invalidTransition current.status
    else
      let message ← readLifecycle current.id
      return .applied message

/-- `applyDeliveryReport` for any condition on the provider message id. No message is
in an inherited property or may move to it. -/
def applyDeliveryReportWhere (keep : Option String → Bool) (status : MappedStatus) :
    Sql ApplyDeliveryReportResult := do
  match ← Tx.read (firstMessage keep) with
  | none => return .notFound
  | some current =>
      match status with
      | .terminal status => reportOn current status
      | .inherited _ => return .invalidTransition current.status

theorem applyDeliveryReportWhere_eq (providerMessageId : String)
    (status : DeliveryTerminalStatus) :
    applyDeliveryReportWhere (· = some providerMessageId) (.terminal status) =
      applyDeliveryReport ⟨providerMessageId, status⟩ :=
  rfl

/-- The answer to the provider for the outcome of a report. -/
def acknowledge : ApplyDeliveryReportResult → Except HttpException WebhookAck
  | .applied _ => .ok .ok
  | .duplicate _ => .ok .ok
  | .notFound => .error (.notFound "Unknown provider message id")
  | .invalidTransition _ =>
      .error (.conflict "Delivery report conflicts with current message status")

/-- The deployment of the endpoints, with the functions of the libraries that they
use: digests, the decoding of bodies, and what a query makes of an object in
place of an id, none where it rejects it. -/
structure WebhookConfig where
  authToken : Option String
  signingKey : Option String
  serviceUrl : String
  hmacSha1Base64 : String → String → String
  hmacSha256Hex : String → ByteArray → String
  formFields : ByteArray → List (String × String)
  parseJson : ByteArray → Option Json
  idFilter : Json → Option (Option String → Bool)

/-- The condition of the lookup. A value that is no string and no object is rejected. -/
def WebhookConfig.condition (config : WebhookConfig) : Json → Option (Option String → Bool)
  | .str providerMessageId => some (· = some providerMessageId)
  | .obj fields => config.idFilter (.obj fields)
  | _ => none

def recordDeliveryReport (config : WebhookConfig) (input : RecordDeliveryReportInput) :
    Sql (Except HttpException WebhookAck) :=
  match input.terminalStatus with
  | none => return .ok .ignored
  | some status =>
      match config.condition input.providerMessageId with
      | none => return .error .internal
      | some keep => (applyDeliveryReportWhere keep status).map acknowledge

/-- The UTF-16 code units of a string. -/
def codeUnits (text : String) : List Nat :=
  text.toList.flatMap fun ch =>
    if ch.toNat < 0x10000 then [ch.toNat]
    else [0xd800 + (ch.toNat - 0x10000) / 0x400, 0xdc00 + (ch.toNat - 0x10000) % 0x400]

/-- The text that Twilio signs. -/
def signedText (url : String) (params : List (String × String)) : String :=
  ((params.map Prod.fst).insertionSort fun a b => codeUnits a ≤ codeUnits b).foldl
    (fun acc key => acc ++ key ++ (params.lookup key).getD "") url

def computeTwilioSignature (config : WebhookConfig) (authToken url : String)
    (params : List (String × String)) : String :=
  config.hmacSha1Base64 authToken (signedText url params)

/-- Equality of the header with the signature; a header that is missing or empty is refused. -/
def verifyTwilioSignature (config : WebhookConfig) (authToken url : String)
    (params : List (String × String)) (signatureHeader : Option String) : Bool :=
  (signatureHeader.filter fun header => !header.isEmpty).any fun header =>
    computeTwilioSignature config authToken url params = header

def computeBirdSignature (config : WebhookConfig) (signingKey : String) (rawBody : ByteArray) :
    String :=
  config.hmacSha256Hex signingKey rawBody

def verifyBirdSignature (config : WebhookConfig) (signingKey : String) (rawBody : ByteArray)
    (signatureHeader : Option String) : Bool :=
  (signatureHeader.filter fun header => !header.isEmpty).any fun header =>
    computeBirdSignature config signingKey rawBody = String.ofList (trim header.toList)

/-- A request as its controller sees it: the raw body and the signature header. -/
structure Request where
  rawBody : Option ByteArray
  signature : Option String

/-- A configured secret; an empty one is none. -/
def configured (secret : Option String) : Option String :=
  secret.filter fun secret => !secret.isEmpty

/-- `params[key] = value` on an object; text under `__proto__` is dropped. -/
def setParam (params : List (String × String)) (field : String × String) :
    List (String × String) :=
  if field.1 = "__proto__" then params
  else if params.any fun param => param.1 = field.1 then
    params.map fun param => if param.1 = field.1 then field else param
  else params ++ [field]

def parseFormParams (fields : List (String × String)) : List (String × String) :=
  fields.foldl setParam []

def WebhookConfig.callbackUrl (config : WebhookConfig) : String :=
  String.ofList (config.serviceUrl.toList.reverse.dropWhile (· = '/')).reverse ++ "/webhooks/twilio"

/-- `TwilioWebhookController.handle` up to the call of the service. -/
def twilioReport (config : WebhookConfig) (request : Request) :
    Except HttpException RecordDeliveryReportInput :=
  match configured config.authToken, request.rawBody with
  | none, _ => .error (.notFound "Twilio is not configured on this deployment")
  | some _, none => .error (.badRequest "Missing raw request body")
  | some authToken, some rawBody =>
      let params := parseFormParams (config.formFields rawBody)
      if !verifyTwilioSignature config authToken config.callbackUrl params request.signature then
        .error (.forbidden "Invalid Twilio signature")
      else
        match (params.lookup "MessageSid").filter fun sid => !sid.isEmpty with
        | none => .error (.badRequest "Missing MessageSid")
        | some providerMessageId =>
            .ok ⟨.twilio, .str providerMessageId,
              mapTwilioStatus ((params.lookup "MessageStatus").getD "")⟩

/-- A property of a value other than null; one that is null counts as absent, as the
operator `??` has it. -/
def property (name : String) (value : Json) : Option Json :=
  (value.field name).bind fun
    | .null => none
    | field => some field

/-- The values that a condition takes for false. -/
def isFalsy : Json → Bool
  | .null => true
  | .bool b => !b
  | .num q => q = 0
  | .str text => text.isEmpty
  | _ => false

/-- The correlation id of a payload. -/
def correlationId (payload : Json) : Option Json :=
  ((property "id" payload).orElse fun _ => (property "messageId" payload).orElse fun _ =>
    (property "message" payload).bind (property "id")).filter fun id => !isFalsy id

/-- The status of a payload. -/
def rawStatusOf (payload : Json) : Json :=
  ((property "status" payload).orElse fun _ =>
    (property "message" payload).bind (property "status")).getD (.str "")

/-- `BirdWebhookController.handle` up to the call of the service. The properties of
null cannot be read, and only text has a lower case. -/
def birdReport (config : WebhookConfig) (request : Request) :
    Except HttpException RecordDeliveryReportInput :=
  match configured config.signingKey, request.rawBody with
  | none, _ => .error (.notFound "Bird is not configured on this deployment")
  | some _, none => .error (.badRequest "Missing raw request body")
  | some signingKey, some rawBody =>
      if !verifyBirdSignature config signingKey rawBody request.signature then
        .error (.forbidden "Invalid Bird signature")
      else
        match config.parseJson rawBody with
        | none => .error (.badRequest "Invalid JSON body")
        | some .null => .error .internal
        | some payload =>
            match correlationId payload, rawStatusOf payload with
            | none, _ => .error (.badRequest "Missing message correlation id")
            | some providerMessageId, .str rawStatus =>
                .ok ⟨.bird, providerMessageId, mapBirdStatus rawStatus⟩
            | some _, _ => .error .internal

def readReport (config : WebhookConfig) :
    WebhookProvider → Request → Except HttpException RecordDeliveryReportInput
  | .twilio => twilioReport config
  | .bird => birdReport config

/-- PostgreSQL rejects a query with text that has the character NUL. -/
def isQueryable : Json → Bool
  | .str text => !text.toList.contains '\x00'
  | _ => true

/-- `handle` of the controller of a provider, on PostgreSQL. -/
def handle (config : WebhookConfig) (provider : WebhookProvider) (request : Request) :
    Sql (Except HttpException WebhookAck) :=
  match readReport config provider request with
  | .error e => return .error e
  | .ok input =>
      if input.terminalStatus.isNone || isQueryable input.providerMessageId then
        recordDeliveryReport config input
      else return .error .internal

end SmsNotification.Webhooks

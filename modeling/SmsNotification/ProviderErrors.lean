import Mathlib.Data.List.Infix
import SmsNotification.SmsProcessor

namespace SmsNotification.ProviderErrors

open SmsNotification.Schema

/-- A number of the language. -/
inductive Number where
  | nan
  | negInfinity
  | finite (q : ℚ)
  | infinity
  deriving DecidableEq

/-- `value >= bound`. -/
def Number.atLeast (bound : ℚ) : Number → Bool
  | nan => false
  | negInfinity => false
  | finite q => bound ≤ q
  | infinity => true

/-- A property that is not undefined: whether it is a number, and the number and the text
that it is converted to. -/
structure Property where
  isNumber : Bool
  number : Number
  text : String

/-- What a call of a provider throws, as far as it is looked at. A property that is
undefined is none. -/
structure Thrown where
  isError : Bool
  isAxiosError : Bool
  code : Option String
  status : Option Property
  responseStatus : Option Property
  message : String

inductive ProviderErrorKind where
  | timeout
  | network
  | http
  | unknown
  deriving DecidableEq, Repr

structure NormalizedProviderError where
  message : String
  isRetryable : Bool
  isTimeout : Bool
  kind : ProviderErrorKind
  httpStatus : Option Property

def isRetryableHttpStatus (status : Property) : Bool :=
  (status.isNumber && (status.number = .finite 408 || status.number = .finite 429)) ||
    status.number.atLeast 500

def isTimeoutCode (code : Option String) : Bool :=
  code = some "ECONNABORTED" || code = some "ETIMEDOUT"

def isTwilioRestException (error : Thrown) : Bool :=
  error.isError && error.status.any Property.isNumber

/-- The pattern `/timeout/i`. -/
def mentionsTimeout (message : String) : Bool :=
  "timeout".toList <:+: message.toList.map Char.toLower

/-- An error with the status of an HTTP response. -/
def httpError (status : Property) (providerName : String) : NormalizedProviderError :=
  { message := "[http] " ++ providerName ++ " responded with status " ++ status.text
    isRetryable := isRetryableHttpStatus status
    isTimeout := false
    kind := .http
    httpStatus := some status }

def timeoutError (providerName : String) : NormalizedProviderError :=
  { message := "[timeout] " ++ providerName ++ " request timed out"
    isRetryable := true
    isTimeout := true
    kind := .timeout
    httpStatus := none }

def networkError (code : Option String) (providerName : String) : NormalizedProviderError :=
  { message := "[network] " ++ providerName ++ " network error" ++
      ((code.filter fun code => !code.isEmpty).map fun code => " (" ++ code ++ ")").getD ""
    isRetryable := true
    isTimeout := false
    kind := .network
    httpStatus := none }

def unknownError (providerName : String) : NormalizedProviderError :=
  { message := "[unknown] " ++ providerName ++ " unexpected error"
    isRetryable := false
    isTimeout := false
    kind := .unknown
    httpStatus := none }

def normalizeProviderError (error : Thrown) (providerName : String) : NormalizedProviderError :=
  match error.status.filter fun _ => isTwilioRestException error with
  | some status => httpError status providerName
  | none =>
      if error.isAxiosError then
        if isTimeoutCode error.code ||
            (error.responseStatus.isNone && mentionsTimeout error.message) then
          timeoutError providerName
        else
          match error.responseStatus with
          | some status => httpError status providerName
          | none => networkError error.code providerName
      else unknownError providerName

/-- `sendSms` of a provider, by what its call returns as the id or throws. -/
def sendSms (providerName : String) : Except Thrown (Option String) → SendSmsResult
  | .ok providerMessageId =>
      { success := true
        providerMessageId := providerMessageId
        error := none
        isRetryable := false
        isAmbiguous := none }
  | .error error =>
      let normalized := normalizeProviderError error providerName
      { success := false
        providerMessageId := none
        error := some normalized.message
        isRetryable := normalized.isRetryable
        isAmbiguous := some (normalized.kind ≠ .http) }

def TwilioProvider.sendSms (call : Except Thrown (Option String)) : SendSmsResult :=
  ProviderErrors.sendSms "twilio" call

def BirdProvider.sendSms (call : Except Thrown (Option String)) : SendSmsResult :=
  ProviderErrors.sendSms "bird" call

/-- The numeric HTTP status that a value carries: its own, where it is an error, or that
of its response. -/
def httpStatus? (error : Thrown) : Option Number :=
  ((error.status.filter fun status => error.isError && status.isNumber).orElse fun _ =>
    error.responseStatus.filter Property.isNumber).map Property.number

/-- The statuses after which a send may be tried again. -/
def IsRetryable (status : Number) : Prop :=
  status = .finite 408 ∨ status = .finite 429 ∨ status.atLeast 500

/-- A thrown value is a failure, and a definitive one only if it carries a numeric status
and no timeout code; it may be tried again as that status says. -/
structure Cautious (error : Thrown) (result : SendSmsResult) : Prop where
  failed : result.success = false
  definitive : result.isAmbiguous = some false → isTimeoutCode error.code = false ∧
    ∃ status, httpStatus? error = some status ∧ (result.isRetryable ↔ IsRetryable status)

/-- No branch takes a value for an answered request that may not be one: an error with a
status of its own has no timeout code, and the status of a response is a number. -/
structure Clear (error : Thrown) : Prop where
  status : isTwilioRestException error → isTimeoutCode error.code = false
  responseStatus : isTwilioRestException error = false → error.isAxiosError →
    isTimeoutCode error.code = false → ∀ status, error.responseStatus = some status →
      status.isNumber

section Errors

variable {error : Thrown} {providerName : String} {status : Property}

theorem isRetryableHttpStatus_iff (h : status.isNumber) :
    isRetryableHttpStatus status ↔ IsRetryable status.number := by
  simp [isRetryableHttpStatus, IsRetryable, h, or_assoc]

/-- The branches: which errors become which kind. -/
inductive Normalizes (error : Thrown) (providerName : String) : NormalizedProviderError → Prop where
  | rest {status : Property} (own : error.status = some status)
      (rest : isTwilioRestException error) :
      Normalizes error providerName (httpError status providerName)
  | timeout (rest : isTwilioRestException error = false) (axios : error.isAxiosError)
      (unanswered : isTimeoutCode error.code ∨ error.responseStatus = none) :
      Normalizes error providerName (timeoutError providerName)
  | response {status : Property} (rest : isTwilioRestException error = false)
      (axios : error.isAxiosError) (code : isTimeoutCode error.code = false)
      (response : error.responseStatus = some status) :
      Normalizes error providerName (httpError status providerName)
  | network (rest : isTwilioRestException error = false) (axios : error.isAxiosError)
      (code : isTimeoutCode error.code = false) (response : error.responseStatus = none) :
      Normalizes error providerName (networkError error.code providerName)
  | unknown (rest : isTwilioRestException error = false) (axios : error.isAxiosError = false) :
      Normalizes error providerName (unknownError providerName)

theorem normalizes (error : Thrown) (providerName : String) :
    Normalizes error providerName (normalizeProviderError error providerName) := by
  rw [normalizeProviderError]
  split
  · rename_i status hstatus
    obtain ⟨hown, hrest⟩ := Option.filter_eq_some_iff.mp hstatus
    exact Normalizes.rest hown hrest
  · rename_i hstatus
    have hrest : isTwilioRestException error = false := by
      rw [Bool.eq_false_iff]
      intro hrest
      cases hown : error.status with
      | none => simp [isTwilioRestException, hown] at hrest
      | some status => simp [hown, hrest, Option.filter] at hstatus
    split_ifs with haxios htimeout
    · refine Normalizes.timeout hrest haxios ?_
      rw [Bool.or_eq_true, Bool.and_eq_true, Option.isNone_iff_eq_none] at htimeout
      exact htimeout.imp_right And.left
    · rw [Bool.or_eq_true, not_or] at htimeout
      have hcode : isTimeoutCode error.code = false := by simpa using htimeout.1
      split
      · exact Normalizes.response hrest haxios hcode ‹_›
      · exact Normalizes.network hrest haxios hcode ‹_›
    · exact Normalizes.unknown hrest (by simpa using haxios)

theorem isTwilioRestException_iff (hown : error.status = some status) :
    isTwilioRestException error ↔ error.isError ∧ status.isNumber := by
  rw [isTwilioRestException, hown, Option.any_some, Bool.and_eq_true]

theorem httpStatus_of_rest (hown : error.status = some status)
    (hrest : isTwilioRestException error) : httpStatus? error = some status.number := by
  obtain ⟨herror, hnumber⟩ := (isTwilioRestException_iff hown).mp hrest
  simp [httpStatus?, hown, herror, hnumber, Option.filter]

theorem httpStatus_of_response (hrest : isTwilioRestException error = false) :
    httpStatus? error = (error.responseStatus.filter Property.isNumber).map Property.number := by
  have hown : (error.status.filter fun status => error.isError && status.isNumber) = none := by
    rw [Option.filter_eq_none_iff]
    intro status hstatus htrue
    rw [Bool.and_eq_true, ← isTwilioRestException_iff hstatus, hrest] at htrue
    cases htrue
  rw [httpStatus?, hown]
  rfl

theorem cautious_of_ambiguous {result : SendSmsResult} (hfailed : result.success = false)
    (hambiguous : result.isAmbiguous = some true) : Cautious error result :=
  ⟨hfailed, fun h => (by simp [hambiguous] at h)⟩

theorem clear_of_unanswered (hrest : isTwilioRestException error = false)
    (h : error.isAxiosError = false ∨ isTimeoutCode error.code ∨ error.responseStatus = none) :
    Clear error := by
  refine ⟨fun htrue => (by simp [hrest] at htrue), fun _ haxios hcode status hstatus => ?_⟩
  simp [haxios, hcode, hstatus] at h

/-- The result of a thrown value is cautious just if the branches are clear. -/
theorem cautious_sendSms_iff (error : Thrown) (providerName : String) :
    Cautious error (sendSms providerName (.error error)) ↔ Clear error := by
  have hnormalizes := normalizes error providerName
  rw [sendSms]
  generalize normalizeProviderError error providerName = normalized at hnormalizes ⊢
  cases hnormalizes with
  | rest hown hrest =>
      rename_i status
      obtain ⟨_, hnumber⟩ := (isTwilioRestException_iff hown).mp hrest
      constructor
      · intro h
        refine ⟨fun _ => (h.definitive rfl).1, fun hfalse => ?_⟩
        simp [hrest] at hfalse
      · intro h
        exact ⟨rfl, fun _ => ⟨h.status hrest, status.number, httpStatus_of_rest hown hrest,
          isRetryableHttpStatus_iff hnumber⟩⟩
  | response hrest haxios hcode hresponse =>
      rename_i status
      constructor
      · intro h
        refine ⟨fun _ => hcode, fun _ _ _ other hother => ?_⟩
        obtain rfl := Option.some.inj (hresponse.symm.trans hother)
        obtain ⟨_, hstatus, _⟩ := (h.definitive rfl).2
        rw [httpStatus_of_response hrest, hresponse] at hstatus
        by_contra hnumber
        simp [Option.filter, hnumber] at hstatus
      · intro h
        have hnumber := h.responseStatus hrest haxios hcode status hresponse
        refine ⟨rfl, fun _ => ⟨hcode, status.number, ?_, isRetryableHttpStatus_iff hnumber⟩⟩
        rw [httpStatus_of_response hrest, hresponse]
        simp [Option.filter, hnumber]
  | timeout hrest haxios hunanswered =>
      exact iff_of_true (cautious_of_ambiguous rfl rfl)
        (clear_of_unanswered hrest (Or.inr hunanswered))
  | network hrest haxios hcode hresponse =>
      exact iff_of_true (cautious_of_ambiguous rfl rfl)
        (clear_of_unanswered hrest (Or.inr (Or.inr hresponse)))
  | unknown hrest haxios =>
      exact iff_of_true (cautious_of_ambiguous rfl rfl) (clear_of_unanswered hrest (Or.inl haxios))

end Errors

/-- Both providers treat a thrown value with caution just if it has no status of its own
beside a timeout code, and no response whose status is not a number. -/
theorem providers_cautious (error : Thrown) :
    (Cautious error (TwilioProvider.sendSms (.error error)) ∧
      Cautious error (BirdProvider.sendSms (.error error))) ↔ Clear error := by
  rw [TwilioProvider.sendSms, BirdProvider.sendSms, cautious_sendSms_iff, cautious_sendSms_iff,
    and_self]

/-- An error with a timeout code and a response with the status 504, which it repeats as a
status of its own. -/
def timedOutResponse : Thrown :=
  { isError := true
    isAxiosError := true
    code := some "ECONNABORTED"
    status := some ⟨true, .finite 504, "504"⟩
    responseStatus := some ⟨true, .finite 504, "504"⟩
    message := "timeout of 10000ms exceeded" }

/-- Both providers take the timeout for a definitive failure that may be tried again. -/
theorem timedOutResponse_definitive :
    (TwilioProvider.sendSms (.error timedOutResponse)).isAmbiguous = some false ∧
    (BirdProvider.sendSms (.error timedOutResponse)).isAmbiguous = some false ∧
    isTimeoutCode timedOutResponse.code ∧
    ¬(Cautious timedOutResponse (TwilioProvider.sendSms (.error timedOutResponse)) ∧
      Cautious timedOutResponse (BirdProvider.sendSms (.error timedOutResponse))) := by
  refine ⟨by decide, by decide, by decide, fun h => ?_⟩
  have hcode := (h.1.definitive (by decide)).1
  revert hcode
  decide

end SmsNotification.ProviderErrors

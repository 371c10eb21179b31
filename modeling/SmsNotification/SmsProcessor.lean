import SmsNotification.SmsLifecycleRepository
import SmsNotification.Surroundings

/-!
The worker of the dispatch queue: `processDispatch` as the sequence of its
awaits. A control state is one await with the values the function still needs;
what runs between two awaits is the function that leads to the next state.
-/

namespace SmsNotification.SmsProcessor

open SmsNotification.QueueConstants
open SmsNotification.Schema
open SmsNotification.SmsLifecycleRepository
open SmsNotification.Surroundings

inductive DeadLetterReason where
  | permanent
  | roundsExhausted
  | messageMissing
  deriving DecidableEq, Repr

inductive ProcessOutcome where
  | skipped
  | sent (provider : String)
  | awaitingProviderResult
  | retryScheduled
  | deadLetter (reason : DeadLetterReason)
  deriving DecidableEq, Repr

structure PassFailure where
  providerName : String
  isRetryable : Bool
  deriving DecidableEq, Repr

/-- The settings of the worker and its collaborators: the names of the ordered
providers and the decryption of a body, which is none when it throws. -/
structure Config where
  maxRetryRounds : Nat
  backoffBaseMs : Nat
  ambiguousOutcomeExpiryMs : Nat
  expiry_pos : 0 < ambiguousOutcomeExpiryMs
  orderedProviders : List String
  decrypt : String → Option String

/-- The settings as the constructor reads them. -/
def Config.read (maxRetryRounds ambiguousOutcomeExpiryMs : Option Int)
    (orderedProviders : List String) (decrypt : String → Option String) : Config :=
  { maxRetryRounds := readPositiveInt maxRetryRounds 3
    backoffBaseMs := defaultRetryBackoffBaseMs
    ambiguousOutcomeExpiryMs := readPositiveInt ambiguousOutcomeExpiryMs 900000
    expiry_pos := readPositiveInt_pos _ (by decide)
    orderedProviders := orderedProviders
    decrypt := decrypt }

/-- White space that `trim` strips. -/
def isTrimmed (ch : Char) : Bool :=
  ['\t', '\n', '\x0b', '\x0c', '\r', ' ', '\u00a0', '\u1680', '\u2028', '\u2029', '\u202f',
    '\u205f', '\u3000', '\ufeff'].contains ch || ('\u2000' ≤ ch && ch ≤ '\u200a')

def isBlank (text : String) : Bool :=
  text.toList.all isTrimmed

structure Classified where
  isAmbiguous : Bool
  isRetryable : Bool
  errorMessage : String

def classify (result : SendSmsResult) : Classified :=
  if result.success then
    { isAmbiguous := true
      isRetryable := false
      errorMessage := "Provider accepted response did not include a valid message id" }
  else
    { isAmbiguous := result.isAmbiguous = some true
      isRetryable := result.isRetryable
      errorMessage := result.error.getD "Unknown provider error" }

def summarizeFailures (failures : List PassFailure) : String :=
  if failures.isEmpty then "No SMS providers are configured"
  else ", ".intercalate (failures.map fun failure => failure.providerName ++ ":failed")

/-- A job with its message. -/
structure Task where
  job : Job
  messageId : String

/-- The values of a pass that has claimed its message. -/
structure Pass where
  task : Task
  begin : LifecycleSmsMessage
  recipientPhone : String
  body : String
  passFailures : List PassFailure

/-- A reservation that the worker holds: the attempt, its provider and the
providers that come after it. -/
structure Hold where
  pass : Pass
  provider : String
  rest : List String
  attemptId : String

/-- The call of `sendSms` for the reservation. -/
@[simps]
def Hold.call (hold : Hold) : SendCall where
  messageId := hold.pass.task.messageId
  recipientPhone := hold.pass.recipientPhone
  body := hold.pass.body
  attemptId := hold.attemptId
  providerName := hold.provider
  state := .inFlight
  accepted := false

inductive State where
  | idle
  | beginning (task : Task)
  | loading (task : Task) (begin : LifecycleSmsMessage)
  | markingMissing (task : Task)
  | reserving (pass : Pass) (provider : String) (rest : List String)
  | acquiring (hold : Hold)
  | calling (hold : Hold)
  | awaiting (hold : Hold) (call : Nat)
  | finalizing (hold : Hold) (input : FinalizeProviderAttemptInput)
  | schedulingRetry (pass : Pass) (opts : ScheduleRetryOptions)
  | markingFatal (pass : Pass) (lastError : String) (reason : DeadLetterReason)
  | finishing (task : Task) (outcome : ProcessOutcome)
  | failing (task : Task)
  | finished (outcome : ProcessOutcome)
  | failed
  | crashed

variable (config : Config)

/-- `process` on a job that has been handed to the worker. -/
def process (job : Job) : State :=
  match job.messageId with
  | some messageId => .beginning ⟨job, messageId⟩
  | none => .failing ⟨job, ""⟩

def afterBegin (task : Task) : BeginProcessingResult → State
  | .notStartable => .finishing task .skipped
  | .started message => .loading task message

def allRetryable (passFailures : List PassFailure) : Bool :=
  !passFailures.isEmpty && passFailures.all fun failure => failure.isRetryable

/-- The decision at the end of a pass without a success. -/
def endOfPass (pass : Pass) : State :=
  let currentRound := pass.begin.retryRounds
  let summary := summarizeFailures pass.passFailures
  if allRetryable pass.passFailures && currentRound < config.maxRetryRounds then
    .schedulingRetry pass
      { incrementRound := true
        delayMs := backoffDelayMs currentRound config.backoffBaseMs
        lastError := some summary }
  else
    .markingFatal pass summary
      (if allRetryable pass.passFailures then .roundsExhausted else .permanent)

/-- The loop over the providers. -/
def nextProvider (pass : Pass) : List String → State
  | [] => endOfPass config pass
  | provider :: rest => .reserving pass provider rest

def afterLoad (task : Task) (begin : LifecycleSmsMessage) : Option SmsMessage → State
  | none => .markingMissing task
  | some row =>
      match config.decrypt row.encryptedMessage with
      | none => .failing task
      | some body =>
          nextProvider config ⟨task, begin, row.recipientPhone, body, []⟩
            config.orderedProviders

def afterReserve (pass : Pass) (provider : String) (rest : List String) :
    ReserveProviderAttemptResult → State
  | .notReservable => .finishing pass.task .skipped
  | .reserved attemptId => .acquiring ⟨pass, provider, rest, attemptId⟩

/-- What is recorded about a result of `sendSms`. -/
def recordedResult (result : SendSmsResult) : FinalizeProviderAttemptInput :=
  match result.success, result.providerMessageId.filter fun id => !isBlank id with
  | true, some providerMessageId => .accepted providerMessageId
  | _, _ =>
      let classified := classify result
      .failed classified.isAmbiguous classified.isRetryable classified.errorMessage
        (if classified.isAmbiguous then some config.ambiguousOutcomeExpiryMs else none)

def afterSend (hold : Hold) : Option SendSmsResult → State
  | none => .failing hold.pass.task
  | some result => .finalizing hold (recordedResult config result)

def afterFinalize (hold : Hold) : FinalizeProviderAttemptInput → State
  | .accepted _ => .finishing hold.pass.task (.sent hold.provider)
  | .failed true _ _ _ => .finishing hold.pass.task .awaitingProviderResult
  | .failed false isRetryable _ _ =>
      nextProvider config
        { hold.pass with
          passFailures := hold.pass.passFailures ++ [⟨hold.provider, isRetryable⟩] }
        hold.rest

/-- A lost optimistic-concurrency race is acknowledged; any other error rejects. -/
def guardConcurrency (task : Task) : Failure → State
  | .concurrentModification _ _ _ => .finishing task .skipped
  | _ => .failing task

/-- The attempt a worker holds between its reservation and its finalization. -/
def State.hold? : State → Option Hold
  | .acquiring hold => some hold
  | .calling hold => some hold
  | .awaiting hold _ => some hold
  | .finalizing hold _ => some hold
  | _ => none

/-- The job a worker has taken and not yet given back. -/
def State.task? : State → Option Task
  | .beginning task => some task
  | .loading task _ => some task
  | .markingMissing task => some task
  | .reserving pass _ _ => some pass.task
  | .acquiring hold => some hold.pass.task
  | .calling hold => some hold.pass.task
  | .awaiting hold _ => some hold.pass.task
  | .finalizing hold _ => some hold.pass.task
  | .schedulingRetry pass _ => some pass.task
  | .markingFatal pass _ _ => some pass.task
  | .finishing task _ => some task
  | .failing task => some task
  | _ => none

theorem isRefusal_of_recordedResult {config : Config} {result : SendSmsResult}
    (hfailed : (recordedResult config result).outcome = .failed)
    (hdefinitive : (recordedResult config result).isAmbiguous = false) :
    Outside.isRefusal result := by
  unfold recordedResult at hfailed hdefinitive
  split at hfailed
  · simp [FinalizeProviderAttemptInput.outcome] at hfailed
  · rename_i hother
    cases hsuccess : result.success with
    | true => simp_all [FinalizeProviderAttemptInput.isAmbiguous, classify]
    | false => simp_all [FinalizeProviderAttemptInput.isAmbiguous, classify, Outside.isRefusal]

/-- The pass whose end a worker decides on. -/
def decided? : State → Option Pass
  | .schedulingRetry pass _ => some pass
  | .markingFatal pass _ _ => some pass
  | _ => none

/-- The message of that pass. -/
def deciding? (state : State) : Option String :=
  (decided? state).map fun pass => pass.task.messageId

section Holds

variable {config : Config}

@[simp] theorem hold?_process (job : Job) : (process job).hold? = none := by
  unfold process
  split <;> rfl

@[simp] theorem hold?_afterBegin (task : Task) (begin : BeginProcessingResult) :
    (afterBegin task begin).hold? = none := by
  cases begin <;> rfl

@[simp] theorem hold?_endOfPass (pass : Pass) : (endOfPass config pass).hold? = none := by
  simp only [endOfPass]
  split <;> rfl

@[simp] theorem hold?_nextProvider (pass : Pass) (providers : List String) :
    (nextProvider config pass providers).hold? = none := by
  cases providers with
  | nil => exact hold?_endOfPass pass
  | cons provider rest => rfl

@[simp] theorem hold?_afterLoad (task : Task) (begin : LifecycleSmsMessage)
    (row : Option SmsMessage) : (afterLoad config task begin row).hold? = none := by
  cases row with
  | none => rfl
  | some row =>
      rw [afterLoad]
      split
      · rfl
      · exact hold?_nextProvider _ _

@[simp] theorem hold?_afterFinalize (hold : Hold) (input : FinalizeProviderAttemptInput) :
    (afterFinalize config hold input).hold? = none := by
  rcases input with _ | ⟨_ | _, _, _, _⟩
  · rfl
  · exact hold?_nextProvider _ _
  · rfl

end Holds

section Tasks

variable {config : Config}

@[simp] theorem task?_afterBegin (task : Task) (begin : BeginProcessingResult) :
    (afterBegin task begin).task? = some task := by
  cases begin <;> rfl

@[simp] theorem task?_nextProvider (pass : Pass) (providers : List String) :
    (nextProvider config pass providers).task? = some pass.task := by
  cases providers with
  | nil =>
      simp only [nextProvider, endOfPass]
      split <;> rfl
  | cons provider rest => rfl

@[simp] theorem task?_afterLoad (task : Task) (begin : LifecycleSmsMessage)
    (row : Option SmsMessage) : (afterLoad config task begin row).task? = some task := by
  cases row with
  | none => rfl
  | some row =>
      rw [afterLoad]
      split
      · rfl
      · exact task?_nextProvider _ _

@[simp] theorem task?_afterReserve (pass : Pass) (provider : String) (rest : List String)
    (reservation : ReserveProviderAttemptResult) :
    (afterReserve pass provider rest reservation).task? = some pass.task := by
  cases reservation <;> rfl

@[simp] theorem task?_afterSend (hold : Hold) (reply : Option SendSmsResult) :
    (afterSend config hold reply).task? = some hold.pass.task := by
  cases reply <;> rfl

@[simp] theorem task?_afterFinalize (hold : Hold) (input : FinalizeProviderAttemptInput) :
    (afterFinalize config hold input).task? = some hold.pass.task := by
  rcases input with _ | ⟨_ | _, _, _, _⟩
  · rfl
  · exact task?_nextProvider _ _
  · rfl

end Tasks

end SmsNotification.SmsProcessor

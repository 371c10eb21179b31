import Mathlib.Data.List.TakeWhile
import SmsNotification.ServiceRuns

namespace SmsNotification.PassResults

open SmsNotification.MessageAggregate
open SmsNotification.Schema
open SmsNotification.SmsLifecycleRepository
open SmsNotification.SmsProcessor

deriving instance DecidableEq for SendSmsResult

/-- A provider and what its `sendSms` resolves to. -/
structure Send where
  provider : String
  result : SendSmsResult

/-- The result ends the loop: the provider has accepted the message, or may have. -/
def decides (send : Send) : Bool :=
  send.result.success || send.result.isAmbiguous = some true

/-- A success with an id that is not blank. -/
def Accepts (send : Send) (id : String) : Prop :=
  send.result.success ∧ send.result.providerMessageId = some id ∧ isBlank id = false

/-- The first send whose result decides. -/
def decider? (sends : List Send) : Option Send :=
  sends.find? decides

/-- The sends that a pass makes: all up to and including the first that decides. -/
def tried (sends : List Send) : List Send :=
  sends.takeWhile (fun send => !decides send) ++ (decider? sends).toList

/-- There are providers, and each may be tried again in a later round. -/
def AllRetryable (sends : List Send) : Prop :=
  sends ≠ [] ∧ ∀ send ∈ sends, send.result.isRetryable

/-- The attempt that a send leaves: its reservation with the result recorded. -/
def Recorded (config : Config) (m : String) (send : Send) (attempt : SmsAttempt) : Prop :=
  ∃ c, attempt = (recordedResult config send.result).record (reservation m send.provider c)

/-- A job for a message that can be started, and the result of each provider in the
order of the providers. -/
structure Assignment (config : Config) where
  task : Task
  store : Database
  row : SmsMessage
  sends : List Send
  found : smsMessage.find store task.messageId = some row
  startable : beginProcessingFrom.contains row.status
  decrypts : (config.decrypt row.encryptedMessage).isSome
  providers : config.orderedProviders = sends.map Send.provider

namespace Assignment

variable {config : Config} (d : Assignment config)

/-- The message before the pass. -/
def before : Aggregate :=
  aggregate d.store d.task.messageId

/-- The message has one more outbox row than before. -/
def Emits (intent : OutboxIntent) (A : Aggregate) : Prop :=
  ∃ c, A.outbox = d.before.outbox ++ [intent.row d.task.messageId c]

/-- What a pass leaves of its message, for each answer that it gives. -/
def Leaves (A : Aggregate) : ProcessOutcome → Prop
  | .sent provider => ∃ row send id attempt, A.message = some row ∧ row.status = .sent ∧
      row.selectedProvider = some provider ∧ row.providerMessageId = some id ∧
      decider? d.sends = some send ∧ Accepts send id ∧
      A.attempts.getLast? = some attempt ∧ attempt.outcome = .accepted ∧
      A.outbox = d.before.outbox
  | .awaitingProviderResult => ∃ row, A.message = some row ∧
      row.status = .awaitingProviderResult ∧
      ∃ delayMs, d.Emits (ambiguousOutcomeExpiryScheduled d.task.messageId delayMs) A
  | .retryScheduled => ∃ row, A.message = some row ∧ row.status = .retryScheduled ∧
      row.retryRounds = d.row.retryRounds + 1 ∧
      d.Emits (retryScheduled d.task.messageId
        (config.backoffBaseMs * 2 ^ d.row.retryRounds : Nat)) A
  | .deadLetter _ => ∃ row, A.message = some row ∧ row.status = .fatalFailure ∧
      row.retryRounds = d.row.retryRounds ∧ d.Emits (deadLettered d.task.messageId) A
  | .skipped => False

/-- What a pass answers and leaves of its message. -/
structure Result (outcome : ProcessOutcome) (A : Aggregate) : Prop where
  attempts : ∃ new, A.attempts = d.before.attempts ++ new ∧
    List.Forall₂ (Recorded config d.task.messageId) (tried d.sends) new ∧
    (decider? d.sends = none → tried d.sends = d.sends ∧
      ∀ attempt ∈ new, attempt.outcome = .failed ∧ attempt.isAmbiguous = false)
  resolutions : A.resolutions = d.before.resolutions
  sent : ∀ provider, outcome = .sent provider ↔
    ∃ send id, decider? d.sends = some send ∧ send.provider = provider ∧ Accepts send id
  awaiting : outcome = .awaitingProviderResult ↔
    ∃ send, decider? d.sends = some send ∧ ∀ id, ¬Accepts send id
  retried : outcome = .retryScheduled ↔ decider? d.sends = none ∧ AllRetryable d.sends ∧
    d.row.retryRounds < config.maxRetryRounds
  exhausted : outcome = .deadLetter .roundsExhausted ↔ decider? d.sends = none ∧
    AllRetryable d.sends ∧ config.maxRetryRounds ≤ d.row.retryRounds
  permanent : outcome = .deadLetter .permanent ↔ decider? d.sends = none ∧
    ¬AllRetryable d.sends
  leaves : d.Leaves A outcome

end Assignment

section Sends

variable {config : Config} {m id : String} {send : Send} {past todo sends : List Send}

theorem decider_of_past (hpast : ∀ send ∈ past, decides send = false) (hsend : decides send) :
    decider? (past ++ send :: todo) = some send := by
  have hnone : past.find? decides = none :=
    List.find?_eq_none.mpr fun send hmem => by simp [hpast send hmem]
  simp [decider?, List.find?_append, hnone, hsend]

theorem tried_of_past (hpast : ∀ send ∈ past, decides send = false) (hsend : decides send) :
    tried (past ++ send :: todo) = past ++ [send] := by
  rw [tried, decider_of_past hpast hsend, List.takeWhile_append_of_pos fun send hmem => by
    simp [hpast send hmem]]
  simp [hsend]

theorem decider_eq_none (hsends : ∀ send ∈ sends, decides send = false) :
    decider? sends = none :=
  List.find?_eq_none.mpr fun send hmem => by simp [hsends send hmem]

theorem tried_of_decider (h : decider? sends = none) : tried sends = sends := by
  rw [tried, h, Option.toList_none, List.append_nil, List.takeWhile_eq_self_iff]
  intro send hmem
  simpa using List.find?_eq_none.mp h send hmem

theorem recordedResult_of_accepts (config : Config) (h : Accepts send id) :
    recordedResult config send.result = .accepted id := by
  obtain ⟨hsuccess, hid, hblank⟩ := h
  simp [recordedResult, hsuccess, hid, hblank, Option.filter]

theorem recordedResult_of_not_accepts (h : ∀ id, ¬Accepts send id) :
    recordedResult config send.result =
      .failed (classify send.result).isAmbiguous (classify send.result).isRetryable
        (classify send.result).errorMessage
        (if (classify send.result).isAmbiguous then some config.ambiguousOutcomeExpiryMs
          else none) := by
  unfold recordedResult
  split
  · rename_i id hsuccess hid
    obtain ⟨hid, hblank⟩ := Option.filter_eq_some_iff.mp hid
    exact absurd ⟨hsuccess, hid, by simpa using hblank⟩ (h id)
  · rfl

theorem isAmbiguous_classify (result : SendSmsResult) (provider : String) :
    (classify result).isAmbiguous = decides ⟨provider, result⟩ := by
  cases hsuccess : result.success <;> simp [classify, decides, hsuccess]

theorem recordedResult_ambiguous (config : Config) (hsend : decides send)
    (h : ∀ id, ¬Accepts send id) :
    ∃ isRetryable errorMessage, recordedResult config send.result =
      .failed true isRetryable errorMessage (some config.ambiguousOutcomeExpiryMs) := by
  have hambiguous : (classify send.result).isAmbiguous = true :=
    (isAmbiguous_classify send.result send.provider).trans hsend
  exact ⟨_, _, by rw [recordedResult_of_not_accepts h, hambiguous]; rfl⟩

theorem recordedResult_of_undecided (config : Config) (hsend : decides send = false) :
    ∃ errorMessage, recordedResult config send.result =
      .failed false send.result.isRetryable errorMessage none := by
  have hsuccess : send.result.success = false := by
    rw [decides, Bool.or_eq_false_iff] at hsend
    exact hsend.1
  have hambiguous : (classify send.result).isAmbiguous = false :=
    (isAmbiguous_classify send.result send.provider).trans hsend
  have hnot : ∀ id, ¬Accepts send id := fun id haccepts => by
    simp [Accepts, hsuccess] at haccepts
  refine ⟨(classify send.result).errorMessage, ?_⟩
  rw [recordedResult_of_not_accepts hnot, hambiguous]
  simp [classify, hsuccess]

theorem failed_of_recorded {attempt : SmsAttempt} (h : Recorded config m send attempt)
    (hsend : decides send = false) :
    attempt.outcome = .failed ∧ attempt.isAmbiguous = false := by
  obtain ⟨c, rfl⟩ := h
  obtain ⟨errorMessage, hrecorded⟩ := recordedResult_of_undecided config hsend
  rw [hrecorded]
  exact ⟨rfl, rfl⟩

theorem failed_of_forall {new : List SmsAttempt}
    (h : List.Forall₂ (Recorded config m) sends new)
    (hsends : ∀ send ∈ sends, decides send = false) :
    ∀ attempt ∈ new, attempt.outcome = .failed ∧ attempt.isAmbiguous = false := by
  induction h with
  | nil => simp
  | cons hrecorded _ ih =>
      intro attempt hmem
      rcases List.mem_cons.mp hmem with rfl | hmem
      · exact failed_of_recorded hrecorded (hsends _ List.mem_cons_self)
      · exact ih (fun send hsend => hsends send (List.mem_cons_of_mem _ hsend)) attempt hmem

end Sends

section Results

variable {config : Config} {d : Assignment config} {A : Aggregate} {send : Send}

/-- The attempts of a pass, recorded in the order of its sends. -/
def Appends (d : Assignment config) (sends : List Send) (A : Aggregate) : Prop :=
  (∃ new, A.attempts = d.before.attempts ++ new ∧
    List.Forall₂ (Recorded config d.task.messageId) sends new) ∧
  A.resolutions = d.before.resolutions

theorem result_sent {id : String} (hdecider : decider? d.sends = some send)
    (haccepts : Accepts send id) (happends : Appends d (tried d.sends) A)
    (hleaves : d.Leaves A (.sent send.provider)) : d.Result (.sent send.provider) A := by
  obtain ⟨⟨new, hattempts, hnew⟩, hresolutions⟩ := happends
  refine ⟨⟨new, hattempts, hnew, by simp [hdecider]⟩, hresolutions, fun provider => ?_, ?_,
    by simp [hdecider], by simp [hdecider], by simp [hdecider], hleaves⟩
  · constructor
    · intro hprovider
      exact ⟨send, id, hdecider, ProcessOutcome.sent.inj hprovider, haccepts⟩
    · rintro ⟨other, _, hother, rfl, _⟩
      rw [Option.some.inj (hdecider.symm.trans hother)]
  · refine ⟨fun h => (by cases h), fun ⟨other, hother, hnot⟩ => ?_⟩
    obtain rfl := Option.some.inj (hdecider.symm.trans hother)
    exact absurd haccepts (hnot id)

theorem result_awaiting (hdecider : decider? d.sends = some send)
    (hnot : ∀ id, ¬Accepts send id) (happends : Appends d (tried d.sends) A)
    (hleaves : d.Leaves A .awaitingProviderResult) : d.Result .awaitingProviderResult A := by
  obtain ⟨⟨new, hattempts, hnew⟩, hresolutions⟩ := happends
  refine ⟨⟨new, hattempts, hnew, by simp [hdecider]⟩, hresolutions, fun provider => ?_,
    ⟨fun _ => ⟨send, hdecider, hnot⟩, fun _ => rfl⟩, by simp [hdecider], by simp [hdecider],
    by simp [hdecider], hleaves⟩
  refine ⟨fun h => (by cases h), fun ⟨other, id, hother, _, haccepts⟩ => ?_⟩
  obtain rfl := Option.some.inj (hdecider.symm.trans hother)
  exact absurd haccepts (hnot id)

/-- What a pass without a decision is to answer. -/
def Concludes (d : Assignment config) : ProcessOutcome → Prop
  | .retryScheduled => AllRetryable d.sends ∧ d.row.retryRounds < config.maxRetryRounds
  | .deadLetter .roundsExhausted =>
      AllRetryable d.sends ∧ config.maxRetryRounds ≤ d.row.retryRounds
  | .deadLetter .permanent => ¬AllRetryable d.sends
  | _ => False

theorem result_undecided {outcome : ProcessOutcome} (hdecider : decider? d.sends = none)
    (hconcludes : Concludes d outcome) (happends : Appends d d.sends A)
    (hleaves : d.Leaves A outcome) : d.Result outcome A := by
  obtain ⟨⟨new, hattempts, hnew⟩, hresolutions⟩ := happends
  have hundecided : ∀ send ∈ d.sends, decides send = false := fun send hmem => by
    simpa using List.find?_eq_none.mp hdecider send hmem
  have htried := tried_of_decider hdecider
  have hall : ∃ new, A.attempts = d.before.attempts ++ new ∧
      List.Forall₂ (Recorded config d.task.messageId) (tried d.sends) new ∧
      (decider? d.sends = none → tried d.sends = d.sends ∧
        ∀ attempt ∈ new, attempt.outcome = .failed ∧ attempt.isAmbiguous = false) :=
    ⟨new, hattempts, htried.symm ▸ hnew, fun _ => ⟨htried, failed_of_forall hnew hundecided⟩⟩
  cases outcome with
  | retryScheduled =>
      obtain ⟨hretryable, hround⟩ := hconcludes
      exact ⟨hall, hresolutions, by simp [hdecider], by simp [hdecider],
        by simp [hdecider, hretryable, hround], by simp [hround], by simp [hretryable], hleaves⟩
  | deadLetter reason =>
      cases reason with
      | permanent =>
          have hretryable : ¬AllRetryable d.sends := hconcludes
          exact ⟨hall, hresolutions, by simp [hdecider], by simp [hdecider],
            by simp [hretryable], by simp [hretryable], by simp [hdecider, hretryable], hleaves⟩
      | roundsExhausted =>
          obtain ⟨hretryable, hround⟩ := hconcludes
          exact ⟨hall, hresolutions, by simp [hdecider], by simp [hdecider],
            by simp [hround], by simp [hdecider, hretryable, hround], by simp [hretryable], hleaves⟩
      | messageMissing => exact hconcludes.elim
  | _ => exact hconcludes.elim

end Results

end SmsNotification.PassResults

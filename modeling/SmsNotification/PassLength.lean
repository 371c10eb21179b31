import Mathlib.Algebra.Order.BigOperators.Group.List
import Mathlib.Algebra.Order.Group.Nat
import SmsNotification.ServiceRuns
import SmsNotification.StepBudgets

namespace SmsNotification.PassLength

open SmsNotification.ActorSystem
open SmsNotification.KeyedStore
open SmsNotification.Schema
open SmsNotification.Service
open SmsNotification.ServiceEffects
open SmsNotification.ServiceRuns
open SmsNotification.SmsLifecycleRepository
open SmsNotification.SmsProcessor hiding Config
open SmsNotification.SmsStateMachine
open SmsNotification.StepBudgets
open SmsNotification.Surroundings

/-- How many awaits a pass can have before it, the one it is at included. -/
def awaitsLeft (config : SmsProcessor.Config) : SmsProcessor.State → Nat
  | .idle => 5 * config.orderedProviders.length + 5
  | .beginning _ => 5 * config.orderedProviders.length + 4
  | .loading _ _ => 5 * config.orderedProviders.length + 3
  | .markingMissing _ => 2
  | .reserving _ _ rest => 5 * rest.length + 7
  | .acquiring hold => 5 * hold.rest.length + 6
  | .calling hold => 5 * hold.rest.length + 5
  | .awaiting hold _ => 5 * hold.rest.length + 4
  | .finalizing hold _ => 5 * hold.rest.length + 3
  | .schedulingRetry _ _ => 2
  | .markingFatal _ _ _ => 2
  | .finishing _ _ => 1
  | .failing _ => 1
  | .finished _ => 0
  | .failed => 0
  | .crashed => 0

section Ranks

variable {config : SmsProcessor.Config}

theorem awaitsLeft_endOfPass (pass : Pass) : awaitsLeft config (endOfPass config pass) = 2 := by
  simp only [endOfPass]
  split <;> rfl

theorem awaitsLeft_nextProvider (pass : Pass) (providers : List String) :
    awaitsLeft config (nextProvider config pass providers) ≤ 5 * providers.length + 2 := by
  cases providers with
  | nil => exact Nat.le_of_eq (awaitsLeft_endOfPass pass)
  | cons provider rest =>
      simp only [nextProvider, awaitsLeft, List.length_cons]
      omega

theorem awaitsLeft_afterLoad (task : Task) (begin : LifecycleSmsMessage)
    (row : Option SmsMessage) : awaitsLeft config (afterLoad config task begin row) ≤
      5 * config.orderedProviders.length + 2 := by
  cases row with
  | none => simp [afterLoad, awaitsLeft]
  | some row =>
      rw [afterLoad]
      split
      · simp [awaitsLeft]
      · exact awaitsLeft_nextProvider _ _

theorem awaitsLeft_afterFinalize (hold : Hold) (input : FinalizeProviderAttemptInput) :
    awaitsLeft config (afterFinalize config hold input) ≤ 5 * hold.rest.length + 2 := by
  rcases input with _ | ⟨_ | _, _, _, _⟩
  · simp [afterFinalize, awaitsLeft]
  · exact awaitsLeft_nextProvider _ _
  · simp [afterFinalize, awaitsLeft]

end Ranks

section Statements

theorem within_updateMany {α : Type} (t : Table α) (id : String) (guard : α → Bool)
    (data : Choice → α → α) : Within (fun _ => True) 1 (t.updateMany id guard data) :=
  Within.update _ _ _

theorem within_create {α : Type} (t : Table α) (data : Choice → α) :
    Within (fun _ => True) 1 (t.create data) :=
  Within.insert _ _ _ _ _

theorem within_readLifecycle (m : String) : Within (fun _ => True) 1 (readLifecycle m) := by
  refine (Within.read _).bind (m := 0) fun row _ => ?_
  cases row with
  | none => exact .abort _
  | some row => exact .done trivial

theorem within_beginProcessing (m : String) :
    Within (fun _ => True) 2 (beginProcessing m) := by
  refine (within_updateMany _ _ _ _).bind (m := 1) fun claimed _ => ?_
  split
  · exact .done trivial
  · exact (within_readLifecycle m).bind (m := 0) fun _ _ => .done trivial

theorem within_findMessage (m : String) : Within (fun _ => True) 1 (findMessage m) :=
  Within.read _

theorem within_reserveProviderAttempt (m provider : String) :
    Within (fun _ => True) 2 (reserveProviderAttempt m provider) := by
  refine (within_updateMany _ _ _ _).bind (m := 1) fun reserved _ => ?_
  split
  · exact .done trivial
  · exact (within_create _ _).bind (m := 0) fun _ _ => .done trivial

theorem within_leaveAwaiting (m : String) (target : SmsStatus)
    (data : Choice → SmsMessage → SmsMessage) :
    Within (fun _ => True) 1 (leaveAwaiting m target data) := by
  refine (within_updateMany _ _ _ _).bind (m := 0) fun count _ => ?_
  split
  · exact .abort _
  · exact .done trivial

theorem within_finalizeProviderAttempt (m attemptId : String)
    (input : FinalizeProviderAttemptInput) :
    Within (fun _ => True) 2 (finalizeProviderAttempt m attemptId input) := by
  refine (within_updateMany _ _ _ _).bind (m := 1) fun finalized _ => ?_
  split
  · exact .abort _
  · rcases input with providerMessageId | ⟨_ | _, isRetryable, errorMessage, delayMs⟩
    · exact within_leaveAwaiting _ _ _
    · exact within_leaveAwaiting _ _ _
    · dsimp only
      cases delayMs.filter isPositiveInteger with
      | none => exact .abort _
      | some delay => exact (within_create _ _).bind (m := 0) fun _ _ => .done trivial

theorem within_guardedTransition (m : String) (target : SmsStatus)
    (data : SmsMessage → SmsMessage) (intent : Option OutboxIntent) :
    Within (fun _ => True) 4 (guardedTransition m target data intent) := by
  refine (Within.read _).bind (m := 3) fun row _ => ?_
  cases row with
  | none => exact .abort _
  | some current =>
      dsimp only
      split
      · exact .abort _
      · refine (within_updateMany _ _ _ _).bind (m := 2) fun updated _ => ?_
        split
        · exact .abort _
        · cases intent with
          | none => exact (within_readLifecycle m).mono (by decide)
          | some intent =>
              exact (within_create _ _).bind (m := 1) fun _ _ => within_readLifecycle m

end Statements

/-- The control states of a dispatch worker, by the awaits before it. -/
def workerRank (config : Config) : Control → Nat
  | .dispatch state => awaitsLeft config.processor state
  | _ => 0

section Workers

variable {config : Config} {q q' : Control} {t : Sql Control} {onError : Failure → Control}

theorem starts_of_dispatch (hq : family q = .dispatch) (hcode : code config q = .tx t onError) :
    (∃ writes next, t = .stmt writes next) ∧ 1 < workerRank config q := by
  cases q with
  | dispatch state =>
      cases state
      case beginning | loading | markingMissing | reserving | finalizing | schedulingRetry
        | markingFatal =>
        obtain ⟨rfl, _⟩ := Code.tx.inj hcode
        exact ⟨⟨_, _, rfl⟩, by simp [workerRank, awaitsLeft]⟩
      all_goals simp [code, dispatchCode] at hcode
  | _ => simp [family] at hq

theorem within_of_dispatch (hq : family q = .dispatch) (hcode : code config q = .tx t onError) :
    Within (fun q' => family q' = .dispatch ∧ workerRank config q' < workerRank config q) 4 t := by
  have hvalues : ∀ {α : Type} {f : α → SmsProcessor.State} {u : Sql α} {n r : Nat},
      Within (fun _ => True) n u → n ≤ 4 → (∀ a, awaitsLeft config.processor (f a) < r) →
      Within (fun q' => family q' = .dispatch ∧ workerRank config q' < r) 4
        (u.map fun a => .dispatch (f a)) :=
    fun hwithin hn hf => ((hwithin.mono hn).weaken fun a _ => ⟨rfl, hf a⟩).map
  cases q with
  | dispatch state =>
      cases state with
      | beginning task =>
          obtain ⟨rfl, _⟩ := Code.tx.inj hcode
          exact hvalues (within_beginProcessing _) (by decide) fun begin => by
            cases begin <;> simp [afterBegin, workerRank, awaitsLeft]
      | loading task begin =>
          obtain ⟨rfl, _⟩ := Code.tx.inj hcode
          exact hvalues (within_findMessage _) (by decide) fun row =>
            Nat.lt_succ_of_le (awaitsLeft_afterLoad task begin row)
      | reserving pass provider rest =>
          obtain ⟨rfl, _⟩ := Code.tx.inj hcode
          exact hvalues (within_reserveProviderAttempt _ _) (by decide) fun reservation => by
            cases reservation <;> simp [afterReserve, workerRank, awaitsLeft]
      | finalizing hold input =>
          obtain ⟨rfl, _⟩ := Code.tx.inj hcode
          exact hvalues (within_finalizeProviderAttempt _ _ _) (by decide) fun _ =>
            Nat.lt_succ_of_le (awaitsLeft_afterFinalize hold input)
      | markingMissing | schedulingRetry | markingFatal =>
          obtain ⟨rfl, _⟩ := Code.tx.inj hcode
          exact hvalues (within_guardedTransition _ _ _ _) (by decide) fun _ => by
            simp [workerRank, awaitsLeft]
      | _ => simp [code, dispatchCode] at hcode
  | _ => simp [family] at hq

theorem rank_of_error (hq : family q = .dispatch) (hcode : code config q = .tx t onError)
    (e : Failure) : workerRank config (onError e) = 1 := by
  obtain ⟨_, _, _, _, h | h⟩ := dispatch_of_error hcode e hq <;> rw [h] <;> rfl

theorem rank_of_acts {c : Choice} {o o' : Outside} (hq : family q = .dispatch)
    (h : Acts config c o q o' q') : workerRank config q' < workerRank config q := by
  cases h with
  | @took _ job _ =>
      cases hid : job.messageId <;> simp [workerRank, process, hid, awaitsLeft]
  | @answered hold call _ _ =>
      cases hreply : c.reply <;> simp [workerRank, afterSend, awaitsLeft]
  | acquired | notAcquired | started | finished | failed => simp [workerRank, awaitsLeft]
  | _ => simp [family] at hq

end Workers

/-- An await of a worker comes before the one it leads to. -/
theorem ranked_dispatch (config : Config) :
    Ranked (service config) (fun q => family q = .dispatch) (workerRank config) 4 where
  starts _ _ _ hq hcode := (starts_of_dispatch hq hcode).1
  tx _ _ _ hq hcode := within_of_dispatch hq hcode
  error _ _ _ e hq hcode :=
    ⟨(family_of_error hcode e).1.trans hq,
      (rank_of_error hq hcode e).trans_lt (starts_of_dispatch hq hcode).2⟩
  act _ _ _ _ _ _ hq hcode hact :=
    ⟨(acts_of_code hcode hact).family.1.trans hq, rank_of_acts hq (acts_of_code hcode hact)⟩
  crashed q hq := by
    cases q with
    | dispatch state => exact ⟨rfl, rfl⟩
    | _ => simp [family] at hq

/-- The id of a row. -/
def nameOf : Row → String
  | .message row => row.id
  | .idempotencyKey row => row.key
  | .attempt row => row.id
  | .resolution row => row.smsAttemptId
  | .outbox row => row.id

theorem exists_new_name (rows : List Row) :
    ∃ name : String, (∀ row ∈ rows, nameOf row ≠ name) ∧ '#' ∉ name.toList := by
  have hsum : ∀ row ∈ rows, (nameOf row).length < (rows.map fun row =>
      (nameOf row).length).sum + 1 :=
    fun row hrow => Nat.lt_succ_of_le
      (List.le_sum_of_mem (List.mem_map_of_mem (f := fun row => (nameOf row).length) hrow))
  generalize (rows.map fun row => (nameOf row).length).sum + 1 = n at hsum
  refine ⟨String.ofList (List.replicate n 'a'), fun row hrow heq => ?_, by simp⟩
  have hlt := hsum row hrow
  simp [heq] at hlt

theorem exists_supplied (s : Database) : ∃ c : Choice, c.supplied s := by
  obtain ⟨name, hnew, hhash⟩ := exists_new_name s.rows
  have hnone : ∀ k, (∀ row : Row, row.key = k → nameOf row = name) → s.find k = none :=
    fun k hk => Store.find_eq_none_iff.mpr fun row hrow hkey => hnew row hrow (hk row hkey)
  have hmessage := hnone (.message name) fun row hrow => by
    cases row <;> simp_all [Row.key, nameOf]
  have hattempt := hnone (.attempt name) fun row hrow => by
    cases row <;> simp_all [Row.key, nameOf]
  have houtbox := hnone (.outbox name) fun row hrow => by
    cases row <;> simp_all [Row.key, nameOf]
  refine ⟨⟨0, name, fun _ => 0, true, false, 0, none, "", .tick 0⟩, ?_⟩
  simp [Choice.supplied, hmessage, hattempt, houtbox, hhash]

/-- The pass is over. -/
def isEnded : SmsProcessor.State → Bool
  | .finished _ => true
  | .failed => true
  | .crashed => true
  | _ => false

/-- The worker waits for a job or for the answer of a provider. -/
def isWaiting : SmsProcessor.State → Bool
  | .idle => true
  | .awaiting _ _ => true
  | _ => false

theorem exists_own_step {config : Config} {w : ServiceWorld} {i n : Nat}
    {a : ServiceActor} {state : SmsProcessor.State}
    (hleft : Left (service config) (fun q => family q = .dispatch) (workerRank config) 4 a n)
    (ha : w.actors[i]? = some a) (hcontrol : a.control = .dispatch state)
    (hended : isEnded state = false) (hwaiting : isWaiting state = false)
    (hothers : ∀ (j : Nat) b, w.actors[j]? = some b → j ≠ i → b.pending = []) :
    ∃ l, Own i l ∧ ((service config).step w l).isSome := by
  have htx : ∀ {t onError}, code config a.control = .tx t onError →
      ∃ l, Own i l ∧ ((service config).step w l).isSome := fun hcode =>
    exists_step_of_tx hleft ha hcode hothers (exists_supplied w.store)
  have hact : ∀ act, code config a.control = .ext act → (∀ c o, (act c o).isSome) →
      ∃ l, Own i l ∧ ((service config).step w l).isSome := by
    intro act hcode hsome
    obtain ⟨c, _⟩ := exists_supplied w.store
    obtain ⟨⟨o, q⟩, hq⟩ := Option.isSome_iff_exists.mp (hsome c w.ext)
    refine ⟨.run i c, Or.inr ⟨c, rfl⟩, ?_⟩
    simp only [Protocol.step, ha, show (service config).code a.control = .ext act from hcode, hq,
      Option.isSome_some]
  rw [hcontrol] at htx hact
  cases state with
  | beginning | loading | markingMissing | reserving | finalizing | schedulingRetry
    | markingFatal => exact htx rfl
  | acquiring | calling | finishing | failing => exact hact _ rfl fun _ _ => rfl
  | idle | awaiting => simp [isWaiting] at hwaiting
  | finished | failed | crashed => simp [isEnded] at hended

end SmsNotification.PassLength

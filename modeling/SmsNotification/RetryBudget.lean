import SmsNotification.PassBudget

namespace SmsNotification.RetryBudget

open SmsNotification.ActorSystem
open SmsNotification.ClaimExclusivity
open SmsNotification.DispatchClaims
open SmsNotification.LabelledRuns
open SmsNotification.MessageAggregate
open SmsNotification.PassBudget
open SmsNotification.QueueConstants
open SmsNotification.Schema
open SmsNotification.Service
open SmsNotification.ServiceEffects
open SmsNotification.ServiceRuns
open SmsNotification.SmsLifecycleRepository
open SmsNotification.SmsProcessor (Hold Pass Task)
open SmsNotification.SmsStateMachine
open SmsNotification.Surroundings

/-- The change of a message that gives it its full budget: its creation or its
requeue. -/
def Renewed (A A' : Aggregate) : Prop :=
  (A.status = none ∧ A'.status ≠ none) ∨
    (A.status = some .fatalFailure ∧ A'.status = some .retryScheduled)

instance Renewed.decidable (A A' : Aggregate) : Decidable (Renewed A A') :=
  inferInstanceAs (Decidable (_ ∨ _))

theorem not_renewed_of_same {A A' : Aggregate} (h : A'.status = A.status) : ¬Renewed A A' := by
  rw [Renewed, h]
  rintro (⟨hnone, hsome⟩ | ⟨hfatal, hretry⟩)
  · exact hsome hnone
  · simp [hfatal] at hretry

theorem status_of_row {A : Aggregate} {row : SmsMessage} (hrow : A.message = some row) :
    A.status = some row.status := by
  rw [Aggregate.status, hrow]
  rfl

theorem row_of_renewed {config : Config} {m : String} {q q' : Control} {A A' : Aggregate}
    (h : PassStep config m q q' A A') (hrenewed : Renewed A A') :
    ∃ row, A'.message = some row ∧ row.retryRounds = 0 ∧
      beginProcessingFrom.contains row.status := by
  have hfatal : ∀ row, A.message = some row →
      row.status = .fatalFailure ∧ A'.status = some .retryScheduled := by
    intro row hrow
    rw [Renewed, status_of_row hrow] at hrenewed
    obtain ⟨hnone, _⟩ | ⟨hfatal, hretry⟩ := hrenewed
    · simp at hnone
    · exact ⟨Option.some.inj hfatal, hretry⟩
  cases h with
  | created call hcreated =>
      obtain ⟨c, events', _, _, _, _, rfl⟩ := hcreated
      exact ⟨_, rfl, rfl, rfl⟩
  | begun task row _ _ _ _ hmoved =>
      obtain ⟨row₂, now, events', hrow, hguard, _, _⟩ := hmoved
      simp [(hfatal row₂ hrow).1, beginProcessingFrom] at hguard
  | recovered _ hmoved =>
      obtain ⟨row, now, events', hrow, hguard, _, _⟩ := hmoved
      simp [(hfatal row hrow).1] at hguard
  | requeued _ hrequeued =>
      obtain ⟨row, now, events', _, _, _, rfl⟩ := hrequeued
      exact ⟨_, rfl, rfl, rfl⟩
  | retried pass opts _ _ _ hmoved =>
      obtain ⟨row, now, events', hrow, hguard, _, _⟩ := hmoved
      simp [(hfatal row hrow).1, isValidTransition, transitionTable] at hguard
  | died lastError _ _ hmoved =>
      obtain ⟨row, now, events', hrow, hguard, _, _⟩ := hmoved
      simp [(hfatal row hrow).1, isValidTransition, transitionTable] at hguard
  | reserved pass provider attemptId rest _ _ hreserved =>
      obtain ⟨row, now, c, hrow, hstatus, _, _⟩ := hreserved
      simp [(hfatal row hrow).1] at hstatus
  | finalized hold input _ _ hfinal =>
      obtain ⟨old, _, _, _, hrest⟩ := hfinal
      rcases input with providerMessageId | ⟨_ | _, isRetryable, errorMessage, delayMs⟩
      · obtain ⟨row, now, hrow, hstatus, _⟩ := hrest
        simp [(hfatal row hrow).1] at hstatus
      · obtain ⟨row, now, hrow, hstatus, _⟩ := hrest
        simp [(hfatal row hrow).1] at hstatus
      · obtain ⟨delay, events', _, _, rfl⟩ := hrest
        exact absurd hrenewed (not_renewed_of_same rfl)
  | settled _ hsettles =>
      obtain ⟨row, row', hrow, hstatus, _⟩ := hsettles
      simp [(hfatal row hrow).1, isClaimed] at hstatus
  | relayed hrelayed =>
      obtain ⟨event, _, data, c, _, rfl⟩ := hrelayed
      exact absurd hrenewed (not_renewed_of_same rfl)

/-- All failures of the pass so far were retryable, and so many providers are left. -/
def Failing (config : Config) (pass : Pass) (left : Nat) : Prop :=
  (∀ failure ∈ pass.passFailures, failure.isRetryable) ∧
    pass.passFailures.length + left = config.processor.orderedProviders.length

/-- The worker has met only definitive, retryable failures in its pass. -/
def Refused (config : Config) : Control → Prop
  | .dispatch (.reserving pass _ rest) => Failing config pass (rest.length + 1)
  | .dispatch (.acquiring hold) => Failing config hold.pass (hold.rest.length + 1)
  | .dispatch (.calling hold) => Failing config hold.pass (hold.rest.length + 1)
  | .dispatch (.awaiting hold _) => Failing config hold.pass (hold.rest.length + 1)
  | .dispatch (.finalizing hold input) => Failing config hold.pass (hold.rest.length + 1) ∧
      ∃ errorMessage delayMs, input = .failed false true errorMessage delayMs
  | .dispatch (.schedulingRetry pass opts) => Failing config pass 0 ∧
      .schedulingRetry pass opts = SmsProcessor.endOfPass config.processor pass
  | .dispatch (.markingFatal pass lastError reason) => Failing config pass 0 ∧
      .markingFatal pass lastError reason = SmsProcessor.endOfPass config.processor pass
  | _ => True

/-- A definitive failure after which a retry is worthwhile. -/
def isRetryableRefusal (result : SendSmsResult) : Bool :=
  Outside.isRefusal result && result.isRetryable

/-- Every result that a provider gives in the step for the message is a definitive,
retryable failure. -/
def refuses (m : String) (a : ServiceSnapshot) : ServiceLabel → Bool
  | .run i c =>
      match a.controls[i]? with
      | some (.dispatch (.awaiting hold _)) =>
          hold.pass.task.messageId ≠ m || c.reply.all isRetryableRefusal
      | _ => true
  | _ => true

/-- Steps that requeue nothing and in which every provider fails. -/
def Refusing (m : String) (a : ServiceSnapshot) (l : ServiceLabel) : Prop :=
  Unrequeued m a l ∧ refuses m a l

instance Refusing.decidable (m : String) (a : ServiceSnapshot) (l : ServiceLabel) :
    Decidable (Refusing m a l) :=
  inferInstanceAs (Decidable (_ ∧ _))

section Failures

variable {config : Config} {q q' : Control} {s s' : Database} {m : String}

theorem refused_endOfPass {pass : Pass} (h : Failing config pass 0) :
    Refused config (.dispatch (SmsProcessor.endOfPass config.processor pass)) := by
  generalize hend : SmsProcessor.endOfPass config.processor pass = state
  have hcopy := hend
  simp only [SmsProcessor.endOfPass] at hcopy
  split at hcopy <;> subst hcopy <;> exact ⟨h, hend.symm⟩

theorem refused_nextProvider {pass : Pass} {providers : List String}
    (h : Failing config pass providers.length) :
    Refused config (.dispatch (SmsProcessor.nextProvider config.processor pass providers)) := by
  cases providers with
  | nil => exact refused_endOfPass h
  | cons provider rest => exact h

theorem Failing.next {hold : Hold} (h : Failing config hold.pass (hold.rest.length + 1)) :
    Failing config
      { hold.pass with passFailures := hold.pass.passFailures ++ [⟨hold.provider, true⟩] }
      hold.rest.length := by
  obtain ⟨hretryable, hlength⟩ := h
  constructor
  · intro failure hfailure
    rcases List.mem_append.mp hfailure with hfailure | hfailure
    · exact hretryable failure hfailure
    · rw [List.mem_singleton.mp hfailure]
  · rw [← hlength, List.length_append]
    simp only [List.length_singleton]
    omega

theorem refused_of_ok (h : controlSpec config q s (.ok q') s')
    (hrefused : claims? q = some m → Refused config q) (hclaims : claims? q' = some m) :
    Refused config q' := by
  obtain hkept | ⟨task, begin, rfl, rfl, rfl⟩ := claims_of_ok h hclaims
  · have hrefused := hrefused hkept
    cases q with
    | dispatch state =>
        cases state with
        | loading task begin =>
            obtain ⟨row, rfl, _⟩ := h
            cases row with
            | none => trivial
            | some row =>
                simp only [SmsProcessor.afterLoad]
                split
                · trivial
                · exact refused_nextProvider ⟨by simp, Nat.zero_add _⟩
        | reserving pass provider rest =>
            obtain ⟨result, rfl, _⟩ := h
            cases result with
            | notReservable => trivial
            | reserved attemptId => exact hrefused
        | finalizing hold input =>
            obtain ⟨_, rfl, _⟩ := h
            obtain ⟨hfailing, errorMessage, delayMs, rfl⟩ := hrefused
            exact refused_nextProvider hfailing.next
        | markingMissing task =>
            obtain ⟨_, rfl, _⟩ := h
            trivial
        | schedulingRetry pass opts =>
            obtain ⟨_, rfl, _⟩ := h
            trivial
        | markingFatal pass lastError reason =>
            obtain ⟨_, rfl, _⟩ := h
            trivial
        | acquiring | calling | awaiting => exact h.elim
        | _ => simp [claims?] at hkept
    | _ => simp [claims?] at hkept
  · trivial

theorem recordedResult_of_refusal {result : SendSmsResult} (h : isRetryableRefusal result) :
    ∃ errorMessage delayMs, SmsProcessor.recordedResult config.processor result =
      .failed false true errorMessage delayMs := by
  simp only [isRetryableRefusal, Outside.isRefusal, Bool.and_eq_true, Bool.not_eq_true',
    decide_eq_true_eq] at h
  obtain ⟨⟨hsuccess, hambiguous⟩, hretryable⟩ := h
  simp [SmsProcessor.recordedResult, SmsProcessor.classify, hsuccess, hambiguous, hretryable]

theorem refused_of_acts {c : Choice} {o o' : Outside} (h : Acts config c o q o' q')
    (hreply : ∀ hold call, q = .dispatch (.awaiting hold call) → hold.pass.task.messageId = m →
      c.reply.all isRetryableRefusal)
    (hrefused : claims? q = some m → Refused config q) (hclaims : claims? q' = some m) :
    Refused config q' := by
  have hrefused := hrefused (claims_of_acts h hclaims)
  cases h with
  | acquired => exact hrefused
  | started => exact hrefused
  | answered hold call hanswer =>
      cases hresult : c.reply with
      | none => trivial
      | some result =>
          rw [hresult] at hclaims
          have hm : hold.pass.task.messageId = m := Option.some.inj hclaims
          have hretryable := hreply hold call rfl hm
          rw [hresult] at hretryable
          exact ⟨hrefused, recordedResult_of_refusal hretryable⟩
  | took => simp [claims?_process] at hclaims
  | _ => simp [claims?] at hclaims

end Failures

/-- Every worker at the message has met only retryable failures. -/
def AllRefused (config : Config) (m : String) (a : ServiceSnapshot) : Prop :=
  ∀ (i : Nat) q, a.controls[i]? = some q → claims? q = some m → Refused config q

theorem AllRefused.step {config : Config} {m : String} {a a' : ServiceSnapshot}
    (h : AllRefused config m a) {l : ServiceLabel} (hl : Refusing m a l)
    (hstep : ServiceStep config a l a') : AllRefused config m a' := by
  have hset : ∀ {i : Nat} {q q' : Control} {s : Database} {x : Outside},
      a.controls[i]? = some q → (claims? q' = some m → Refused config q') →
      AllRefused config m ⟨s, a.controls.set i q', x⟩ := by
    intro i q q' s x hq hown j q₂ hq₂ hclaims
    rcases getElem?_set_eq_some hq₂ with ⟨_, rfl⟩ | ⟨_, hq₂⟩
    · exact hown hclaims
    · exact h j q₂ hq₂ hclaims
  cases hstep with
  | spawn q =>
      intro i q' hq' hclaims
      rcases getElem?_concat_eq_some hq' with hq' | rfl
      · exact h i q' hq' hclaims
      · simp [claims_of_delivers (hl.1.1.1 _ rfl)] at hclaims
  | answer hq _ hspec => exact hset hq (refused_of_ok hspec (h _ _ hq))
  | commit hq _ hspec => exact hset hq (refused_of_ok hspec (h _ _ hq))
  | act hq hcode hact =>
      refine hset hq (refused_of_acts (acts_of_code hcode hact) (fun hold call heq hm => ?_)
        (h _ _ hq))
      have hrefuses := hl.2
      subst heq
      simpa [refuses, hq, hm] using hrefuses
  | error hq hcode _ => exact hset hq fun hclaims => by simp [claims_of_error hcode] at hclaims
  | lost hq hcode _ => exact hset hq fun hclaims => by simp [claims_of_error hcode] at hclaims
  | fault hq hcode => exact hset hq fun hclaims => by simp [claims_of_error hcode] at hclaims
  | crash hq _ => exact hset hq fun hclaims => by simp [service, claims_of_crash] at hclaims
  | env _ => exact h

/-- The message whose end-of-pass decision a worker carries out next. -/
def deciding? : Control → Option String
  | .dispatch state => SmsProcessor.deciding? state
  | _ => none

/-- What a worker answers to its job. -/
def outcome? : Control → Option SmsProcessor.ProcessOutcome
  | .dispatch (.finishing _ outcome) => some outcome
  | _ => none

/-- The worker carries out its end-of-pass decision in the step, without an error. -/
def Decides (i : Nat) (m : String) (w w' : ServiceWorld) : Prop :=
  w.abs.controls[i]?.bind deciding? = some m ∧
    (w'.abs.controls[i]?.bind outcome?).any (· ≠ .skipped)

instance Decides.decidable (i : Nat) (m : String) (w w' : ServiceWorld) :
    Decidable (Decides i m w w') :=
  inferInstanceAs (Decidable (_ ∧ _))

section Runs

variable {config : Config} {w w₀ v v' : ServiceWorld} {past : List ServiceWorld} {m : String}

theorem lifecycle_of_unrecovered {a : ServiceSnapshot} {q : Control}
    (h : Unrecovered a (.spawn q)) :
    Lifecycle q :=
  lifecycle_of_patient (patient_of_unrecovered h)

theorem exclusive_of_unrecovered (h : Reaches config Unrecovered Initial w) : Exclusive w.abs :=
  exclusive_of_reaches (h.mono fun _ _ hl => patient_of_unrecovered hl)

theorem budget_of_renewed (h : Reaches config Unrecovered Initial w) {l : ServiceLabel}
    (hl : Unrecovered w.abs l) (hstep : (service config).step w l = some w₀)
    (hrenewed : Renewed (aggregate w.store m) (aggregate w₀.store m)) :
    Budget config m (callsOf m w₀.ext) 0 w₀.abs ∧
      ∀ (i : Nat) q, w₀.abs.controls[i]? = some q → claims? q ≠ some m := by
  have hexclusive := exclusive_of_unrecovered (Reachable.next l h hl hstep)
  have hrow : ∃ row, (aggregate w₀.store m).message = some row ∧ row.retryRounds = 0 ∧
      beginProcessingFrom.contains row.status := by
    have hsame : ∀ s, s = w.store → ¬Renewed (aggregate w.store m) (aggregate s m) := by
      rintro s rfl
      exact not_renewed_of_same rfl
    obtain heq | hatomic := serviceStep_of_step (fun _ _ => lifecycle_of_unrecovered) h hl hstep
    · exact absurd hrenewed (hsame _ (congrArg Snapshot.store heq))
    · obtain heq | ⟨i, q, q', hq, _, hspec⟩ := hatomic.store
      · exact absurd hrenewed (hsame _ heq)
      · obtain heq | hpass :=
          passStep_of_message ((exclusive_of_unrecovered h).calls i q hq) hspec m
        · exact absurd hrenewed (not_renewed_of_same (congrArg Aggregate.status heq))
        · exact row_of_renewed hpass hrenewed
  obtain ⟨row, hrow, hrounds, hstatus⟩ := hrow
  have hnone : ∀ (i : Nat) q, w₀.abs.controls[i]? = some q → claims? q ≠ some m := by
    intro i q hq hclaims
    obtain ⟨row', hrow', hclaimed⟩ := status_of_claimed (hexclusive.claimed i q m hq hclaims)
    obtain rfl := Option.some.inj (hrow.symm.trans hrow')
    rw [isClaimed_of_startable _ hstatus] at hclaimed
    simp at hclaimed
  refine ⟨⟨⟨row, hrow, by omega, ?_, fun i q hq hclaims => absurd hclaims (hnone i q hq)⟩, ?_,
    fun i q hq hclaims => absurd hclaims (hnone i q hq)⟩, hnone⟩
  · rw [passes, hrounds, hstatus]
    rfl
  · exact Nat.le_add_right _ _

theorem budget_of_since (h : Reaches config Unrecovered Initial w₀) {base : Nat}
    (hbudget : Budget config m base 0 w₀.abs)
    (hsince : Since config (Unrequeued m) w₀ (v :: past)) :
    Budget config m base (occurrences (begins m) (v :: past)) v.abs := by
  induction past generalizing v with
  | nil =>
      cases hsince with
      | start h0 => exact h0 ▸ hbudget
  | cons u past ih =>
      cases hsince with
      | next l hprev hl hstep =>
          have hu : Reaches config Unrecovered Initial u :=
            h.later (fun _ _ hl => hl.1) (hprev.reachable u List.mem_cons_self)
          have hih := ih hprev
          rw [occurrences]
          obtain hsame | hatomic :=
            serviceStep_of_step (fun _ _ => lifecycle_of_unrecovered) hu hl.1 hstep
          · have hnot : begins m u v = false := by
              rw [begins, show v.store = u.store from congrArg Snapshot.store hsame]
              exact starts_of_same rfl
            rw [hnot, hsame]
            exact hih
          · exact hih.step (exclusive_of_unrecovered hu) hl hatomic

theorem allRefused_of_later (h : Reaches config Unrecovered Initial w₀)
    (hnone : ∀ (i : Nat) q, w₀.abs.controls[i]? = some q → claims? q ≠ some m)
    (hlater : Later config (Refusing m) w₀ v) : AllRefused config m v.abs := by
  induction hlater with
  | start h0 =>
      subst h0
      exact fun i q hq hclaims => absurd hclaims (hnone i q hq)
  | next l hprev hl hstep ih =>
      have hu := h.later (fun _ _ hl => hl.1.1) hprev
      obtain hsame | hatomic :=
        serviceStep_of_step (fun _ _ => lifecycle_of_unrecovered) hu hl.1.1 hstep
      · exact hsame ▸ ih
      · exact ih.step hl hatomic

theorem endOfPass_of_failing {pass : Pass} (h : Failing config pass 0)
    (hproviders : 0 < config.processor.orderedProviders.length) :
    SmsProcessor.endOfPass config.processor pass =
      if pass.begin.retryRounds < config.processor.maxRetryRounds then
        .schedulingRetry pass
          { incrementRound := true
            delayMs := backoffDelayMs pass.begin.retryRounds config.processor.backoffBaseMs
            lastError := some (SmsProcessor.summarizeFailures pass.passFailures) }
      else
        .markingFatal pass (SmsProcessor.summarizeFailures pass.passFailures) .roundsExhausted := by
  obtain ⟨hretryable, hlength⟩ := h
  have hall : pass.passFailures.all (fun failure => failure.isRetryable) = true :=
    List.all_eq_true.mpr hretryable
  have hsome : pass.passFailures.isEmpty = false := by
    rw [List.isEmpty_eq_false_iff, ← List.length_pos_iff]
    omega
  simp [SmsProcessor.endOfPass, SmsProcessor.allRetryable, hall, hsome]

theorem eq_of_deciding {q : Control} (h : deciding? q = some m) :
    ∃ pass : Pass, pass.task.messageId = m ∧ ((∃ opts, q = .dispatch (.schedulingRetry pass opts)) ∨
      ∃ lastError reason, q = .dispatch (.markingFatal pass lastError reason)) := by
  cases q with
  | dispatch state =>
      obtain ⟨pass, hpass, rfl⟩ := Option.map_eq_some_iff.mp h
      unfold SmsProcessor.decided? at hpass
      split at hpass
      · exact ⟨pass, rfl, Or.inl ⟨_, by rw [Option.some.inj hpass]⟩⟩
      · exact ⟨pass, rfl, Or.inr ⟨_, _, by rw [Option.some.inj hpass]⟩⟩
      · cases hpass
  | _ => cases h

theorem spec_of_outcome {a a' : ServiceSnapshot} {q q' : Control}
    {outcome : SmsProcessor.ProcessOutcome} (h : Moves config a a' q q')
    (hdeciding : deciding? q = some m) (houtcome : outcome? q' = some outcome)
    (hanswered : outcome ≠ .skipped) : controlSpec config q a.store (.ok q') a'.store := by
  obtain ⟨pass, _, ⟨opts, rfl⟩ | ⟨lastError, reason, rfl⟩⟩ := eq_of_deciding hdeciding
  all_goals
    cases h with
    | stays hsame => simp [hsame, outcome?] at houtcome
    | went hspec => exact hspec
    | failed e hcode hq' =>
        obtain ⟨_, _, _, _, h | h⟩ := dispatch_of_error hcode e rfl
        all_goals simp_all [outcome?]
    | acted c hacts => exact (not_acts_of_tx rfl hacts).elim
    | crashed hq' => simp [hq', crash, outcome?] at houtcome

theorem spec_of_decides (h : Reaches config Unrecovered Initial v) {i : Nat} {l : ServiceLabel}
    (hl : Unrecovered v.abs l) (hstep : (service config).step v l = some v')
    (hdecides : Decides i m v v') :
    ∃ q q', v.abs.controls[i]? = some q ∧ deciding? q = some m ∧
      controlSpec config q v.store (.ok q') v'.store := by
  obtain ⟨q, hq, hdeciding⟩ := Option.bind_eq_some_iff.mp hdecides.1
  obtain ⟨outcome, houtcome, hanswered⟩ := (Option.any_eq_true _ _).mp hdecides.2
  obtain ⟨q', hq', houtcome⟩ := Option.bind_eq_some_iff.mp houtcome
  have hmoves : Moves config v.abs v'.abs q q' := by
    obtain hsame | hatomic := serviceStep_of_step (fun _ _ => lifecycle_of_unrecovered) h hl hstep
    · rw [hsame, hq] at hq'
      exact .stays (Option.some.inj hq').symm
    · obtain ⟨q₁, hq₁, hmoves⟩ := exists_control_of_step hatomic hq
      exact Option.some.inj (hq₁.symm.trans hq') ▸ hmoves
  exact ⟨q, q', hq, hdeciding,
    spec_of_outcome hmoves hdeciding houtcome (of_decide_eq_true hanswered)⟩

/-- The end of the `n`-th pass in which every provider has failed. -/
theorem decision (hexclusive : Exclusive v.abs) {base n : Nat}
    (hbudget : Budget config m base n v.abs)
    (hrefused : AllRefused config m v.abs)
    (hproviders : 0 < config.processor.orderedProviders.length) {i : Nat} {q q' : Control}
    (hq : v.abs.controls[i]? = some q) (hdeciding : deciding? q = some m) {s : Database}
    (hspec : controlSpec config q v.store (.ok q') s) :
    (n ≤ config.processor.maxRetryRounds → ∃ row c, (aggregate s m).message = some row ∧
        row.status = .retryScheduled ∧ row.retryRounds = n ∧
        (aggregate s m).outbox = (aggregate v.store m).outbox ++
          [(retryScheduled m ((config.processor.backoffBaseMs * 2 ^ (n - 1) : Nat) : ℚ)).row m c]) ∧
      (n = config.processor.maxRetryRounds + 1 → ∃ row, (aggregate s m).message = some row ∧
        row.status = .fatalFailure ∧ row.retryRounds = config.processor.maxRetryRounds) := by
  obtain ⟨row, hrow, hrounds, rfl, hpasses⟩ := hbudget.rounds
  have hclaims : claims? q = some m := by
    obtain ⟨pass, rfl, ⟨opts, rfl⟩ | ⟨lastError, reason, rfl⟩⟩ := eq_of_deciding hdeciding <;> rfl
  have hround := hpasses i q hq hclaims
  have hown := hrefused i q hq hclaims
  have hn : passes row = row.retryRounds + 1 := by
    obtain ⟨row', hrow', hstatus⟩ := status_of_claimed (hexclusive.claimed i q m hq hclaims)
    obtain rfl := Option.some.inj (hrow.symm.trans hrow')
    rw [passes, not_startable_of_isClaimed hstatus]
    rfl
  rw [hn]
  obtain ⟨pass, rfl, ⟨opts, rfl⟩ | ⟨lastError, reason, rfl⟩⟩ := eq_of_deciding hdeciding
  · obtain ⟨hbegin, _, hlt⟩ := hround
    obtain ⟨hfailing, hend⟩ := hown
    rw [endOfPass_of_failing hfailing hproviders, hbegin, if_pos hlt] at hend
    obtain ⟨_, rfl⟩ := SmsProcessor.State.schedulingRetry.inj hend
    refine ⟨fun _ => ?_, fun hlast => by omega⟩
    obtain ⟨message, _, ⟨A', ⟨row', now, events', hrow', _, ⟨c, _, _, rfl⟩, rfl⟩, hupdate⟩, _⟩ :=
      hspec
    obtain rfl := Option.some.inj (hrow.symm.trans hrow')
    rw [hupdate, Function.update_self]
    exact ⟨_, c, rfl, rfl, rfl, rfl⟩
  · obtain ⟨hfailing, hend⟩ := hown
    have hbegin : pass.begin.retryRounds = row.retryRounds := hround
    have hge : ¬row.retryRounds < config.processor.maxRetryRounds := by
      intro hlt
      rw [endOfPass_of_failing hfailing hproviders, hbegin, if_pos hlt] at hend
      cases hend
    refine ⟨fun hle => by omega, fun hlast => ?_⟩
    obtain ⟨message, _, ⟨A', ⟨row', now, events', hrow', _, _, rfl⟩, hupdate⟩, _⟩ := hspec
    obtain rfl := Option.some.inj (hrow.symm.trans hrow')
    rw [hupdate, Function.update_self]
    exact ⟨_, rfl, rfl, Nat.succ_injective hlast⟩

/-- The retry budget: without recovery, between a message's creation or last requeue
and its next one, no more passes begin, rounds count and providers are called than
the budget allows; and where every provider fails, each pass ends as its number
says. -/
theorem retry_budget (h : Reaches config Unrecovered Initial w) {l : ServiceLabel}
    (hl : Unrecovered w.abs l) (hstep : (service config).step w l = some w₀)
    (hrenewed : Renewed (aggregate w.store m) (aggregate w₀.store m))
    (hsince : Since config (Unrequeued m) w₀ (v :: past)) :
    let N := config.processor.maxRetryRounds
    let k := config.processor.orderedProviders.length
    let n := occurrences (begins m) (v :: past)
    (∀ row, (aggregate v.store m).message = some row → row.retryRounds ≤ N) ∧
      n ≤ N + 1 ∧ callsOf m v.ext ≤ callsOf m w₀.ext + (N + 1) * k ∧
      (0 < k → Since config (Refusing m) w₀ (v :: past) → ∀ i l v', Unrecovered v.abs l →
        (service config).step v l = some v' → Decides i m v v' →
        (n ≤ N → ∃ row c, (aggregate v'.store m).message = some row ∧
          row.status = .retryScheduled ∧ row.retryRounds = n ∧
          (aggregate v'.store m).outbox = (aggregate v.store m).outbox ++
            [(retryScheduled m
              ((config.processor.backoffBaseMs * 2 ^ (n - 1) : Nat) : ℚ)).row m c]) ∧
        (n = N + 1 → ∃ row, (aggregate v'.store m).message = some row ∧
          row.status = .fatalFailure ∧ row.retryRounds = N)) := by
  intro N k n
  have hw₀ : Reaches config Unrecovered Initial w₀ := Reachable.next l h hl hstep
  obtain ⟨hfull, hnone⟩ := budget_of_renewed h hl hstep hrenewed
  have hbudget : Budget config m (callsOf m w₀.ext) n v.abs := budget_of_since hw₀ hfull hsince
  have hlater : Later config (Unrequeued m) w₀ v := hsince.reachable v List.mem_cons_self
  have hv : Reaches config Unrecovered Initial v := hw₀.later (fun _ _ hl => hl.1) hlater
  obtain ⟨row, hrow, hrounds, hn, _⟩ := hbudget.rounds
  have hbegun : n ≤ N + 1 := by
    rw [hn, passes]
    split <;> omega
  refine ⟨fun row' hrow' => ?_, hbegun, ?_, fun hproviders hrefusing i l v' hl hstep hdecides => ?_⟩
  · obtain rfl := Option.some.inj (hrow.symm.trans hrow')
    exact hrounds
  · exact hbudget.calls.trans (Nat.add_le_add_left (Nat.mul_le_mul_right k hbegun) _)
  · obtain ⟨q, q', hq, hdeciding, hspec⟩ := spec_of_decides hv hl hstep hdecides
    have hrefused : AllRefused config m v.abs :=
      allRefused_of_later hw₀ hnone (hrefusing.reachable v List.mem_cons_self)
    exact decision (exclusive_of_unrecovered hv) hbudget hrefused hproviders hq hdeciding hspec

end Runs

/-- A worker whose only provider refuses the message `m`, up to its decision. -/
def failingPass : List ServiceLabel :=
  .spawn sampleWorker :: statements 1 2 (sampleChoice "" 1) ++ .commit 1 ::
    statements 1 1 (sampleChoice "" 1) ++ statements 1 2 (sampleChoice "a" 2) ++ .commit 1 ::
    statements 1 2 (sampleChoice "" 2) ++
    statements 1 1
      { sampleChoice "" 2 with reply := some ⟨false, none, some "busy", true, none⟩ } ++
    statements 1 2 (sampleChoice "" 3) ++ .commit 1 :: statements 1 4 (sampleChoice "r" 4)

/-- The first pass of a message schedules its first round. -/
theorem retry_budget_first :
    ∃ w w₀ v v' past, Reaches sampleConfig Unrecovered Initial w ∧
      (service sampleConfig).step w (.commit 0) = some w₀ ∧
      Renewed (aggregate w.store "m") (aggregate w₀.store "m") ∧
      Since sampleConfig (Refusing "m") w₀ (v :: past) ∧ occurrences (begins "m") (v :: past) = 1 ∧
      (service sampleConfig).step v (.commit 1) = some v' ∧ Decides 1 "m" v v' ∧
      ∃ row, (aggregate v'.store "m").message = some row ∧ row.status = .retryScheduled ∧
        row.retryRounds = 1 := by
  obtain ⟨w, hw, hl, hwitness⟩ := exists_reaches_of_exec sampleConfig Unrecovered
    (.spawn (.creating (sampleCall "k" 0) false) :: statements 0 4 (sampleChoice "m" 0))
    (fun w => Unrecovered w.abs (.commit 0) ∧
      ((service sampleConfig).step w (.commit 0)).any fun w₀ =>
        Renewed (aggregate w.store "m") (aggregate w₀.store "m") ∧
        (replay (service sampleConfig).step (fun w l => Refusing "m" w.abs l) [w₀] failingPass).any
          fun states => occurrences (begins "m") states = 1 ∧ states.head?.any fun v =>
            Unrecovered v.abs (.commit 1) ∧
            ((service sampleConfig).step v (.commit 1)).any fun v' => Decides 1 "m" v v')
    (by decide +kernel)
  obtain ⟨w₀, hw₀, hrest⟩ := (Option.any_eq_true _ _).mp hwitness
  obtain ⟨hrenewed, hrest⟩ := of_decide_eq_true hrest
  obtain ⟨states, hstates, hrest⟩ := (Option.any_eq_true _ _).mp hrest
  obtain ⟨hcount, hrest⟩ := of_decide_eq_true hrest
  have hrefusing : Since sampleConfig (Refusing "m") w₀ states :=
    run_of_replay (Run.start rfl) hstates
  cases states with
  | nil => simp at hrest
  | cons v past =>
      rw [List.head?_cons, Option.any_some] at hrest
      obtain ⟨hl', hrest⟩ := of_decide_eq_true hrest
      obtain ⟨v', hv', hdecides⟩ := (Option.any_eq_true _ _).mp hrest
      have hdecides := of_decide_eq_true hdecides
      have hsince : Since sampleConfig (Unrequeued "m") w₀ (v :: past) :=
        hrefusing.mono fun _ _ hl => hl.1
      have hlast := ((retry_budget hw hl hw₀ hrenewed hsince).2.2.2 (by decide) hrefusing 1 _ v'
        hl' hv' hdecides).1
      rw [hcount] at hlast
      obtain ⟨row, _, hrow, hstatus, hrounds, _⟩ := hlast (by decide)
      exact ⟨w, w₀, v, v', past, hw, hw₀, hrenewed, hrefusing, hcount, hv', hdecides, row, hrow,
        hstatus, hrounds⟩

end SmsNotification.RetryBudget

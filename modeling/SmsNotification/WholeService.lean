import SmsNotification.HiddenParts
import SmsNotification.NoDuplicateDelivery

/-!
The service with its maintenance workers. What a worker of the maintenance queue does to
the database a sweep or a call could have done, so a run with these workers is, for
everybody else, a run without them.
-/

namespace SmsNotification.WholeService

open SmsNotification.ActorSystem
open SmsNotification.HiddenParts
open SmsNotification.LabelledRuns
open SmsNotification.LifecycleEffects
open SmsNotification.MaintenanceProcessors (recoverNext)
open SmsNotification.NoDuplicateDelivery
open SmsNotification.ReadCommitted
open SmsNotification.Schema
open SmsNotification.Service
open SmsNotification.ServiceEffects
open SmsNotification.ServiceRuns
open SmsNotification.SmsLifecycleRepository
open SmsNotification.Surroundings

/-- The row of the message is one that a sweep with the cutoff takes back. -/
def Stale (cutoff : Int) (m : String) (s : Database) : Prop :=
  ∃ row, smsMessage.find s m = some row ∧ row.status = .processing ∧ row.updatedAt < cutoff

/-- A candidate is taken back only where its row is stale. -/
def staleRecoverySpec (cutoff : Int) (m : String) (s : Database) (r : Except Failure Bool)
    (s' : Database) : Prop :=
  recoverCandidateSpec m s r s' ∧ (r = .ok true → Stale cutoff m s)

theorem takesEffect_staleRecovery {rely : Database → Database → Prop} {s : Database}
    (cutoff : Int) (m : String) :
    TakesEffect Choice.supplied rely (staleRecoverySpec cutoff m) (recoverCandidate cutoff m) s
      [] := by
  refine (takesEffect_recoverCandidate cutoff m).and ?_
  refine Table.takesEffect_updateMany (fun s' _ _ _ => ?_)
    (fun c s' row new _ _ _ _ hguard hnew hid => ?_) fun _ _ => rfl
  · exact takesEffect_done_nil _ fun h => by cases h
  · refine takesEffect_createOwnIntent outbox_under_message (own_message hid)
      fun c' s'' _ hc' => ?_
    refine takesEffect_commit _ (by simp) fun s₃ _ hcurrent _ => ?_
    have hrow := (Table.current_update.mp hcurrent).1
    rw [hid] at hrow
    simp only [Bool.and_eq_true, decide_eq_true_eq] at hguard
    exact ⟨row, hrow, hguard⟩

/-- What the transaction of a maintenance worker may answer and do, but for the purge. -/
def maintainedSpec :
    MaintenanceProcessors.State → Database → Except Failure Control → Database → Prop
  | .selecting task cutoff =>
      Maps (fun candidates => .maintenance (recoverNext task cutoff candidates)) querySpec
  | .recovering task cutoff candidate rest =>
      Maps (fun _ => .maintenance (recoverNext task cutoff rest))
        (staleRecoverySpec cutoff candidate)
  | .expiring task m =>
      Maps (fun _ => .maintenance (.finishing task [.expireAmbiguousOutcome m]))
        (expireAmbiguousOutcomeSpec m)
  | _ => fun _ _ _ => False

/-- What the transaction of a control state may answer and do, with the maintenance
workers and with the staleness of what a sweep takes back. -/
def wholeSpec (config : Config) :
    Control → Database → Except Failure Control → Database → Prop
  | .sweep (.recovering cutoff candidate rest recovered) =>
      Maps (fun didRecover =>
        .sweep (Sweep.next cutoff (recovered + if didRecover then 1 else 0) rest))
        (staleRecoverySpec cutoff candidate)
  | .maintenance state => maintainedSpec state
  | q => controlSpec config q

/-- The control states of the service but for those of retention. -/
def serves : Control → Bool
  | .purging _ _ => false
  | .purged _ => false
  | .purgeFailed => false
  | .maintenance (.idle processor) => processor ≠ .retention
  | .maintenance (.purging _ _) => false
  | _ => true

section Transactions

variable {config : Config} {q q' : Control} {s s' : Database}

theorem maps_mono {α β : Type} {f : α → β}
    {spec spec' : Database → Except Failure α → Database → Prop}
    (hspec : ∀ r, spec s r s' → spec' s r s') {r : Except Failure β} (h : Maps f spec s r s') :
    Maps f spec' s r s' := by
  cases r with
  | error e => exact hspec _ h
  | ok b =>
      obtain ⟨a, rfl, ha⟩ := h
      exact ⟨a, rfl, hspec _ ha⟩

theorem controlSpec_of_wholeSpec {r : Except Failure Control} (h : wholeSpec config q s r s')
    (hq : family q ≠ .maintenance) : controlSpec config q s r s' := by
  cases q with
  | sweep state =>
      cases state
      case recovering => exact maps_mono (fun _ hspec => hspec.1) h
      all_goals exact h
  | maintenance state => exact absurd rfl hq
  | _ => exact h

theorem stepEffect_of_maintainedSpec {state : MaintenanceProcessors.State}
    {r : Except Failure Control} (h : maintainedSpec state s r s') :
    StepEffect (.maintenance state) s s' := by
  cases state with
  | selecting task cutoff =>
      obtain ⟨r', h⟩ := exists_of_maps h
      cases r' with
      | error e => exact h.elim
      | ok candidates => exact stepEffect_of_eq h
  | recovering task cutoff candidate rest =>
      obtain ⟨r', h⟩ := exists_of_maps h
      exact stepEffect_of_recoverCandidate h.1
  | expiring task m =>
      obtain ⟨r', h⟩ := exists_of_maps h
      rcases r' with e | (_ | _)
      · exact h.elim
      · exact stepEffect_of_moved .expired h
      · exact stepEffect_of_eq h.1
  | _ => exact h.elim

theorem stepEffect_of_wholeSpec {r : Except Failure Control} (h : wholeSpec config q s r s') :
    StepEffect q s s' := by
  by_cases hq : family q = .maintenance
  · cases q with
    | maintenance state => exact stepEffect_of_maintainedSpec h
    | _ => simp [family] at hq
  · exact stepEffect_of_controlSpec (controlSpec_of_wholeSpec h hq)

theorem maintained_takesEffect {config : MaintenanceProcessors.Config}
    {state : MaintenanceProcessors.State} {t : Sql Control} {onError : Failure → Control}
    (hq : serves (.maintenance state)) (hcode : maintenanceCode config state = .tx t onError)
    (s : Database) : TakesEffect Choice.supplied Persists (maintainedSpec state) t s [] := by
  cases state with
  | selecting task cutoff =>
      obtain ⟨rfl, _⟩ := Code.tx.inj hcode
      exact (takesEffect_staleCandidates cutoff _).map _
  | recovering task cutoff candidate rest =>
      obtain ⟨rfl, _⟩ := Code.tx.inj hcode
      exact (takesEffect_staleRecovery cutoff candidate).map _
  | expiring task m =>
      obtain ⟨rfl, _⟩ := Code.tx.inj hcode
      exact (takesEffect_expireAmbiguousOutcome m).map _
  | purging task now => simp [serves] at hq
  | _ => simp [maintenanceCode] at hcode

theorem lifecycle_of_serves (h : serves q) (hq : family q ≠ .maintenance) : Lifecycle q := by
  refine ⟨?_, hq⟩
  cases q <;> simp_all [serves, family]

theorem whole_takesEffect {t : Sql Control} {onError : Failure → Control} (hq : serves q)
    (hcode : code config q = .tx t onError) (s : Database) :
    TakesEffect Choice.supplied Persists (wholeSpec config q) t s [] := by
  cases q with
  | sweep state =>
      cases state
      case recovering cutoff candidate rest recovered =>
        obtain ⟨rfl, _⟩ := Code.tx.inj hcode
        exact (takesEffect_staleRecovery cutoff candidate).map _
      all_goals exact control_takesEffect config (lifecycle_of_serves hq (by simp [family])) hcode s
  | maintenance state => exact maintained_takesEffect hq hcode s
  | purging | purged | purgeFailed => simp [serves] at hq
  | _ => exact control_takesEffect config (lifecycle_of_serves hq (by simp [family])) hcode s

theorem maintained_of_ok {state : MaintenanceProcessors.State}
    (h : maintainedSpec state s (.ok q') s') :
    ∃ state', q' = .maintenance state' ∧ serves q' := by
  cases state with
  | selecting task cutoff =>
      obtain ⟨candidates, rfl, _⟩ := h
      exact ⟨_, rfl, by cases candidates <;> rfl⟩
  | recovering task cutoff candidate rest =>
      obtain ⟨_, rfl, _⟩ := h
      exact ⟨_, rfl, by cases rest <;> rfl⟩
  | expiring task m =>
      obtain ⟨_, rfl, _⟩ := h
      exact ⟨_, rfl, rfl⟩
  | _ => exact h.elim

theorem serves_of_family (hq : Lifecycle q) (h : family q' = family q ∨ family q' = .crash) :
    serves q' := by
  have hq' := lifecycle_of_family h hq
  cases q' with
  | purging | purged | purgeFailed => exact absurd rfl hq'.1
  | maintenance => exact absurd rfl hq'.2
  | _ => rfl

theorem serves_of_ok (hq : serves q) (h : wholeSpec config q s (.ok q') s') : serves q' := by
  by_cases hfamily : family q = .maintenance
  · cases q with
    | maintenance state =>
        obtain ⟨_, _, hserves⟩ := maintained_of_ok h
        exact hserves
    | _ => simp [family] at hfamily
  · exact serves_of_family (lifecycle_of_serves hq hfamily)
      (Or.inl (family_of_ok (controlSpec_of_wholeSpec h hfamily)).1)

theorem serves_of_error {t : Sql Control} {onError : Failure → Control} (hq : serves q)
    (hcode : code config q = .tx t onError) (e : Failure) : serves (onError e) := by
  cases q with
  | maintenance state =>
      cases state
      case purging => simp [serves] at hq
      case selecting | recovering | expiring =>
        obtain ⟨_, rfl⟩ := Code.tx.inj hcode
        rfl
      all_goals simp [code, maintenanceCode] at hcode
  | _ =>
      exact serves_of_family (lifecycle_of_serves hq (by simp [family]))
        (Or.inl (family_of_error hcode e).1)

theorem serves_process (config : MaintenanceProcessors.Config) {processor : MaintenanceProcessor}
    (h : processor ≠ .retention) (job : QueueConstants.Job) (now : Int) :
    serves (.maintenance (MaintenanceProcessors.process config processor job now)) := by
  cases processor with
  | retention => exact absurd rfl h
  | processingRecovery =>
      simp only [MaintenanceProcessors.process,
        MaintenanceProcessors.ProcessingRecoveryProcessor.process]
      split <;> rfl
  | ambiguousOutcomeExpiry =>
      simp only [MaintenanceProcessors.process,
        MaintenanceProcessors.AmbiguousOutcomeExpiryProcessor.process]
      split
      · rfl
      · split <;> rfl

theorem serves_of_acts {c : Choice} {o o' : Outside} (hq : serves q)
    (h : Acts config c o q o' q') : serves q' := by
  cases h with
  | tookMaintenance processor _ =>
      exact serves_process config.maintenance (of_decide_eq_true hq) _ _
  | completed | failedMaintenance => rfl
  | _ => rfl

theorem serves_crash (q : Control) : serves (crash q) := by
  cases q <;> rfl

end Transactions

/-- The atomic system is sound for the service with its maintenance workers, but for
retention. -/
theorem sound_whole (config : Config) :
    Sound (service config) (serves ·) Persists (wholeSpec config) where
  refl := persists_refl
  trans _ _ _ h₁ h₂ := h₁.trans h₂
  guarantee _ _ _ _ _ h := persists_of_stepEffect (stepEffect_of_wholeSpec h)
  takesEffect _ _ _ hq hcode s := whole_takesEffect hq hcode s
  live_ok _ _ _ _ _ _ hq _ h := serves_of_ok hq h
  live_error _ _ _ e hq hcode := serves_of_error hq hcode e
  live_act _ _ _ _ _ _ hq hcode hact := serves_of_acts hq (acts_of_code hcode hact)
  live_crashed q _ := serves_crash q

/-- One step of the service with its maintenance workers. -/
abbrev WholeStep (config : Config) : ServiceSnapshot → ServiceLabel → ServiceSnapshot → Prop :=
  Atomic (service config) (wholeSpec config)

end SmsNotification.WholeService

import SmsNotification.ProviderIsolation
import SmsNotification.PurgeTransaction

namespace SmsNotification.MaintenanceJobs

open SmsNotification.ActorSystem
open SmsNotification.KeyedStore
open SmsNotification.LabelledRuns
open SmsNotification.LifecycleEffects
open SmsNotification.MaintenanceProcessors (Task recoverNext)
open SmsNotification.MessageAggregate
open SmsNotification.ProviderIsolation
open SmsNotification.PurgeTransaction
open SmsNotification.QueueConstants
open SmsNotification.ReadCommitted
open SmsNotification.RetentionService
open SmsNotification.Schema
open SmsNotification.Service
open SmsNotification.ServiceEffects
open SmsNotification.ServiceRuns
open SmsNotification.SmsLifecycleRepository
open SmsNotification.SmsStateMachine
open SmsNotification.Surroundings

/-- The processor that is registered for a job, and the service call that the job
stands for. -/
def handles? (job : Job) : Option (MaintenanceProcessor × MaintenanceEffect) :=
  if job.name = retentionCleanupJob then some (.retention, .purgeExpired)
  else if job.name = processingRecoveryJob then some (.processingRecovery, .recoverStaleProcessing)
  else if job.name = ambiguousOutcomeExpiryJob then
    job.messageId.map fun m => (.ambiguousOutcomeExpiry, .expireAmbiguousOutcome m)
  else none

/-- The message waits for the result of a provider. -/
def Parked (s : Database) (m : String) : Prop :=
  (aggregate s m).status = some .awaitingProviderResult

/-- The workers of the maintenance queue, which may be any number of each class. -/
def maintains : Control → Bool
  | .maintenance (.idle _) => true
  | _ => false

section Programs

/-- The row is a message that waits for the result of a provider. -/
def isParked : Row → Bool
  | .message row => row.status = .awaitingProviderResult
  | _ => false

/-- No message begins to wait for the result of a provider. -/
def ParksNothing (s s' : Database) : Prop :=
  ∀ k, (s'.find k).any isParked → (s.find k).any isParked

/-- A write that parks no message. -/
def Unparking (_ : Option Row) (w : Write Row.key) : Prop :=
  w.after.any isParked = false

variable {config : Config} {s s' : Database} {m : String}

theorem parked_iff : Parked s m ↔ (s.find (.message m)).any isParked := by
  have hstatus : (aggregate s m).status = (smsMessage.find s m).map (·.status) := rfl
  rw [Parked, hstatus]
  cases hrow : s.find (smsMessage.keyOf m) with
  | none =>
      rw [Table.find_eq_none_iff.mpr hrow, show s.find (.message m) = none from hrow]
      simp
  | some row =>
      obtain ⟨x, rfl⟩ := smsMessage.exists_wrap row m (Store.key_of_find hrow)
      have hparked : isParked (smsMessage.wrap x) = decide (x.status = .awaitingProviderResult) :=
        rfl
      rw [Table.find_eq_some_iff.mpr hrow, show s.find (.message m) = _ from hrow]
      simp [hparked]

theorem ParksNothing.parked (h : ParksNothing s s') (hparked : Parked s' m) : Parked s m :=
  parked_iff.mpr (h _ (parked_iff.mp hparked))

theorem parksNothing_apply (s : Database) (w : Write Row.key) (h : Unparking (s.find w.target) w) :
    ParksNothing s (s.apply w) := by
  intro k hparked
  rw [Store.find_apply] at hparked
  split at hparked
  · rw [h] at hparked
    simp at hparked
  · exact hparked

theorem takesEffect_parksNothing {α : Type} {t : Sql α} (h : Writes Unparking t)
    {rely : Database → Database → Prop} (s : Database) :
    TakesEffect Choice.supplied rely (fun s _ s' => ParksNothing s s') t s [] :=
  h.takesEffect (fun _ _ hparked => hparked) (fun _ _ _ h₁ h₂ k hparked => h₁ k (h₂ k hparked))
    parksNothing_apply (by simp)

theorem unparking_expireAmbiguousOutcome : Writes Unparking (expireAmbiguousOutcome m) :=
  .bind (Table.writes_updateMany fun _ _ hid _ => ⟨hid, rfl⟩) fun _ => .done _

theorem unparking_recoverCandidate (cutoff : Int) :
    Writes Unparking (recoverCandidate cutoff m) := by
  refine .bind (Table.writes_updateMany fun _ _ hid _ => ⟨hid, rfl⟩) fun updated => ?_
  split
  · exact .done _
  · exact .bind (Table.writes_create fun _ => rfl) fun _ => .done _

end Programs

/-- What a processor goes on with where a call has returned to it. -/
def Returns : Control → Control → Prop
  | .maintenance (.purging task _), q' => q' = .maintenance (.finishing task [.purgeExpired])
  | .maintenance (.selecting task cutoff), q' =>
      ∃ candidates, q' = .maintenance (recoverNext task cutoff candidates)
  | .maintenance (.recovering task cutoff _ rest), q' =>
      q' = .maintenance (recoverNext task cutoff rest)
  | .maintenance (.expiring task m), q' =>
      q' = .maintenance (.finishing task [.expireAmbiguousOutcome m])
  | _, _ => False

/-- What the transactions of the processors do to the messages that wait for the
result of a provider. -/
def maintenanceSpec (q : Control) (s : Database) (r : Except Failure Control) (s' : Database) :
    Prop :=
  ParksNothing s s' ∧ ∀ q', r = .ok q' →
    Returns q q' ∧ ∀ task m, q = .maintenance (.expiring task m) → ¬Parked s' m

section Soundness

variable {config : Config} {q : Control} {t : Sql Control} {onError : Failure → Control}

theorem takesEffect_returns {α : Type} {u : Sql α} {f : α → Control} {s : Database}
    (hwrites : Writes Unparking u) (hreturns : ∀ a, Returns q (f a))
    (hexpiring : ∀ task m, q ≠ .maintenance (.expiring task m)) :
    TakesEffect Choice.supplied (fun _ _ => True) (maintenanceSpec q) (u.map f) s [] := by
  have hanswers : CommitsAs (Returns q) true (u.map f) := .values hreturns
  refine ((takesEffect_parksNothing (hwrites.map f) s).and hanswers.answers).mono ?_
  exact fun s r s' ⟨hparks, hok⟩ =>
    ⟨hparks, fun q' hr => ⟨hok q' hr, fun task m hq => absurd hq (hexpiring task m)⟩⟩

theorem takesEffect_expiring (task : Task) (m : String) (s : Database) :
    TakesEffect Choice.supplied (fun _ _ => True)
      (maintenanceSpec (.maintenance (.expiring task m)))
      ((expireAmbiguousOutcome m).map fun _ =>
        .maintenance (.finishing task [.expireAmbiguousOutcome m])) s [] := by
  refine ((takesEffect_parksNothing (unparking_expireAmbiguousOutcome.map _) s).and
    ((takesEffect_expireAmbiguousOutcome m).map _)).mono fun s r s' ⟨hparks, hmaps⟩ => ?_
  refine ⟨hparks, fun q' hr => ?_⟩
  subst hr
  obtain ⟨result, rfl, hspec⟩ := hmaps
  refine ⟨rfl, fun task' m' hq => ?_⟩
  simp only [Control.maintenance.injEq, MaintenanceProcessors.State.expiring.injEq] at hq
  obtain ⟨_, rfl⟩ := hq
  cases result with
  | expired =>
      obtain ⟨A', hmoved, hupdate⟩ := hspec
      obtain ⟨row, now, events', _, _, _, rfl⟩ := hmoved
      rw [Parked, hupdate, Function.update_self]
      simp [Aggregate.status]
  | notAwaitingProviderResult =>
      intro hparked
      obtain ⟨row, hrow, hstatus⟩ := Option.map_eq_some_iff.mp hparked
      exact hspec.2 row (hspec.1 ▸ hrow) hstatus

theorem takesEffect_maintenance (hq : family q = .maintenance)
    (hcode : code config q = .tx t onError) (s : Database) :
    TakesEffect Choice.supplied (fun _ _ => True) (maintenanceSpec q) t s [] := by
  cases q with
  | maintenance state =>
      cases state with
      | purging task now =>
          obtain ⟨rfl, _⟩ := Code.tx.inj hcode
          exact takesEffect_returns (writes_purgeExpired (fun _ _ => rfl) _ _) (fun _ => rfl)
            (by simp)
      | selecting task cutoff =>
          obtain ⟨rfl, _⟩ := Code.tx.inj hcode
          exact takesEffect_returns (.read _) (fun candidates => ⟨candidates, rfl⟩) (by simp)
      | recovering task cutoff candidate rest =>
          obtain ⟨rfl, _⟩ := Code.tx.inj hcode
          exact takesEffect_returns (unparking_recoverCandidate _) (fun _ => rfl) (by simp)
      | expiring task m =>
          obtain ⟨rfl, _⟩ := Code.tx.inj hcode
          exact takesEffect_expiring task m s
      | _ => simp [code, maintenanceCode] at hcode
  | _ => simp [family] at hq

theorem maintenance_of_returns {q' : Control} (h : Returns q q') : family q' = .maintenance := by
  unfold Returns at h
  split at h
  · rw [h]; rfl
  · obtain ⟨_, rfl⟩ := h
    rfl
  · rw [h]; rfl
  · rw [h]; rfl
  · exact h.elim

theorem sound_maintenance (config : Config) :
    Sound (service config) (family · = .maintenance) (fun _ _ => True) maintenanceSpec where
  refl _ := trivial
  trans _ _ _ _ _ := trivial
  guarantee _ _ _ _ _ _ := trivial
  takesEffect _ _ _ hq hcode s := takesEffect_maintenance hq hcode s
  live_ok _ _ _ _ q' _ _ _ h := maintenance_of_returns (h.2 q' rfl).1
  live_error _ _ _ e hq hcode := (family_of_error hcode e).1.trans hq
  live_act _ _ _ _ _ _ hq hcode hact := (acts_of_code hcode hact).family.1.trans hq
  live_crashed q hq := by cases q <;> first | rfl | simp [family] at hq

end Soundness

/-- The calls that have been made for a job: its own one just where it has gone to its
own processor, and with an expiry its message has been settled. -/
def Settled (s : Database) (job : Job) (processor : MaintenanceProcessor)
    (performed : List MaintenanceEffect) : Prop :=
  ∀ handler effect, handles? job = some (handler, effect) →
    (effect ∈ performed ↔ processor = handler) ∧
      ∀ m, effect = .expireAmbiguousOutcome m → effect ∈ performed → ¬Parked s m

/-- What a processor at a job knows of it. -/
def AtJob (s : Database) : Control → Prop
  | .maintenance (.purging task _) =>
      task.processor = .retention ∧ task.job.name = retentionCleanupJob
  | .maintenance (.selecting task _) =>
      task.processor = .processingRecovery ∧ task.job.name = processingRecoveryJob
  | .maintenance (.recovering task _ _ _) =>
      task.processor = .processingRecovery ∧ task.job.name = processingRecoveryJob
  | .maintenance (.expiring task m) => task.processor = .ambiguousOutcomeExpiry ∧
      task.job.name = ambiguousOutcomeExpiryJob ∧ task.job.messageId = some m
  | .maintenance (.finishing task performed) => Settled s task.job task.processor performed
  | _ => True

/-- The invariant of the maintenance queue. -/
structure Accounted (a : ServiceSnapshot) : Prop where
  workers : ∀ (i : Nat) q, a.controls[i]? = some q → family q = .maintenance
  running : ∀ (i : Nat) q, a.controls[i]? = some q → AtJob a.store q
  completed : ∀ completion ∈ a.ext.completed,
    Settled a.store completion.job completion.processor completion.performed

section Jobs

variable {config : MaintenanceProcessors.Config} {s s' : Database} {job : Job} {q q' : Control}
  {m : String}

theorem handles_retention (h : job.name = retentionCleanupJob) :
    handles? job = some (.retention, .purgeExpired) := by
  rw [handles?, if_pos h]

theorem handles_recovery (h : job.name = processingRecoveryJob) :
    handles? job = some (.processingRecovery, .recoverStaleProcessing) := by
  rw [handles?, h, if_neg (by decide), if_pos rfl]

theorem handles_expiry (h : job.name = ambiguousOutcomeExpiryJob)
    (hm : job.messageId = some m) :
    handles? job = some (.ambiguousOutcomeExpiry, .expireAmbiguousOutcome m) := by
  rw [handles?, h, if_neg (by decide), if_neg (by decide), if_pos rfl, hm]
  rfl

/-- The name of the jobs of a processor. -/
def jobName : MaintenanceProcessor → String
  | .retention => retentionCleanupJob
  | .processingRecovery => processingRecoveryJob
  | .ambiguousOutcomeExpiry => ambiguousOutcomeExpiryJob

theorem name_of_handles {handler : MaintenanceProcessor} {effect : MaintenanceEffect}
    (h : handles? job = some (handler, effect)) : job.name = jobName handler := by
  unfold handles? at h
  split at h
  · obtain ⟨rfl, _⟩ := Prod.mk.inj (Option.some.inj h)
    assumption
  split at h
  · obtain ⟨rfl, _⟩ := Prod.mk.inj (Option.some.inj h)
    assumption
  split at h
  · obtain ⟨_, _, heq⟩ := Option.map_eq_some_iff.mp h
    obtain ⟨rfl, _⟩ := Prod.mk.inj heq
    assumption
  · simp at h

theorem settled_unhandled {processor : MaintenanceProcessor} (h : job.name ≠ jobName processor) :
    Settled s job processor [] := by
  intro handler effect hhandles
  have hne : processor ≠ handler := by
    rintro rfl
    exact h (name_of_handles hhandles)
  exact ⟨by simp [hne], by simp⟩

theorem settled_handled {processor : MaintenanceProcessor} {effect : MaintenanceEffect}
    (h : handles? job = some (processor, effect))
    (hexpiry : ∀ m, effect = .expireAmbiguousOutcome m → ¬Parked s m) :
    Settled s job processor [effect] := by
  intro handler effect' hhandles
  obtain ⟨rfl, rfl⟩ := Prod.mk.inj (Option.some.inj (h.symm.trans hhandles))
  exact ⟨by simp, fun m hm _ => hexpiry m hm⟩

theorem Settled.mono {processor : MaintenanceProcessor} {performed : List MaintenanceEffect}
    (h : Settled s job processor performed) (hparks : ParksNothing s s') :
    Settled s' job processor performed := fun handler effect hhandles =>
  ⟨(h handler effect hhandles).1, fun m hm hmem hparked =>
    (h handler effect hhandles).2 m hm hmem (hparks.parked hparked)⟩

theorem AtJob.mono (h : AtJob s q) (hparks : ParksNothing s s') : AtJob s' q := by
  cases q with
  | maintenance state =>
      cases state with
      | finishing task performed => exact Settled.mono h hparks
      | _ => exact h
  | _ => trivial

theorem atJob_process (processor : MaintenanceProcessor) (job : Job) (now : Int) :
    AtJob s (.maintenance (MaintenanceProcessors.process config processor job now)) := by
  cases processor with
  | retention =>
      simp only [MaintenanceProcessors.process, MaintenanceProcessors.RetentionProcessor.process]
      split
      · rename_i hname
        exact settled_unhandled hname
      · rename_i hname
        exact ⟨rfl, not_not.mp hname⟩
  | processingRecovery =>
      simp only [MaintenanceProcessors.process,
        MaintenanceProcessors.ProcessingRecoveryProcessor.process]
      split
      · rename_i hname
        exact ⟨rfl, hname⟩
      · rename_i hname
        exact settled_unhandled hname
  | ambiguousOutcomeExpiry =>
      simp only [MaintenanceProcessors.process,
        MaintenanceProcessors.AmbiguousOutcomeExpiryProcessor.process]
      split
      · rename_i hname
        exact settled_unhandled hname
      · rename_i hname
        split
        · rename_i m hm
          exact ⟨rfl, not_not.mp hname, hm⟩
        · trivial

theorem atJob_recoverNext {task : Task} {cutoff : Int} (candidates : List String)
    (hprocessor : task.processor = .processingRecovery)
    (hname : task.job.name = processingRecoveryJob) :
    AtJob s (.maintenance (recoverNext task cutoff candidates)) := by
  cases candidates with
  | nil =>
      refine settled_handled ?_ (by simp)
      rw [hprocessor]
      exact handles_recovery hname
  | cons candidate rest => exact ⟨hprocessor, hname⟩

theorem atJob_of_ok (h : AtJob s q) (hspec : maintenanceSpec q s (.ok q') s') : AtJob s' q' := by
  obtain ⟨hreturns, hexpired⟩ := hspec.2 q' rfl
  unfold Returns at hreturns
  split at hreturns
  · obtain rfl := hreturns
    refine settled_handled ?_ (by simp)
    rw [h.1]
    exact handles_retention h.2
  · obtain ⟨candidates, rfl⟩ := hreturns
    exact atJob_recoverNext candidates h.1 h.2
  · obtain rfl := hreturns
    exact atJob_recoverNext _ h.1 h.2
  · obtain rfl := hreturns
    refine settled_handled ?_ fun m hm => ?_
    · rw [h.1]
      exact handles_expiry h.2.1 h.2.2
    · obtain rfl := MaintenanceEffect.expireAmbiguousOutcome.inj hm
      exact hexpired _ _ rfl
  · exact hreturns.elim

end Jobs

section Runs

variable {config : Config} {a a' : ServiceSnapshot} {w : ServiceWorld}

theorem Accounted.set (h : Accounted a) {i : Nat} {q : Control} {s : Database} {x : Outside}
    (hfamily : family q = .maintenance) (hparks : ParksNothing a.store s) (hown : AtJob s q)
    (hcompleted : ∀ completion ∈ x.completed, completion ∈ a.ext.completed ∨
      Settled s completion.job completion.processor completion.performed) :
    Accounted ⟨s, a.controls.set i q, x⟩ := by
  constructor
  · intro j q' hq'
    rcases getElem?_set_eq_some hq' with ⟨_, rfl⟩ | ⟨_, hq'⟩
    · exact hfamily
    · exact h.workers j q' hq'
  · intro j q' hq'
    rcases getElem?_set_eq_some hq' with ⟨_, rfl⟩ | ⟨_, hq'⟩
    · exact hown
    · exact (h.running j q' hq').mono hparks
  · intro completion hmem
    obtain hbefore | hsettled := hcompleted completion hmem
    · exact (h.completed completion hbefore).mono hparks
    · exact hsettled

theorem Accounted.ok (h : Accounted a) {i : Nat} {q q' : Control} {s : Database}
    (hq : a.controls[i]? = some q) (hspec : maintenanceSpec q a.store (.ok q') s) :
    Accounted ⟨s, a.controls.set i q', a.ext⟩ :=
  h.set (maintenance_of_returns (hspec.2 q' rfl).1) hspec.1
    (atJob_of_ok (h.running i q hq) hspec) fun _ => Or.inl

theorem Accounted.error (h : Accounted a) {i : Nat} {q : Control} {t : Sql Control}
    {onError : Failure → Control} {e : Failure} {s : Database} (hq : a.controls[i]? = some q)
    (hcode : code config q = .tx t onError) (hparks : ParksNothing a.store s) :
    Accounted ⟨s, a.controls.set i (onError e), a.ext⟩ := by
  have hfamily := h.workers i q hq
  refine h.set ((family_of_error hcode e).1.trans hfamily) hparks ?_ fun _ => Or.inl
  cases q with
  | maintenance state =>
      cases state
      case purging | selecting | recovering | expiring =>
        obtain ⟨_, rfl⟩ := Code.tx.inj hcode
        trivial
      all_goals simp [code, maintenanceCode] at hcode
  | _ => simp [family] at hfamily

theorem Accounted.act (h : Accounted a) {i : Nat} {q q' : Control} {c : Choice} {x : Outside}
    (hq : a.controls[i]? = some q) (hacts : Acts config c a.ext q x q') :
    Accounted ⟨a.store, a.controls.set i q', x⟩ := by
  have hfamily := h.workers i q hq
  refine h.set (hacts.family.1.trans hfamily) (fun _ hparked => hparked) ?_ ?_
  · cases hacts with
    | tookMaintenance processor _ => exact atJob_process processor _ _
    | completed | failedMaintenance => trivial
    | _ => simp [family] at hfamily
  · cases hacts with
    | tookMaintenance _ htake =>
        obtain ⟨_, _, _, _, _, rfl⟩ := Outside.takeJob_eq_some htake
        exact fun _ => Or.inl
    | completed task performed =>
        intro completion hmem
        rcases List.mem_append.mp hmem with hmem | hmem
        · exact Or.inl hmem
        · rw [List.mem_singleton.mp hmem]
          exact Or.inr (h.running i _ hq)
    | failedMaintenance => exact fun _ => Or.inl
    | _ => simp [family] at hfamily

theorem idle_of_maintains (s : Database) {q : Control} (h : maintains q) :
    family q = .maintenance ∧ AtJob s q := by
  unfold maintains at h
  split at h
  · exact ⟨rfl, trivial⟩
  · simp at h

theorem Accounted.step (h : Accounted a) {l : ServiceLabel} (hl : Spawning (maintains ·) a l)
    (hstep : Atomic (service config) maintenanceSpec a l a') : Accounted a' := by
  cases hstep with
  | spawn q =>
      have hidle := idle_of_maintains a.store (hl q rfl)
      refine ⟨fun i q' hq' => ?_, fun i q' hq' => ?_, h.completed⟩
      · rcases getElem?_concat_eq_some hq' with hq' | rfl
        · exact h.workers i q' hq'
        · exact hidle.1
      · rcases getElem?_concat_eq_some hq' with hq' | rfl
        · exact h.running i q' hq'
        · exact hidle.2
  | answer hq _ hspec => exact h.ok hq hspec
  | error hq hcode hspec => exact h.error hq hcode hspec.1
  | act hq hcode hact => exact h.act hq (acts_of_code hcode hact)
  | commit hq _ hspec => exact h.ok hq hspec
  | lost hq hcode hspec => exact h.error hq hcode hspec.1
  | fault hq hcode => exact h.error hq hcode fun _ hparked => hparked
  | @crash i q hq _ =>
      have hfamily := h.workers i q hq
      have hcrashed : family (crash q) = .maintenance ∧ AtJob a.store (crash q) := by
        cases q <;> first | exact ⟨rfl, trivial⟩ | simp [family] at hfamily
      exact h.set hcrashed.1 (fun _ hparked => hparked) hcrashed.2 fun _ => Or.inl
  | env hmove =>
      refine ⟨h.workers, h.running, fun completion hmem => h.completed completion ?_⟩
      rwa [← Outside.completed_of_move hmove]

/-- No job has been put on the queue; the database is any. -/
structure Unstarted (a : ServiceSnapshot) : Prop where
  controls : a.controls = []
  ext : a.ext = Outside.empty

theorem accounted_of_reaches (h : Reaches config (Spawning (maintains ·)) Unstarted w) :
    Accounted w.abs := by
  have hspawn : ∀ a q, Spawning (maintains ·) a (.spawn q) → family q = .maintenance :=
    fun a q hspawn => (idle_of_maintains a.store (hspawn q rfl)).1
  refine Reachable.invariant (fun a hinit => ?_) (fun a l a' _ haccounted hl hstep => ?_)
    (reachable_abs (sound_maintenance config) hspawn h).2
  · constructor <;> simp [hinit.controls, hinit.ext, Outside.empty]
  · exact haccounted.step hl hstep

/-- Maintenance jobs: whatever jobs are put on the queue and whichever processors they
go to, all that have completed have had their own effect just where each has gone to
the processor that is registered for it. -/
theorem maintenance_jobs_performed (h : Reaches config (Spawning (maintains ·)) Unstarted w) :
    (∀ completion ∈ w.ext.completed, ∀ handler effect,
      handles? completion.job = some (handler, effect) → effect ∈ completion.performed ∧
        ∀ m, effect = .expireAmbiguousOutcome m →
          (aggregate w.store m).status ≠ some .awaitingProviderResult) ↔
    ∀ completion ∈ w.ext.completed, ∀ handler effect,
      handles? completion.job = some (handler, effect) → completion.processor = handler := by
  have haccounted := accounted_of_reaches h
  constructor
  · intro hperformed completion hmem handler effect hhandles
    exact (haccounted.completed completion hmem handler effect hhandles).1.mp
      (hperformed completion hmem handler effect hhandles).1
  · intro hown completion hmem handler effect hhandles
    obtain ⟨hiff, hexpiry⟩ := haccounted.completed completion hmem handler effect hhandles
    have hcalled := hiff.mpr (hown completion hmem handler effect hhandles)
    exact ⟨hcalled, fun m hm => hexpiry m hm hcalled⟩

end Runs

/-- A message `m` that waits for the result of a provider. -/
def parked : Database :=
  holding { sentMessage "m" "twilio" "X" with status := .awaitingProviderResult }

/-- The expiry of `m`. -/
def expiryJob : Job :=
  ⟨.smsMaintenance, "m#e", ambiguousOutcomeExpiryJob, some "m", none⟩

/-- The job is put on the queue and goes to the processor. -/
def handing (processor : MaintenanceProcessor) : List ServiceLabel :=
  .env { sampleChoice "" 0 with move := .schedule expiryJob } ::
    .spawn (.maintenance (.idle processor)) :: statements 0 1 (sampleChoice "" 1)

/-- The retention processor takes the expiry of `m`, which is then complete. -/
theorem expiry_swallowed :
    ∃ w, Reaches sampleConfig (Spawning (maintains ·)) Unstarted w ∧
      ∃ completion ∈ w.ext.completed,
        handles? completion.job = some (.ambiguousOutcomeExpiry, .expireAmbiguousOutcome "m") ∧
        completion.performed = [] ∧
        (aggregate w.store "m").status = some .awaitingProviderResult ∧ w.ext.jobs = [] := by
  obtain ⟨w, hw, hstatus, hjobs, hcompleted⟩ := exists_reaches_on sampleConfig
    (Spawning (maintains ·)) Unstarted parked ⟨rfl, rfl⟩
    (handing .retention ++ statements 0 1 (sampleChoice "" 2))
    (fun w => (aggregate w.store "m").status = some .awaitingProviderResult ∧ w.ext.jobs = [] ∧
      w.ext.completed = [⟨expiryJob, .retention, []⟩])
    (by decide +kernel)
  refine ⟨w, hw, ⟨expiryJob, .retention, []⟩, ?_, rfl, rfl, hstatus, hjobs⟩
  rw [hcompleted]
  exact List.mem_singleton_self _

/-- The processor of the expiries takes the job. -/
theorem expiry_performed :
    ∃ w, Reaches sampleConfig (Spawning (maintains ·)) Unstarted w ∧
      ∃ completion ∈ w.ext.completed,
        .expireAmbiguousOutcome "m" ∈ completion.performed ∧
        (aggregate w.store "m").status ≠ some .awaitingProviderResult := by
  obtain ⟨w, hw, hcompleted⟩ := exists_reaches_on sampleConfig (Spawning (maintains ·)) Unstarted
    parked ⟨rfl, rfl⟩
    (handing .ambiguousOutcomeExpiry ++ statements 0 1 (sampleChoice "" 2) ++
      .commit 0 :: statements 0 1 (sampleChoice "" 3))
    (fun w => w.ext.completed =
      [⟨expiryJob, .ambiguousOutcomeExpiry, [.expireAmbiguousOutcome "m"]⟩])
    (by decide +kernel)
  have hown : ∀ completion ∈ w.ext.completed, ∀ handler effect,
      handles? completion.job = some (handler, effect) → completion.processor = handler := by
    intro completion hmem handler effect hhandles
    rw [hcompleted, List.mem_singleton] at hmem
    subst hmem
    exact (Prod.mk.inj (Option.some.inj hhandles)).1
  have hmem : (⟨expiryJob, .ambiguousOutcomeExpiry, [.expireAmbiguousOutcome "m"]⟩ : Completion) ∈
      w.ext.completed := by
    rw [hcompleted]
    exact List.mem_singleton_self _
  obtain ⟨hcalled, hexpired⟩ := (maintenance_jobs_performed hw).mpr hown _ hmem
    .ambiguousOutcomeExpiry (.expireAmbiguousOutcome "m") rfl
  exact ⟨w, hw, _, hmem, hcalled, hexpired "m" rfl⟩

end SmsNotification.MaintenanceJobs

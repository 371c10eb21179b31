import Mathlib.Data.List.Pairwise
import SmsNotification.ClaimExclusivity
import SmsNotification.StrandedMessages

namespace SmsNotification.JobHandout

open SmsNotification.ActorSystem
open SmsNotification.DispatchClaims
open SmsNotification.LabelledRuns
open SmsNotification.OutboxRelayService
open SmsNotification.QueueConstants
open SmsNotification.ReadCommitted
open SmsNotification.Schema
open SmsNotification.Service
open SmsNotification.ServiceEffects
open SmsNotification.ServiceRuns
open SmsNotification.SmsLifecycleRepository
open SmsNotification.SmsProcessor (Task)
open SmsNotification.StrandedMessages
open SmsNotification.Surroundings

/-- No two jobs of a queue have the same id. -/
def Distinct (o : Outside) : Prop :=
  o.queuedJobs.Pairwise fun job other => sameJob job other = false

/-- The job has been handed out. -/
def Active (o : Outside) (job : Job) : Prop :=
  ∃ queued ∈ o.jobs, queued.job = job ∧ queued.state = .active

section Queues

variable {o o' : Outside} {job other : Job}

theorem sameJob_comm (job other : Job) : sameJob job other = sameJob other job := by
  simp [sameJob, eq_comm]

theorem symm_sameJob :
    Std.Symm fun queued queued' : QueuedJob => sameJob queued.job queued'.job = false :=
  ⟨fun _ _ h => by rwa [sameJob_comm]⟩

theorem Distinct.eq_of_sameJob (h : Distinct o) {queued queued' : QueuedJob}
    (hqueued : queued ∈ o.jobs) (hqueued' : queued' ∈ o.jobs)
    (hsame : sameJob queued.job queued'.job) : queued = queued' := by
  have := symm_sameJob
  by_contra hne
  have hdifferent := (List.pairwise_map.mp h).forall hqueued hqueued' hne
  simp [hsame] at hdifferent

theorem Distinct.addJob (h : Distinct o) (job : Job) : Distinct (o.addJob job) := by
  unfold Distinct
  rw [Outside.queuedJobs_addJob]
  split
  · exact h
  · rename_i hnone
    refine List.pairwise_append.mpr ⟨h, List.pairwise_singleton _ _,
      fun other hother new hnew => ?_⟩
    rw [List.mem_singleton.mp hnew]
    exact Bool.eq_false_iff.mpr fun hsame => hnone (List.any_eq_true.mpr ⟨other, hother, hsame⟩)

theorem Distinct.removeJob (h : Distinct o) (job : Job) : Distinct (o.removeJob job) := by
  have hfilter : (o.removeJob job).queuedJobs =
      o.queuedJobs.filter fun other => !sameJob other job := by
    simp [Outside.queuedJobs, Outside.removeJob, List.filter_map, Function.comp_def]
  unfold Distinct
  rw [hfilter]
  exact h.filter _

theorem Distinct.move (h : Distinct o) {c : Choice} (hmove : o.move c = some o') :
    Distinct o' := by
  obtain hsame | ⟨job, _, rfl⟩ := Outside.queuedJobs_of_move hmove
  · unfold Distinct
    rwa [hsame]
  · exact h.addJob job

theorem Active.addJob (h : Active o job) (other : Job) : Active (o.addJob other) job := by
  obtain ⟨queued, hqueued, hjob⟩ := h
  refine ⟨queued, ?_, hjob⟩
  simp only [Outside.addJob]
  split
  · exact hqueued
  · exact List.mem_append_left _ hqueued

theorem Active.removeJob (h : Active o job) (hother : sameJob job other = false) :
    Active (o.removeJob other) job := by
  obtain ⟨queued, hqueued, rfl, hactive⟩ := h
  exact ⟨queued, List.mem_filter.mpr ⟨hqueued, by simp [hother]⟩, rfl, hactive⟩

theorem Active.move (h : Active o job) {c : Choice} (hmove : o.move c = some o') :
    Active o' job := by
  cases Outside.movesTo_of_move hmove with
  | accepted _ haccept =>
      obtain ⟨started, _, _, rfl⟩ := Outside.acceptCall_eq_some haccept
      exact h
  | promoted jobId =>
      obtain ⟨queued, hqueued, hjob, hactive⟩ := h
      exact ⟨queued, List.mem_map.mpr ⟨queued, hqueued, by simp [hactive]⟩, hjob, hactive⟩
  | ticked ms => exact h
  | scheduled _ => exact h.addJob _

theorem active_of_takeJob (hdistinct : Distinct o) {queue : QueueName} {pick : Nat}
    (h : o.takeJob queue pick = some (o', job)) :
    Active o' job ∧ ∀ other, Active o other → Active o' other ∧ sameJob job other = false := by
  obtain ⟨queued, hqueued, rfl, _, hwaiting, rfl⟩ := Outside.takeJob_eq_some h
  obtain ⟨hlt, _⟩ := List.getElem?_eq_some_iff.mp hqueued
  refine ⟨⟨_, List.mem_set hlt _, rfl, rfl⟩, ?_⟩
  rintro other ⟨active, hmem, rfl, hactive⟩
  have hne : queued ≠ active := by
    rintro rfl
    simp [hactive] at hwaiting
  constructor
  · obtain ⟨j, hj⟩ := List.getElem?_of_mem hmem
    have hpick : pick ≠ j := by
      rintro rfl
      exact hne (Option.some.inj (hqueued.symm.trans hj))
    exact ⟨active, List.mem_of_getElem? ((List.getElem?_set_ne hpick).trans hj), rfl, hactive⟩
  · refine Bool.eq_false_iff.mpr fun hsame => hne ?_
    exact hdistinct.eq_of_sameJob (List.mem_of_getElem? hqueued) hmem hsame

theorem mem_jobs_addJob {queued : QueuedJob} (h : queued ∈ (o.addJob job).jobs) :
    queued ∈ o.jobs ∨ ((o.queuedJobs.any fun other => sameJob other job) = false ∧
      queued.job = job ∧ queued.addedAt = o.clock ∧
        ((job.delay.any fun ms => 0 < ms) → queued.state = .delayed)) := by
  simp only [Outside.addJob] at h
  split at h
  · exact Or.inl h
  · rename_i hnone
    rcases List.mem_append.mp h with h | h
    · exact Or.inl h
    · obtain rfl := List.mem_singleton.mp h
      refine Or.inr ⟨?_, rfl, rfl, fun hdelay => if_pos hdelay⟩
      simpa [Outside.queuedJobs, List.any_map] using hnone

end Queues

/-- The invariant of the handout. -/
structure HandedOut (a : ServiceSnapshot) : Prop where
  distinct : Distinct a.ext
  active : ∀ (i : Nat) q task, a.controls[i]? = some q → task? q = some task → Active a.ext task.job
  single : ∀ (i j : Nat) q q' task task', a.controls[i]? = some q → a.controls[j]? = some q' →
    task? q = some task → task? q' = some task' → sameJob task.job task'.job → i = j

section Preservation

variable {config : Config} {a a' : ServiceSnapshot}

theorem HandedOut.set (h : HandedOut a) {i : Nat} {q q' : Control} {s : Database} {x : Outside}
    (hq : a.controls[i]? = some q) (hdistinct : Distinct x)
    (hown : ∀ task, task? q' = some task → Active x task.job ∧
      (task? q = some task ∨ ∀ other, Active a.ext other → sameJob task.job other = false))
    (hothers : ∀ (j : Nat) q₂ task, i ≠ j → a.controls[j]? = some q₂ → task? q₂ = some task →
      Active x task.job) : HandedOut ⟨s, a.controls.set i q', x⟩ := by
  have hnew : ∀ (j : Nat) q₂ task task₂, i ≠ j → a.controls[j]? = some q₂ → task? q' = some task →
      task? q₂ = some task₂ → sameJob task.job task₂.job = false := by
    intro j q₂ task task₂ hij hq₂ htask htask₂
    obtain hkept | hfresh := (hown task htask).2
    · exact Bool.eq_false_iff.mpr fun hsame =>
        hij (h.single i j q q₂ task task₂ hq hq₂ hkept htask₂ hsame)
    · exact hfresh _ (h.active j q₂ task₂ hq₂ htask₂)
  constructor
  · exact hdistinct
  · intro j q₂ task hq₂ htask
    rcases getElem?_set_eq_some hq₂ with ⟨_, rfl⟩ | ⟨hij, hq₂⟩
    · exact (hown task htask).1
    · exact hothers j q₂ task hij hq₂ htask
  · intro j k q₁ q₂ task₁ task₂ hq₁ hq₂ htask₁ htask₂ hsame
    rcases getElem?_set_eq_some hq₁ with ⟨hj, rfl⟩ | ⟨hj, hq₁⟩ <;>
      rcases getElem?_set_eq_some hq₂ with ⟨hk, hq₂⟩ | ⟨hk, hq₂⟩
    · exact hj.symm.trans hk
    · simp [hnew k q₂ task₁ task₂ hk hq₂ htask₁ htask₂] at hsame
    · rw [sameJob_comm, hnew j q₁ task₂ task₁ hj hq₁ (hq₂ ▸ htask₂) htask₁] at hsame
      simp at hsame
    · exact h.single j k q₁ q₂ task₁ task₂ hq₁ hq₂ htask₁ htask₂ hsame

theorem HandedOut.keep (h : HandedOut a) {i : Nat} {q q' : Control} {s : Database} {x : Outside}
    (hq : a.controls[i]? = some q) (hdistinct : Distinct x)
    (hactive : ∀ job, Active a.ext job → Active x job)
    (htask : ∀ task, task? q' = some task → task? q = some task) :
    HandedOut ⟨s, a.controls.set i q', x⟩ :=
  h.set hq hdistinct
    (fun task htask' =>
      ⟨hactive _ (h.active i q task hq (htask task htask')), Or.inl (htask task htask')⟩)
    fun j q₂ task _ hq₂ htask₂ => hactive _ (h.active j q₂ task hq₂ htask₂)

theorem HandedOut.removed (h : HandedOut a) {i : Nat} {q q' : Control} {task : Task}
    (hq : a.controls[i]? = some q) (htask : task? q = some task) (htask' : task? q' = none) :
    HandedOut ⟨a.store, a.controls.set i q', a.ext.removeJob task.job⟩ := by
  refine h.set hq (h.distinct.removeJob _) (fun _ hsome => by simp [htask'] at hsome)
    fun j q₂ task₂ hij hq₂ htask₂ => (h.active j q₂ task₂ hq₂ htask₂).removeJob ?_
  rw [sameJob_comm]
  exact Bool.eq_false_iff.mpr fun hsame =>
    hij (h.single i j q q₂ task task₂ hq hq₂ htask htask₂ hsame)

theorem HandedOut.act (h : HandedOut a) {i : Nat} {q q' : Control} {c : Choice} {x : Outside}
    (hq : a.controls[i]? = some q) (hlive : Lifecycle q) (hacts : Acts config c a.ext q x q') :
    HandedOut ⟨a.store, a.controls.set i q', x⟩ := by
  have hsame : ∀ {x}, x.jobs = a.ext.jobs → (∀ task, task? q' = some task → task? q = some task) →
      HandedOut ⟨a.store, a.controls.set i q', x⟩ := by
    intro x hjobs htask
    refine h.keep hq ?_ (fun job hactive => ?_) htask
    · simpa only [Distinct, Outside.queuedJobs, hjobs] using h.distinct
    · simpa only [Active, hjobs] using hactive
  cases hacts with
  | @took _ job htake =>
      obtain ⟨hjobs, _⟩ := Outside.queuedJobs_of_takeJob htake
      obtain ⟨hactive, hothers⟩ := active_of_takeJob h.distinct htake
      refine h.set hq (by simpa only [Distinct, hjobs] using h.distinct) (fun task htask => ?_)
        fun j q₂ task _ hq₂ htask₂ => (hothers _ (h.active j q₂ task hq₂ htask₂)).1
      have hjob : task.job = job := by
        unfold SmsProcessor.process at htask
        split at htask <;> exact congrArg Task.job (Option.some.inj htask).symm
      rw [hjob]
      exact ⟨hactive, Or.inr fun other hother => (hothers other hother).2⟩
  | acquired => exact hsame rfl fun _ htask => htask
  | notAcquired => exact hsame rfl fun _ htask => htask
  | started => exact hsame rfl fun _ htask => htask
  | answered hold call hanswer =>
      obtain ⟨started, state, _, _, rfl, _⟩ := Outside.answerCall_eq_some hanswer
      exact hsame rfl fun _ htask => (SmsProcessor.task?_afterSend hold c.reply).symm.trans htask
  | finished task outcome => exact h.removed hq rfl rfl
  | failed task => exact h.removed hq rfl rfl
  | added event queueJob rest =>
      exact h.keep hq (h.distinct.addJob _) (fun job hactive => hactive.addJob _)
        fun _ htask => htask
  | notAdded event queueJob rest ho =>
      rcases ho with rfl | rfl
      · exact hsame rfl fun _ htask => htask
      · exact h.keep hq (h.distinct.addJob _) (fun job hactive => hactive.addJob _)
          fun _ htask => htask
  | _ => exact absurd rfl hlive.2

theorem HandedOut.spawn (h : HandedOut a) {q : Control} (htask : task? q = none) :
    HandedOut { a with controls := a.controls ++ [q] } := by
  have hold : ∀ (i : Nat) q₂ task, (a.controls ++ [q])[i]? = some q₂ → task? q₂ = some task →
      a.controls[i]? = some q₂ := by
    intro i q₂ task hq₂ htask₂
    rcases getElem?_concat_eq_some hq₂ with hq₂ | rfl
    · exact hq₂
    · simp [htask] at htask₂
  constructor
  · exact h.distinct
  · exact fun i q₂ task hq₂ htask₂ => h.active i q₂ task (hold i q₂ task hq₂ htask₂) htask₂
  · exact fun i j q₁ q₂ task₁ task₂ hq₁ hq₂ htask₁ htask₂ =>
      h.single i j q₁ q₂ task₁ task₂ (hold i q₁ task₁ hq₁ htask₁) (hold j q₂ task₂ hq₂ htask₂)
        htask₁ htask₂

theorem HandedOut.step (h : HandedOut a) (hlive : AllLifecycle a) {l : ServiceLabel}
    (hl : Spawning (fun q => task? q = none) a l) (hstep : ServiceStep config a l a') :
    HandedOut a' := by
  have hkeep : ∀ {i : Nat} {q q' : Control} {s : Database}, a.controls[i]? = some q →
      (∀ task, task? q' = some task → task? q = some task) →
      HandedOut ⟨s, a.controls.set i q', a.ext⟩ :=
    fun hq htask => h.keep hq h.distinct (fun _ hactive => hactive) htask
  cases hstep with
  | spawn q => exact h.spawn (hl q rfl)
  | answer hq _ hspec => exact hkeep hq fun _ => task_of_ok hspec
  | error hq hcode _ => exact hkeep hq fun _ => task_of_error hcode
  | act hq hcode hact => exact h.act hq (hlive _ _ hq) (acts_of_code hcode hact)
  | commit hq _ hspec => exact hkeep hq fun _ => task_of_ok hspec
  | lost hq hcode _ => exact hkeep hq fun _ => task_of_error hcode
  | fault hq hcode => exact hkeep hq fun _ => task_of_error hcode
  | crash hq _ => exact hkeep hq fun task htask => by simp [service, task_of_crash] at htask
  | env hmove =>
      exact ⟨h.distinct.move hmove,
        fun i q task hq htask => (h.active i q task hq htask).move hmove,
        h.single⟩

end Preservation

/-- The event, with its job, that is put on its queue in the step. -/
def adding? (a : ServiceSnapshot) : ServiceLabel → Option (UnpublishedOutboxEvent × QueueJob)
  | .run i c =>
      match a.controls[i]? with
      | some (.relay (.adding event queueJob _)) =>
          if (c.served || c.effective) &&
              !(a.ext.queuedJobs.any fun job => sameJob job (queueJob.toJob event.id)) then
            some (event, queueJob)
          else none
      | _ => none
  | _ => none

section Origins

variable {config : Config} {a a' : ServiceSnapshot} {l : ServiceLabel}

theorem isBeginning_nextProvider (config : SmsProcessor.Config) (pass : SmsProcessor.Pass)
    (providers : List String) :
    isBeginning (.dispatch (SmsProcessor.nextProvider config pass providers)) = false := by
  cases providers with
  | nil =>
      simp only [SmsProcessor.nextProvider, SmsProcessor.endOfPass]
      split <;> rfl
  | cons provider rest => rfl

theorem isBeginning_of_ok {q q' : Control} {s s' : Database}
    (h : controlSpec config q s (.ok q') s') : isBeginning q' = false := by
  cases q with
  | dispatch state =>
      cases state with
      | beginning task =>
          obtain ⟨result, rfl, _⟩ := h
          cases result <;> rfl
      | loading task begin =>
          obtain ⟨row, rfl, _⟩ := h
          cases row with
          | none => rfl
          | some row =>
              simp only [SmsProcessor.afterLoad]
              split
              · rfl
              · exact isBeginning_nextProvider _ _ _
      | reserving pass provider rest =>
          obtain ⟨reservation, rfl, _⟩ := h
          cases reservation <;> rfl
      | finalizing hold input =>
          obtain ⟨_, rfl, _⟩ := h
          rcases input with _ | ⟨_ | _, _, _, _⟩
          · rfl
          · exact isBeginning_nextProvider _ _ _
          · rfl
      | markingMissing | schedulingRetry | markingFatal =>
          obtain ⟨_, rfl, _⟩ := h
          rfl
      | _ => exact h.elim
  | _ =>
      have hfamily := (family_of_ok h).1
      cases q' <;> first | rfl | simp [family] at hfamily

theorem isBeginning_of_error {q : Control} {t : Sql Control} {onError : Failure → Control}
    (hcode : code config q = .tx t onError) (e : Failure) : isBeginning (onError e) = false := by
  by_cases hq : family q = .dispatch
  · obtain ⟨_, _, _, _, h | h⟩ := dispatch_of_error hcode e hq <;> rw [h] <;> rfl
  · have hfamily := (family_of_error hcode e).1
    cases h : onError e <;> first | rfl | exact absurd (hfamily.symm.trans (by rw [h]; rfl)) hq

theorem taken_of_step (hstep : ServiceStep config a l a') {i : Nat} {task : Task}
    (h : a'.controls[i]? = some (.dispatch (.beginning task))) :
    l = .spawn (.dispatch (.beginning task)) ∨
      a.controls[i]? = some (.dispatch (.beginning task)) ∨
      ∃ queued ∈ a.ext.jobs, queued.state = .waiting ∧ queued.job = task.job ∧
        queued.job.queue = .smsDispatch ∧ queued.job.messageId = some task.messageId := by
  have htaking : ∀ {c : Choice} {o o' : Outside} {q q' : Control}, Acts config c o q o' q' →
      q' = .dispatch (.beginning task) → ∃ queued ∈ o.jobs, queued.state = .waiting ∧
        queued.job = task.job ∧ queued.job.queue = .smsDispatch ∧
          queued.job.messageId = some task.messageId := by
    intro c o o' q q' hacts hq'
    cases hacts with
    | took htake =>
        obtain ⟨queued, hqueued, rfl, hqueue, hwaiting, _⟩ := Outside.takeJob_eq_some htake
        simp only [SmsProcessor.process, Control.dispatch.injEq] at hq'
        split at hq'
        · rename_i messageId hm
          obtain rfl := SmsProcessor.State.beginning.inj hq'
          exact ⟨queued, List.mem_of_getElem? hqueued, hwaiting, rfl, hqueue, hm⟩
        · simp at hq'
    | answered hold call hanswer =>
        cases hreply : c.reply <;> simp [SmsProcessor.afterSend, hreply] at hq'
    | _ => simp at hq'
  obtain ⟨rfl, _⟩ | ⟨q, hq, hmoves⟩ := moves_of_step hstep h
  · exact Or.inl rfl
  · cases hmoves with
    | stays hsame => exact Or.inr (Or.inl (hsame ▸ hq))
    | went hspec => exact absurd (isBeginning_of_ok hspec) (by simp [isBeginning])
    | failed e hcode heq =>
        exact absurd (heq ▸ isBeginning_of_error hcode e) (by simp [isBeginning])
    | acted c hacts => exact Or.inr (Or.inr (htaking hacts rfl))
    | crashed heq => cases q <;> simp [crash] at heq

theorem jobs_of_adding (config : Config) {event : UnpublishedOutboxEvent} {queueJob : QueueJob}
    {rest : List UnpublishedOutboxEvent} {act : Choice → Outside → Option (Outside × Control)}
    {c : Choice} {o x : Outside} {q' : Control}
    (hcode : code config (.relay (.adding event queueJob rest)) = .ext act)
    (hact : act c o = some (x, q')) :
    x.jobs = if c.served || c.effective then (o.addJob (queueJob.toJob event.id)).jobs
      else o.jobs := by
  obtain rfl := Code.ext.inj hcode
  by_cases hserved : c.served
  · simp only [hserved, if_true] at hact
    obtain ⟨rfl, _⟩ := Prod.mk.inj (Option.some.inj hact)
    simp [hserved, Outside.acknowledgeJob]
  · simp only [hserved] at hact
    obtain ⟨rfl, _⟩ := Prod.mk.inj (Option.some.inj hact)
    by_cases heffective : c.effective <;> simp [hserved, heffective]

theorem mem_jobs_of_acts {c : Choice} {o o' : Outside} {q q' : Control}
    (h : Acts config c o q o' q')
    (hadding : ∀ event queueJob rest, q ≠ .relay (.adding event queueJob rest))
    {queued : QueuedJob} (hqueued : queued ∈ o'.jobs) (hstate : queued.state ≠ .active) :
    queued ∈ o.jobs := by
  have htaken : ∀ {queue pick job}, o.takeJob queue pick = some (o', job) → queued ∈ o.jobs := by
    intro queue pick job htake
    obtain ⟨taken, _, _, _, _, rfl⟩ := Outside.takeJob_eq_some htake
    rcases List.mem_or_eq_of_mem_set hqueued with hmem | rfl
    · exact hmem
    · exact absurd rfl hstate
  cases h with
  | took htake => exact htaken htake
  | tookMaintenance _ htake => exact htaken htake
  | answered _ _ hanswer =>
      obtain ⟨started, state, _, _, rfl, _⟩ := Outside.answerCall_eq_some hanswer
      exact hqueued
  | finished => exact (List.mem_filter.mp hqueued).1
  | failed => exact (List.mem_filter.mp hqueued).1
  | completed => exact (List.mem_filter.mp hqueued).1
  | failedMaintenance => exact (List.mem_filter.mp hqueued).1
  | added => exact absurd rfl (hadding _ _ _)
  | notAdded => exact absurd rfl (hadding _ _ _)
  | _ => exact hqueued

theorem mem_jobs_of_move {c : Choice} {o o' : Outside} (hmove : o.move c = some o')
    {queued : QueuedJob} (hqueued : queued ∈ o'.jobs) (hqueue : queued.job.queue = .smsDispatch) :
    queued ∈ o.jobs ∨ ({ queued with state := .delayed } ∈ o.jobs ∧
      queued.job.delay.all fun ms => (queued.addedAt : ℚ) + ms ≤ o.clock) := by
  cases Outside.movesTo_of_move hmove with
  | accepted _ haccept =>
      obtain ⟨started, _, _, rfl⟩ := Outside.acceptCall_eq_some haccept
      exact Or.inl hqueued
  | promoted jobId =>
      obtain ⟨old, hold, rfl⟩ := List.mem_map.mp hqueued
      split
      · rename_i hdue
        simp only [Bool.and_eq_true, decide_eq_true_eq] at hdue
        obtain ⟨⟨_, hdelayed⟩, hdue⟩ := hdue
        refine Or.inr ⟨?_, hdue⟩
        rwa [← hdelayed]
      · exact Or.inl hold
  | ticked ms => exact Or.inl hqueued
  | scheduled hmaintenance =>
      obtain hmem | ⟨_, hjob, _⟩ := mem_jobs_addJob hqueued
      · exact Or.inl hmem
      · simp [hjob, hmaintenance] at hqueue

theorem queued_of_step (hstep : ServiceStep config a l a') {queued : QueuedJob}
    (hqueued : queued ∈ a'.ext.jobs) (hstate : queued.state ≠ .active)
    (hqueue : queued.job.queue = .smsDispatch) : queued ∈ a.ext.jobs ∨
      ({ queued with state := .delayed } ∈ a.ext.jobs ∧
        queued.job.delay.all fun ms => (queued.addedAt : ℚ) + ms ≤ a.ext.clock) ∨
      ∃ event queueJob, adding? a l = some (event, queueJob) ∧
        queued.job = queueJob.toJob event.id ∧ queued.addedAt = a.ext.clock ∧
          ((queueJob.delay.any fun ms => 0 < ms) → queued.state = .delayed) := by
  cases hstep with
  | act hq hcode hact =>
      rename_i i c q q' x act
      by_cases hadding : ∃ event queueJob rest, q = .relay (.adding event queueJob rest)
      · obtain ⟨event, queueJob, rest, rfl⟩ := hadding
        have hjobs := jobs_of_adding config hcode hact
        by_cases heffect : (c.served || c.effective) = true
        · rw [if_pos heffect] at hjobs
          obtain hmem | ⟨hnone, hjob, hrest⟩ := mem_jobs_addJob (hjobs ▸ hqueued)
          · exact Or.inl hmem
          · refine Or.inr (Or.inr ⟨event, queueJob, ?_, hjob, hrest⟩)
            simp [adding?, hq, heffect, hnone]
        · rw [if_neg heffect] at hjobs
          exact Or.inl (hjobs ▸ hqueued)
      · refine Or.inl (mem_jobs_of_acts (acts_of_code hcode hact)
          (fun event queueJob rest heq => ?_)
          hqueued hstate)
        exact hadding ⟨event, queueJob, rest, heq⟩
  | env hmove =>
      rcases mem_jobs_of_move hmove hqueued hqueue with hmem | hdue
      · exact Or.inl hmem
      · exact Or.inr (Or.inl hdue)
  | _ => exact Or.inl hqueued

theorem set_of_committed (hstep : ServiceStep config a l a') {i : Nat}
    (hl : l = .commit i ∨ l = .lost i) {q : Control} (hq : a.controls[i]? = some q) :
    a'.ext = a.ext ∧ (∃ q', controlSpec config q a.store (.ok q') a'.store) ∧
      ∃ q', isBeginning q' = false ∧ a'.controls = a.controls.set i q' := by
  cases hstep with
  | commit hq' hcode hspec =>
      obtain rfl : _ = i := by simpa using hl
      obtain rfl := Option.some.inj (hq.symm.trans hq')
      exact ⟨rfl, ⟨_, hspec⟩, _, isBeginning_of_ok hspec, rfl⟩
  | lost hq' hcode hspec =>
      obtain rfl : _ = i := by simpa using hl
      obtain rfl := Option.some.inj (hq.symm.trans hq')
      exact ⟨rfl, ⟨_, hspec⟩, _, isBeginning_of_error hcode _, rfl⟩
  | _ => simp at hl

theorem clock_of_step (hstep : ServiceStep config a l a') : a.ext.clock ≤ a'.ext.clock := by
  cases hstep with
  | act _ hcode hact => exact (acts_of_code hcode hact).clock.ge
  | env hmove => exact Outside.clock_of_move hmove
  | _ => exact le_refl _

end Origins

end SmsNotification.JobHandout

import Mathlib.Tactic.Linarith
import SmsNotification.JobHandout
import SmsNotification.PassBudget

namespace SmsNotification.RetryBackoff

open SmsNotification.ActorSystem
open SmsNotification.ClaimExclusivity
open SmsNotification.DispatchClaims
open SmsNotification.JobHandout
open SmsNotification.LabelledRuns
open SmsNotification.LifecycleEffects
open SmsNotification.MessageAggregate
open SmsNotification.NoDuplicateDelivery
open SmsNotification.OutboxConservation
open SmsNotification.OutboxPublication
open SmsNotification.OutboxRelayService
open SmsNotification.PassBudget
open SmsNotification.QueueConstants
open SmsNotification.Schema
open SmsNotification.Service
open SmsNotification.ServiceEffects
open SmsNotification.ServiceRuns
open SmsNotification.SmsLifecycleRepository
open SmsNotification.SmsProcessor (Pass Task)
open SmsNotification.SmsStateMachine
open SmsNotification.StrandedMessages
open SmsNotification.Surroundings

/-- What may be started: the delivering parts, of them workers only without a job. -/
def polls : Control → Bool
  | .dispatch (.beginning _) => false
  | q => delivers q

/-- The step puts the job of an event on its queue that the message does not wait on. -/
def revives (m : String) (a : ServiceSnapshot) (l : ServiceLabel) : Bool :=
  (adding? a l).any fun added => added.2.queue = .smsDispatch && added.1.aggregateId = m &&
    waitsOn? (aggregate a.store m) ≠ some added.1.id

/-- Steps in which no job for the message is added that its event has had before. -/
def Unrevived (m : String) (a : ServiceSnapshot) (l : ServiceLabel) : Prop :=
  Spawning (polls ·) a l ∧ revives m a l = false

instance Unrevived.decidable (m : String) (a : ServiceSnapshot) (l : ServiceLabel) :
    Decidable (Unrevived m a l) :=
  inferInstanceAs (Decidable (_ ∧ _))

theorem delivers_of_polls {q : Control} (h : polls q) :
    delivers q ∧ task? q = none ∧ isBeginning q = false := by
  unfold polls at h
  split at h
  · simp at h
  · rename_i hbeginning
    refine ⟨h, ?_, ?_⟩
    · unfold delivers at h
      split at h <;> first | rfl | exact absurd rfl (hbeginning _) | simp at h
    · unfold isBeginning
      split
      · exact absurd rfl (hbeginning _)
      · rfl

theorem publishes_of_delivers {q : Control} (h : delivers q) : publishes q := by
  unfold delivers at h
  split at h <;> first | rfl | simp at h

section Messages

variable {config : Config} {q q' : Control} {m e : String} {A A' : Aggregate}

theorem status_of_waiting (h : isWaiting A) :
    ∃ row, A.message = some row ∧ isDispatchable row.status := by
  obtain ⟨status, hstatus, hdispatchable⟩ := (Option.any_eq_true _ _).mp h
  obtain ⟨row, hrow, rfl⟩ := Option.map_eq_some_iff.mp hstatus
  exact ⟨row, hrow, hdispatchable⟩

theorem waits_of_passStep (h : PassStep config m q q' A A') (hkeyed : A.Keyed)
    (he : waitsOn? A = some e) :
    waitsOn? A' = some e ∨ ∃ task, q = .dispatch (.beginning task) ∧ task.messageId = m := by
  obtain ⟨hwaiting, hlast⟩ := waitsOn?_eq_some.mp he
  obtain ⟨row, hrow, hstatus⟩ := status_of_waiting hwaiting
  -- of the changes only a claim starts from a message that waits
  have hsource : ∀ {source : SmsStatus → Bool} {target : SmsStatus}
      {data : SmsMessage → SmsMessage} {intent : Option OutboxIntent},
      Moved m source target data intent A A' → source row.status := by
    rintro source target data intent ⟨row', now, events', hrow', hguard, _, _⟩
    obtain rfl := Option.some.inj (hrow.symm.trans hrow')
    exact hguard
  have hinvalid : ∀ target, isValidTransition row.status target → target = .processing := by
    intro target htarget
    cases hcase : row.status <;> cases target <;>
      simp_all [isDispatchable, isValidTransition, transitionTable]
  cases h with
  | created call hcreated =>
      obtain ⟨c, events', hnone, _⟩ := hcreated
      simp [hrow] at hnone
  | begun task _ hq _ hm _ _ => exact Or.inr ⟨task, hq, hm⟩
  | recovered _ hmoved => simp [of_decide_eq_true (hsource hmoved), isDispatchable] at hstatus
  | requeued _ hrequeued =>
      simp [of_decide_eq_true (hsource hrequeued), isDispatchable] at hstatus
  | retried pass opts _ _ _ hmoved =>
      have hguard := hsource hmoved
      simpa using hinvalid _ hguard
  | died lastError _ _ hmoved =>
      have hguard := hsource hmoved
      simpa using hinvalid _ hguard
  | reserved pass provider attemptId rest _ _ hreserved =>
      obtain ⟨row', now, c, hrow', hprocessing, _, _⟩ := hreserved
      obtain rfl := Option.some.inj (hrow.symm.trans hrow')
      simp [hprocessing, isDispatchable] at hstatus
  | finalized hold input _ _ hfinal =>
      obtain ⟨old, _, _, _, hrest⟩ := hfinal
      have hnot : ∀ {row'}, A.message = some row' → row'.status ≠ .awaitingProviderResult := by
        intro row' hrow' hawaiting
        obtain rfl := Option.some.inj (hrow.symm.trans hrow')
        simp [hawaiting, isDispatchable] at hstatus
      rcases input with providerMessageId | ⟨_ | _, isRetryable, errorMessage, delayMs⟩
      · obtain ⟨row', now, hrow', hawaiting, _⟩ := hrest
        exact absurd hawaiting (hnot hrow')
      · obtain ⟨row', now, hrow', hawaiting, _⟩ := hrest
        exact absurd hawaiting (hnot hrow')
      · obtain ⟨delay, events', _, ⟨c, _, _, hevents⟩, rfl⟩ := hrest
        refine Or.inl (waitsOn?_eq_some.mpr ⟨hwaiting, ?_⟩)
        simp only [hevents, dispatchIds_append]
        rwa [if_neg (by simp [isDispatchEvent, OutboxIntent.row, ambiguousOutcomeExpiryScheduled]),
          List.append_nil]
  | settled _ hsettles =>
      obtain ⟨row', _, hrow', hclaimed, _⟩ := hsettles
      obtain rfl := Option.some.inj (hrow.symm.trans hrow')
      cases hcase : row.status <;> simp_all [isDispatchable, isClaimed]
  | relayed hrelayed =>
      have hids := dispatchIds_of_relayed hkeyed hrelayed
      obtain ⟨event, _, data, c, _, rfl⟩ := hrelayed
      exact Or.inl (waitsOn?_eq_some.mpr ⟨hwaiting, by rwa [hids]⟩)

end Messages

/-- The job is the one for the event that the message waits on. -/
def Asks (s : Database) (m : String) (job : Job) : Prop :=
  ∃ e, waitsOn? (aggregate s m) = some e ∧ job.queue = .smsDispatch ∧ job.jobId = jobIdFor m e

/-- The invariant of a message whose jobs are not revived: what it can be begun with
is the job for the event that it waits on. -/
structure Requested (m : String) (a : ServiceSnapshot) : Prop where
  queued : ∀ queued ∈ a.ext.jobs, queued.state ≠ .active → queued.job.queue = .smsDispatch →
    queued.job.messageId = some m → Asks a.store m queued.job
  taken : ∀ (i : Nat) task, a.controls[i]? = some (.dispatch (.beginning task)) →
    task.messageId = m → Asks a.store m task.job

/-- The calls that run are those that may be started. -/
def Calling (a : ServiceSnapshot) : Prop :=
  ∀ (i : Nat) q, a.controls[i]? = some q → isCall q → delivers q

section Preservation

variable {config : Config} {m e : String} {a a' : ServiceSnapshot} {l : ServiceLabel}

theorem sameJob_of_asks {s : Database} {job other : Job} (h : Asks s m job)
    (hother : Asks s m other) : sameJob job other := by
  obtain ⟨e, he, hqueue, hjobId⟩ := h
  obtain ⟨e', he', hqueue', hjobId'⟩ := hother
  obtain rfl := Option.some.inj (he.symm.trans he')
  simp [sameJob, hqueue, hqueue', hjobId, hjobId']

theorem Calling.step (h : Calling a) (hl : Spawning (delivers ·) a l)
    (hstep : ServiceStep config a l a') : Calling a' := by
  intro i q' hq' hcall
  obtain ⟨rfl, _⟩ | ⟨q, hq, hmoves⟩ := moves_of_step hstep hq'
  · exact hl q' rfl
  · cases hmoves with
    | stays hsame => exact h i q' (hsame ▸ hq) hcall
    | went hspec => simp [(family_of_ok hspec).2] at hcall
    | failed e hcode heq => simp [heq, (family_of_error hcode e).2] at hcall
    | acted c hacts => simp [hacts.family.2] at hcall
    | crashed heq => simp [heq, (family_crash q).2] at hcall

theorem asks_of_adding (hpublished : Published a) (hl : revives m a l = false)
    {event : UnpublishedOutboxEvent} {queueJob : QueueJob}
    (hadding : adding? a l = some (event, queueJob)) (hqueue : queueJob.queue = .smsDispatch)
    (hm : (queueJob.toJob event.id).messageId = some m) :
    waitsOn? (aggregate a.store m) = some event.id ∧
      (queueJob.toJob event.id).jobId = jobIdFor m event.id ∧ Fetched a.store event ∧
        queueJobFor event = .ok queueJob := by
  have hrevives := hl
  rw [revives, hadding] at hrevives
  unfold adding? at hadding
  split at hadding
  · split at hadding
    · rename_i i c _ event' queueJob' rest hq
      split at hadding
      · obtain ⟨rfl, rfl⟩ := Prod.mk.inj (Option.some.inj hadding)
        obtain ⟨hfetched, _, hjobId, hmessage⟩ := hpublished.adding hq
        obtain rfl := Option.some.inj (hmessage.symm.trans hm)
        refine ⟨?_, hjobId, hfetched _ List.mem_cons_self, (hpublished.batches i _ _ hq rfl).1⟩
        simpa [hqueue] using hrevives
      · simp at hadding
    · simp at hadding
  · simp at hadding

theorem Requested.asks (h : Requested m a) (hpublished : Published a) (hl : Unrevived m a l)
    (hstep : ServiceStep config a l a') :
    (∀ queued ∈ a'.ext.jobs, queued.state ≠ .active → queued.job.queue = .smsDispatch →
      queued.job.messageId = some m → Asks a.store m queued.job) ∧
    ∀ (i : Nat) task, a'.controls[i]? = some (.dispatch (.beginning task)) →
      task.messageId = m → Asks a.store m task.job := by
  constructor
  · intro queued hqueued hstate hqueue hm
    obtain hmem | ⟨hmem, _⟩ | ⟨event, queueJob, hadding, hjob, _⟩ :=
      queued_of_step hstep hqueued hstate hqueue
    · exact h.queued queued hmem hstate hqueue hm
    · have hasks := h.queued _ hmem (fun hactive => by cases hactive) hqueue hm
      exact hasks
    · rw [hjob] at hqueue hm ⊢
      obtain ⟨hwaits, hjobId, _⟩ := asks_of_adding hpublished hl.2 hadding hqueue hm
      exact ⟨event.id, hwaits, hqueue, hjobId⟩
  · intro i task htask hm
    obtain rfl | hbefore | ⟨queued, hmem, hwaiting, hjob, hqueue, hmessage⟩ :=
      taken_of_step hstep htask
    · have hspawned := (delivers_of_polls (hl.1 _ rfl)).2.2
      simp [isBeginning] at hspawned
    · exact h.taken i task hbefore hm
    · exact hjob ▸ h.queued queued hmem (by simp [hwaiting]) hqueue (hm ▸ hmessage)

theorem Requested.spent (h : Requested m a) (hhanded : HandedOut a) {i : Nat} {task : Task}
    (hq : a.controls[i]? = some (.dispatch (.beginning task))) (hm : task.messageId = m)
    (hstep : ServiceStep config a l a') (hl : l = .commit i ∨ l = .lost i) : Requested m a' := by
  obtain ⟨hext, _, q', hbeginning, hcontrols⟩ := set_of_committed hstep hl hq
  have hasks := h.taken i task hq hm
  constructor
  · intro queued hqueued hstate hqueue hmessage
    rw [hext] at hqueued
    obtain ⟨active, hactive, hjob, hactivated⟩ := hhanded.active i _ task hq rfl
    have hsame := sameJob_of_asks (h.queued queued hqueued hstate hqueue hmessage) hasks
    rw [← hjob] at hsame
    obtain rfl := hhanded.distinct.eq_of_sameJob hqueued hactive hsame
    exact absurd hactivated hstate
  · intro j task' hq' hm'
    rw [hcontrols] at hq'
    rcases getElem?_set_eq_some hq' with ⟨_, rfl⟩ | ⟨hij, hq'⟩
    · simp [isBeginning] at hbeginning
    · exact absurd (hhanded.single i j _ _ task task' hq hq' rfl rfl
        (sameJob_of_asks hasks (h.taken j task' hq' hm'))) hij

theorem Requested.step (h : Requested m a) (hhanded : HandedOut a) (hpublished : Published a)
    (hcalling : Calling a) (hl : Unrevived m a l) (hstep : ServiceStep config a l a') :
    Requested m a' := by
  obtain ⟨hqueued, htaken⟩ := h.asks hpublished hl hstep
  have hkeep : (∀ job, Asks a.store m job → Asks a'.store m job) → Requested m a' := fun hasks =>
    ⟨fun queued hmem hstate hqueue hm => hasks _ (hqueued queued hmem hstate hqueue hm),
      fun i task hq hm => hasks _ (htaken i task hq hm)⟩
  obtain hsame | ⟨i, q, q', hq, hlabel, hspec⟩ := hstep.store
  · exact hkeep fun job hasks => by rwa [hsame]
  obtain hsame | hpass := passStep_of_message (hcalling i q hq) hspec m
  · exact hkeep fun job hasks => by rwa [Asks, hsame]
  by_cases hbegun : ∃ task, q = .dispatch (.beginning task) ∧ task.messageId = m
  · obtain ⟨task, rfl, hm⟩ := hbegun
    exact h.spent hhanded hq hm hstep hlabel
  · refine hkeep fun job ⟨e, he, hjob⟩ => ⟨e, ?_, hjob⟩
    exact (waits_of_passStep hpass (keyed _ _) he).resolve_right hbegun

end Preservation

/-- The invariant of a retry that is to wait `d` from the time `t` on: until then its
message waits on the event of the retry, and no worker can take a job for it. -/
structure Deferred (m e : String) (t : Int) (d : ℚ) (a : ServiceSnapshot) : Prop where
  since : t ≤ a.ext.clock
  event : ∃ row, outboxEvent.find a.store e = some row ∧ row.eventType = "SMS_RETRY_SCHEDULED" ∧
    row.payload = delayedPayload m d
  waits : (a.ext.clock : ℚ) < t + d → waitsOn? (aggregate a.store m) = some e
  queued : (a.ext.clock : ℚ) < t + d → ∀ queued ∈ a.ext.jobs, queued.state ≠ .active →
    queued.job.queue = .smsDispatch → queued.job.messageId = some m →
      queued.state = .delayed ∧ t ≤ queued.addedAt ∧ queued.job.delay = some d
  taken : (a.ext.clock : ℚ) < t + d → ∀ (i : Nat) task,
    a.controls[i]? = some (.dispatch (.beginning task)) → task.messageId ≠ m

section Delays

variable {config : Config} {m e : String} {t : Int} {d : ℚ} {a a' : ServiceSnapshot}
  {l : ServiceLabel}

theorem readDispatchPayload_delayed (m aggregateId : String) (d : ℚ) :
    readDispatchPayload (delayedPayload m d) aggregateId =
      if isDelay d then .ok (m, some d)
      else .error ("Outbox event " ++ aggregateId ++ " has an invalid delayMs") :=
  rfl

theorem delay_of_delayed {event : UnpublishedOutboxEvent} {queueJob : QueueJob}
    (h : queueJobFor event = .ok queueJob)
    (htype : event.eventType = "SMS_RETRY_SCHEDULED" ∨
      event.eventType = "SMS_AMBIGUOUS_OUTCOME_EXPIRY_SCHEDULED")
    (hpayload : event.payload = delayedPayload m d) : queueJob.delay = some d := by
  rw [queueJobFor, hpayload, readDispatchPayload_delayed] at h
  by_cases hdelay : isDelay d
  · rw [if_pos hdelay] at h
    rcases htype with htype | htype <;> simp [htype] at h <;> rw [← h]
  · rw [if_neg hdelay] at h
    cases h

/-- A job that a worker can take in time is not there before its time. -/
theorem Deferred.step (h : Deferred m e t d a) (hpublished : Published a) (hcalling : Calling a)
    (hl : Unrevived m a l) (hstep : ServiceStep config a l a') : Deferred m e t d a' := by
  have hclock := clock_of_step hstep
  have hearly : (a'.ext.clock : ℚ) < t + d → (a.ext.clock : ℚ) < t + d := fun hbefore =>
    lt_of_le_of_lt (by exact_mod_cast hclock) hbefore
  constructor
  · exact h.since.trans hclock
  · obtain ⟨row, hrow, htype, hpayload⟩ := h.event
    obtain hsame | ⟨i, q, q', hq, _, hspec⟩ := hstep.store
    · exact ⟨row, hsame ▸ hrow, htype, hpayload⟩
    · obtain ⟨row', hrow', _, _, htype', hpayload'⟩ :=
        find_outbox_of_stepEffect (stepEffect_of_controlSpec hspec) hrow
      exact ⟨row', hrow', htype'.trans htype, hpayload'.trans hpayload⟩
  · intro hbefore
    have hwaits := h.waits (hearly hbefore)
    obtain hsame | ⟨i, q, q', hq, _, hspec⟩ := hstep.store
    · rwa [hsame]
    obtain hsame | hpass := passStep_of_message (hcalling i q hq) hspec m
    · rwa [hsame]
    · refine (waits_of_passStep hpass (keyed _ _) hwaits).resolve_right ?_
      rintro ⟨task, rfl, hm⟩
      exact h.taken (hearly hbefore) i task hq hm
  · intro hbefore queued hmem hstate hqueue hm
    have hqueued := h.queued (hearly hbefore)
    obtain hmem | ⟨hmem, hdue⟩ | ⟨event, queueJob, hadding, hjob, hadded, hdelayed⟩ :=
      queued_of_step hstep hmem hstate hqueue
    · exact hqueued queued hmem hstate hqueue hm
    · -- a job whose time has come is due after the backoff
      obtain ⟨_, hsince, hdelay⟩ := hqueued _ hmem (fun hactive => by cases hactive) hqueue hm
      have hdelay' : queued.job.delay = some d := hdelay
      rw [hdelay', Option.all_some, decide_eq_true_eq] at hdue
      have hsince' : (t : ℚ) ≤ queued.addedAt := by exact_mod_cast hsince
      have hlate := hearly hbefore
      linarith
    · rw [hjob] at hqueue hm
      obtain ⟨hwaits, _, ⟨row', hrow', _, htype', hpayload'⟩, hqueueJob⟩ :=
        asks_of_adding hpublished hl.2 hadding hqueue hm
      obtain ⟨row, hrow, htype, hpayload⟩ := h.event
      obtain rfl := Option.some.inj (hwaits.symm.trans (h.waits (hearly hbefore)))
      obtain rfl := Option.some.inj (hrow.symm.trans hrow')
      have hdelay := delay_of_delayed hqueueJob (Or.inl (htype'.trans htype))
        (hpayload'.trans hpayload)
      have hsince : (t : ℚ) ≤ a.ext.clock := by exact_mod_cast h.since
      have hpositive : 0 < d := by
        have hlate := hearly hbefore
        linarith
      refine ⟨hdelayed ?_, hadded ▸ h.since, by rw [hjob]; exact hdelay⟩
      rw [hdelay, Option.any_some, decide_eq_true_eq]
      exact hpositive
  · intro hbefore i task htask hm
    obtain rfl | htaken | ⟨queued, hmem, hwaiting, hjob, hqueue, hmessage⟩ :=
      taken_of_step hstep htask
    · have hspawned := (delivers_of_polls (hl.1 _ rfl)).2.2
      simp [isBeginning] at hspawned
    · exact h.taken (hearly hbefore) i task htaken hm
    · obtain ⟨hdelayed, _⟩ := h.queued (hearly hbefore) queued hmem (by simp [hwaiting]) hqueue
        (hm ▸ hmessage)
      simp [hwaiting] at hdelayed

theorem deferred_of_scheduled {pass : Pass} {opts : ScheduleRetryOptions}
    (hrequested : Requested pass.task.messageId a) {i : Nat}
    (hq : a.controls[i]? = some (.dispatch (.schedulingRetry pass opts)))
    (hl : l = .commit i ∨ l = .lost i) (hstep : ServiceStep config a l a') :
    ∃ e, Deferred pass.task.messageId e a.ext.clock opts.delayMs a' := by
  obtain ⟨hext, ⟨q', hspec⟩, q'', hbeginning, hcontrols⟩ := set_of_committed hstep hl hq
  obtain ⟨message, _, ⟨A', ⟨row, now, events', hrow, hguard, hintended, rfl⟩, hupdate⟩, _⟩ := hspec
  obtain ⟨c, _, _, rfl⟩ := hintended
  -- nothing waits for a message that is at its pass
  have hnone : ∀ job, ¬Asks a.store pass.task.messageId job := by
    rintro job ⟨e, he, _⟩
    obtain ⟨row', hrow', hstatus⟩ := status_of_waiting (waitsOn?_eq_some.mp he).1
    obtain rfl := Option.some.inj (hrow.symm.trans hrow')
    cases hcase : row.status <;>
      simp_all [isDispatchable, isValidTransition, transitionTable]
  have hafter := congrFun hupdate pass.task.messageId
  rw [Function.update_self] at hafter
  refine ⟨c.uuid, le_of_eq (congrArg Outside.clock hext).symm, ?_, fun _ => ?_,
    fun _ queued hmem hstate hqueue hm => ?_, fun _ j task htask hm => ?_⟩
  · have hmem : (retryScheduled pass.task.messageId opts.delayMs).row pass.task.messageId c ∈
        (aggregate a'.store pass.task.messageId).outbox := by
      rw [hafter]
      exact List.mem_append_right _ List.mem_cons_self
    exact ⟨_, (mem_outbox_iff.mp hmem).1, rfl, rfl⟩
  · have hdispatch : isDispatchEvent ((retryScheduled pass.task.messageId opts.delayMs).row
        pass.task.messageId c).eventType := rfl
    rw [hafter]
    refine waitsOn?_eq_some.mpr ⟨rfl, ?_⟩
    rw [dispatchIds_append, if_pos hdispatch, List.getLast?_concat]
    rfl
  · rw [hext] at hmem
    exact absurd (hrequested.queued queued hmem hstate hqueue hm) (hnone _)
  · rw [hcontrols] at htask
    rcases getElem?_set_eq_some htask with ⟨_, rfl⟩ | ⟨_, htask⟩
    · simp [isBeginning] at hbeginning
    · exact hnone _ (hrequested.taken j task htask hm)

theorem Deferred.not_starts (h : Deferred m e t d a) (hcalling : Calling a)
    (hbefore : (a.ext.clock : ℚ) < t + d) (hstep : ServiceStep config a l a') :
    starts (aggregate a.store m) (aggregate a'.store m) = false := by
  suffices waitsOn? (aggregate a'.store m) = some e by
    obtain ⟨row, hrow, hstatus⟩ := status_of_waiting (waitsOn?_eq_some.mp this).1
    simp only [starts, Aggregate.status, hrow, Option.map_some, Bool.and_eq_false_iff]
    exact Or.inr (by cases hcase : row.status <;> simp_all [isDispatchable])
  obtain hsame | ⟨i, q, q', hq, _, hspec⟩ := hstep.store
  · exact hsame ▸ h.waits hbefore
  obtain hsame | hpass := passStep_of_message (hcalling i q hq) hspec m
  · exact hsame ▸ h.waits hbefore
  · refine (waits_of_passStep hpass (keyed _ _) (h.waits hbefore)).resolve_right ?_
    rintro ⟨task, rfl, hm⟩
    exact h.taken hbefore i task hq hm

end Delays

/-- The message and the delay of the retry that a worker schedules next. -/
def scheduling? : Control → Option (String × ℚ)
  | .dispatch (.schedulingRetry pass opts) => some (pass.task.messageId, opts.delayMs)
  | _ => none

/-- The worker's `scheduleRetry` of the message commits in the step. -/
def Schedules (config : Config) (i : Nat) (m : String) (d : ℚ) (w w' : ServiceWorld) : Prop :=
  w.abs.controls[i]?.bind scheduling? = some (m, d) ∧
    ((service config).step w (.commit i) = some w' ∨ (service config).step w (.lost i) = some w')

section Runs

variable {config : Config} {m e : String} {t : Int} {d : ℚ} {w w₀ v v' : ServiceWorld}

theorem spawning_of_unrevived {a : ServiceSnapshot} {l : ServiceLabel} (h : Unrevived m a l) :
    Spawning (delivers ·) a l :=
  fun q hq => (delivers_of_polls (h.1 q hq)).1

theorem lifecycle_of_unrevived (a : ServiceSnapshot) (q : Control) (h : Unrevived m a (.spawn q)) :
    Lifecycle q :=
  (holds_nothing_of_delivers (spawning_of_unrevived h q rfl)).1

theorem published_of_unrevived {a : ServiceSnapshot}
    (h : Reachable (ServiceStep config) (Unrevived m) Initial a) : Published a :=
  published_of_reachable
    (h.mono fun _ _ hl q hq => publishes_of_delivers (spawning_of_unrevived hl q hq))

theorem calling_of_unrevived {a : ServiceSnapshot}
    (h : Reachable (ServiceStep config) (Unrevived m) Initial a) : Calling a := by
  refine Reachable.invariant (fun a hinit => ?_) (fun a l a' _ hcalling hl hstep => ?_) h
  · simp [Calling, hinit.controls]
  · exact hcalling.step (spawning_of_unrevived hl) hstep

theorem handedOut_of_unrevived {a : ServiceSnapshot}
    (h : Reachable (ServiceStep config) (Unrevived m) Initial a) : HandedOut a := by
  refine Reachable.invariant (fun a hinit => ?_) (fun a l a' hreach hhanded hl hstep => ?_) h
  · constructor <;>
      simp [hinit.controls, hinit.ext, Distinct, Outside.empty, Outside.queuedJobs]
  · exact hhanded.step
      (lifecycle_of_reachable lifecycle_of_unrevived (fun _ hinit => hinit.controls) hreach)
      (fun q hq => (delivers_of_polls (hl.1 q hq)).2.1) hstep

theorem requested_of_unrevived {a : ServiceSnapshot}
    (h : Reachable (ServiceStep config) (Unrevived m) Initial a) : Requested m a := by
  refine Reachable.invariant (fun a hinit => ?_) (fun a l a' hreach hrequested hl hstep => ?_) h
  · constructor <;> simp [hinit.controls, hinit.ext, Outside.empty]
  · exact hrequested.step (handedOut_of_unrevived hreach) (published_of_unrevived hreach)
      (calling_of_unrevived hreach) hl hstep

theorem deferred_of_later (h : Reaches config (Unrevived m) Initial w₀)
    (hdeferred : Deferred m e t d w₀.abs) (hlater : Later config (Unrevived m) w₀ v) :
    Deferred m e t d v.abs := by
  induction hlater with
  | start h0 => exact h0 ▸ hdeferred
  | next l hprev hl hstep ih =>
      have hu := h.later (fun _ _ hl => hl) hprev
      have hreach := (hu.atomic lifecycle_of_unrevived).2
      obtain hsame | hatomic := serviceStep_of_step lifecycle_of_unrevived hu hl hstep
      · exact hsame ▸ ih
      · exact ih.step (published_of_unrevived hreach) (calling_of_unrevived hreach) hl hatomic

/-- Backoff: where the relay puts no job of the message on the queue again that its
event has had before, a message that is rescheduled with a delay is not begun before
the delay is over. -/
theorem backoff_respected {i : Nat} (h : Reaches config (Unrevived m) Initial w)
    (hschedules : Schedules config i m d w w₀) (hlater : Later config (Unrevived m) w₀ v)
    {l : ServiceLabel} (hl : Unrevived m v.abs l) (hstep : (service config).step v l = some v')
    (hbegins : begins m v v') : (w.ext.clock : ℚ) + d ≤ v.ext.clock := by
  obtain ⟨q, hq, hscheduling⟩ := Option.bind_eq_some_iff.mp hschedules.1
  obtain ⟨l₀, hlabel, hstep₀⟩ : ∃ l₀, (l₀ = .commit i ∨ l₀ = .lost i) ∧
      (service config).step w l₀ = some w₀ := by
    rcases hschedules.2 with hcommit | hlost
    · exact ⟨_, Or.inl rfl, hcommit⟩
    · exact ⟨_, Or.inr rfl, hlost⟩
  obtain ⟨hconsistent, hreach⟩ := h.atomic lifecycle_of_unrevived
  have hatomic₀ := atomic_of_commit hconsistent hlabel hstep₀
  unfold scheduling? at hscheduling
  split at hscheduling
  · rename_i pass opts
    obtain ⟨rfl, rfl⟩ := Prod.mk.inj (Option.some.inj hscheduling)
    obtain ⟨e, hdeferred₀⟩ :=
      deferred_of_scheduled (requested_of_unrevived hreach) hq hlabel hatomic₀
    have hl₀ : Unrevived pass.task.messageId w.abs l₀ := by
      rcases hlabel with rfl | rfl <;> exact ⟨fun q hq => (by cases hq), rfl⟩
    have hw₀ : Reaches config (Unrevived pass.task.messageId) Initial w₀ :=
      Reachable.next l₀ h hl₀ hstep₀
    have hdeferred := deferred_of_later hw₀ hdeferred₀ hlater
    have hv := hw₀.later (fun _ _ hl => hl) hlater
    by_contra hearly
    obtain hsame | hatomic := serviceStep_of_step lifecycle_of_unrevived hv hl hstep
    · rw [begins, show v'.store = v.store from congrArg Snapshot.store hsame,
        starts_of_same rfl] at hbegins
      simp at hbegins
    · have hnot := hdeferred.not_starts
        (calling_of_unrevived (hv.atomic lifecycle_of_unrevived).2) (not_le.mp hearly) hatomic
      simp [show begins pass.task.messageId v v' = false from hnot] at hbegins
  · simp at hscheduling

end Runs

/-- Steps in which the message is neither recovered nor requeued. -/
def Undisturbed (m : String) (a : ServiceSnapshot) (l : ServiceLabel) : Prop :=
  Spawning (polls ·) a l ∧ (committing? a l).bind recovering? ≠ some m ∧
    (committing? a l).bind requeueing? ≠ some m

instance Undisturbed.decidable (m : String) (a : ServiceSnapshot) (l : ServiceLabel) :
    Decidable (Undisturbed m a l) :=
  inferInstanceAs (Decidable (_ ∧ _ ∧ _))

/-- The answer of a provider that refuses for now. -/
def sampleRefusal : SendSmsResult :=
  { success := false, providerMessageId := none, isRetryable := true, isAmbiguous := none,
    error := none }

/-- Worker 2 takes the job of the message `m`, its provider refuses, and it is about
to commit its `scheduleRetry`. -/
def refusing : List ServiceLabel :=
  .spawn (.dispatch .idle) :: statements 2 3 (sampleChoice "" 2) ++ .commit 2 ::
    statements 2 3 (sampleChoice "a" 3) ++ .commit 2 :: statements 2 2 (sampleChoice "" 4) ++
    statements 2 1 { sampleChoice "" 5 with reply := some sampleRefusal } ++
    statements 2 2 (sampleChoice "" 6) ++ .commit 2 :: statements 2 4 (sampleChoice "r" 7)

/-- Worker 2 gives its job back, and relay 3 adds the job of the oldest unpublished event. -/
def relaying : List ServiceLabel :=
  statements 2 1 (sampleChoice "" 8) ++ .spawn (.relay (.fetching 1)) ::
    statements 3 2 (sampleChoice "" 9)

/-- Relay 1 crashes before it has marked the event of the new message, and relay 3
adds its job once more while the message waits for its retry. -/
theorem backoff_cut_short :
    ∃ w w₀ v v', Reaches sampleConfig (Spawning (polls ·)) Initial w ∧
      Schedules sampleConfig 2 "m" 2000 w w₀ ∧ Later sampleConfig (Undisturbed "m") w₀ v ∧
      (service sampleConfig).step v (.commit 4) = some v' ∧ begins "m" v v' ∧
      (v.ext.clock : ℚ) < w.ext.clock + 2000 := by
  obtain ⟨w, hw, hwitness⟩ := exists_reaches_of_exec sampleConfig (Spawning (polls ·))
    (creation ++ .spawn (.relay (.fetching 1)) :: statements 1 2 (sampleChoice "" 1) ++
      .crash 1 :: refusing)
    (fun w => w.abs.controls[2]?.bind scheduling? = some ("m", 2000) ∧
      ((service sampleConfig).step w (.commit 2)).any fun w₀ =>
        (exec (service sampleConfig).step (fun w l => Undisturbed "m" w.abs l) w₀
          (relaying ++ .spawn (.dispatch .idle) :: statements 4 3 (sampleChoice "" 10))).any
            fun v =>
          (v.ext.clock : ℚ) < w.ext.clock + 2000 ∧
            ((service sampleConfig).step v (.commit 4)).any fun v' => begins "m" v v')
    (by decide +kernel)
  obtain ⟨hscheduling, hrest⟩ := hwitness
  obtain ⟨w₀, hw₀, hrest⟩ := (Option.any_eq_true _ _).mp hrest
  obtain ⟨v, hv, hrest⟩ := (Option.any_eq_true _ _).mp hrest
  obtain ⟨hclock, hrest⟩ := of_decide_eq_true hrest
  obtain ⟨v', hv', hbegins⟩ := (Option.any_eq_true _ _).mp hrest
  exact ⟨w, w₀, v, v', hw, ⟨hscheduling, Or.inl hw₀⟩, reachable_of_exec (Reachable.start rfl) hv,
    hv', hbegins, hclock⟩

/-- A retry that is begun when its delay is over. -/
theorem backoff_respected_retried :
    ∃ w w₀ v v', Reaches sampleConfig (Unrevived "m") Initial w ∧
      Schedules sampleConfig 2 "m" 2000 w w₀ ∧ Later sampleConfig (Unrevived "m") w₀ v ∧
      (service sampleConfig).step v (.commit 4) = some v' ∧ begins "m" v v' ∧
      (w.ext.clock : ℚ) + 2000 ≤ v.ext.clock := by
  obtain ⟨w, hw, hwitness⟩ := exists_reaches_of_exec sampleConfig (Unrevived "m")
    (creation ++ .spawn (.relay (.fetching 1)) :: statements 1 3 (sampleChoice "" 1) ++
      .commit 1 :: refusing)
    (fun w => w.abs.controls[2]?.bind scheduling? = some ("m", 2000) ∧
      ((service sampleConfig).step w (.commit 2)).any fun w₀ =>
        (exec (service sampleConfig).step (fun w l => Unrevived "m" w.abs l) w₀
          (relaying ++ .env { sampleChoice "" 10 with move := .tick 2000 } ::
            .env { sampleChoice "" 10 with move := .promote "m#r" } ::
            .spawn (.dispatch .idle) :: statements 4 3 (sampleChoice "" 10))).any fun v =>
          ((service sampleConfig).step v (.commit 4)).any fun v' => begins "m" v v')
    (by decide +kernel)
  obtain ⟨hscheduling, hrest⟩ := hwitness
  obtain ⟨w₀, hw₀, hrest⟩ := (Option.any_eq_true _ _).mp hrest
  obtain ⟨v, hv, hrest⟩ := (Option.any_eq_true _ _).mp hrest
  obtain ⟨v', hv', hbegins⟩ := (Option.any_eq_true _ _).mp hrest
  have hschedules : Schedules sampleConfig 2 "m" 2000 w w₀ := ⟨hscheduling, Or.inl hw₀⟩
  have hlater : Later sampleConfig (Unrevived "m") w₀ v :=
    reachable_of_exec (Reachable.start rfl) hv
  have hl : Unrevived "m" v.abs (.commit 4) := ⟨fun q hq => (by cases hq), rfl⟩
  exact ⟨w, w₀, v, v', hw, hschedules, hlater, hv', hbegins,
    backoff_respected hw hschedules hlater hl hv' hbegins⟩

end SmsNotification.RetryBackoff

import SmsNotification.OutboxPublication

/-!
Messages that wait for a dispatch. The message, the outbox row and the job are
three records in two stores; where no worker fails on a job before it has claimed
the message, each message that waits has an unpublished event or a job.
-/

namespace SmsNotification.StrandedMessages

open SmsNotification.ActorSystem
open SmsNotification.LabelledRuns
open SmsNotification.LifecycleConformance
open SmsNotification.LifecycleEffects
open SmsNotification.MessageAggregate
open SmsNotification.OutboxConservation
open SmsNotification.OutboxPublication
open SmsNotification.OutboxRelayService
open SmsNotification.QueueConstants
open SmsNotification.Schema
open SmsNotification.Service
open SmsNotification.ServiceEffects
open SmsNotification.ServiceRuns
open SmsNotification.SmsLifecycleRepository
open SmsNotification.SmsPersistenceRepository
open SmsNotification.SmsProcessor (Task)
open SmsNotification.SmsStateMachine
open SmsNotification.Surroundings

/-- The ids of the events that ask for a dispatch, in creation order. -/
def dispatchIds (events : List OutboxEvent) : List String :=
  (events.filter fun event => isDispatchEvent event.eventType).map OutboxEvent.id

/-- The message is to be dispatched. -/
def isWaiting (A : Aggregate) : Bool :=
  A.status.any isDispatchable

/-- The event that a message which is to be dispatched waits on: the latest one. -/
def waitsOn? (A : Aggregate) : Option String :=
  if isWaiting A then (dispatchIds A.outbox).getLast? else none

section Messages

variable {q : Control} {m : String} {A A' : Aggregate} {events events' : List OutboxEvent}

theorem waitsOn?_eq_some {e : String} :
    waitsOn? A = some e ↔ isWaiting A ∧ (dispatchIds A.outbox).getLast? = some e := by
  unfold waitsOn?
  split <;> simp_all

theorem dispatchIds_append (event : OutboxEvent) :
    dispatchIds (events ++ [event]) =
      dispatchIds events ++ if isDispatchEvent event.eventType then [event.id] else [] := by
  unfold dispatchIds
  split <;> simp_all

theorem dispatchIds_of_relayed (hkeyed : A.Keyed) (h : Relayed q A A') :
    dispatchIds A'.outbox = dispatchIds A.outbox := by
  obtain ⟨row, hrow, data, c, hq, rfl⟩ := h
  obtain ⟨before, after, houtbox⟩ := List.append_of_mem hrow
  obtain ⟨hid, _, htype, _⟩ := sameEvent_of_updating hq c row
  have hnodup := hkeyed.outbox
  simp only [dispatchIds]
  rw [houtbox] at hnodup ⊢
  rw [Table.replace_append hnodup hid]
  by_cases hdispatch : isDispatchEvent row.eventType <;> simp [htype, hid, hdispatch]

/-- The message waits on an event that has just been recorded. -/
def WaitsOnNew (A A' : Aggregate) : Prop :=
  ∃ event ∈ A'.outbox, (dispatchIds A'.outbox).getLast? = some event.id ∧
    event.publishedAt = none ∧ ∀ old ∈ A.outbox, old.id ≠ event.id

theorem waitsOnNew_of_intended {intent : OutboxIntent}
    (hdispatch : isDispatchEvent intent.eventType)
    (h : Intended m intent A.outbox A'.outbox) : WaitsOnNew A A' := by
  obtain ⟨c, _, hfresh, houtbox⟩ := h
  refine ⟨intent.row m c, ?_, ?_, rfl, hfresh⟩
  · rw [houtbox]
    exact List.mem_append_right _ List.mem_cons_self
  · have htype : isDispatchEvent (intent.row m c).eventType := hdispatch
    rw [houtbox, dispatchIds_append, if_pos htype, List.getLast?_concat]

theorem waiting_of_messageStep (hkeyed : A.Keyed) (h : MessageStep q m A A')
    (hwaiting : isWaiting A') :
    (isWaiting A ∧ dispatchIds A'.outbox = dispatchIds A.outbox) ∨ WaitsOnNew A A' := by
  cases h with
  | created call hcreated =>
      obtain ⟨c, events', _, _, _, hevents, rfl⟩ := hcreated
      exact Or.inr (waitsOnNew_of_intended records_dispatch.created hevents)
  | @moved _ target _ intent htransition hmoved =>
      obtain ⟨row, now, events', _, _, hevents, rfl⟩ := hmoved
      have hdispatch : intent.any (fun intent => isDispatchEvent intent.eventType) :=
        (records_dispatch.transition htransition).trans hwaiting
      cases intent with
      | none => simp at hdispatch
      | some intent => exact Or.inr (waitsOnNew_of_intended hdispatch hevents)
  | requeued _ hrequeued =>
      obtain ⟨row, now, events', _, _, hevents, rfl⟩ := hrequeued
      exact Or.inr (waitsOnNew_of_intended records_dispatch.requeued hevents)
  | reserved providerName attemptId _ hreserved =>
      obtain ⟨row, now, c, _, _, _, rfl⟩ := hreserved
      simp [isWaiting, Aggregate.status, isDispatchable] at hwaiting
  | finalized attemptId input _ hfinalized =>
      obtain ⟨old, _, _, _, hrest⟩ := hfinalized
      rcases input with providerMessageId | ⟨_ | _, isRetryable, errorMessage, delayMs⟩
      · obtain ⟨row, now, _, _, rfl⟩ := hrest
        simp [isWaiting, Aggregate.status, isDispatchable] at hwaiting
      · obtain ⟨row, now, _, _, rfl⟩ := hrest
        simp [isWaiting, Aggregate.status, isDispatchable] at hwaiting
      · obtain ⟨delay, events', _, ⟨c, _, _, hevents⟩, rfl⟩ := hrest
        refine Or.inl ⟨hwaiting, ?_⟩
        simp only [hevents, dispatchIds_append]
        rw [if_neg (by simp [isDispatchEvent, OutboxIntent.row, ambiguousOutcomeExpiryScheduled]),
          List.append_nil]
  | resolved attemptId input hresolved =>
      obtain ⟨row, c, c', _, _, _, rfl⟩ := hresolved
      rcases input with providerMessageId | _ <;>
        simp [isWaiting, Aggregate.status, ResolveTwilioAttemptInput.apply, isDispatchable]
          at hwaiting
  | relayed hrelayed =>
      refine Or.inl ⟨?_, dispatchIds_of_relayed hkeyed hrelayed⟩
      obtain ⟨event, _, data, c, _, rfl⟩ := hrelayed
      exact hwaiting

/-- A message that is to be dispatched has an event that asks for it. -/
def Asked (A : Aggregate) : Prop :=
  isWaiting A → waitsOn? A ≠ none

theorem asked_of_messageStep (hkeyed : A.Keyed) (hinv : Asked A) (h : MessageStep q m A A') :
    Asked A' := by
  intro hwaiting
  unfold waitsOn?
  rw [if_pos hwaiting]
  obtain ⟨hbefore, hids⟩ | ⟨event, _, hlast, _⟩ := waiting_of_messageStep hkeyed h hwaiting
  · have hasked := hinv hbefore
    unfold waitsOn? at hasked
    rwa [if_pos hbefore, ← hids] at hasked
  · simp [hlast]

theorem waitsOn_of_messageStep (hkeyed : A.Keyed) (h : MessageStep q m A A') {e : String}
    (he : waitsOn? A' = some e) : waitsOn? A = some e ∨
      ∃ event ∈ A'.outbox, event.id = e ∧ event.publishedAt = none ∧
        ∀ old ∈ A.outbox, old.id ≠ e := by
  obtain ⟨hwaiting, hlast⟩ := waitsOn?_eq_some.mp he
  obtain ⟨hbefore, hids⟩ | ⟨event, hevent, hlast', hpublished, hfresh⟩ :=
    waiting_of_messageStep hkeyed h hwaiting
  · exact Or.inl (waitsOn?_eq_some.mpr ⟨hbefore, hids ▸ hlast⟩)
  · obtain rfl := Option.some.inj (hlast'.symm.trans hlast)
    exact Or.inr ⟨event, hevent, rfl, hpublished, hfresh⟩

theorem mem_of_waitsOn {e : String} (he : waitsOn? A = some e) :
    ∃ event ∈ A.outbox, event.id = e ∧ isDispatchEvent event.eventType := by
  have hlast := List.mem_of_getLast? (waitsOn?_eq_some.mp he).2
  obtain ⟨event, hevent, hid⟩ := List.mem_map.mp hlast
  obtain ⟨hmem, hdispatch⟩ := List.mem_filter.mp hevent
  exact ⟨event, hmem, hid, hdispatch⟩

end Messages

/-- The job is the one for the event of the message. -/
def JobFor (m e : String) (job : Job) : Prop :=
  job.queue = .smsDispatch ∧ job.jobId = jobIdFor m e ∧ job.messageId = some m

theorem eq_of_append_mark {xs ys xs' ys' : List Char} (hys : '#' ∉ ys) (hys' : '#' ∉ ys')
    (h : xs ++ '#' :: ys = xs' ++ '#' :: ys') : xs = xs' ∧ ys = ys' := by
  rcases List.append_eq_append_iff.mp h with ⟨zs, rfl, hzs⟩ | ⟨zs, rfl, hzs⟩
  · cases zs with
    | nil => simpa using hzs
    | cons z zs =>
        obtain ⟨_, rfl⟩ := List.cons.inj hzs
        simp at hys
  · cases zs with
    | nil => simpa using hzs.symm
    | cons z zs =>
        obtain ⟨_, rfl⟩ := List.cons.inj hzs
        simp at hys'

theorem eq_of_jobIdFor {m e m' e' : String} (he : '#' ∉ e.toList) (he' : '#' ∉ e'.toList)
    (h : jobIdFor m e = jobIdFor m' e') : m = m' ∧ e = e' := by
  have hlist := congrArg String.toList h
  simp only [jobIdFor, String.toList_append, List.append_assoc] at hlist
  obtain ⟨hm, hid⟩ := eq_of_append_mark he he' hlist
  exact ⟨String.toList_injective hm, String.toList_injective hid⟩

/-- The job is the one for some outbox row. -/
def FromEvent (s : Database) (job : Job) : Prop :=
  ∃ row, outboxEvent.find s row.id = some row ∧ JobFor row.aggregateId row.id job

/-- There is a job for the event on the dispatch queue. -/
def Ticket (o : Outside) (m e : String) : Prop :=
  ∃ job ∈ o.queuedJobs, JobFor m e job

/-- The job that a worker has in hand. -/
def task? : Control → Option Task
  | .dispatch state => state.task?
  | _ => none

/-- The worker has not yet tried to claim the message of its job. -/
def isBeginning : Control → Bool
  | .dispatch (.beginning _) => true
  | _ => false

section Effects

variable {q : Control} {s s' : Database} {m e : String}

theorem waitsOn_of_stepEffect (h : StepEffect q s s') (he : waitsOn? (aggregate s' m) = some e) :
    waitsOn? (aggregate s m) = some e ∨
      ((∃ row, outboxEvent.find s' e = some row ∧ row.publishedAt = none) ∧
        ∀ row, outboxEvent.find s e = some row → row.aggregateId ≠ m) := by
  obtain hsame | hstep := message_of_stepEffect h m
  · exact Or.inl (hsame ▸ he)
  · obtain hbefore | ⟨event, hevent, rfl, hpublished, hfresh⟩ :=
      waitsOn_of_messageStep (keyed s m) hstep he
    · exact Or.inl hbefore
    · refine Or.inr ⟨⟨event, (mem_outbox_iff.mp hevent).1, hpublished⟩, fun row hrow hm => ?_⟩
      have hid : row.id = event.id := Table.idOf_of_find hrow
      exact hfresh row (mem_outbox_iff.mpr ⟨hid ▸ hrow, hm⟩) hid

theorem find_of_waitsOn (he : waitsOn? (aggregate s m) = some e) :
    ∃ row, outboxEvent.find s e = some row ∧ row.aggregateId = m ∧
      isDispatchEvent row.eventType := by
  obtain ⟨row, hrow, rfl, hdispatch⟩ := mem_of_waitsOn he
  obtain ⟨hfind, hm⟩ := mem_outbox_iff.mp hrow
  exact ⟨row, hfind, hm, hdispatch⟩

theorem FromEvent.of_stepEffect {job : Job} (h : FromEvent s job) (heffect : StepEffect q s s') :
    FromEvent s' job := by
  obtain ⟨row, hrow, hjob⟩ := h
  obtain ⟨row', hrow', hid, hm, _⟩ := find_outbox_of_stepEffect heffect hrow
  exact ⟨row', by rw [hid, hrow'], by rw [hid, hm]; exact hjob⟩

theorem find_of_fromEvent {job : Job} (h : FromEvent s job)
    (hplain : ∀ id row, outboxEvent.find s id = some row → '#' ∉ id.toList)
    (he : '#' ∉ e.toList) (hjob : job.jobId = jobIdFor m e) :
    ∃ row, outboxEvent.find s e = some row ∧ row.aggregateId = m ∧ JobFor m e job := by
  obtain ⟨row, hrow, hfrom⟩ := h
  obtain ⟨rfl, rfl⟩ := eq_of_jobIdFor (hplain _ _ hrow) he (hfrom.2.1.symm.trans hjob)
  exact ⟨row, hrow, rfl, hfrom⟩

theorem marking_of_updating {id : String} {data : Choice → OutboxEvent → OutboxEvent}
    (h : updating? q = some (id, data)) {row : OutboxEvent} {c : Choice}
    (hbefore : row.publishedAt = none) (hafter : (data c row).publishedAt ≠ none) :
    ∃ event rest, q = .relay (.marking event rest) ∧ event.id = id := by
  unfold updating? at h
  split at h
  · exact ⟨_, _, rfl, (Prod.mk.inj (Option.some.inj h)).1⟩
  · obtain ⟨_, rfl⟩ := Prod.mk.inj (Option.some.inj h)
    exact absurd hbefore hafter
  · simp at h

end Effects

/-- The invariant of the dispatch. Jobs come from outbox rows; a message that is to
be dispatched has an unpublished event or a job; an event that is about to be
marked still has its job where a message waits on it; and no worker that is past
its claim has such a job in hand. -/
structure Ticketed (a : ServiceSnapshot) : Prop where
  plain : ∀ id row, outboxEvent.find a.store id = some row → '#' ∉ id.toList
  queued : ∀ job ∈ a.ext.queuedJobs, job.queue = .smsDispatch → FromEvent a.store job
  inHand : ∀ (i : Nat) q task, a.controls[i]? = some q → task? q = some task →
    FromEvent a.store task.job ∧ task.job.messageId = some task.messageId
  waiting : ∀ m e, waitsOn? (aggregate a.store m) = some e →
    (∃ row, outboxEvent.find a.store e = some row ∧ row.publishedAt = none) ∨ Ticket a.ext m e
  marking : ∀ (i : Nat) event rest, a.controls[i]? = some (.relay (.marking event rest)) →
    waitsOn? (aggregate a.store event.aggregateId) = some event.id →
      Ticket a.ext event.aggregateId event.id
  claimed : ∀ (i : Nat) q task, a.controls[i]? = some q → task? q = some task →
    isBeginning q = false → ∀ m e, waitsOn? (aggregate a.store m) = some e → ¬JobFor m e task.job

section Controls

variable {config : Config} {q q' : Control} {s s' : Database} {task : Task}

theorem task?_eq_none (h : family q ≠ .dispatch) : task? q = none := by
  cases q <;> first | rfl | exact absurd rfl h

theorem task_of_ok (h : controlSpec config q s (.ok q') s') (htask : task? q' = some task) :
    task? q = some task := by
  by_cases hq : family q = .dispatch
  · cases q with
    | dispatch state =>
        cases state with
        | beginning task' =>
            obtain ⟨begin, rfl, _⟩ := h
            exact (SmsProcessor.task?_afterBegin task' begin).symm.trans htask
        | loading task' begin =>
            obtain ⟨row, rfl, _⟩ := h
            exact (SmsProcessor.task?_afterLoad task' begin row).symm.trans htask
        | reserving pass provider rest =>
            obtain ⟨reservation, rfl, _⟩ := h
            exact (SmsProcessor.task?_afterReserve pass provider rest reservation).symm.trans htask
        | finalizing hold input =>
            obtain ⟨_, rfl, _⟩ := h
            exact (SmsProcessor.task?_afterFinalize hold input).symm.trans htask
        | markingMissing | schedulingRetry | markingFatal =>
            obtain ⟨_, rfl, _⟩ := h
            exact htask
        | _ => exact h.elim
    | _ => simp [family] at hq
  · rw [task?_eq_none ((family_of_ok h).1 ▸ hq)] at htask
    simp at htask

theorem task_of_error {t : Sql Control} {onError : Failure → Control} {e : Failure}
    (hcode : code config q = .tx t onError) (htask : task? (onError e) = some task) :
    task? q = some task := by
  by_cases hq : family q = .dispatch
  · obtain ⟨state, task', rfl, hstate, h | h⟩ := dispatch_of_error hcode e hq
    all_goals
      rw [h] at htask
      exact hstate.trans htask
  · rw [task?_eq_none ((family_of_error hcode e).1 ▸ hq)] at htask
    simp at htask

theorem task_of_crash (q : Control) : task? (crash q) = none := by
  cases q <;> rfl

theorem not_marking_of_ok (h : controlSpec config q s (.ok q') s') {event : UnpublishedOutboxEvent}
    {rest : List UnpublishedOutboxEvent} : q' ≠ .relay (.marking event rest) := by
  rintro rfl
  obtain ⟨events, hevents, _⟩ := relay_of_ok h rfl
  cases events with
  | nil => simp [relay] at hevents
  | cons event rest =>
      simp only [relay] at hevents
      split at hevents <;> simp at hevents

theorem not_marking_of_error {t : Sql Control} {onError : Failure → Control} {e : Failure}
    (hcode : code config q = .tx t onError) {event : UnpublishedOutboxEvent}
    {rest : List UnpublishedOutboxEvent} : onError e ≠ .relay (.marking event rest) := by
  intro hmarking
  have hrelay : relay? (onError e) = some (.marking event rest) := by rw [hmarking]; rfl
  obtain h | ⟨_, _, _, h⟩ := relay_of_error hcode hrelay
  · simp at h
  · simp at h

theorem waitsOn_of_beginning {task : Task}
    (h : controlSpec config (.dispatch (.beginning task)) s (.ok q') s') :
    waitsOn? (aggregate s' task.messageId) = none := by
  suffices isWaiting (aggregate s' task.messageId) = false by simp [waitsOn?, this]
  obtain ⟨result, _, hspec⟩ := h
  cases result with
  | started message =>
      obtain ⟨⟨A', hmoved, hupdate⟩, _⟩ := hspec
      obtain ⟨_, _, _, htarget⟩ := Moved.status hmoved
      rw [hupdate, Function.update_self]
      simp [isWaiting, htarget, isDispatchable]
  | notStartable =>
      obtain ⟨rfl, hnot⟩ := hspec
      cases hrow : smsMessage.find s' task.messageId with
      | none => simp [isWaiting, Aggregate.status, aggregate, hrow]
      | some row =>
          have hstatus := hnot row hrow
          cases hcase : row.status <;>
            simp_all [isWaiting, Aggregate.status, aggregate, isDispatchable, beginProcessingFrom]

end Controls

section Preservation

variable {config : Config} {a a' : ServiceSnapshot}

theorem Ticketed.waiting_set (h : Ticketed a) (hpublished : Published a) {i : Nat} {q : Control}
    {s : Database} (hq : a.controls[i]? = some q) (heffect : StepEffect q a.store s) {m e : String}
    (he : waitsOn? (aggregate a.store m) = some e) :
    (∃ row, outboxEvent.find s e = some row ∧ row.publishedAt = none) ∨ Ticket a.ext m e := by
  obtain ⟨row, hrow, hnone⟩ | hticket := h.waiting m e he
  · obtain ⟨row', hrow', _⟩ := find_outbox_of_stepEffect heffect hrow
    by_cases hmarked : row'.publishedAt = none
    · exact Or.inl ⟨row', hrow', hmarked⟩
    obtain hsame | ⟨old, data, c, hold, hupdate, rfl⟩ | ⟨hnew, _⟩ :=
      find_outbox_before heffect hrow'
    · obtain rfl := Option.some.inj (hrow.symm.trans hsame)
      exact absurd hnone hmarked
    · obtain rfl := Option.some.inj (hrow.symm.trans hold)
      obtain ⟨event, rest, rfl, rfl⟩ := marking_of_updating hupdate hnone hmarked
      obtain ⟨fetched, hfetched, hm, _⟩ :=
        (hpublished.batches i _ _ hq rfl).1 event List.mem_cons_self
      obtain rfl := Option.some.inj (hrow.symm.trans hfetched)
      obtain ⟨waited, hwaited, hm', _⟩ := find_of_waitsOn he
      obtain rfl := Option.some.inj (hrow.symm.trans hwaited)
      rw [hm'] at hm
      exact Or.inr (hm ▸ h.marking i event rest hq (hm.symm ▸ he))
    · exact absurd hnew hmarked
  · exact Or.inr hticket

theorem Ticketed.set (h : Ticketed a) (hpublished : Published a) {i : Nat} {q q' : Control}
    {s : Database} {x : Outside} (hq : a.controls[i]? = some q) (heffect : StepEffect q a.store s)
    (hqueued : ∀ job ∈ x.queuedJobs, job.queue = .smsDispatch → FromEvent a.store job)
    (hkept : ∀ m e, waitsOn? (aggregate a.store m) = some e → Ticket a.ext m e → Ticket x m e)
    (hhand : ∀ task, task? q' = some task →
      FromEvent a.store task.job ∧ task.job.messageId = some task.messageId)
    (hmarking : ∀ event rest, q' = .relay (.marking event rest) →
      waitsOn? (aggregate a.store event.aggregateId) = some event.id →
        Ticket x event.aggregateId event.id)
    (hclaimed : ∀ task, task? q' = some task → isBeginning q' = false → ∀ m e,
      waitsOn? (aggregate a.store m) = some e → waitsOn? (aggregate s m) = some e →
        ¬JobFor m e task.job)
    (hbatch : ∀ event rest, q' = .relay (.marking event rest) → Fetched a.store event) :
    Ticketed ⟨s, a.controls.set i q', x⟩ := by
  have hplain : ∀ id row, outboxEvent.find s id = some row → '#' ∉ id.toList := by
    intro id row hrow
    obtain hrow | ⟨old, _, _, hold, _, _⟩ | ⟨_, _, hid⟩ := find_outbox_before heffect hrow
    · exact h.plain id row hrow
    · exact h.plain id old hold
    · exact hid
  -- what was known before the step is not what a message newly waits on
  have hknown : ∀ {m e row}, outboxEvent.find a.store e = some row → row.aggregateId = m →
      waitsOn? (aggregate s m) = some e → waitsOn? (aggregate a.store m) = some e := by
    intro m e row hrow hm he
    obtain hbefore | ⟨_, hfresh⟩ := waitsOn_of_stepEffect heffect he
    · exact hbefore
    · exact absurd hm (hfresh row hrow)
  have hjob : ∀ {m e job}, FromEvent a.store job → waitsOn? (aggregate s m) = some e →
      JobFor m e job → waitsOn? (aggregate a.store m) = some e := by
    intro m e job hfrom he hjob
    obtain ⟨row, hrow, hm, _⟩ := find_of_waitsOn he
    obtain ⟨row', hrow', hm', _⟩ := find_of_fromEvent hfrom h.plain (hplain e row hrow) hjob.2.1
    exact hknown hrow' hm' he
  have hfetched : ∀ {event}, Fetched a.store event →
      waitsOn? (aggregate s event.aggregateId) = some event.id →
        waitsOn? (aggregate a.store event.aggregateId) = some event.id := by
    intro event hfetched he
    obtain ⟨row, hrow, hm, _⟩ := hfetched
    exact hknown hrow hm.symm he
  constructor
  · exact hplain
  · exact fun job hjob hqueue => (hqueued job hjob hqueue).of_stepEffect heffect
  · intro j q₂ task hq₂ htask
    rcases getElem?_set_eq_some hq₂ with ⟨_, rfl⟩ | ⟨_, hq₂⟩
    · exact ⟨(hhand task htask).1.of_stepEffect heffect, (hhand task htask).2⟩
    · obtain ⟨hfrom, hm⟩ := h.inHand j q₂ task hq₂ htask
      exact ⟨hfrom.of_stepEffect heffect, hm⟩
  · intro m e he
    obtain hbefore | ⟨hnew, _⟩ := waitsOn_of_stepEffect heffect he
    · exact (h.waiting_set hpublished hq heffect hbefore).imp_right (hkept m e hbefore)
    · exact Or.inl hnew
  · intro j event rest hq₂ he
    rcases getElem?_set_eq_some hq₂ with ⟨_, hq₂⟩ | ⟨_, hq₂⟩
    · exact hmarking event rest hq₂.symm (hfetched (hbatch event rest hq₂.symm) he)
    · have hbefore := hfetched ((hpublished.batches j _ _ hq₂ rfl).1 event List.mem_cons_self) he
      exact hkept _ _ hbefore (h.marking j event rest hq₂ hbefore)
  · intro j q₂ task hq₂ htask hpast m e he hfor
    rcases getElem?_set_eq_some hq₂ with ⟨_, rfl⟩ | ⟨_, hq₂⟩
    · exact hclaimed task htask hpast m e (hjob (hhand task htask).1 he hfor) he hfor
    · exact h.claimed j q₂ task hq₂ htask hpast m e
        (hjob (h.inHand j q₂ task hq₂ htask).1 he hfor) hfor

/-- A transaction ends. -/
theorem Ticketed.tx (h : Ticketed a) (hpublished : Published a) {i : Nat} {q q' : Control}
    {s : Database} (hq : a.controls[i]? = some q) (heffect : StepEffect q a.store s)
    (htask : ∀ task, task? q' = some task → task? q = some task)
    (hmarking : ∀ event rest, q' ≠ .relay (.marking event rest))
    (hbeginning : ∀ task e, q = .dispatch (.beginning task) → task? q' = some task →
      waitsOn? (aggregate a.store task.messageId) = some e →
        waitsOn? (aggregate s task.messageId) = some e →
          task.job.jobId ≠ jobIdFor task.messageId e) :
    Ticketed ⟨s, a.controls.set i q', a.ext⟩ := by
  refine h.set hpublished hq heffect h.queued (fun _ _ _ hticket => hticket)
    (fun task htask' => h.inHand i q task hq (htask task htask'))
    (fun event rest hq' => absurd hq' (hmarking event rest))
    (fun task htask' hpast m e hbefore hafter hfor => ?_)
    fun event rest hq' => absurd hq' (hmarking event rest)
  have hhand := htask task htask'
  cases hfirst : isBeginning q with
  | false => exact h.claimed i q task hq hhand hfirst m e hbefore hfor
  | true =>
      unfold isBeginning at hfirst
      split at hfirst
      · rename_i task'
        obtain rfl := Option.some.inj hhand
        obtain rfl : task'.messageId = m :=
          Option.some.inj ((h.inHand i _ task' hq rfl).2.symm.trans hfor.2.2)
        exact hbeginning task' e rfl htask' hbefore hafter hfor.2.1
      · simp at hfirst

theorem Ticketed.ok (h : Ticketed a) (hpublished : Published a) {i : Nat} {q q' : Control}
    {s : Database} (hq : a.controls[i]? = some q)
    (hspec : controlSpec config q a.store (.ok q') s) :
    Ticketed ⟨s, a.controls.set i q', a.ext⟩ := by
  refine h.tx hpublished hq (stepEffect_of_controlSpec hspec) (fun _ => task_of_ok hspec)
    (fun _ _ => not_marking_of_ok hspec) fun task e hbeginning _ _ hafter => ?_
  subst hbeginning
  simp [waitsOn_of_beginning hspec] at hafter

theorem Ticketed.failed (h : Ticketed a) (hpublished : Published a) {i : Nat} {q : Control}
    {t : Sql Control} {onError : Failure → Control} {e : Failure} {s : Database}
    (hq : a.controls[i]? = some q) (hcode : code config q = .tx t onError)
    (heffect : StepEffect q a.store s)
    (hbeginning : ∀ task e, q = .dispatch (.beginning task) →
      waitsOn? (aggregate a.store task.messageId) = some e →
        waitsOn? (aggregate s task.messageId) = some e →
          task.job.jobId ≠ jobIdFor task.messageId e) :
    Ticketed ⟨s, a.controls.set i (onError e), a.ext⟩ :=
  h.tx hpublished hq heffect (fun _ => task_of_error hcode)
    (fun _ _ => not_marking_of_error hcode) fun task e hq' _ => hbeginning task e hq'

theorem Ticketed.act_same (h : Ticketed a) (hpublished : Published a) {i : Nat} {q q' : Control}
    {x : Outside} (hq : a.controls[i]? = some q) (hjobs : x.queuedJobs = a.ext.queuedJobs)
    (htask : task? q' = task? q) (hfirst : isBeginning q = false)
    (hmarking : ∀ event rest, q' ≠ .relay (.marking event rest)) :
    Ticketed ⟨a.store, a.controls.set i q', x⟩ := by
  refine h.set hpublished hq (Or.inl rfl) (fun job hjob => h.queued job (hjobs ▸ hjob))
    (fun m e _ hticket => ?_) (fun task htask' => h.inHand i q task hq (htask ▸ htask'))
    (fun event rest hq' => absurd hq' (hmarking event rest))
    (fun task htask' _ m e he _ => h.claimed i q task hq (htask ▸ htask') hfirst m e he)
    fun event rest hq' => absurd hq' (hmarking event rest)
  obtain ⟨job, hjob, hfor⟩ := hticket
  exact ⟨job, hjobs.symm ▸ hjob, hfor⟩

theorem Ticketed.took (h : Ticketed a) (hpublished : Published a) {i : Nat} {pick : Nat} {job : Job}
    {x : Outside} (hq : a.controls[i]? = some (.dispatch .idle))
    (htake : a.ext.takeJob .smsDispatch pick = some (x, job)) :
    Ticketed ⟨a.store, a.controls.set i (.dispatch (SmsProcessor.process job)), x⟩ := by
  obtain ⟨hjobs, hmem, hqueue⟩ := Outside.queuedJobs_of_takeJob htake
  have hfrom := h.queued job hmem hqueue
  obtain ⟨messageId, hm⟩ : ∃ messageId, job.messageId = some messageId := by
    obtain ⟨row, _, hfor⟩ := hfrom
    exact ⟨_, hfor.2.2⟩
  have hprocess : SmsProcessor.process job = .beginning ⟨job, messageId⟩ := by
    rw [SmsProcessor.process, hm]
  rw [hprocess]
  refine h.set hpublished hq (Or.inl rfl) (fun job hjob => h.queued job (hjobs ▸ hjob))
    (fun m e _ hticket => ?_) (fun task htask => ?_) (fun event rest hq' => by simp at hq')
    (fun task _ hpast => by simp [isBeginning] at hpast) fun event rest hq' => by simp at hq'
  · obtain ⟨job', hjob', hfor⟩ := hticket
    exact ⟨job', hjobs.symm ▸ hjob', hfor⟩
  · obtain rfl := Option.some.inj htask
    exact ⟨hfrom, hm⟩

theorem Ticketed.removed (h : Ticketed a) (hpublished : Published a) {i : Nat} {q q' : Control}
    {task : Task} (hq : a.controls[i]? = some q) (htask : task? q = some task)
    (hfirst : isBeginning q = false) (htask' : task? q' = none)
    (hmarking : ∀ event rest, q' ≠ .relay (.marking event rest)) :
    Ticketed ⟨a.store, a.controls.set i q', a.ext.removeJob task.job⟩ := by
  refine h.set hpublished hq (Or.inl rfl)
    (fun job hjob => h.queued job (Outside.mem_queuedJobs_removeJob.mp hjob).1)
    (fun m e he hticket => ?_) (fun _ htask => by simp [htask'] at htask)
    (fun event rest hq' => absurd hq' (hmarking event rest))
    (fun _ htask => by simp [htask'] at htask)
    fun event rest hq' => absurd hq' (hmarking event rest)
  obtain ⟨job, hjob, hfor⟩ := hticket
  refine ⟨job, Outside.mem_queuedJobs_removeJob.mpr ⟨hjob, ?_⟩, hfor⟩
  by_contra hsame
  simp only [sameJob, Bool.not_eq_false, Bool.and_eq_true, decide_eq_true_eq] at hsame
  obtain ⟨row, hrow, _⟩ := find_of_waitsOn he
  obtain ⟨_, _, _, hfor'⟩ := find_of_fromEvent (h.inHand i q task hq htask).1 h.plain
    (h.plain e row hrow) (hsame.2.symm.trans hfor.2.1)
  exact h.claimed i q task hq htask hfirst m e he hfor'

theorem Ticketed.added (h : Ticketed a) (hpublished : Published a) {i : Nat}
    {event : UnpublishedOutboxEvent} {queueJob : QueueJob} {rest : List UnpublishedOutboxEvent}
    {q' : Control} {x : Outside} (hq : a.controls[i]? = some (.relay (.adding event queueJob rest)))
    (hjobs : x.queuedJobs = (a.ext.addJob (queueJob.toJob event.id)).queuedJobs)
    (htask : task? q' = none)
    (hmarking : ∀ event' rest', q' = .relay (.marking event' rest') → event' = event) :
    Ticketed ⟨a.store, a.controls.set i q', x⟩ := by
  obtain ⟨hfetched, hqueue, hjobId, hm⟩ := hpublished.adding hq
  obtain ⟨row, hrow, hrowm, htype, _⟩ := hfetched event List.mem_cons_self
  have hid : row.id = event.id := Table.idOf_of_find hrow
  have hqueued : ∀ job ∈ x.queuedJobs, job.queue = .smsDispatch → FromEvent a.store job := by
    intro job hjob hdispatch
    rw [hjobs] at hjob
    rcases Outside.mem_queuedJobs_addJob hjob with hjob | rfl
    · exact h.queued job hjob hdispatch
    · exact ⟨row, hid ▸ hrow, hdispatch, by rw [hid, ← hrowm]; exact hjobId,
        by rw [← hrowm]; exact hm⟩
  refine h.set hpublished hq (Or.inl rfl) hqueued (fun m e _ hticket => ?_)
    (fun _ htask' => by simp [htask] at htask') (fun event' rest' hq' he => ?_)
    (fun _ htask' => by simp [htask] at htask') fun event' rest' hq' => ?_
  · obtain ⟨job, hjob, hfor⟩ := hticket
    exact ⟨job, hjobs ▸ Outside.mem_addJob_of_mem hjob, hfor⟩
  · obtain rfl := hmarking event' rest' hq'
    -- the job that is on the queue under this id is the one for the event
    obtain ⟨waited, hwaited, _, hdispatch⟩ := find_of_waitsOn he
    obtain rfl := Option.some.inj (hrow.symm.trans hwaited)
    obtain ⟨job, hjob, hsame⟩ := Outside.exists_sameJob_addJob a.ext (queueJob.toJob event'.id)
    simp only [sameJob, Bool.and_eq_true, decide_eq_true_eq] at hsame
    have hsms : (queueJob.toJob event'.id).queue = .smsDispatch := by
      rw [htype, queueOf, if_pos hdispatch] at hqueue
      exact (Option.some.inj hqueue).symm
    rw [← hjobs] at hjob
    obtain ⟨_, _, _, hfor⟩ := find_of_fromEvent (hqueued job hjob (hsame.1.trans hsms)) h.plain
      (h.plain _ _ hrow) (hsame.2.trans hjobId)
    exact ⟨job, hjob, hfor⟩
  · rw [hmarking event' rest' hq']
    exact hfetched event List.mem_cons_self

theorem Ticketed.act (h : Ticketed a) (hpublished : Published a) {i : Nat} {q q' : Control}
    {c : Choice} {x : Outside} (hq : a.controls[i]? = some q) (hlive : Lifecycle q)
    (hacts : Acts config c a.ext q x q') : Ticketed ⟨a.store, a.controls.set i q', x⟩ := by
  cases hacts with
  | took htake => exact h.took hpublished hq htake
  | acquired => exact h.act_same hpublished hq rfl rfl rfl (by simp)
  | notAcquired => exact h.act_same hpublished hq rfl rfl rfl (by simp)
  | started => exact h.act_same hpublished hq rfl rfl rfl (by simp)
  | answered hold call hanswer =>
      obtain ⟨started, state, _, _, rfl, _⟩ := Outside.answerCall_eq_some hanswer
      exact h.act_same hpublished hq rfl (SmsProcessor.task?_afterSend hold c.reply) rfl (by simp)
  | finished task outcome => exact h.removed hpublished hq rfl rfl rfl (by simp)
  | failed task => exact h.removed hpublished hq rfl rfl rfl (by simp)
  | added event queueJob rest =>
      refine h.added hpublished hq rfl rfl fun event' rest' hq' => ?_
      simp only [Control.relay.injEq, State.marking.injEq] at hq'
      exact hq'.1.symm
  | notAdded event queueJob rest ho =>
      rcases ho with rfl | rfl
      · exact h.act_same hpublished hq rfl rfl rfl (by simp)
      · exact h.added hpublished hq rfl rfl fun event' rest' hq' => by simp at hq'
  | _ => exact absurd rfl hlive.2

theorem Ticketed.spawn (h : Ticketed a) {q : Control} (htask : task? q = none)
    (hmarking : ∀ event rest, q ≠ .relay (.marking event rest)) :
    Ticketed { a with controls := a.controls ++ [q] } := by
  refine ⟨h.plain, h.queued, fun i q₂ task hq₂ htask₂ => ?_, h.waiting,
    fun i event rest hq₂ => ?_, fun i q₂ task hq₂ htask₂ => ?_⟩
  · rcases getElem?_concat_eq_some hq₂ with hq₂ | rfl
    · exact h.inHand i q₂ task hq₂ htask₂
    · simp [htask] at htask₂
  · rcases getElem?_concat_eq_some hq₂ with hq₂ | hq₂
    · exact h.marking i event rest hq₂
    · exact absurd hq₂.symm (hmarking event rest)
  · rcases getElem?_concat_eq_some hq₂ with hq₂ | rfl
    · exact h.claimed i q₂ task hq₂ htask₂
    · simp [htask] at htask₂

theorem Ticketed.env (h : Ticketed a) {c : Choice} {x : Outside} (hmove : a.ext.move c = some x) :
    Ticketed { a with ext := x } := by
  have hjobs : (∀ job ∈ x.queuedJobs, job ∈ a.ext.queuedJobs ∨ job.queue = .smsMaintenance) ∧
      ∀ job ∈ a.ext.queuedJobs, job ∈ x.queuedJobs := by
    obtain hsame | ⟨job, hqueue, rfl⟩ := Outside.queuedJobs_of_move hmove
    · rw [hsame]
      exact ⟨fun job hjob => Or.inl hjob, fun job hjob => hjob⟩
    · refine ⟨fun job' hjob' => ?_, fun job' hjob' => Outside.mem_addJob_of_mem hjob'⟩
      rcases Outside.mem_queuedJobs_addJob hjob' with hjob' | rfl
      · exact Or.inl hjob'
      · exact Or.inr hqueue
  have hkept : ∀ {m e}, Ticket a.ext m e → Ticket x m e := by
    rintro m e ⟨job, hjob, hfor⟩
    exact ⟨job, hjobs.2 job hjob, hfor⟩
  refine ⟨h.plain, fun job hjob hqueue => ?_, h.inHand, fun m e he => ?_,
    fun i event rest hq he => hkept (h.marking i event rest hq he), h.claimed⟩
  · rcases hjobs.1 job hjob with hjob | hmaintenance
    · exact h.queued job hjob hqueue
    · simp [hmaintenance] at hqueue
  · exact (h.waiting m e he).imp_right hkept

end Preservation

/-- What may be started: everything that publishes, and workers without a job. -/
def dispatches : Control → Bool
  | .dispatch .idle => true
  | .dispatch _ => false
  | q => publishes q

/-- The step is a failure of a worker's claim before it commits, where the job is the
one for the event that the message waits on. -/
def strands (a : ServiceSnapshot) : ServiceLabel → Bool
  | .fault i =>
      match a.controls[i]? with
      | some (.dispatch (.beginning task)) =>
          (waitsOn? (aggregate a.store task.messageId)).any fun e =>
            task.job.jobId = jobIdFor task.messageId e
      | _ => false
  | _ => false

theorem publishes_of_dispatches {q : Control} (h : dispatches q) :
    publishes q ∧ task? q = none ∧ ∀ event rest, q ≠ .relay (.marking event rest) := by
  cases q with
  | dispatch state =>
      cases state <;> simp_all [dispatches, publishes, family, task?, SmsProcessor.State.task?]
  | relay state => cases state <;> simp_all [dispatches, publishes, task?]
  | _ => simp_all [dispatches, publishes, family, task?]

section Runs

variable {config : Config} {a a' : ServiceSnapshot} {w : ServiceWorld}

theorem Ticketed.step (h : Ticketed a) (hpublished : Published a) (hlive : AllLifecycle a)
    {l : ServiceLabel} (hl : Spawning (dispatches ·) a l) (hkeeps : strands a l = false)
    (hstep : ServiceStep config a l a') : Ticketed a' := by
  cases hstep with
  | spawn q =>
      obtain ⟨_, htask, hmarking⟩ := publishes_of_dispatches (hl q rfl)
      exact h.spawn htask hmarking
  | answer hq _ hspec => exact h.ok hpublished hq hspec
  | error hq hcode hspec =>
      refine h.failed hpublished hq hcode (Or.inl rfl) fun task e hbeginning => ?_
      subst hbeginning
      exact hspec.elim
  | act hq hcode hact => exact h.act hpublished hq (hlive _ _ hq) (acts_of_code hcode hact)
  | commit hq _ hspec => exact h.ok hpublished hq hspec
  | lost hq hcode hspec =>
      refine h.failed hpublished hq hcode (stepEffect_of_controlSpec hspec)
        fun task e hbeginning _ hafter => ?_
      subst hbeginning
      simp [waitsOn_of_beginning hspec] at hafter
  | fault hq hcode =>
      refine h.failed hpublished hq hcode (Or.inl rfl) fun task e hbeginning he _ hjob => ?_
      subst hbeginning
      simp [strands, hq, he, hjob] at hkeeps
  | @crash i q hq _ =>
      refine h.tx hpublished hq (Or.inl rfl) (fun task htask => ?_) (fun event rest hmarking => ?_)
        fun task e _ htask => ?_
      · simp [service, task_of_crash] at htask
      · have hrelay : relay? (crash q) = some (.marking event rest) := by
          rw [show crash q = _ from hmarking]
          rfl
        have hcrashed := relay_of_crash hrelay
        simp at hcrashed
      · simp [service, task_of_crash] at htask
  | env hmove => exact h.env hmove

/-- The steps of the claim's parties in which no claim is lost with its job. -/
def Holding (a : ServiceSnapshot) (l : ServiceLabel) : Prop :=
  Spawning (dispatches ·) a l ∧ strands a l = false

instance Holding.decidable (a : ServiceSnapshot) (l : ServiceLabel) : Decidable (Holding a l) :=
  inferInstanceAs (Decidable (_ ∧ _))

theorem publishes_of_holding (l : ServiceLabel) (h : Holding a l) : Spawning (publishes ·) a l :=
  fun q hq => (publishes_of_dispatches (h.1 q hq)).1

theorem lifecycle_of_holding {q : Control} (h : Holding a (.spawn q)) : Lifecycle q :=
  (lifecycle_of_publishes (publishes_of_holding _ h q rfl)).1

theorem ticketed_of_reaches (h : Reaches config Holding Initial w) : Ticketed w.abs := by
  refine Reachable.invariant (fun a hinit => ?_) (fun a l a' hreach hticketed hl hstep => ?_)
    (h.atomic fun _ q hq => lifecycle_of_holding hq).2
  · constructor <;>
      simp [hinit.store, hinit.controls, hinit.ext, Outside.empty, Outside.queuedJobs, Table.find,
        aggregate_empty, waitsOn?, isWaiting, Aggregate.status]
  · exact hticketed.step
      (published_of_reachable (hreach.mono fun _ l hl => publishes_of_holding l hl))
      (lifecycle_of_reachable (fun _ q hq => lifecycle_of_holding hq)
        (fun _ hinit => hinit.controls) hreach) hl.1 hl.2 hstep

theorem asked_of_reaches (h : Reaches config Holding Initial w) (m : String) :
    Asked (aggregate w.store m) := by
  refine aggregate_invariant (fun _ A => Asked A) (fun a hinit m => ?_)
    (fun q m A A' hkeyed hinv hstep => asked_of_messageStep hkeyed hinv hstep)
    (h.atomic fun _ q hq => lifecycle_of_holding hq).2 m
  rw [hinit.store, aggregate_empty]
  simp [Asked, isWaiting, Aggregate.status]

/-- No message is stranded where no claim is lost with its job: a message that is to
be dispatched has an unpublished event that asks for it, or a job. -/
theorem not_stranded (h : Reaches config Holding Initial w) {m : String} {status : SmsStatus}
    (hstatus : (aggregate w.store m).status = some status)
    (hwaiting : status = .queued ∨ status = .retryScheduled) :
    (∃ event ∈ (aggregate w.store m).outbox, isDispatchEvent event.eventType ∧
        event.publishedAt = none) ∨
      ∃ queued ∈ w.ext.jobs, queued.job.queue = .smsDispatch ∧ queued.job.messageId = some m := by
  have hdispatch : isWaiting (aggregate w.store m) := by
    rw [isWaiting, hstatus]
    rcases hwaiting with rfl | rfl <;> rfl
  obtain ⟨e, he⟩ := Option.ne_none_iff_exists'.mp (asked_of_reaches h m hdispatch)
  obtain ⟨row, hrow, hnone⟩ | ⟨job, hjob, hfor⟩ := (ticketed_of_reaches h).waiting m e he
  · obtain ⟨row', hrow', hm, htype⟩ := find_of_waitsOn he
    obtain rfl := Option.some.inj (hrow.symm.trans hrow')
    have hid : row.id = e := Table.idOf_of_find hrow
    exact Or.inl ⟨row, mem_outbox_iff.mpr ⟨hid ▸ hrow, hm⟩, htype, hnone⟩
  · obtain ⟨queued, hqueued, rfl⟩ := List.mem_map.mp hjob
    exact Or.inr ⟨queued, hqueued, hfor.1, hfor.2.2⟩

end Runs

/-- The event of a new message is published and a worker takes its job. -/
def taking : List ServiceLabel :=
  creation ++ .spawn (.relay (.fetching 1)) :: statements 1 3 (sampleChoice "" 1) ++
    .commit 1 :: .spawn (.dispatch .idle) :: statements 2 1 (sampleChoice "" 2)

/-- The database fails the claim of the worker, and the job is removed. -/
theorem stranded_after_failed_claim :
    ∃ w, Reaches sampleConfig (Spawning (dispatches ·)) Initial w ∧
      (aggregate w.store "m").status = some .queued ∧
      ¬((∃ event ∈ (aggregate w.store "m").outbox, isDispatchEvent event.eventType ∧
          event.publishedAt = none) ∨
        ∃ queued ∈ w.ext.jobs, queued.job.queue = .smsDispatch ∧ queued.job.messageId = some "m") :=
  exists_reaches_of_exec sampleConfig (Spawning (dispatches ·))
    (taking ++ .fault 2 :: statements 2 1 (sampleChoice "" 3)) _ (by decide +kernel)

/-- A message whose job a worker has taken and not yet claimed. -/
theorem not_stranded_taken :
    ∃ w, Reaches sampleConfig Holding Initial w ∧
      (aggregate w.store "m").status = some .queued ∧
      ((∃ event ∈ (aggregate w.store "m").outbox, isDispatchEvent event.eventType ∧
          event.publishedAt = none) ∨
        ∃ queued ∈ w.ext.jobs, queued.job.queue = .smsDispatch ∧
          queued.job.messageId = some "m") := by
  obtain ⟨w, hw, hstatus⟩ := exists_reaches_of_exec sampleConfig Holding taking
    (fun w => (aggregate w.store "m").status = some .queued) (by decide +kernel)
  exact ⟨w, hw, hstatus, not_stranded hw hstatus (Or.inl rfl)⟩

end SmsNotification.StrandedMessages

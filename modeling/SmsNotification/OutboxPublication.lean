import SmsNotification.OutboxConservation

namespace SmsNotification.OutboxPublication

open SmsNotification.ActorSystem
open SmsNotification.LabelledRuns
open SmsNotification.LifecycleEffects
open SmsNotification.MessageAggregate
open SmsNotification.OutboxConservation
open SmsNotification.OutboxRelayService
open SmsNotification.QueueConstants
open SmsNotification.ReadCommitted
open SmsNotification.Schema
open SmsNotification.Service
open SmsNotification.ServiceEffects
open SmsNotification.ServiceRuns
open SmsNotification.SmsLifecycleRepository
open SmsNotification.SmsPersistenceRepository
open SmsNotification.Surroundings

/-- The queue that a type of event selects. -/
def queueOf (eventType : String) : Option QueueName :=
  if isDispatchEvent eventType then some .smsDispatch
  else if eventType = "SMS_DEAD_LETTERED" then some .smsDlq
  else if eventType = "SMS_AMBIGUOUS_OUTCOME_EXPIRY_SCHEDULED" then some .smsMaintenance
  else none

/-- The job is one for exactly this event. -/
def Publishes (eventType messageId eventId : String) (job : Job) : Prop :=
  queueOf eventType = some job.queue ∧ job.jobId = messageId ++ "#" ++ eventId ∧
    job.messageId = some messageId

/-- The payload names the message. -/
def Names (m : String) (payload : Json) : Prop :=
  payload = messagePayload m ∨ ∃ delayMs, payload = delayedPayload m delayMs

section Jobs

variable {event : UnpublishedOutboxEvent} {queueJob : QueueJob}

theorem messageId_of_names {m aggregateId messageId : String} {payload : Json}
    {delayMs : Option ℚ} (hnames : Names m payload)
    (h : readDispatchPayload payload aggregateId = .ok (messageId, delayMs)) :
    messageId = m := by
  rcases hnames with rfl | ⟨delay, rfl⟩
  · simp only [readDispatchPayload, messagePayload, Json.field] at h
    exact (Prod.mk.inj (Except.ok.inj h)).1.symm
  · simp only [readDispatchPayload, delayedPayload, Json.field] at h
    by_cases hdelay : isDelay delay
    · simp [hdelay] at h
      exact h.1.symm
    · simp [hdelay] at h

theorem queueJob_of_queueJobFor (h : queueJobFor event = .ok queueJob) :
    queueOf event.eventType = some queueJob.queue ∧
      ∃ delayMs, readDispatchPayload event.payload event.aggregateId =
        .ok (queueJob.messageId, delayMs) := by
  unfold queueJobFor at h
  split at h
  · simp at h
  · rename_i messageId delayMs hread
    suffices queueOf event.eventType = some queueJob.queue ∧ queueJob.messageId = messageId from
      ⟨this.1, delayMs, by rw [hread, this.2]⟩
    split at h
    · rename_i htype
      split at h
      · simp at h
      · obtain rfl := Except.ok.inj h
        exact ⟨by rw [htype]; rfl, rfl⟩
    split at h
    · rename_i htype
      obtain rfl := Except.ok.inj h
      exact ⟨by rw [htype]; rfl, rfl⟩
    split at h
    · rename_i htype
      obtain rfl := Except.ok.inj h
      exact ⟨by rw [htype]; rfl, rfl⟩
    split at h
    · rename_i htype
      obtain rfl := Except.ok.inj h
      exact ⟨by rw [htype]; rfl, rfl⟩
    split at h
    · rename_i htype
      obtain rfl := Except.ok.inj h
      exact ⟨by rw [htype]; rfl, rfl⟩
    split at h
    · rename_i htype
      split at h
      · simp at h
      · obtain rfl := Except.ok.inj h
        exact ⟨by rw [htype]; rfl, rfl⟩
    · simp at h

theorem publishes_of_queueJobFor {m : String} (hnames : Names m event.payload)
    (h : queueJobFor event = .ok queueJob) :
    Publishes event.eventType m event.id (queueJob.toJob event.id) := by
  obtain ⟨hqueue, delayMs, hread⟩ := queueJob_of_queueJobFor h
  have hm := messageId_of_names hnames hread
  exact ⟨hqueue, by rw [← hm]; rfl, by rw [← hm]; rfl⟩

end Jobs

/-- The columns of an outbox row that are never updated. -/
def SameEvent (row row' : OutboxEvent) : Prop :=
  row'.id = row.id ∧ row'.aggregateId = row.aggregateId ∧ row'.eventType = row.eventType ∧
    row'.payload = row.payload

theorem sameEvent_of_updating {q : Control} {id : String}
    {data : Choice → OutboxEvent → OutboxEvent} (h : updating? q = some (id, data)) (c : Choice)
    (row : OutboxEvent) : SameEvent row (data c row) := by
  rcases data_of_updating h with rfl | ⟨error, rfl⟩ <;> exact ⟨rfl, rfl, rfl, rfl⟩

section Rows

variable {q : Control} {m : String} {A A' : Aggregate}

theorem names_of_transition {source : SmsStateMachine.SmsStatus → Bool}
    {target : SmsStateMachine.SmsStatus} {data : SmsMessage → SmsMessage} {intent : OutboxIntent}
    (h : Transition m source target data (some intent)) : Names m intent.payload := by
  cases h with
  | recovered => exact Or.inl rfl
  | retried opts => exact Or.inr ⟨_, rfl⟩
  | fatal lastError => exact Or.inl rfl

theorem outbox_of_messageStep (h : MessageStep q m A A') :
    A'.outbox = A.outbox ∨
      (∃ intent, Names m intent.payload ∧ Intended m intent A.outbox A'.outbox) ∨
      ∃ row ∈ A.outbox, ∃ data c, updating? q = some (row.id, data) ∧
        A'.outbox = outboxEvent.replace (data c row) A.outbox := by
  cases h with
  | created call hcreated =>
      obtain ⟨c, events', _, _, _, hevents, rfl⟩ := hcreated
      exact Or.inr (Or.inl ⟨_, Or.inl rfl, hevents⟩)
  | @moved _ _ _ intent htransition hmoved =>
      obtain ⟨row, now, events', _, _, hevents, rfl⟩ := hmoved
      cases intent with
      | none => exact Or.inl hevents
      | some intent => exact Or.inr (Or.inl ⟨intent, names_of_transition htransition, hevents⟩)
  | requeued _ hrequeued =>
      obtain ⟨row, now, events', _, _, hevents, rfl⟩ := hrequeued
      exact Or.inr (Or.inl ⟨_, Or.inl rfl, hevents⟩)
  | reserved providerName attemptId _ hreserved =>
      obtain ⟨row, now, c, _, _, _, rfl⟩ := hreserved
      exact Or.inl rfl
  | finalized attemptId input _ hfinalized =>
      obtain ⟨old, _, _, _, hrest⟩ := hfinalized
      rcases input with providerMessageId | ⟨_ | _, isRetryable, errorMessage, delayMs⟩
      · obtain ⟨row, now, _, _, rfl⟩ := hrest
        exact Or.inl rfl
      · obtain ⟨row, now, _, _, rfl⟩ := hrest
        exact Or.inl rfl
      · obtain ⟨delay, events', _, hevents, rfl⟩ := hrest
        exact Or.inr (Or.inl ⟨_, Or.inr ⟨delay, rfl⟩, hevents⟩)
  | resolved attemptId input hresolved =>
      obtain ⟨row, c, c', _, _, _, rfl⟩ := hresolved
      exact Or.inl rfl
  | relayed hrelayed =>
      obtain ⟨row, hrow, data, c, hq, rfl⟩ := hrelayed
      exact Or.inr (Or.inr ⟨row, hrow, data, c, hq, rfl⟩)

end Rows

section Effects

variable {q : Control} {s s' : Database} {id : String} {row row' : OutboxEvent}

theorem find_outbox_of_stepEffect (h : StepEffect q s s')
    (hrow : outboxEvent.find s id = some row) :
    ∃ row', outboxEvent.find s' id = some row' ∧ SameEvent row row' := by
  obtain rfl : row.id = id := Table.idOf_of_find hrow
  have hmem : row ∈ (aggregate s row.aggregateId).outbox := mem_outbox_iff.mpr ⟨hrow, rfl⟩
  have hkept : row ∈ (aggregate s' row.aggregateId).outbox →
      ∃ row', outboxEvent.find s' row.id = some row' ∧ SameEvent row row' :=
    fun hmem => ⟨row, (mem_outbox_iff.mp hmem).1, rfl, rfl, rfl, rfl⟩
  obtain hsame | hstep := message_of_stepEffect h row.aggregateId
  · exact hkept (hsame ▸ hmem)
  obtain hsame | ⟨intent, _, c, _, _, hsame⟩ | ⟨old, hold, data, c, hq, hsame⟩ :=
    outbox_of_messageStep hstep
  · exact hkept (hsame ▸ hmem)
  · exact hkept (hsame ▸ List.mem_append_left _ hmem)
  · have hevent := sameEvent_of_updating hq c old
    by_cases hid : row.id = (data c old).id
    · obtain rfl : row = old :=
        List.inj_on_of_nodup_map (keyed _ _).outbox hmem hold (hid.trans hevent.1)
      have hnew := Table.mem_replace_of_eq (t := outboxEvent) hold hid
      rw [← hsame, mem_outbox_iff, hevent.1] at hnew
      exact ⟨_, hnew.1, hevent⟩
    · exact hkept (hsame ▸ Table.mem_replace_of_ne hmem hid)

theorem find_outbox_before (h : StepEffect q s s')
    (hrow : outboxEvent.find s' id = some row') :
    outboxEvent.find s id = some row' ∨
      (∃ row data c, outboxEvent.find s id = some row ∧ updating? q = some (id, data) ∧
        row' = data c row) ∨
      (row'.publishedAt = none ∧ Names row'.aggregateId row'.payload ∧ '#' ∉ id.toList) := by
  obtain rfl : row'.id = id := Table.idOf_of_find hrow
  have hmem : row' ∈ (aggregate s' row'.aggregateId).outbox := mem_outbox_iff.mpr ⟨hrow, rfl⟩
  have hkept : row' ∈ (aggregate s row'.aggregateId).outbox →
      outboxEvent.find s row'.id = some row' := fun hmem => (mem_outbox_iff.mp hmem).1
  obtain hsame | hstep := message_of_stepEffect h row'.aggregateId
  · exact Or.inl (hkept (hsame ▸ hmem))
  obtain hsame | ⟨intent, hnames, c, hc, _, hsame⟩ | ⟨old, hold, data, c, hq, hsame⟩ :=
    outbox_of_messageStep hstep
  · exact Or.inl (hkept (hsame ▸ hmem))
  · rw [hsame] at hmem
    rcases List.mem_append.mp hmem with hmem | hmem
    · exact Or.inl (hkept hmem)
    · have hnew := List.mem_singleton.mp hmem
      have hpayload : row'.payload = intent.payload := by rw [hnew]; rfl
      exact Or.inr (Or.inr ⟨by rw [hnew]; rfl, hpayload ▸ hnames, by rw [hnew]; exact hc⟩)
  · rw [hsame] at hmem
    rcases Table.mem_of_mem_replace hmem with rfl | ⟨hmem, _⟩
    · have hid := (sameEvent_of_updating hq c old).1
      exact Or.inr (Or.inl ⟨old, data, c, hid ▸ (mem_outbox_iff.mp hold).1, hid ▸ hq, rfl⟩)
    · exact Or.inl (hkept hmem)

end Effects

/-- The state of a relay tick. -/
def relay? : Control → Option OutboxRelayService.State
  | .relay state => some state
  | _ => none

/-- The event is an outbox row that has been fetched. -/
def Fetched (s : Database) (event : UnpublishedOutboxEvent) : Prop :=
  ∃ row, outboxEvent.find s event.id = some row ∧ event.aggregateId = row.aggregateId ∧
    event.eventType = row.eventType ∧ event.payload = row.payload

/-- The events a tick works on are outbox rows, and the one that it is about to
mark has had its add. -/
def Batch (s : Database) (added : List Job) : OutboxRelayService.State → Prop
  | .adding event queueJob rest => queueJobFor event = .ok queueJob ∧
      ∀ event' ∈ event :: rest, Fetched s event'
  | .marking event rest => (∀ event' ∈ event :: rest, Fetched s event') ∧
      ∃ job ∈ added, Publishes event.eventType event.aggregateId event.id job
  | .recording event _ rest => ∀ event' ∈ event :: rest, Fetched s event'
  | _ => True

/-- The invariant of the publication: a marked row has had its add before. -/
structure Published (a : ServiceSnapshot) : Prop where
  named : ∀ id row, outboxEvent.find a.store id = some row → Names row.aggregateId row.payload
  marked : ∀ id row, outboxEvent.find a.store id = some row → row.publishedAt ≠ none →
    ∃ job ∈ a.ext.added, Publishes row.eventType row.aggregateId row.id job
  batches : ∀ (i : Nat) q state, a.controls[i]? = some q → relay? q = some state →
    Batch a.store a.ext.added state

section Batches

variable {q : Control} {s s' : Database} {added added' : List Job}

theorem Fetched.of_stepEffect {event : UnpublishedOutboxEvent} (h : Fetched s event)
    (heffect : StepEffect q s s') : Fetched s' event := by
  obtain ⟨row, hrow, hm, htype, hpayload⟩ := h
  obtain ⟨row', hrow', _, hm', htype', hpayload'⟩ := find_outbox_of_stepEffect heffect hrow
  exact ⟨row', hrow', hm.trans hm'.symm, htype.trans htype'.symm, hpayload.trans hpayload'.symm⟩

theorem Batch.of_stepEffect {state : OutboxRelayService.State} (h : Batch s added state)
    (heffect : StepEffect q s s') (hadded : ∀ job ∈ added, job ∈ added') :
    Batch s' added' state := by
  cases state with
  | adding event queueJob rest =>
      exact ⟨h.1, fun event' hevent => (h.2 event' hevent).of_stepEffect heffect⟩
  | marking event rest =>
      obtain ⟨hfetched, job, hjob, hpublishes⟩ := h
      exact ⟨fun event' hevent => (hfetched event' hevent).of_stepEffect heffect, job,
        hadded job hjob, hpublishes⟩
  | recording event description rest =>
      exact fun event' hevent => (h event' hevent).of_stepEffect heffect
  | _ => trivial

theorem batch_relay {events : List UnpublishedOutboxEvent} (h : ∀ event ∈ events, Fetched s event) :
    Batch s added (relay events) := by
  cases events with
  | nil => trivial
  | cons event rest =>
      rw [relay]
      split
      · exact h
      · rename_i hjob
        exact ⟨hjob, h⟩

theorem fetched_of_unpublished {limit : Nat} {c : Choice} {event : UnpublishedOutboxEvent}
    (h : event ∈ unpublished limit c s) : Fetched s event := by
  obtain ⟨row, hrow, rfl⟩ := List.mem_map.mp h
  have hrows := (List.mem_insertionSort _).mp ((List.mem_insertionSort _).mp
    (List.mem_of_mem_take hrow))
  exact ⟨row, (Table.mem_rows_iff.mp hrows).1, rfl, rfl, rfl⟩

end Batches

section Controls

variable {config : Config} {q q' : Control} {s s' : Database} {state : OutboxRelayService.State}

theorem relay?_eq_none (h : family q ≠ .relay) : relay? q = none := by
  cases q <;> first | rfl | exact absurd rfl h

theorem relay_of_ok (h : controlSpec config q s (.ok q') s') (hstate : relay? q' = some state) :
    ∃ events, state = relay events ∧
      ((∃ limit c, events = unpublished limit c s) ∨
        (∃ event, q = .relay (.marking event events)) ∨
        ∃ event description, q = .relay (.recording event description events)) := by
  by_cases hq : family q = .relay
  · cases q with
    | relay relayState =>
        cases relayState with
        | fetching batchSize =>
            obtain ⟨events, rfl, _, c, hevents⟩ := h
            exact ⟨events, (Option.some.inj hstate).symm, Or.inl ⟨batchSize, c, hevents⟩⟩
        | marking event rest =>
            obtain ⟨_, rfl, _⟩ := h
            exact ⟨rest, (Option.some.inj hstate).symm, Or.inr (Or.inl ⟨event, rfl⟩)⟩
        | recording event description rest =>
            obtain ⟨_, rfl, _⟩ := h
            exact ⟨rest, (Option.some.inj hstate).symm, Or.inr (Or.inr ⟨event, description, rfl⟩)⟩
        | _ => exact h.elim
    | _ => simp [family] at hq
  · simp [relay?_eq_none ((family_of_ok h).1 ▸ hq)] at hstate

theorem relay_of_error {t : Sql Control} {onError : Failure → Control} {e : Failure}
    (hcode : code config q = .tx t onError) (hstate : relay? (onError e) = some state) :
    state = .tickFailed ∨ ∃ event rest, q = .relay (.marking event rest) ∧
      state = .recording event e.message rest := by
  by_cases hq : family q = .relay
  · cases q with
    | relay relayState =>
        cases relayState with
        | fetching batchSize =>
            obtain ⟨_, rfl⟩ := Code.tx.inj hcode
            exact Or.inl (Option.some.inj hstate).symm
        | marking event rest =>
            obtain ⟨_, rfl⟩ := Code.tx.inj hcode
            exact Or.inr ⟨event, rest, rfl, (Option.some.inj hstate).symm⟩
        | recording event description rest =>
            obtain ⟨_, rfl⟩ := Code.tx.inj hcode
            exact Or.inl (Option.some.inj hstate).symm
        | _ => simp [code, relayCode] at hcode
    | _ => simp [family] at hq
  · simp [relay?_eq_none ((family_of_error hcode e).1 ▸ hq)] at hstate

theorem relay_of_crash (hstate : relay? (crash q) = some state) : state = .crashed := by
  cases q <;> first | exact (Option.some.inj hstate).symm | simp [crash, relay?] at hstate

theorem added_of_acts {c : Choice} {o o' : Outside} (h : Acts config c o q o' q') :
    ∀ job ∈ o.added, job ∈ o'.added := by
  intro job hjob
  cases h with
  | took htake =>
      obtain ⟨queued, _, _, _, _, rfl⟩ := Outside.takeJob_eq_some htake
      exact hjob
  | answered _ _ hanswer =>
      obtain ⟨started, state, _, _, rfl, _⟩ := Outside.answerCall_eq_some hanswer
      exact hjob
  | added => exact List.mem_append_left _ hjob
  | notAdded _ _ _ ho =>
      rcases ho with rfl | rfl
      · exact hjob
      · exact hjob
  | tookMaintenance _ htake =>
      obtain ⟨queued, _, _, _, _, rfl⟩ := Outside.takeJob_eq_some htake
      exact hjob
  | _ => exact hjob

end Controls

/-- What may be started: everything but retention and maintenance, and of the relay
only whole ticks. -/
def publishes : Control → Bool
  | .relay (.fetching _) => true
  | .relay _ => false
  | q => family q ≠ .purge && family q ≠ .maintenance

theorem lifecycle_of_publishes {q : Control} (h : publishes q) :
    Lifecycle q ∧ ∀ state, relay? q = some state → ∃ batchSize, state = .fetching batchSize := by
  cases q with
  | relay state =>
      cases state <;> simp_all [publishes, Lifecycle, family, relay?]
  | _ => simp_all [publishes, Lifecycle, family, relay?]

section Preservation

variable {config : Config} {a a' : ServiceSnapshot}

theorem Published.add_of_updating (h : Published a) {i : Nat} {q : Control} {id : String}
    {data : Choice → OutboxEvent → OutboxEvent} (hq : a.controls[i]? = some q)
    (hupdate : updating? q = some (id, data)) {row : OutboxEvent} {c : Choice}
    (hrow : outboxEvent.find a.store id = some row) (hpublished : (data c row).publishedAt ≠ none) :
    ∃ job ∈ a.ext.added, Publishes row.eventType row.aggregateId row.id job := by
  unfold updating? at hupdate
  split at hupdate
  · rename_i event rest
    obtain ⟨rfl, _⟩ := Prod.mk.inj (Option.some.inj hupdate)
    obtain ⟨hfetched, job, hjob, hpublishes⟩ := h.batches i _ _ hq rfl
    obtain ⟨row', hrow', hm, htype, _⟩ := hfetched event List.mem_cons_self
    obtain rfl : row = row' := Option.some.inj (hrow.symm.trans hrow')
    have hid : row.id = event.id := Table.idOf_of_find hrow
    rw [hm, htype, ← hid] at hpublishes
    exact ⟨job, hjob, hpublishes⟩
  · obtain ⟨rfl, rfl⟩ := Prod.mk.inj (Option.some.inj hupdate)
    exact h.marked _ row hrow hpublished
  · simp at hupdate

theorem Published.add_before (h : Published a) {i : Nat} {q : Control} {s : Database}
    (hq : a.controls[i]? = some q) (heffect : StepEffect q a.store s) {id : String}
    {row : OutboxEvent} (hrow : outboxEvent.find s id = some row)
    (hpublished : row.publishedAt ≠ none) :
    ∃ job ∈ a.ext.added, Publishes row.eventType row.aggregateId row.id job := by
  obtain hrow | ⟨old, data, c, hold, hupdate, rfl⟩ | ⟨hnone, _⟩ := find_outbox_before heffect hrow
  · exact h.marked id row hrow hpublished
  · obtain ⟨hid, hm, htype, _⟩ := sameEvent_of_updating hupdate c old
    rw [hid, hm, htype]
    exact h.add_of_updating hq hupdate hold hpublished
  · exact absurd hnone hpublished

theorem Published.set (h : Published a) {i : Nat} {q q' : Control} {s : Database} {x : Outside}
    (hq : a.controls[i]? = some q) (heffect : StepEffect q a.store s)
    (hadded : ∀ job ∈ a.ext.added, job ∈ x.added)
    (hbatch : ∀ state, relay? q' = some state → Batch s x.added state) :
    Published ⟨s, a.controls.set i q', x⟩ := by
  constructor
  · intro id row hrow
    obtain hrow | ⟨old, data, c, hold, hupdate, rfl⟩ | ⟨_, hnames, _⟩ :=
      find_outbox_before heffect hrow
    · exact h.named id row hrow
    · obtain ⟨_, hm, _, hpayload⟩ := sameEvent_of_updating hupdate c old
      rw [hm, hpayload]
      exact h.named id old hold
    · exact hnames
  · intro id row hrow hpublished
    obtain ⟨job, hjob, hpublishes⟩ := h.add_before hq heffect hrow hpublished
    exact ⟨job, hadded job hjob, hpublishes⟩
  · intro j q₂ state hq₂ hstate
    rcases getElem?_set_eq_some hq₂ with ⟨_, rfl⟩ | ⟨_, hq₂⟩
    · exact hbatch state hstate
    · exact (h.batches j q₂ state hq₂ hstate).of_stepEffect heffect hadded

theorem Published.spawn (h : Published a) {q : Control}
    (hq : ∀ state, relay? q = some state → ∃ batchSize, state = .fetching batchSize) :
    Published { a with controls := a.controls ++ [q] } := by
  refine ⟨h.named, h.marked, fun j q₂ state hq₂ hstate => ?_⟩
  rcases getElem?_concat_eq_some hq₂ with hq₂ | rfl
  · exact h.batches j q₂ state hq₂ hstate
  · obtain ⟨batchSize, rfl⟩ := hq state hstate
    trivial

theorem Published.ok (h : Published a) {i : Nat} {q q' : Control} {s : Database}
    (hq : a.controls[i]? = some q) (hspec : controlSpec config q a.store (.ok q') s) :
    Published ⟨s, a.controls.set i q', a.ext⟩ := by
  have heffect := stepEffect_of_controlSpec hspec
  refine h.set hq heffect (fun job hjob => hjob) fun state hstate => ?_
  obtain ⟨events, rfl, hevents⟩ := relay_of_ok hspec hstate
  refine batch_relay fun event hevent => Fetched.of_stepEffect ?_ heffect
  rcases hevents with ⟨limit, c, rfl⟩ | ⟨marked, rfl⟩ | ⟨failed, description, rfl⟩
  · exact fetched_of_unpublished hevent
  · exact (h.batches i _ _ hq rfl).1 event (List.mem_cons_of_mem _ hevent)
  · exact h.batches i _ _ hq rfl event (List.mem_cons_of_mem _ hevent)

theorem Published.error (h : Published a) {i : Nat} {q : Control} {t : Sql Control}
    {onError : Failure → Control} {e : Failure} {s : Database} (hq : a.controls[i]? = some q)
    (hcode : code config q = .tx t onError) (heffect : StepEffect q a.store s) :
    Published ⟨s, a.controls.set i (onError e), a.ext⟩ := by
  refine h.set hq heffect (fun job hjob => hjob) fun state hstate => ?_
  obtain rfl | ⟨event, rest, rfl, rfl⟩ := relay_of_error hcode hstate
  · trivial
  · exact fun event' hevent => ((h.batches i _ _ hq rfl).1 event' hevent).of_stepEffect heffect

theorem Published.adding (h : Published a) {i : Nat} {event : UnpublishedOutboxEvent}
    {queueJob : QueueJob} {rest : List UnpublishedOutboxEvent}
    (hq : a.controls[i]? = some (.relay (.adding event queueJob rest))) :
    (∀ event' ∈ event :: rest, Fetched a.store event') ∧
      Publishes event.eventType event.aggregateId event.id (queueJob.toJob event.id) := by
  obtain ⟨hjob, hfetched⟩ := h.batches i _ _ hq rfl
  obtain ⟨row, hrow, hm, _, hpayload⟩ := hfetched event List.mem_cons_self
  have hnames : Names event.aggregateId event.payload := by
    rw [hm, hpayload]
    exact h.named _ row hrow
  exact ⟨hfetched, publishes_of_queueJobFor hnames hjob⟩

theorem Published.act (h : Published a) {i : Nat} {q q' : Control} {c : Choice} {x : Outside}
    (hq : a.controls[i]? = some q) (hacts : Acts config c a.ext q x q') :
    Published ⟨a.store, a.controls.set i q', x⟩ := by
  refine h.set hq (Or.inl rfl) (added_of_acts hacts) fun state hstate => ?_
  cases hacts with
  | added event queueJob rest =>
      obtain ⟨hfetched, hpublishes⟩ := h.adding hq
      obtain rfl := Option.some.inj hstate
      exact ⟨hfetched, _, List.mem_append_right _ List.mem_cons_self, hpublishes⟩
  | notAdded event queueJob rest =>
      obtain rfl := Option.some.inj hstate
      exact (h.batches i _ _ hq rfl).2
  | _ => simp [relay?] at hstate

theorem Published.step (h : Published a) {l : ServiceLabel}
    (hl : Spawning (publishes ·) a l) (hstep : ServiceStep config a l a') : Published a' := by
  cases hstep with
  | spawn q => exact h.spawn (lifecycle_of_publishes (hl q rfl)).2
  | answer hq _ hspec => exact h.ok hq hspec
  | error hq hcode _ => exact h.error hq hcode (Or.inl rfl)
  | act hq hcode hact => exact h.act hq (acts_of_code hcode hact)
  | commit hq _ hspec => exact h.ok hq hspec
  | lost hq hcode hspec => exact h.error hq hcode (stepEffect_of_controlSpec hspec)
  | fault hq hcode => exact h.error hq hcode (Or.inl rfl)
  | crash hq _ =>
      refine h.set hq (Or.inl rfl) (fun job hjob => hjob) fun state hstate => ?_
      obtain rfl := relay_of_crash hstate
      trivial
  | env hmove =>
      have hadded := Outside.added_of_move hmove
      exact ⟨h.named, fun id row hrow hpublished => by
        simpa only [hadded] using h.marked id row hrow hpublished,
        fun j q state hq hstate => by simpa only [hadded] using h.batches j q state hq hstate⟩

end Preservation

theorem mem_unpublished {s : Database} {id : String} {row : OutboxEvent} {limit : Nat}
    (hrow : outboxEvent.find s id = some row) (hpublished : row.publishedAt = none)
    (hlimit : (outboxEvent.rows s fun row => row.publishedAt.isNone).length ≤ limit)
    (c : Choice) : unpublishedSelect row ∈ unpublished limit c s := by
  obtain rfl : row.id = id := Table.idOf_of_find hrow
  have hmem : row ∈ outboxEvent.rows s fun row => row.publishedAt.isNone :=
    Table.mem_rows_iff.mpr ⟨hrow, by simp [hpublished]⟩
  refine List.mem_map_of_mem ?_
  rw [List.take_of_length_le (by simpa [unordered, List.length_insertionSort] using hlimit)]
  exact (List.mem_insertionSort _).mpr ((List.mem_insertionSort _).mpr hmem)

section Runs

variable {config : Config} {w : ServiceWorld}

theorem published_of_reachable {a : ServiceSnapshot}
    (h : Reachable (ServiceStep config) (Spawning (publishes ·)) Initial a) : Published a := by
  refine Reachable.invariant (fun a hinit => ?_) (fun a l a' _ hpublished hl hstep => ?_) h
  · constructor <;> simp [hinit.store, hinit.controls, Table.find]
  · exact hpublished.step hl hstep

theorem published_of_reaches (h : Reaches config (Spawning (publishes ·)) Initial w) :
    Published w.abs :=
  published_of_reachable (h.atomic fun _ q hq => (lifecycle_of_publishes (hq q rfl)).1).2

/-- Publication at least once: in every run of any number of relay ticks, an outbox
row that a step leaves marked has had the add of its job before that step, and a
row without a successful add is unmarked and in every batch that is large
enough. -/
theorem outbox_publication (h : Reaches config (Spawning (publishes ·)) Initial w) :
    (∀ l w', Spawning (publishes ·) w.abs l → (service config).step w l = some w' →
      ∀ id row, outboxEvent.find w'.store id = some row → row.publishedAt ≠ none →
        ∃ job ∈ w.ext.added, Publishes row.eventType row.aggregateId row.id job) ∧
      ∀ id row, outboxEvent.find w.store id = some row →
        (∀ job ∈ w.ext.added, ¬Publishes row.eventType row.aggregateId row.id job) →
          row.publishedAt = none ∧ ∀ limit c,
            (outboxEvent.rows w.store fun row => row.publishedAt.isNone).length ≤ limit →
              unpublishedSelect row ∈ unpublished limit c w.store := by
  have hpublished := published_of_reaches h
  constructor
  · intro l w' hl hstep id row hrow hmarked
    obtain hsame | ⟨i, q, hq, _, heffect⟩ :=
      stepEffect_of_step (fun _ q hq => (lifecycle_of_publishes (hq q rfl)).1) h hl hstep
    · rw [hsame] at hrow
      exact hpublished.marked id row hrow hmarked
    · exact hpublished.add_before hq heffect hrow hmarked
  · intro id row hrow hnone
    have hunmarked : row.publishedAt = none := by
      by_contra hmarked
      obtain ⟨job, hjob, hpublishes⟩ := hpublished.marked id row hrow hmarked
      exact hnone job hjob hpublishes
    exact ⟨hunmarked, fun limit c hlimit => mem_unpublished hrow hunmarked hlimit c⟩

/-- Two ticks that have both fetched the event of a new message: the first one adds
the job and marks the event, the second one fails. -/
theorem outbox_publication_two_ticks :
    ∃ w w' row, Reaches sampleConfig (Spawning (publishes ·)) Initial w ∧
      (service sampleConfig).step w (.commit 1) = some w' ∧
      outboxEvent.find w'.store "m" = some row ∧ row.publishedAt ≠ none ∧
      ∃ job ∈ w.ext.added, Publishes row.eventType row.aggregateId row.id job := by
  obtain ⟨w, hw, hstep⟩ := exists_reaches_of_exec sampleConfig (Spawning (publishes ·))
    (creation ++ .spawn (.relay (.fetching 1)) :: .spawn (.relay (.fetching 1)) ::
      statements 1 1 (sampleChoice "" 1) ++ statements 2 1 (sampleChoice "" 1) ++
      statements 1 1 (sampleChoice "" 2) ++
      statements 2 1 { sampleChoice "" 2 with served := false } ++
      statements 1 1 (sampleChoice "" 3))
    (fun w => ((service sampleConfig).step w (.commit 1)).any fun w' =>
      (outboxEvent.find w'.store "m").any fun row => row.publishedAt.isSome)
    (by decide +kernel)
  obtain ⟨w', hw', hfound⟩ := (Option.any_eq_true _ _).mp hstep
  obtain ⟨row, hrow, hmarked⟩ := (Option.any_eq_true _ _).mp hfound
  have hmarked' : row.publishedAt ≠ none := Option.isSome_iff_ne_none.mp hmarked
  exact ⟨w, w', row, hw, hw', hrow, hmarked',
    (outbox_publication hw).1 _ w' (fun q hq => by cases hq) hw' "m" row hrow hmarked'⟩

end Runs

end SmsNotification.OutboxPublication

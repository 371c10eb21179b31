import SmsNotification.AmbiguousExpiry
import SmsNotification.MaintenanceRefinement
import SmsNotification.RetryBackoff

namespace SmsNotification.GracePeriod

open SmsNotification.ActorSystem
open SmsNotification.AmbiguousExpiry
open SmsNotification.AttemptLedger
open SmsNotification.DispatchClaims
open SmsNotification.JobHandout
open SmsNotification.LabelledRuns
open SmsNotification.LifecycleEffects
open SmsNotification.MaintenanceRefinement
open SmsNotification.MessageAggregate
open SmsNotification.NoDuplicateDelivery
open SmsNotification.OutboxConservation
open SmsNotification.OutboxPublication
open SmsNotification.OutboxRelayService
open SmsNotification.QueueConstants
open SmsNotification.RetryBackoff
open SmsNotification.Schema
open SmsNotification.Service
open SmsNotification.ServiceEffects
open SmsNotification.ServiceRuns
open SmsNotification.SmsLifecycleRepository
open SmsNotification.Surroundings
open SmsNotification.WholeService

/-- The row is an expiry of the message. -/
def ExpiryOf (m : String) (row : OutboxEvent) : Prop :=
  row.aggregateId = m ∧ row.eventType = "SMS_AMBIGUOUS_OUTCOME_EXPIRY_SCHEDULED"

/-- The expiry of the message has been scheduled. -/
def HasExpiry (s : Database) (m : String) : Prop :=
  ∃ id row, outboxEvent.find s id = some row ∧ ExpiryOf m row

/-- No message has had two expiries scheduled. -/
def OneExpiry (s : Database) : Prop :=
  ∀ m id id' row row', outboxEvent.find s id = some row → outboxEvent.find s id' = some row' →
    ExpiryOf m row → ExpiryOf m row' → id = id'

/-- What may be started: the service with its maintenance workers, of which the expiry
worker alone expires messages. -/
def graces : Control → Bool
  | .calling (.expireAmbiguousOutcome _) => false
  | q => works q

/-- The step puts an expiry job on the maintenance queue, past the relay. -/
def plantsExpiry : ServiceLabel → Bool
  | .env c =>
      match c.move with
      | .schedule job => job.name = ambiguousOutcomeExpiryJob
      | _ => false
  | _ => false

/-- Steps in which expiry jobs come from the relay. -/
def Gracious (a : ServiceSnapshot) (l : ServiceLabel) : Prop :=
  Spawning (graces ·) a l ∧ plantsExpiry l = false

instance Gracious.decidable (a : ServiceSnapshot) (l : ServiceLabel) : Decidable (Gracious a l) :=
  inferInstanceAs (Decidable (_ ∧ _))

section Tables

variable {q : Control} {s s' : Database} {m : String}

theorem ExpiryOf.of_sameEvent {row row' : OutboxEvent} (h : ExpiryOf m row)
    (hsame : SameEvent row row') : ExpiryOf m row' := by
  obtain ⟨_, hm, htype, _⟩ := hsame
  exact ⟨hm.trans h.1, htype.trans h.2⟩

theorem HasExpiry.of_stepEffect (h : HasExpiry s m) (heffect : StepEffect q s s') :
    HasExpiry s' m := by
  obtain ⟨id, row, hrow, hexpiry⟩ := h
  obtain ⟨row', hrow', hsame⟩ := find_outbox_of_stepEffect heffect hrow
  exact ⟨id, row', hrow', hexpiry.of_sameEvent hsame⟩

theorem intents_expiry_le_one {A : Aggregate} (hkeyed : A.Keyed) (hledger : Ledger A)
    (hscheduled : ExpiriesScheduled A) : intents isExpiryEvent A ≤ 1 := by
  rw [hscheduled, List.countP_eq_length_filter]
  exact length_filter_le_one hkeyed.attempts.of_map fun a ha b hb hlive hlive' =>
    hledger.eq_of_live ha hb (live_of_isUnresolved hlive) (live_of_isUnresolved hlive')

theorem eq_of_countP_le_one {α : Type} {p : α → Bool} {xs : List α} (h : xs.countP p ≤ 1)
    {x y : α} (hx : x ∈ xs) (hy : y ∈ xs) (hpx : p x) (hpy : p y) : x = y := by
  rw [List.countP_eq_length_filter] at h
  have hx' : x ∈ xs.filter p := List.mem_filter.mpr ⟨hx, hpx⟩
  have hy' : y ∈ xs.filter p := List.mem_filter.mpr ⟨hy, hpy⟩
  rcases hfilter : xs.filter p with _ | ⟨z, _ | ⟨z', rest⟩⟩
  · simp [hfilter] at hx'
  · rw [hfilter, List.mem_singleton] at hx' hy'
    exact hx'.trans hy'.symm
  · simp [hfilter] at h

theorem oneExpiry_of_counts (h : ∀ m, intents isExpiryEvent (aggregate s m) ≤ 1) :
    OneExpiry s := by
  intro m id id' row row' hrow hrow' hexpiry hexpiry'
  obtain rfl : row.id = id := Table.idOf_of_find hrow
  obtain rfl : row'.id = id' := Table.idOf_of_find hrow'
  refine congrArg OutboxEvent.id (eq_of_countP_le_one (h m)
    (mem_outbox_iff.mpr ⟨hrow, hexpiry.1⟩) (mem_outbox_iff.mpr ⟨hrow', hexpiry'.1⟩) ?_ ?_)
  · exact decide_eq_true hexpiry.2
  · exact decide_eq_true hexpiry'.2

end Tables

section Steps

variable {config : Config} {a a' : ServiceSnapshot} {l : ServiceLabel} {m : String}

theorem works_of_graces {q : Control} (h : graces q) : works q := by
  unfold graces at h
  split at h
  · simp at h
  · exact h

theorem published_of_mirrors {b : ServiceSnapshot} (h : Mirrors a b) (hb : Published b) :
    Published a := by
  obtain ⟨jobs, completed, _, hext⟩ := h.outside
  have hadded : b.ext.added = a.ext.added := by rw [hext]
  refine ⟨h.store ▸ hb.named, ?_, fun i q state hq hstate => ?_⟩
  · rw [← h.store, ← hadded]
    exact hb.marked
  · cases q with
    | relay state' =>
        obtain ⟨j, hj, _⟩ := h.controls.exists_get hq (by simp [family])
        rw [← h.store, ← hadded]
        exact hb.batches j _ state hj hstate
    | _ => simp [relay?] at hstate

theorem published_of_whole (h : Reachable (WholeStep config) Gracious Initial a) :
    Published a ∧ OneExpiry a.store := by
  have hpermitted : ∀ a l, Reachable (WholeStep config) Gracious Initial a → Gracious a l →
      Spawning (works ·) a l ∧ Permits (Spawning (delivers ·)) a l := fun a l _ hl =>
    ⟨fun q hq => works_of_graces (hl.1 q hq), permits_spawning a l⟩
  obtain ⟨b, hb, hmirrors⟩ := exists_mirror hpermitted h
  refine ⟨published_of_mirrors hmirrors (published_of_reachable
    (hb.mono fun _ _ hl q hq => publishes_of_delivers (hl q hq))), ?_⟩
  rw [← hmirrors.store]
  refine oneExpiry_of_counts fun m =>
    intents_expiry_le_one (keyed _ _) ((guarded_of_reachable hb).ledger m) ?_
  refine aggregate_invariant (fun _ A => ExpiriesScheduled A) (fun a hinit m => ?_)
    (fun q m A A' hkeyed hinv hstep => expiriesScheduled_of_messageStep hkeyed hinv hstep) hb m
  rw [hinit.store, aggregate_empty]
  rfl

/-- The job is one of an expiry of the message that no worker has in hand yet. -/
def AsksExpiry (m : String) (queued : QueuedJob) : Prop :=
  queued.state ≠ .active ∧ queued.job.queue = .smsMaintenance ∧
    queued.job.name = ambiguousOutcomeExpiryJob ∧ queued.job.messageId = some m

/-- The expiry worker is about to give the message up. -/
def givesUp? : Control → Option String
  | .maintenance (.expiring _ m) => some m
  | _ => none

theorem givesUp_of_ok {q q' : Control} {s s' : Database}
    (h : wholeSpec config q s (.ok q') s') : givesUp? q' = none := by
  by_cases hfamily : family q = .maintenance
  · cases q with
    | maintenance state =>
        cases state
        case selecting task cutoff =>
          obtain ⟨candidates, rfl, _⟩ := h
          cases candidates <;> rfl
        case recovering task cutoff candidate rest =>
          obtain ⟨_, rfl, _⟩ := h
          cases rest <;> rfl
        case expiring task m =>
          obtain ⟨_, rfl, _⟩ := h
          rfl
        all_goals exact h.elim
    | _ => simp [family] at hfamily
  · have hfamily' := (family_of_ok (controlSpec_of_wholeSpec h hfamily)).1
    cases q' with
    | maintenance state => exact absurd (hfamily'.symm.trans rfl) hfamily
    | _ => rfl

theorem givesUp_of_error {q : Control} {t : Sql Control} {onError : Failure → Control}
    (hcode : code config q = .tx t onError) (e : Failure) : givesUp? (onError e) = none := by
  cases q with
  | maintenance state =>
      cases state
      case purging | selecting | recovering | expiring =>
        obtain ⟨_, rfl⟩ := Code.tx.inj hcode
        rfl
      all_goals simp [code, maintenanceCode] at hcode
  | _ =>
      have hfamily := (family_of_error hcode e).1
      cases hq' : onError e with
      | maintenance state => simp [hq', family] at hfamily
      | _ => rfl

theorem givesUp_of_acts {q q' : Control} {c : Choice} {o o' : Outside}
    (h : Acts config c o q o' q') (hgives : givesUp? q' = some m) :
    ∃ queued ∈ o.jobs, queued.state = .waiting ∧ AsksExpiry m queued := by
  cases h with
  | tookMaintenance processor htake =>
      obtain ⟨queued, hqueued, rfl, hqueue, hwaiting, _⟩ := Outside.takeJob_eq_some htake
      cases processor with
      | retention =>
          simp only [MaintenanceProcessors.process,
            MaintenanceProcessors.RetentionProcessor.process] at hgives
          split at hgives <;> simp [givesUp?] at hgives
      | processingRecovery =>
          simp only [MaintenanceProcessors.process,
            MaintenanceProcessors.ProcessingRecoveryProcessor.process] at hgives
          split at hgives <;> simp [givesUp?] at hgives
      | ambiguousOutcomeExpiry =>
          simp only [MaintenanceProcessors.process,
            MaintenanceProcessors.AmbiguousOutcomeExpiryProcessor.process] at hgives
          split at hgives
          · simp [givesUp?] at hgives
          · rename_i hname
            split at hgives
            · rename_i hmessage
              refine ⟨queued, List.mem_of_getElem? hqueued, hwaiting, by simp [hwaiting], hqueue,
                not_ne_iff.mp hname, ?_⟩
              rw [hmessage, ← Option.some.inj hgives]
            · simp [givesUp?] at hgives
  | _ => simp [givesUp?] at hgives

theorem givesUp_of_step (hl : Gracious a l) (hstep : WholeStep config a l a') {i : Nat}
    {q' : Control} (hq' : a'.controls[i]? = some q') (hgives : givesUp? q' = some m) :
    a.controls[i]? = some q' ∨
      ∃ queued ∈ a.ext.jobs, queued.state = .waiting ∧ AsksExpiry m queued := by
  have hset : ∀ {j : Nat} {q : Control}, givesUp? q = none →
      (a.controls.set j q)[i]? = some q' → a.controls[i]? = some q' := by
    intro j q hnone hset
    rcases getElem?_set_eq_some hset with ⟨_, rfl⟩ | ⟨_, hset⟩
    · simp [hnone] at hgives
    · exact hset
  cases hstep with
  | spawn q =>
      rcases getElem?_concat_eq_some hq' with hq' | rfl
      · exact Or.inl hq'
      · have hgraces := hl.1 q' rfl
        cases q' with
        | maintenance state =>
            cases state
            case expiring => simp [graces, works, delivers] at hgraces
            all_goals simp [givesUp?] at hgives
        | _ => simp [givesUp?] at hgives
  | answer _ _ hspec | commit _ _ hspec => exact Or.inl (hset (givesUp_of_ok hspec) hq')
  | error _ hcode _ | lost _ hcode _ => exact Or.inl (hset (givesUp_of_error hcode _) hq')
  | fault _ hcode => exact Or.inl (hset (givesUp_of_error hcode _) hq')
  | @crash j q _ _ => exact Or.inl (hset (by cases q <;> rfl) hq')
  | env _ => exact Or.inl hq'
  | act hq hcode hact =>
      rcases getElem?_set_eq_some hq' with ⟨_, rfl⟩ | ⟨_, hq'⟩
      · exact Or.inr (givesUp_of_acts (acts_of_code hcode hact) hgives)
      · exact Or.inl hq'

theorem asked_of_step (hl : Gracious a l) (hstep : WholeStep config a l a')
    {queued : QueuedJob} (hqueued : queued ∈ a'.ext.jobs) (hasks : AsksExpiry m queued) :
    queued ∈ a.ext.jobs ∨
      ({ queued with state := .delayed } ∈ a.ext.jobs ∧
        queued.job.delay.all fun ms => (queued.addedAt : ℚ) + ms ≤ a.ext.clock) ∨
      ∃ (i : Nat) (event : UnpublishedOutboxEvent) (queueJob : QueueJob)
        (rest : List UnpublishedOutboxEvent),
        a.controls[i]? = some (.relay (.adding event queueJob rest)) ∧
        queued.job = queueJob.toJob event.id ∧ queued.addedAt = a.ext.clock ∧
          ((queueJob.delay.any fun ms => 0 < ms) → queued.state = .delayed) := by
  cases hstep with
  | act hq hcode hact =>
      rename_i i c q q' x act
      by_cases hadding : ∃ event queueJob rest, q = .relay (.adding event queueJob rest)
      · obtain ⟨event, queueJob, rest, rfl⟩ := hadding
        have hjobs := jobs_of_adding config hcode hact
        by_cases heffect : (c.served || c.effective) = true
        · rw [if_pos heffect] at hjobs
          obtain hmem | ⟨_, hjob, hrest⟩ := mem_jobs_addJob (hjobs ▸ hqueued)
          · exact Or.inl hmem
          · exact Or.inr (Or.inr ⟨i, event, queueJob, rest, hq, hjob, hrest⟩)
        · rw [if_neg heffect] at hjobs
          exact Or.inl (hjobs ▸ hqueued)
      · exact Or.inl (mem_jobs_of_acts (acts_of_code hcode hact)
          (fun event queueJob rest heq => hadding ⟨event, queueJob, rest, heq⟩) hqueued hasks.1)
  | @env c o hmove =>
      have hplants := hl.2
      have hmove : a.ext.move c = some o := hmove
      unfold Outside.move at hmove
      split at hmove
      · obtain ⟨started, _, _, rfl⟩ := Outside.acceptCall_eq_some hmove
        exact Or.inl hqueued
      · obtain rfl := Option.some.inj hmove
        obtain ⟨old, hold, rfl⟩ := List.mem_map.mp hqueued
        split
        · rename_i hdue
          simp only [Bool.and_eq_true, decide_eq_true_eq] at hdue
          obtain ⟨⟨_, hdelayed⟩, hdue⟩ := hdue
          refine Or.inr (Or.inl ⟨?_, hdue⟩)
          rwa [← hdelayed]
        · exact Or.inl hold
      · obtain rfl := Option.some.inj hmove
        exact Or.inl hqueued
      · rename_i job hjob
        split at hmove
        · obtain rfl := Option.some.inj hmove
          obtain hmem | ⟨_, hjob', _⟩ := mem_jobs_addJob hqueued
          · exact Or.inl hmem
          · have hname := hasks.2.2.1
            simp [plantsExpiry, hjob, ← hjob', hname] at hplants
        · simp at hmove
  | _ => exact Or.inl hqueued

theorem type_of_maintenance {eventType : String} (h : queueOf eventType = some .smsMaintenance) :
    eventType = "SMS_AMBIGUOUS_OUTCOME_EXPIRY_SCHEDULED" := by
  unfold queueOf at h
  split at h
  · simp at h
  · split at h
    · simp at h
    · split at h
      · assumption
      · simp at h

theorem expiry_of_adding (hpublished : Published a) {i : Nat} {event : UnpublishedOutboxEvent}
    {queueJob : QueueJob} {rest : List UnpublishedOutboxEvent}
    (hq : a.controls[i]? = some (.relay (.adding event queueJob rest))) {queued : QueuedJob}
    (hasks : AsksExpiry m queued) (hjob : queued.job = queueJob.toJob event.id) :
    ∃ row, outboxEvent.find a.store event.id = some row ∧ ExpiryOf m row ∧
      event.payload = row.payload ∧
      event.eventType = "SMS_AMBIGUOUS_OUTCOME_EXPIRY_SCHEDULED" := by
  obtain ⟨hfetched, hpublishes, _, hmessage⟩ := hpublished.adding hq
  obtain ⟨row, hrow, hm, htype, hpayload⟩ := hfetched event List.mem_cons_self
  obtain ⟨_, hqueue, _, hasked⟩ := hasks
  rw [hjob] at hqueue hasked
  have hexpiry := type_of_maintenance (hqueue ▸ hpublishes)
  have hsame : event.aggregateId = m := Option.some.inj (hmessage.symm.trans hasked)
  exact ⟨row, hrow, ⟨hm.symm.trans hsame, htype.symm.trans hexpiry⟩, hpayload, hexpiry⟩

theorem stepEffect_of_wholeStep (hstep : WholeStep config a l a') :
    ∃ q, StepEffect q a.store a'.store := by
  obtain hsame | ⟨i, q, q', _, _, hspec⟩ := hstep.store
  · exact ⟨.crashed, stepEffect_of_eq hsame⟩
  · exact ⟨q, stepEffect_of_wholeSpec hspec⟩

theorem clock_of_wholeStep (hstep : WholeStep config a l a') : a.ext.clock ≤ a'.ext.clock := by
  cases hstep with
  | act _ hcode hact => exact (acts_of_code hcode hact).clock.ge
  | env hmove => exact Outside.clock_of_move hmove
  | _ => exact le_rfl

/-- The invariant of the expiries: what asks for one has its event. -/
structure Linked (a : ServiceSnapshot) : Prop where
  queued : ∀ m, ∀ queued ∈ a.ext.jobs, AsksExpiry m queued → HasExpiry a.store m
  held : ∀ (i : Nat) q m, a.controls[i]? = some q → givesUp? q = some m → HasExpiry a.store m

theorem Linked.step (h : Linked a) (hpublished : Published a) (hl : Gracious a l)
    (hstep : WholeStep config a l a') : Linked a' := by
  obtain ⟨_, heffect⟩ := stepEffect_of_wholeStep hstep
  constructor
  · intro m queued hqueued hasks
    obtain hmem | ⟨hmem, _⟩ | ⟨i, event, queueJob, rest, hq, hjob, _⟩ :=
      asked_of_step hl hstep hqueued hasks
    · exact (h.queued m queued hmem hasks).of_stepEffect heffect
    · exact (h.queued m _ hmem ⟨by simp, hasks.2⟩).of_stepEffect heffect
    · obtain ⟨row, hrow, hexpiry, _⟩ := expiry_of_adding hpublished hq hasks hjob
      exact HasExpiry.of_stepEffect ⟨event.id, row, hrow, hexpiry⟩ heffect
  · intro i q m hq hgives
    obtain hbefore | ⟨queued, hmem, _, hasks⟩ := givesUp_of_step hl hstep hq hgives
    · exact (h.held i q m hbefore hgives).of_stepEffect heffect
    · exact (h.queued m queued hmem hasks).of_stepEffect heffect

/-- The invariant of an expiry that is to wait `d` from the time `t` on: until then no
worker can take a job for it. -/
structure Unready (m e : String) (t : Int) (d : ℚ) (a : ServiceSnapshot) : Prop where
  since : t ≤ a.ext.clock
  event : ∃ row, outboxEvent.find a.store e = some row ∧ ExpiryOf m row ∧
    row.payload = delayedPayload m d
  queued : (a.ext.clock : ℚ) < t + d → ∀ queued ∈ a.ext.jobs, AsksExpiry m queued →
    queued.state = .delayed ∧ t ≤ queued.addedAt ∧ queued.job.delay = some d
  held : (a.ext.clock : ℚ) < t + d → ∀ (i : Nat) q, a.controls[i]? = some q →
    givesUp? q ≠ some m

variable {e : String} {t : Int} {d : ℚ}

theorem Unready.added (h : Unready m e t d a) (hpublished : Published a)
    (hone : OneExpiry a.store) (hbefore : (a.ext.clock : ℚ) < t + d) {i : Nat}
    {event : UnpublishedOutboxEvent} {queueJob : QueueJob} {rest : List UnpublishedOutboxEvent}
    (hq : a.controls[i]? = some (.relay (.adding event queueJob rest))) {queued : QueuedJob}
    (hasks : AsksExpiry m queued) (hjob : queued.job = queueJob.toJob event.id)
    (hadded : queued.addedAt = a.ext.clock)
    (hdelayed : (queueJob.delay.any fun ms => 0 < ms) → queued.state = .delayed) :
    queued.state = .delayed ∧ t ≤ queued.addedAt ∧ queued.job.delay = some d := by
  obtain ⟨row, hrow, hexpiry, hpayload⟩ := h.event
  obtain ⟨row', hrow', hexpiry', hpayload', htype⟩ := expiry_of_adding hpublished hq hasks hjob
  -- the event that the relay is at is the only expiry of the message
  obtain rfl := hone m _ _ row row' hrow hrow' hexpiry hexpiry'
  obtain rfl := Option.some.inj (hrow.symm.trans hrow')
  have hdelay := delay_of_delayed (hpublished.batches i _ _ hq rfl).1 (Or.inr htype)
    (hpayload'.trans hpayload)
  have hpositive : 0 < d := by
    have hsince : (t : ℚ) ≤ a.ext.clock := by exact_mod_cast h.since
    linarith
  refine ⟨hdelayed ?_, hadded ▸ h.since, by rw [hjob]; exact hdelay⟩
  rw [hdelay, Option.any_some, decide_eq_true_eq]
  exact hpositive

/-- A job for the expiry that a worker can take in time is not there before its time. -/
theorem Unready.step (h : Unready m e t d a) (hpublished : Published a)
    (hone : OneExpiry a.store) (hl : Gracious a l) (hstep : WholeStep config a l a') :
    Unready m e t d a' := by
  have hclock := clock_of_wholeStep hstep
  have hearly : (a'.ext.clock : ℚ) < t + d → (a.ext.clock : ℚ) < t + d := fun hbefore =>
    lt_of_le_of_lt (by exact_mod_cast hclock) hbefore
  constructor
  · exact h.since.trans hclock
  · obtain ⟨row, hrow, hexpiry, hpayload⟩ := h.event
    obtain ⟨_, heffect⟩ := stepEffect_of_wholeStep hstep
    obtain ⟨row', hrow', hsame⟩ := find_outbox_of_stepEffect heffect hrow
    exact ⟨row', hrow', hexpiry.of_sameEvent hsame, hsame.2.2.2.trans hpayload⟩
  · intro hbefore queued hmem hasks
    obtain hmem | ⟨hmem, hdue⟩ | ⟨i, event, queueJob, rest, hq, hjob, hadded, hdelayed⟩ :=
      asked_of_step hl hstep hmem hasks
    · exact h.queued (hearly hbefore) queued hmem hasks
    · -- a job whose time has come is due after the delay
      obtain ⟨_, hsince, hdelay⟩ := h.queued (hearly hbefore) _ hmem ⟨by simp, hasks.2⟩
      have hdelay' : queued.job.delay = some d := hdelay
      rw [hdelay', Option.all_some, decide_eq_true_eq] at hdue
      have hsince' : (t : ℚ) ≤ queued.addedAt := by exact_mod_cast hsince
      have hlate := hearly hbefore
      linarith
    · exact h.added hpublished hone (hearly hbefore) hq hasks hjob hadded hdelayed
  · intro hbefore i q hq hgives
    obtain hkept | ⟨queued, hmem, hwaiting, hasks⟩ := givesUp_of_step hl hstep hq hgives
    · exact h.held (hearly hbefore) i q hkept hgives
    · obtain ⟨hdelayed, _⟩ := h.queued (hearly hbefore) queued hmem hasks
      simp [hwaiting] at hdelayed

/-- The expiry of the message is scheduled in the step, with the delay. -/
def SchedulesExpiry (m : String) (d : ℚ) (w w' : ServiceWorld) : Prop :=
  ∃ e row, outboxEvent.find w.store e = none ∧ outboxEvent.find w'.store e = some row ∧
    ExpiryOf m row ∧ row.payload = delayedPayload m d

theorem unready_of_scheduled (hlinked : Linked a) (hone : OneExpiry a'.store)
    (hl : Gracious a l) (hstep : WholeStep config a l a')
    {row : OutboxEvent} (hnone : outboxEvent.find a.store e = none)
    (hrow : outboxEvent.find a'.store e = some row) (hexpiry : ExpiryOf m row)
    (hpayload : row.payload = delayedPayload m d) : Unready m e a.ext.clock d a' := by
  obtain ⟨q, heffect⟩ := stepEffect_of_wholeStep hstep
  -- an earlier expiry would be a second one
  have hfirst : ¬HasExpiry a.store m := by
    rintro ⟨id, row₁, hrow₁, hexpiry₁⟩
    obtain ⟨row₂, hrow₂, hsame⟩ := find_outbox_of_stepEffect heffect hrow₁
    obtain rfl := hone m _ _ row₂ row hrow₂ hrow (hexpiry₁.of_sameEvent hsame) hexpiry
    simp [hnone] at hrow₁
  have hext : a'.ext = a.ext := by
    cases hstep with
    | act | env => simp [hnone] at hrow
    | _ => rfl
  refine ⟨(clock_of_wholeStep hstep), ⟨row, hrow, hexpiry, hpayload⟩,
    fun _ queued hmem hasks => ?_, fun _ i q hq hgives => ?_⟩
  · rw [hext] at hmem
    exact absurd (hlinked.queued m queued hmem hasks) hfirst
  · obtain hkept | ⟨queued, hmem, _, hasks⟩ := givesUp_of_step hl hstep hq hgives
    · exact absurd (hlinked.held i q m hkept hgives) hfirst
    · exact absurd (hlinked.queued m queued hmem hasks) hfirst

end Steps

section Runs

variable {config : Config} {m : String} {d : ℚ} {w w₀ v : ServiceWorld}

theorem serves_of_gracious (a : ServiceSnapshot) (q : Control) (h : Gracious a (.spawn q)) :
    serves q :=
  serves_of_works (works_of_graces (h.1 q rfl))

theorem linked_of_whole {a : ServiceSnapshot}
    (h : Reachable (WholeStep config) Gracious Initial a) : Linked a := by
  refine Reachable.invariant (fun a hinit => ?_) (fun a l a' hreach hlinked hl hstep =>
    hlinked.step (published_of_whole hreach).1 hl hstep) h
  constructor <;> simp [hinit.controls, hinit.ext, Outside.empty]

theorem wholeStep_of_step (h : Reaches config Gracious Initial w) {l : ServiceLabel}
    {w' : ServiceWorld} (hl : Gracious w.abs l) (hstep : (service config).step w l = some w') :
    w'.abs = w.abs ∨ WholeStep config w.abs l w'.abs :=
  (simulates (sound_whole config) (h.simulated (sound_whole config) serves_of_gracious).1
    (fun q hq => serves_of_gracious w.abs q (hq ▸ hl)) hstep).2

theorem whole_of_gracious (h : Reaches config Gracious Initial w) :
    Reachable (WholeStep config) Gracious Initial w.abs :=
  (h.simulated (sound_whole config) serves_of_gracious).2

theorem unready_of_later {e : String} {t : Int} (h : Reaches config Gracious Initial w₀)
    (hunready : Unready m e t d w₀.abs) (hlater : Later config Gracious w₀ v) :
    Unready m e t d v.abs := by
  induction hlater with
  | start h0 => exact h0 ▸ hunready
  | next l hprev hl hstep ih =>
      have hu := h.later (fun _ _ hl => hl) hprev
      obtain hsame | hwhole := wholeStep_of_step hu hl hstep
      · exact hsame ▸ ih
      · obtain ⟨hpublished, hone⟩ := published_of_whole (whole_of_gracious hu)
        exact ih.step hpublished hone hl hwhole

/-- The grace period: with any number of relays, of workers of both kinds and of
administrators, operators and carriers, and whatever is relayed twice, no expiry worker
comes to give a message up before the delay of its expiry event is over since the event was
committed. -/
theorem grace_period (h : Reaches config Gracious Initial w) {l : ServiceLabel}
    (hl : Gracious w.abs l) (hstep : (service config).step w l = some w₀)
    (hschedules : SchedulesExpiry m d w w₀) (hlater : Later config Gracious w₀ v) {i : Nat}
    {q : Control} (hq : v.abs.controls[i]? = some q) (hgives : givesUp? q = some m) :
    (w.ext.clock : ℚ) + d ≤ v.ext.clock := by
  obtain ⟨e, row, hnone, hrow, hexpiry, hpayload⟩ := hschedules
  have hw₀ : Reaches config Gracious Initial w₀ := Reachable.next l h hl hstep
  obtain hsame | hwhole := wholeStep_of_step h hl hstep
  · rw [show w₀.store = w.store from congrArg Snapshot.store hsame, hnone] at hrow
    simp at hrow
  · have hunready : Unready m e w.ext.clock d w₀.abs :=
      unready_of_scheduled (linked_of_whole (whole_of_gracious h))
        (published_of_whole (whole_of_gracious hw₀)).2 hl hwhole hnone hrow hexpiry hpayload
    by_contra hearly
    exact (unready_of_later hw₀ hunready hlater).held (not_le.mp hearly) i q hq hgives

/-- Worker 1 has the message `m`, its provider does not tell whether it has accepted, and the
worker is about to commit that. -/
def doubting : List ServiceLabel :=
  creation ++ callingPass ++
    statements 1 1 { sampleChoice "" 1 with reply := some ⟨false, none, none, false, some true⟩ } ++
    statements 1 2 (sampleChoice "x" 1)

/-- Relay 2 publishes both events of the message, and when the time is over worker 3 takes
the job of the expiry. -/
def expiringLate : List ServiceLabel :=
  .spawn (.relay (.fetching 2)) :: statements 2 3 (sampleChoice "" 2) ++ .commit 2 ::
    statements 2 1 (sampleChoice "" 3) ++
    .env { sampleChoice "" 4 with move := .tick 900000 } ::
    .env { sampleChoice "" 4 with move := .promote "m#x" } ::
    .spawn (.maintenance (.idle .ambiguousOutcomeExpiry)) ::
    statements 3 1 { sampleChoice "" 5 with pick := 1 }

/-- The payload is that of an event of the message `m` with a delay `d`. -/
def isDelayed (m : String) (d : ℚ) : Json → Bool
  | .obj [(name, .str m'), (name', .num d')] =>
      name = "messageId" && m' = m && name' = "delayMs" && d' = d
  | _ => false

theorem payload_of_isDelayed {payload : Json} (h : isDelayed m d payload) :
    payload = delayedPayload m d := by
  unfold isDelayed at h
  split at h
  · simp only [Bool.and_eq_true, decide_eq_true_eq] at h
    obtain ⟨⟨⟨rfl, rfl⟩, rfl⟩, rfl⟩ := h
    rfl
  · simp at h

/-- An expiry that is performed when its delay is over. -/
theorem grace_period_over :
    ∃ w w₀ v, Reaches sampleConfig Gracious Initial w ∧
      SchedulesExpiry "m" 900000 w w₀ ∧ Later sampleConfig Gracious w₀ v ∧
      v.abs.controls[3]?.bind givesUp? = some "m" ∧
      (w.ext.clock : ℚ) + 900000 ≤ v.ext.clock := by
  obtain ⟨w, hw, hnone, hrest⟩ := exists_reaches_of_exec sampleConfig Gracious doubting
    (fun w => (outboxEvent.find w.store "x").isNone ∧
      ((service sampleConfig).step w (.commit 1)).any fun w₀ =>
        ((outboxEvent.find w₀.store "x").any fun row => row.aggregateId = "m" ∧
          row.eventType = "SMS_AMBIGUOUS_OUTCOME_EXPIRY_SCHEDULED" ∧
          isDelayed "m" 900000 row.payload) ∧
        (exec (service sampleConfig).step (fun w l => Gracious w.abs l) w₀ expiringLate).any
          fun v => v.abs.controls[3]?.bind givesUp? = some "m")
    (by decide +kernel)
  obtain ⟨w₀, hstep, hrest⟩ := (Option.any_eq_true _ _).mp hrest
  obtain ⟨hrow, hlate⟩ := of_decide_eq_true hrest
  obtain ⟨row, hrow, hexpiry⟩ := (Option.any_eq_true _ _).mp hrow
  obtain ⟨hm, htype, hpayload⟩ := of_decide_eq_true hexpiry
  obtain ⟨v, hv, hgives⟩ := (Option.any_eq_true _ _).mp hlate
  have hgives := of_decide_eq_true hgives
  obtain ⟨q, hq, hq'⟩ := Option.bind_eq_some_iff.mp hgives
  have hschedules : SchedulesExpiry "m" 900000 w w₀ :=
    ⟨"x", row, Option.isNone_iff_eq_none.mp hnone, hrow, ⟨hm, htype⟩,
      payload_of_isDelayed hpayload⟩
  have hlater : Later sampleConfig Gracious w₀ v := reachable_of_exec (Reachable.start rfl) hv
  have hl : Gracious w.abs (.commit 1) := ⟨fun q hq => (by cases hq), rfl⟩
  exact ⟨w, w₀, v, hw, hschedules, hlater, hgives,
    grace_period hw hl hstep hschedules hlater hq hq'⟩

end Runs

end SmsNotification.GracePeriod

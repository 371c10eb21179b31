import SmsNotification.ParkedMessages

namespace SmsNotification.AmbiguousExpiry

open SmsNotification.ActorSystem
open SmsNotification.AttemptLedger
open SmsNotification.LabelledRuns
open SmsNotification.LifecycleConformance
open SmsNotification.LifecycleEffects
open SmsNotification.MessageAggregate
open SmsNotification.NoDuplicateDelivery
open SmsNotification.OutboxConservation
open SmsNotification.Reservations
open SmsNotification.Schema
open SmsNotification.Service
open SmsNotification.ServiceEffects
open SmsNotification.ServiceRuns
open SmsNotification.SmsLifecycleRepository
open SmsNotification.SmsStateMachine
open SmsNotification.Surroundings

/-- An attempt of the message has been finalized with an ambiguous result. -/
def Ambiguous (A : Aggregate) : Prop :=
  ∃ a ∈ A.attempts, isUnresolved a

section Messages

variable {A : Aggregate}

theorem ambiguous_of_expiry (hscheduled : ExpiriesScheduled A)
    (hevent : ∃ event ∈ A.outbox, isExpiryEvent event.eventType) : Ambiguous A := by
  have hpos : 0 < intents isExpiryEvent A := List.countP_pos_iff.mpr hevent
  rw [hscheduled] at hpos
  exact List.countP_pos_iff.mp hpos

theorem outcome_of_ambiguous (hledger : Ledger A) (h : Ambiguous A) :
    ∀ a ∈ A.attempts, a.outcome ≠ .reserved := by
  obtain ⟨b, hb, hunresolved⟩ := h
  intro a ha hreserved
  obtain rfl := hledger.eq_of_live ha hb (hledger.live_of_reserved ha hreserved)
    (live_of_isUnresolved hunresolved)
  simp [isUnresolved, hreserved] at hunresolved

theorem status_of_ambiguous (hledger : Ledger A) (h : Ambiguous A) :
    ∃ row, A.message = some row ∧
      row.status ∈ [.awaitingProviderResult, .sent, .delivered, .undelivered, .rejected] := by
  obtain ⟨a, ha, hunresolved⟩ := h
  cases hrow : A.message with
  | none =>
      rw [(hledger.absent hrow).1] at ha
      simp at ha
  | some row =>
      refine ⟨row, rfl, ?_⟩
      have hclosed : ¬isOpen row.status :=
        fun hopen => hledger.idle row hrow hopen a ha (live_of_isUnresolved hunresolved)
      cases hstatus : row.status <;> simp_all [isOpen]

end Messages

theorem ambiguous_of_stepEffect {q : Control} {s s' : Database} {m : String}
    (h : StepEffect q s s') (hambiguous : Ambiguous (aggregate s m)) :
    Ambiguous (aggregate s' m) := by
  obtain ⟨a, ha, hunresolved⟩ := hambiguous
  obtain ⟨hfind, hm⟩ := mem_attempts_iff.mp ha
  obtain hkept | ⟨input, _, hreserved, _⟩ := find_attempt_of_stepEffect h hfind
  · exact ⟨a, mem_attempts_iff.mpr ⟨hkept, hm⟩, hunresolved⟩
  · simp [isUnresolved, hreserved] at hunresolved

/-- The invariant of the calls in flight: their attempts are reserved, and no
worker is about to finalize one. -/
structure Flying (a : ServiceSnapshot) : Prop where
  reserved : ∀ call ∈ a.ext.calls, call.state = .inFlight →
    ∃ row, smsAttempt.find a.store call.attemptId = some row ∧ row.outcome = .reserved
  answered : ∀ (i : Nat) hold input, a.controls[i]? = some (.dispatch (.finalizing hold input)) →
    ∀ call ∈ a.ext.calls, call.attemptId = hold.attemptId → call.state ≠ .inFlight

section Preservation

variable {config : Config} {a a' : ServiceSnapshot}

theorem Flying.set (h : Flying a) (hheld : Held a) {i : Nat} {q q' : Control} {s : Database}
    {x : Outside} (hq : a.controls[i]? = some q) (heffect : StepEffect q a.store s)
    (hcalls : x.calls = a.ext.calls)
    (hfinalizing : ∀ hold input, q' ≠ .dispatch (.finalizing hold input)) :
    Flying ⟨s, a.controls.set i q', x⟩ := by
  constructor
  · intro call hcall hflight
    rw [hcalls] at hcall
    obtain ⟨row, hrow, hreserved⟩ := h.reserved call hcall hflight
    obtain hkept | ⟨input, hfinal, _⟩ := find_attempt_of_stepEffect heffect hrow
    · exact ⟨row, hkept, hreserved⟩
    · obtain ⟨hold, rfl, hid⟩ := hheld.workers i q _ _ _ hq hfinal
      exact absurd hflight (h.answered i hold input hq call hcall hid.symm)
  · intro j hold input hq₂ call hcall
    rw [hcalls] at hcall
    rcases getElem?_set_eq_some hq₂ with ⟨_, hq₂⟩ | ⟨_, hq₂⟩
    · exact absurd hq₂.symm (hfinalizing hold input)
    · exact h.answered j hold input hq₂ call hcall

theorem not_finalizing_of_hold_none {q : Control} (h : hold? q = none)
    (hold : SmsProcessor.Hold) (input : FinalizeProviderAttemptInput) :
    q ≠ .dispatch (.finalizing hold input) := by
  rintro rfl
  simp [SmsProcessor.State.hold?] at h

theorem Flying.ok (h : Flying a) (hheld : Held a) {i : Nat} {q q' : Control} {s : Database}
    (hq : a.controls[i]? = some q) (hspec : controlSpec config q a.store (.ok q') s) :
    Flying ⟨s, a.controls.set i q', a.ext⟩ := by
  refine h.set hheld hq (stepEffect_of_controlSpec hspec) rfl ?_
  obtain hnone | ⟨pass, provider, rest, attemptId, _, rfl, _⟩ := hold_of_ok hspec
  · exact not_finalizing_of_hold_none hnone
  · simp

theorem Flying.start (h : Flying a) (hheld : Held a) {i : Nat} {hold : SmsProcessor.Hold}
    (hq : a.controls[i]? = some (.dispatch (.calling hold))) :
    Flying ⟨a.store, a.controls.set i (.dispatch (.awaiting hold a.ext.calls.length)),
      a.ext.startCall hold.call⟩ := by
  constructor
  · intro call hcall hflight
    rcases List.mem_append.mp hcall with hcall | hcall
    · exact h.reserved call hcall hflight
    · obtain rfl := List.mem_singleton.mp hcall
      obtain ⟨row, hrow, _, hreserved⟩ := hheld.reserved i _ hold hq rfl
      exact ⟨row, hrow, hreserved⟩
  · intro j hold' input hq₂ call hcall hid
    rcases getElem?_set_eq_some hq₂ with ⟨_, hq₂⟩ | ⟨hij, hq₂⟩
    · simp at hq₂
    · rcases List.mem_append.mp hcall with hcall | hcall
      · exact h.answered j hold' input hq₂ call hcall hid
      · obtain rfl := List.mem_singleton.mp hcall
        exact absurd hid (hheld.apart i j _ _ hold hold' hq hq₂ hij rfl rfl)

theorem Flying.answer (h : Flying a) (hcalled : Called a) {i k : Nat} {hold : SmsProcessor.Hold}
    {reply : Option SendSmsResult} {o : Outside} {q' : Control}
    (hq : a.controls[i]? = some (.dispatch (.awaiting hold k)))
    (hanswer : a.ext.answerCall k reply = some o)
    (hfinalizing : ∀ hold' input, q' = .dispatch (.finalizing hold' input) → hold' = hold) :
    Flying ⟨a.store, a.controls.set i q', o⟩ := by
  obtain ⟨started, state, hk, hflight, rfl, hstate⟩ := Outside.answerCall_eq_some hanswer
  obtain ⟨call, hcall, hid⟩ : ∃ call, a.ext.calls[k]? = some call ∧
      call.attemptId = hold.attemptId := hcalled.position i _ hq
  obtain rfl : started = call := Option.some.inj (hk.symm.trans hcall)
  have hended : state ≠ .inFlight := by
    intro hstill
    split at hstate <;> simp_all
  have hsingle := hcalled.single
  rw [← map_set_of_eq hk (f := SendCall.attemptId) (y := { started with state := state }) rfl]
    at hsingle
  have hmem : ({ started with state := state } : SendCall) ∈
      a.ext.calls.set k { started with state := state } :=
    List.mem_set (List.getElem?_eq_some_iff.mp hk).1 _
  constructor
  · intro call hcall hflight'
    rcases List.mem_or_eq_of_mem_set hcall with hcall | rfl
    · exact h.reserved call hcall hflight'
    · exact absurd hflight' hended
  · intro j hold' input hq₂ call hcall hid'
    rcases getElem?_set_eq_some hq₂ with ⟨_, hq₂⟩ | ⟨_, hq₂⟩
    · obtain rfl := hfinalizing hold' input hq₂.symm
      obtain rfl := List.inj_on_of_nodup_map hsingle hcall hmem (hid'.trans hid.symm)
      exact hended
    · rcases List.mem_or_eq_of_mem_set hcall with hcall | rfl
      · exact h.answered j hold' input hq₂ call hcall hid'
      · exact hended

theorem Flying.step (h : Flying a) (hguarded : Guarded a) {l : ServiceLabel}
    (hl : Spawning (delivers ·) a l) (hstep : ServiceStep config a l a') : Flying a' := by
  have hheld := hguarded.held
  cases hstep with
  | spawn q =>
      refine ⟨h.reserved, fun i hold input hq' => ?_⟩
      rcases getElem?_concat_eq_some hq' with hq' | rfl
      · exact h.answered i hold input hq'
      · have hdelivers := hl _ rfl
        simp [delivers] at hdelivers
  | answer hq _ hspec => exact h.ok hheld hq hspec
  | error hq hcode _ =>
      exact h.set hheld hq (Or.inl rfl) rfl (not_finalizing_of_hold_none (hold_of_error hcode _))
  | act hq hcode hact =>
      cases acts_of_code hcode hact with
      | started hold => exact h.start hheld hq
      | answered hold call hanswer =>
          refine h.answer hguarded.called hq hanswer fun hold' input hq' => ?_
          have hhold : hold? (.dispatch (.awaiting hold call)) = some hold' :=
            hold_of_acts (.answered hold call hanswer) (by rw [hq']; rfl)
          exact (Option.some.inj hhold).symm
      | took htake =>
          obtain ⟨queued, _, _, _, _, rfl⟩ := Outside.takeJob_eq_some htake
          exact h.set hheld hq (Or.inl rfl) rfl (not_finalizing_of_hold_none (by simp))
      | notAdded _ _ _ ho =>
          exact h.set hheld hq (Or.inl rfl) (by rcases ho with rfl | rfl <;> rfl) (by simp)
      | tookMaintenance _ htake =>
          obtain ⟨queued, _, _, _, _, rfl⟩ := Outside.takeJob_eq_some htake
          exact h.set hheld hq (Or.inl rfl) rfl (by simp)
      | _ => exact h.set hheld hq (Or.inl rfl) rfl (by simp)
  | commit hq _ hspec => exact h.ok hheld hq hspec
  | lost hq hcode hspec =>
      exact h.set hheld hq (stepEffect_of_controlSpec hspec) rfl
        (not_finalizing_of_hold_none (hold_of_error hcode _))
  | fault hq hcode =>
      exact h.set hheld hq (Or.inl rfl) rfl (not_finalizing_of_hold_none (hold_of_error hcode _))
  | crash hq _ =>
      exact h.set hheld hq (Or.inl rfl) rfl (not_finalizing_of_hold_none (hold_of_crash _))
  | env hmove =>
      obtain hcalls | ⟨call, haccept⟩ := Outside.calls_of_move hmove
      · exact ⟨hcalls ▸ h.reserved, hcalls ▸ h.answered⟩
      · obtain ⟨started, hk, _, rfl⟩ := Outside.acceptCall_eq_some haccept
        have hstarted := List.mem_of_getElem? hk
        constructor
        · intro call' hcall' hflight
          rcases List.mem_or_eq_of_mem_set hcall' with hcall' | rfl
          · exact h.reserved call' hcall' hflight
          · exact h.reserved started hstarted hflight
        · intro i hold input hq call' hcall' hid
          rcases List.mem_or_eq_of_mem_set hcall' with hcall' | rfl
          · exact h.answered i hold input hq call' hcall' hid
          · exact h.answered i hold input hq started hstarted hid

end Preservation

/-- The step is one of an expiry call for the message. -/
def IsExpiry (m : String) (a : ServiceSnapshot) (l : ServiceLabel) : Prop :=
  ∃ i, a.controls[i]? = some (.calling (.expireAmbiguousOutcome m)) ∧
    ((∃ c, l = .run i c) ∨ l = .commit i ∨ l = .lost i)

/-- The message whose expiry an actor is calling. -/
def expiring? (a : ServiceSnapshot) (i : Nat) : Option String :=
  match a.controls[i]? with
  | some (.calling (.expireAmbiguousOutcome m)) => some m
  | _ => none

theorem controls_of_expiring {a : ServiceSnapshot} {i : Nat} {m : String}
    (h : expiring? a i = some m) :
    a.controls[i]? = some (.calling (.expireAmbiguousOutcome m)) := by
  unfold expiring? at h
  split at h
  · rename_i m' hcontrol
    rw [hcontrol, Option.some.inj h]
  · simp at h

/-- The message is moved from `AWAITING_PROVIDER_RESULT` to `UNDELIVERED` with an
error and nothing else. -/
def Expires (A A' : Aggregate) : Prop :=
  ∃ row now, A.message = some row ∧ row.status = .awaitingProviderResult ∧
    A' = { A with
      message := some { row with
        status := .undelivered
        lastError := some "AMBIGUOUS_OUTCOME_EXPIRED"
        updatedAt := now } }

section Runs

variable {config : Config} {w w' : ServiceWorld} {m : String}

theorem lifecycle_of_delivers {a : ServiceSnapshot} {l : ServiceLabel}
    (hl : Spawning (delivers ·) a l) : Spawning Lifecycle a l :=
  fun q hq => (holds_nothing_of_delivers (hl q hq)).1

theorem lifecycle_of_reaches (h : Reaches config (Spawning (delivers ·)) Initial w) :
    Reaches config (Spawning Lifecycle) Initial w :=
  Reachable.mono (fun _ _ hl => lifecycle_of_delivers hl) h

theorem flying_of_reaches (h : Reaches config (Spawning (delivers ·)) Initial w) :
    Flying w.abs := by
  refine Reachable.invariant (fun a hinit => ?_) (fun a l a' hreach hflying hl hstep => ?_)
    (h.atomic fun _ q hq => (holds_nothing_of_delivers (hq q rfl)).1).2
  · constructor <;> simp [hinit.ext, hinit.controls, Outside.empty]
  · exact hflying.step (guarded_of_reachable hreach) hl hstep

theorem ambiguous_of_later (h : Reaches config (Spawning (delivers ·)) Initial w)
    (hambiguous : Ambiguous (aggregate w.store m))
    (hlater : Later config (Spawning (delivers ·)) w w') : Ambiguous (aggregate w'.store m) := by
  induction hlater with
  | start h0 => exact h0 ▸ hambiguous
  | next l hprev hl hstep ih =>
      obtain hsame | ⟨i, q, _, _, heffect⟩ := stepEffect_of_step
        (fun _ q hq => (holds_nothing_of_delivers (hq q rfl)).1)
        (h.later (fun _ _ hl => hl) hprev) hl hstep
      · rw [hsame]
        exact ih
      · exact ambiguous_of_stepEffect heffect ih

theorem not_inFlight_of_ambiguous (hguarded : Guarded w.abs) (hflying : Flying w.abs)
    (h : Ambiguous (aggregate w.store m)) :
    ∀ call ∈ w.ext.calls, call.messageId = m → call.state ≠ .inFlight := by
  intro call hcall hm hflight
  obtain ⟨row, hrow, hrowm, _⟩ := hguarded.called.known call hcall
  obtain ⟨row', hrow', hreserved⟩ := hflying.reserved call hcall hflight
  obtain rfl := Option.some.inj (hrow.symm.trans hrow')
  have hid : row.id = call.attemptId := Table.idOf_of_find hrow
  exact outcome_of_ambiguous (hguarded.ledger m) h row
    (mem_attempts_iff.mpr ⟨hid ▸ hrow, hrowm.trans hm⟩) hreserved

/-- A step of an expiry call expires a message that awaits its result, or does
nothing. -/
theorem expires_of_step (h : Reaches config (Spawning Lifecycle) Initial w) {l : ServiceLabel}
    (hl : Spawning Lifecycle w.abs l) (hstep : (service config).step w l = some w')
    (hexpiry : IsExpiry m w.abs l) :
    w'.store = w.store ∨ Changes m Expires w.store w'.store := by
  obtain ⟨i, hq, hlabel⟩ := hexpiry
  obtain hsame | hatomic := serviceStep_of_step (fun _ q hq => hq q rfl) h hl hstep
  · exact Or.inl (congrArg Snapshot.store hsame)
  obtain hsame | ⟨j, q, q', hq', hcommit, hspec⟩ := hatomic.store
  · exact Or.inl hsame
  have hij : j = i := by
    rcases hlabel with ⟨c, rfl⟩ | rfl | rfl
    · simp at hcommit
    · simpa [eq_comm] using hcommit
    · simpa [eq_comm] using hcommit
  subst hij
  obtain rfl := Option.some.inj (hq'.symm.trans hq)
  obtain ⟨answer, _, result, _, hspec⟩ := hspec
  cases result with
  | expired =>
      refine Or.inr (Changes.mono (fun A A' hmoved => ?_) hspec)
      obtain ⟨row, now, events', hrow, hstatus, hevents, rfl⟩ := hmoved
      obtain rfl : events' = A.outbox := hevents
      exact ⟨row, now, hrow, of_decide_eq_true hstatus, rfl⟩
  | notAwaitingProviderResult => exact Or.inl hspec.1

theorem store_of_second_expiry (h : Reaches config (Spawning (delivers ·)) Initial w)
    (hstatus : (aggregate w.store m).status = some .undelivered)
    (hlater : Later config (Spawning (delivers ·)) w w') {l : ServiceLabel} {v : ServiceWorld}
    (hl : Spawning (delivers ·) w'.abs l) (hstep : (service config).step w' l = some v)
    (hexpiry : IsExpiry m w'.abs l) : v.store = w'.store := by
  have hkept : ∀ a l, Spawning (delivers ·) a l → SmsStatus.undelivered = .fatalFailure →
      ¬CommitsRequeue m a l := fun _ _ _ hfatal => by cases hfatal
  have hfinal : (aggregate w'.store m).status = some .undelivered :=
    status_stays (fun _ _ hl => lifecycle_of_delivers hl) rfl hkept (lifecycle_of_reaches h)
      hlater hstatus
  have hreach : Reaches config (Spawning (delivers ·)) Initial w' :=
    h.later (fun _ _ hl => hl) hlater
  obtain hsame | ⟨A', ⟨row, now, hrow, hawaiting, _⟩, _⟩ :=
    expires_of_step (lifecycle_of_reaches hreach) (lifecycle_of_delivers hl) hstep hexpiry
  · exact hsame
  · simp [Aggregate.status, hrow, hawaiting] at hfinal

/-- Expiry is confined to ambiguous outcomes: a message with a scheduled expiry
has an ambiguous attempt and none that is reserved or whose call is in flight,
now and later; an expiry call does no more than to give it up, and does so once. -/
theorem expiry_confined (h : Reaches config (Spawning (delivers ·)) Initial w)
    (hevent : ∃ event ∈ (aggregate w.store m).outbox,
      event.eventType = "SMS_AMBIGUOUS_OUTCOME_EXPIRY_SCHEDULED")
    (hlater : Later config (Spawning (delivers ·)) w w') :
    ((∃ a ∈ (aggregate w'.store m).attempts, a.outcome = .failed ∧ a.isAmbiguous) ∧
      (∀ a ∈ (aggregate w'.store m).attempts, a.outcome ≠ .reserved) ∧
      ∃ row, (aggregate w'.store m).message = some row ∧
        row.status ∈ [.awaitingProviderResult, .sent, .delivered, .undelivered, .rejected]) ∧
    (∀ call ∈ w'.ext.calls, call.messageId = m → call.state ≠ .inFlight) ∧
    ∀ l v, Spawning (delivers ·) w'.abs l → (service config).step w' l = some v →
      IsExpiry m w'.abs l → v.store = w'.store ∨
        (Changes m Expires w'.store v.store ∧
          ∀ v₁ l' v₂, Later config (Spawning (delivers ·)) v v₁ →
            Spawning (delivers ·) v₁.abs l' → (service config).step v₁ l' = some v₂ →
            IsExpiry m v₁.abs l' → v₂.store = v₁.store) := by
  have hexpiry : ∃ event ∈ (aggregate w.store m).outbox, isExpiryEvent event.eventType := by
    obtain ⟨event, hevent, htype⟩ := hevent
    exact ⟨event, hevent, decide_eq_true htype⟩
  have hambiguous := ambiguous_of_later h
    (ambiguous_of_expiry (expiriesScheduled_of_reaches (lifecycle_of_reaches h) m) hexpiry) hlater
  have hreach' : Reaches config (Spawning (delivers ·)) Initial w' :=
    h.later (fun _ _ hl => hl) hlater
  have hguarded := guarded_of_reaches hreach'
  refine ⟨⟨?_, outcome_of_ambiguous (hguarded.ledger m) hambiguous,
    status_of_ambiguous (hguarded.ledger m) hambiguous⟩,
    not_inFlight_of_ambiguous hguarded (flying_of_reaches hreach') hambiguous,
    fun l v hl hstep hexpiry => ?_⟩
  · obtain ⟨a, ha, hunresolved⟩ := hambiguous
    exact ⟨a, ha, by simpa [isUnresolved] using hunresolved⟩
  refine (expires_of_step (lifecycle_of_reaches hreach') (lifecycle_of_delivers hl)
      hstep hexpiry).imp_right
    fun hchange => ⟨hchange, fun v₁ l' v₂ hlater' hl' hstep' hexpiry' => ?_⟩
  have hv : Reaches config (Spawning (delivers ·)) Initial v := Reachable.next l hreach' hl hstep
  have hstatus : (aggregate v.store m).status = some .undelivered := by
    obtain ⟨A', ⟨row, now, _, _, rfl⟩, hupdate⟩ := hchange
    rw [hupdate, Function.update_self]
    rfl
  exact store_of_second_expiry hv hstatus hlater' hl' hstep' hexpiry'

/-- An expiry call gives up a message whose ambiguous result has been recorded. -/
theorem expiry_confined_awaiting :
    ∃ w v, Reaches sampleConfig (Spawning (delivers ·)) Initial w ∧
      (∃ event ∈ (aggregate w.store "m").outbox,
        event.eventType = "SMS_AMBIGUOUS_OUTCOME_EXPIRY_SCHEDULED") ∧
      (service sampleConfig).step w (.commit 2) = some v ∧ IsExpiry "m" w.abs (.commit 2) ∧
      Changes "m" Expires w.store v.store := by
  obtain ⟨w, hw, hevent, hcall, hcommit⟩ :=
    exists_reaches_of_exec sampleConfig (Spawning (delivers ·))
      (creation ++ callingPass ++ recordedAmbiguous ++
        .spawn (.calling (.expireAmbiguousOutcome "m")) :: statements 2 1 (sampleChoice "" 2))
      (fun w => (∃ event ∈ (aggregate w.store "m").outbox,
          event.eventType = "SMS_AMBIGUOUS_OUTCOME_EXPIRY_SCHEDULED") ∧
        expiring? w.abs 2 = some "m" ∧
        ((service sampleConfig).step w (.commit 2)).any fun v =>
          (aggregate v.store "m").status ≠ (aggregate w.store "m").status)
      (by decide +kernel)
  obtain ⟨v, hv, hchanged⟩ := (Option.any_eq_true _ _).mp hcommit
  have hexpiry : IsExpiry "m" w.abs (.commit 2) :=
    ⟨2, controls_of_expiring hcall, Or.inr (Or.inl rfl)⟩
  have hspawn : Spawning (delivers ·) w.abs (.commit 2) := fun q hq => by cases hq
  obtain hsame | ⟨hchange, _⟩ :=
    (expiry_confined hw hevent (Reachable.start rfl)).2.2 _ v hspawn hv hexpiry
  · simp [hsame] at hchanged
  · exact ⟨w, v, hw, hevent, hv, hexpiry, hchange⟩

end Runs

end SmsNotification.AmbiguousExpiry

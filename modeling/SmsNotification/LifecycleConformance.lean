import SmsNotification.ServiceRuns

namespace SmsNotification.LifecycleConformance

open SmsNotification.ActorSystem
open SmsNotification.LabelledRuns
open SmsNotification.LifecycleEffects
open SmsNotification.MessageAggregate
open SmsNotification.Schema
open SmsNotification.Service
open SmsNotification.ServiceEffects
open SmsNotification.ServiceRuns
open SmsNotification.SmsLifecycleRepository
open SmsNotification.SmsStateMachine

section Edges

variable {m : String} {A A' : Aggregate}

theorem isValidTransition_of_transition {source : SmsStatus → Bool} {target status : SmsStatus}
    {data : SmsMessage → SmsMessage} {intent : Option OutboxIntent}
    (h : Transition m source target data intent) (hsource : source status) :
    isValidTransition status target := by
  cases h with
  | begun => cases status <;> simp_all [beginProcessingFrom, isValidTransition, transitionTable]
  | recovered => cases status <;> simp_all [isValidTransition, transitionTable]
  | expired => cases status <;> simp_all [isValidTransition, transitionTable]
  | _ => exact hsource

theorem Moved.status {source : SmsStatus → Bool} {target : SmsStatus}
    {data : SmsMessage → SmsMessage} {intent : Option OutboxIntent}
    (h : Moved m source target data intent A A') :
    ∃ status, A.status = some status ∧ source status ∧ A'.status = some target := by
  obtain ⟨row, now, events', hrow, hsource, _, rfl⟩ := h
  exact ⟨row.status, by rw [Aggregate.status, hrow]; rfl, hsource, rfl⟩

theorem MessageStep.status {q : Control} (h : MessageStep q m A A') {status : SmsStatus}
    (hstatus : A.status = some status) :
    ∃ status', A'.status = some status' ∧
      (status' = status ∨ isValidTransition status status' ∨
        (status = .fatalFailure ∧ status' = .retryScheduled ∧
          q = .calling (.resetForRequeue m))) := by
  cases h with
  | created call h =>
      obtain ⟨c, events', hnone, _⟩ := h
      simp [Aggregate.status, hnone] at hstatus
  | moved htransition hmoved =>
      obtain ⟨source, hsource, hguard, htarget⟩ := Moved.status hmoved
      obtain rfl : source = status := Option.some.inj (hsource.symm.trans hstatus)
      exact ⟨_, htarget, Or.inr (Or.inl (isValidTransition_of_transition htransition hguard))⟩
  | requeued hq hrequeued =>
      obtain ⟨source, hsource, hfatal, htarget⟩ := Moved.status hrequeued
      obtain rfl : source = status := Option.some.inj (hsource.symm.trans hstatus)
      exact ⟨_, htarget, Or.inr (Or.inr ⟨of_decide_eq_true hfatal, rfl, hq⟩)⟩
  | reserved providerName attemptId _ h =>
      obtain ⟨row, now, c, hrow, hprocessing, _, rfl⟩ := h
      simp only [Aggregate.status, hrow, Option.map_some, Option.some.injEq] at hstatus
      subst hstatus
      exact ⟨_, rfl, Or.inr (Or.inl (by rw [hprocessing]; rfl))⟩
  | finalized attemptId input _ h =>
      obtain ⟨old, _, _, _, hrest⟩ := h
      rcases input with providerMessageId | ⟨_ | _, isRetryable, errorMessage, delayMs⟩
      · obtain ⟨row, now, hrow, hawaiting, rfl⟩ := hrest
        simp only [Aggregate.status, hrow, Option.map_some, Option.some.injEq] at hstatus
        subst hstatus
        exact ⟨_, rfl, Or.inr (Or.inl (by rw [hawaiting]; rfl))⟩
      · obtain ⟨row, now, hrow, hawaiting, rfl⟩ := hrest
        simp only [Aggregate.status, hrow, Option.map_some, Option.some.injEq] at hstatus
        subst hstatus
        exact ⟨_, rfl, Or.inr (Or.inl (by rw [hawaiting]; rfl))⟩
      · obtain ⟨delay, events', _, _, rfl⟩ := hrest
        exact ⟨status, hstatus, Or.inl rfl⟩
  | resolved attemptId input h =>
      obtain ⟨row, c, c', hrow, hawaiting, _, rfl⟩ := h
      simp only [Aggregate.status, hrow, Option.map_some, Option.some.injEq] at hstatus
      subst hstatus
      rcases input with sid | ⟨⟨⟩⟩ <;> exact ⟨_, rfl, Or.inr (Or.inl (by rw [hawaiting]; rfl))⟩
  | relayed h =>
      obtain ⟨row, _, data, c, _, rfl⟩ := h
      exact ⟨status, hstatus, Or.inl rfl⟩

end Edges

variable {config : Config} {init : ServiceSnapshot → Prop} {w w' : ServiceWorld} {m : String}

/-- The step commits a requeue of the message. -/
def CommitsRequeue (m : String) (a : ServiceSnapshot) (l : ServiceLabel) : Prop :=
  ∃ i, (l = .commit i ∨ l = .lost i) ∧ a.controls[i]? = some (.calling (.resetForRequeue m))

/-- A step of the service takes a message along an edge or requeues it. -/
theorem status_of_step (h : Reaches config (Spawning Lifecycle) init w) {l : ServiceLabel}
    (hl : Spawning Lifecycle w.abs l) (hstep : (service config).step w l = some w')
    {status : SmsStatus} (hstatus : (aggregate w.store m).status = some status) :
    ∃ status', (aggregate w'.store m).status = some status' ∧
      (status' = status ∨ isValidTransition status status' ∨
        (status = .fatalFailure ∧ status' = .retryScheduled ∧ CommitsRequeue m w.abs l)) := by
  obtain hsame | ⟨i, q, hq, hlabel, hmessage⟩ :=
    messageStep_of_step (fun _ q hq => hq q rfl) h hl hstep m
  · exact ⟨status, hsame ▸ hstatus, Or.inl rfl⟩
  · obtain ⟨status', hstatus', hcases⟩ := MessageStep.status hmessage hstatus
    refine ⟨status', hstatus', hcases.imp_right (Or.imp_right ?_)⟩
    rintro ⟨hfatal, hretry, rfl⟩
    exact ⟨hfatal, hretry, i, hlabel, hq⟩

theorem status_stays {ok : ServiceSnapshot → ServiceLabel → Prop} {status : SmsStatus}
    (hok : ∀ a l, ok a l → Spawning Lifecycle a l) (hterminal : isTerminal status)
    (hkept : ∀ a l, ok a l → status = .fatalFailure → ¬CommitsRequeue m a l)
    (h : Reaches config (Spawning Lifecycle) init w) (hlater : Later config ok w w')
    (hstatus : (aggregate w.store m).status = some status) :
    (aggregate w'.store m).status = some status := by
  induction hlater with
  | start h0 => exact h0 ▸ hstatus
  | next l hprev hl hstep ih =>
      obtain ⟨status', hstatus', rfl | hedge | ⟨hfatal, _, hrequeue⟩⟩ :=
        status_of_step (h.later hok hprev) (hok _ l hl) hstep ih
      · exact hstatus'
      · simp [isTerminal_iff.mp hterminal] at hedge
      · exact absurd hrequeue (hkept _ l hl hfatal)

/-- Lifecycle conformance: a status changes along the table or by a requeue, the
other terminal statuses are final, and only a requeue leaves `FATAL_FAILURE`. -/
theorem lifecycle_conformance (h : Reaches config (Spawning Lifecycle) init w) :
    (∀ l w' m status status', Spawning Lifecycle w.abs l → (service config).step w l = some w' →
      (aggregate w.store m).status = some status →
      (aggregate w'.store m).status = some status' → status' ≠ status →
      isValidTransition status status' ∨
        (status = .fatalFailure ∧ status' = .retryScheduled ∧ CommitsRequeue m w.abs l)) ∧
    (∀ w' m status, Later config (Spawning Lifecycle) w w' →
      status ∈ [.delivered, .undelivered, .rejected] →
      (aggregate w.store m).status = some status →
      (aggregate w'.store m).status = some status) ∧
    ∀ w' m,
      Later config (fun a l => Spawning Lifecycle a l ∧ ¬CommitsRequeue m a l) w w' →
      (aggregate w.store m).status = some .fatalFailure →
      (aggregate w'.store m).status = some .fatalFailure := by
  refine ⟨fun l w' m status status' hl hstep hstatus hstatus' hne => ?_,
    fun w' m status hlater hmem hstatus => ?_, fun w' m hlater hstatus => ?_⟩
  · obtain ⟨status'', hstatus'', hcases⟩ := status_of_step h hl hstep hstatus
    obtain rfl : status'' = status' := Option.some.inj (hstatus''.symm.trans hstatus')
    exact hcases.resolve_left hne
  · have hfinal : isTerminal status ∧ status ≠ .fatalFailure := by
      cases status <;> simp [isTerminal, transitionTable] at hmem ⊢
    exact status_stays (fun _ _ hl => hl) hfinal.1 (fun _ _ _ hfatal => absurd hfatal hfinal.2)
      h hlater hstatus
  · exact status_stays (fun _ _ hl => hl.1) rfl (fun _ _ hl _ => hl.2) h hlater hstatus

/-- A requeue that is about to commit leaves `FATAL_FAILURE`, which held so far. -/
theorem lifecycle_conformance_requeue :
    ∃ w w', Reaches sampleConfig (Spawning Lifecycle) Initial w ∧
      (service sampleConfig).step w (.commit 3) = some w' ∧
      (aggregate w.store "m").status = some .fatalFailure ∧
      (aggregate w'.store "m").status = some .retryScheduled ∧
      CommitsRequeue "m" w.abs (.commit 3) := by
  obtain ⟨w, hw, hstatus, hstep⟩ := exists_reaches_of_exec sampleConfig (Spawning Lifecycle)
    (creation ++
      .spawn (.calling (.beginProcessing "m")) :: statements 1 2 (sampleChoice "" 1) ++ .commit 1 ::
      .spawn (.calling (.markFatalFailure "m" "no provider")) ::
        statements 2 4 (sampleChoice "f" 2) ++ .commit 2 ::
      .spawn (.calling (.resetForRequeue "m")) :: statements 3 4 (sampleChoice "r" 3))
    (fun w => (aggregate w.store "m").status = some .fatalFailure ∧
      ((service sampleConfig).step w (.commit 3)).any fun w' =>
        (aggregate w'.store "m").status = some .retryScheduled)
    (by decide +kernel)
  obtain ⟨w', hw', hstatus'⟩ := (Option.any_eq_true _ _).mp hstep
  have hstatus' := of_decide_eq_true hstatus'
  have hlabel : Spawning Lifecycle w.abs (.commit 3) := fun q hq => by cases hq
  obtain hedge | ⟨_, _, hrequeue⟩ := (lifecycle_conformance hw).1 _ w' "m" _ _ hlabel hw' hstatus
    hstatus' (by decide)
  · simp [isValidTransition, transitionTable] at hedge
  · exact ⟨w, w', hw, hw', hstatus, hstatus', hrequeue⟩

end SmsNotification.LifecycleConformance

import SmsNotification.NoDuplicateDelivery
import SmsNotification.OutboxJournal

namespace SmsNotification.RequeueReceipts

open SmsNotification.ActorSystem
open SmsNotification.LabelledRuns
open SmsNotification.LifecycleEffects
open SmsNotification.MessageAggregate
open SmsNotification.NoDuplicateDelivery
open SmsNotification.OutboxConservation
open SmsNotification.OutboxJournal
open SmsNotification.Schema
open SmsNotification.Service
open SmsNotification.ServiceEffects
open SmsNotification.ServiceRuns
open SmsNotification.SmsLifecycleRepository
open SmsNotification.SmsStateMachine

def isRequeueEvent (eventType : String) : Bool :=
  eventType = "SMS_REQUEUED"

/-- An administrator has been told that the message is requeued. -/
def isRequeueReceipt (m : String) : Control → Bool
  | .returned (.resetForRequeue m') (.requeue (.requeued _)) => m' = m
  | _ => false

/-- The answers that acknowledge a requeue of the message. -/
def receipts (m : String) (controls : List Control) : Nat :=
  controls.countP (isRequeueReceipt m)

/-- The answer of a commit does not arrive. -/
def isLost : ServiceLabel → Bool
  | .lost _ => true
  | _ => false

/-- No committed answer is lost on its way. -/
def Answered (a : ServiceSnapshot) (l : ServiceLabel) : Prop :=
  Spawning (delivers ·) a l ∧ isLost l = false

instance Answered.decidable (a : ServiceSnapshot) (l : ServiceLabel) : Decidable (Answered a l) :=
  inferInstanceAs (Decidable (_ ∧ _))

section Journals

theorem deadLetters_of_journal {eventTypes : List String} {journal : Journal}
    (h : journalOf eventTypes = some journal) :
    eventTypes.count "SMS_DEAD_LETTERED" =
      eventTypes.count "SMS_REQUEUED" + if journal = .deadLettered then 1 else 0 := by
  induction eventTypes using List.reverseRecOn generalizing journal with
  | nil =>
      obtain rfl : Journal.blank = journal := Option.some.inj h
      rfl
  | append_singleton eventTypes eventType ih =>
      rw [journalOf_concat] at h
      obtain ⟨before, hbefore, hread⟩ := Option.bind_eq_some_iff.mp h
      have hcount := ih hbefore
      rw [List.count_append, List.count_append, hcount]
      cases before with
      | blank =>
          simp only [Journal.read, Option.ite_none_right_eq_some, Option.some.injEq] at hread
          obtain ⟨rfl, rfl⟩ := hread
          simp
      | asked retries =>
          simp only [Journal.read] at hread
          split at hread
          · rename_i heq
            subst heq
            simp [← Option.some.inj hread]
          · split at hread
            · rename_i heq
              subst heq
              simp [← Option.some.inj hread]
            · split at hread
              · rename_i heq
                subst heq
                simp [← Option.some.inj hread]
              · simp only [Option.ite_none_right_eq_some, Option.some.injEq] at hread
                obtain ⟨rfl, rfl⟩ := hread
                simp
      | deadLettered =>
          simp only [Journal.read, Option.ite_none_right_eq_some, Option.some.injEq] at hread
          obtain ⟨rfl, rfl⟩ := hread
          simp
      | expiring => simp [Journal.read] at hread

theorem count_eventTypes (A : Aggregate) (eventType : String) :
    (eventTypes A).count eventType = A.outbox.countP fun event => event.eventType = eventType := by
  rw [eventTypes, List.count, List.countP_map]
  refine List.countP_congr fun event _ => ?_
  simp

end Journals

section Steps

variable {config : Config} {m : String} {s s' : Database} {q q' : Control}

theorem not_requeue_of_transition {source : SmsStatus → Bool} {target : SmsStatus}
    {data : SmsMessage → SmsMessage} {intent : Option OutboxIntent}
    (h : Transition m source target data intent) :
    intent.any (fun intent => isRequeueEvent intent.eventType) = false := by
  cases h <;> simp [isRequeueEvent, processingRecovered, retryScheduled, deadLettered]

theorem requeues_of_other {A A' : Aggregate} (hkeyed : A.Keyed)
    (hq : q ≠ .calling (.resetForRequeue m)) (h : MessageStep q m A A') :
    intents isRequeueEvent A' = intents isRequeueEvent A := by
  cases h with
  | created call h =>
      obtain ⟨c, events', _, _, _, hevents, rfl⟩ := h
      exact countP_intended isRequeueEvent hevents
  | moved htransition hmoved =>
      rw [intents_of_moved isRequeueEvent hmoved, not_requeue_of_transition htransition]
      rfl
  | requeued hcalling _ => exact absurd hcalling hq
  | reserved providerName attemptId _ h =>
      obtain ⟨row, now, c, _, _, _, rfl⟩ := h
      rfl
  | finalized attemptId input _ h =>
      obtain ⟨old, _, _, _, hrest⟩ := h
      rcases input with providerMessageId | ⟨_ | _, isRetryable, errorMessage, delayMs⟩
      · obtain ⟨row, now, _, _, rfl⟩ := hrest
        rfl
      · obtain ⟨row, now, _, _, rfl⟩ := hrest
        rfl
      · obtain ⟨delay, events', _, hevents, rfl⟩ := hrest
        exact countP_intended isRequeueEvent hevents
  | resolved attemptId input h =>
      obtain ⟨row, c, c', _, _, _, rfl⟩ := h
      rfl
  | relayed h => exact intents_of_relayed hkeyed h

theorem requeues_of_ok (h : controlSpec config q s (.ok q') s') :
    intents isRequeueEvent (aggregate s' m) =
      intents isRequeueEvent (aggregate s m) + if isRequeueReceipt m q' then 1 else 0 := by
  by_cases hq : q = .calling (.resetForRequeue m)
  · subst hq
    obtain ⟨answer, rfl, hop⟩ := h
    obtain ⟨result, rfl, hreset⟩ := hop
    cases result with
    | requeued message =>
        obtain ⟨A', hmoved, hupdate⟩ := hreset.1
        rw [hupdate, Function.update_self, intents_of_moved isRequeueEvent hmoved]
        simp [isRequeueReceipt, isRequeueEvent, requeued]
    | notFound => simp [isRequeueReceipt, show s' = s from hreset]
    | notFatal status => simp [isRequeueReceipt, show s' = s from hreset]
  · have hnone : isRequeueReceipt m q' = false := by
      by_contra hreceipt
      rw [Bool.not_eq_false] at hreceipt
      unfold isRequeueReceipt at hreceipt
      split at hreceipt
      · obtain ⟨rfl, _⟩ := calling_of_returned h
        exact hq (by rw [of_decide_eq_true hreceipt])
      · simp at hreceipt
    rw [hnone]
    obtain hsame | hmessage := message_of_stepEffect (stepEffect_of_controlSpec h) m
    · rw [hsame]
      rfl
    · exact requeues_of_other (keyed s m) hq hmessage

theorem receipt_eq_false (hq : ∀ op answer, q ≠ .returned op answer) :
    isRequeueReceipt m q = false := by
  unfold isRequeueReceipt
  split
  · exact absurd rfl (hq _ _)
  · rfl

theorem receipts_set {controls : List Control} {i : Nat} (hq : controls[i]? = some q)
    (hbefore : isRequeueReceipt m q = false) :
    receipts m (controls.set i q') =
      receipts m controls + if isRequeueReceipt m q' then 1 else 0 := by
  obtain ⟨hi, rfl⟩ := List.getElem?_eq_some_iff.mp hq
  rw [receipts, List.countP_set hi]
  simp [hbefore, receipts]

theorem receipt_of_code (config : Config) (hcode : code config q ≠ .halt) :
    isRequeueReceipt m q = false := by
  refine receipt_eq_false fun op answer heq => hcode ?_
  rw [heq]
  rfl

variable {a a' : ServiceSnapshot} {l : ServiceLabel}

theorem receipts_of_step (hl : Spawning (delivers ·) a l) (hstep : ServiceStep config a l a') :
    ∃ recorded acknowledged, acknowledged ≤ recorded ∧
      (acknowledged = recorded ∨ isLost l) ∧
      intents isRequeueEvent (aggregate a'.store m) =
        intents isRequeueEvent (aggregate a.store m) + recorded ∧
      receipts m a'.controls = receipts m a.controls + acknowledged := by
  have hquiet : ∀ {i : Nat} {q q' : Control}, a.controls[i]? = some q →
      code config q ≠ .halt → (∀ op answer, q' ≠ .returned op answer) →
      receipts m (a.controls.set i q') = receipts m a.controls := by
    intro i q q' hq hcode hq'
    rw [receipts_set hq (receipt_of_code config hcode), receipt_eq_false hq']
    rfl
  cases hstep with
  | spawn q =>
      refine ⟨0, 0, le_refl _, Or.inl rfl, rfl, ?_⟩
      have hq : isRequeueReceipt m q = false :=
        receipt_eq_false fun op answer heq => by simpa [heq, delivers] using hl q rfl
      simp [receipts, List.countP_append, hq]
  | answer hq hcode hspec =>
      have hcount := requeues_of_ok (m := m) hspec
      have hbefore : isRequeueReceipt m _ = false :=
        receipt_of_code config fun hhalt => by
          cases (show code config _ = _ from hcode).symm.trans hhalt
      exact ⟨_, _, le_refl _, Or.inl rfl, hcount, receipts_set hq hbefore⟩
  | commit hq hcode hspec =>
      have hcount := requeues_of_ok (m := m) hspec
      have hbefore : isRequeueReceipt m _ = false :=
        receipt_of_code config fun hhalt => by
          cases (show code config _ = _ from hcode).symm.trans hhalt
      exact ⟨_, _, le_refl _, Or.inl rfl, hcount, receipts_set hq hbefore⟩
  | lost hq hcode hspec =>
      have hcount := requeues_of_ok (m := m) hspec
      refine ⟨_, 0, Nat.zero_le _, Or.inr rfl, hcount, ?_⟩
      exact hquiet hq (fun hhalt => by cases (show code config _ = _ from hcode).symm.trans hhalt)
        (not_returned_of_error hcode _)
  | error hq hcode _ =>
      refine ⟨0, 0, le_refl _, Or.inl rfl, rfl, ?_⟩
      exact hquiet hq (fun hhalt => by cases (show code config _ = _ from hcode).symm.trans hhalt)
        (not_returned_of_error hcode _)
  | fault hq hcode =>
      refine ⟨0, 0, le_refl _, Or.inl rfl, rfl, ?_⟩
      exact hquiet hq (fun hhalt => by cases (show code config _ = _ from hcode).symm.trans hhalt)
        (not_returned_of_error hcode _)
  | act hq hcode hact =>
      refine ⟨0, 0, le_refl _, Or.inl rfl, rfl, ?_⟩
      exact hquiet hq (fun hhalt => by cases (show code config _ = _ from hcode).symm.trans hhalt)
        fun op answer heq => by cases acts_of_code hcode hact <;> cases heq
  | @crash i q hq hhalt =>
      refine ⟨0, 0, le_refl _, Or.inl rfl, rfl, ?_⟩
      exact hquiet hq hhalt fun op answer heq => by cases q <;> simp [service, crash] at heq
  | env _ => exact ⟨0, 0, le_refl _, Or.inl rfl, rfl, rfl⟩

end Steps

section Runs

variable {config : Config} {w : ServiceWorld} {m : String}

theorem receipts_le {a : ServiceSnapshot}
    (h : Reachable (ServiceStep config) (Spawning (delivers ·)) Initial a) :
    receipts m a.controls ≤ intents isRequeueEvent (aggregate a.store m) := by
  induction h with
  | start hinit =>
      rw [hinit.controls]
      exact Nat.zero_le _
  | next l _ hl hstep ih =>
      obtain ⟨recorded, acknowledged, hle, _, hintents, hreceipts⟩ :=
        receipts_of_step (m := m) hl hstep
      rw [hintents, hreceipts]
      exact Nat.add_le_add ih hle

theorem receipts_eq {a : ServiceSnapshot} (h : Reachable (ServiceStep config) Answered Initial a) :
    receipts m a.controls = intents isRequeueEvent (aggregate a.store m) := by
  induction h with
  | start hinit =>
      rw [hinit.controls, hinit.store, aggregate_empty]
      rfl
  | next l _ hl hstep ih =>
      obtain ⟨recorded, acknowledged, _, hanswered, hintents, hreceipts⟩ :=
        receipts_of_step (m := m) hl.1 hstep
      obtain rfl | hlost := hanswered
      · rw [hintents, hreceipts, ih]
      · simp [hl.2] at hlost

/-- Requeue receipts: in every run, with any number of administrators asking at once, the
requeues of a message that have been acknowledged are at most those recorded, and exactly
those where no committed answer was lost; the recorded ones are as many as the dead
letters, less one while the message is dead-lettered. -/
theorem requeue_receipts (h : Reaches config (Spawning (delivers ·)) Initial w) (m : String) :
    let A := aggregate w.store m
    let recorded := A.outbox.countP fun event => event.eventType = "SMS_REQUEUED"
    let deadLetters := A.outbox.countP fun event => event.eventType = "SMS_DEAD_LETTERED"
    receipts m w.abs.controls ≤ recorded ∧
      (Reaches config Answered Initial w → receipts m w.abs.controls = recorded) ∧
      deadLetters = recorded + if A.status = some .fatalFailure then 1 else 0 := by
  intro A recorded deadLetters
  refine ⟨receipts_le (h.atomic lifecycle_of_delivering).2, fun hanswered =>
    receipts_eq (hanswered.atomic fun a q hq => lifecycle_of_delivering a q hq.1).2, ?_⟩
  obtain ⟨journal, hjournal, htells⟩ :=
    journaled_of_reaches (h.mono fun a l hl q hq => (holds_nothing_of_delivers (hl q hq)).1) m
  have hcount := deadLetters_of_journal hjournal
  have hstatus : A.status = some .fatalFailure ↔ journal = .deadLettered := by
    cases journal with
    | blank => simp [A, Aggregate.status, show (aggregate w.store m).message = none from htells]
    | asked retries =>
        obtain ⟨row, hrow, hne, _⟩ := htells
        simp [A, Aggregate.status, hrow, hne]
    | deadLettered =>
        obtain ⟨row, hrow, hfatal⟩ := htells
        simp [A, Aggregate.status, hrow, hfatal]
    | expiring =>
        obtain ⟨row, hrow, hne, _⟩ := htells
        simp [A, Aggregate.status, hrow, hne]
  rw [count_eventTypes, count_eventTypes] at hcount
  simp only [hstatus]
  exact hcount

end Runs

/-- A worker is refused and dead-letters the message. -/
def refusedPass : List ServiceLabel :=
  callingPass ++
    statements 1 1
      { sampleChoice "" 2 with reply := some ⟨false, none, some "bad number", false, none⟩ } ++
    statements 1 2 (sampleChoice "" 3) ++ .commit 1 :: statements 1 4 (sampleChoice "f" 4) ++
    [.commit 1]

/-- Of two administrators who have both seen the dead letter only one is told that the
message is requeued. -/
theorem requeue_receipts_race :
    ∃ w, Reaches sampleConfig Answered Initial w ∧ receipts "m" w.abs.controls = 1 ∧
      ((aggregate w.store "m").outbox.countP fun event =>
        event.eventType = "SMS_REQUEUED") = 1 := by
  obtain ⟨w, hw, hreceipts⟩ := exists_reaches_of_exec sampleConfig Answered
    (creation ++ refusedPass ++
      .spawn (.calling (.resetForRequeue "m")) :: .spawn (.calling (.resetForRequeue "m")) ::
        statements 2 1 (sampleChoice "" 5) ++ statements 3 1 (sampleChoice "" 5) ++
        statements 2 3 (sampleChoice "r" 6) ++ .commit 2 :: statements 3 1 (sampleChoice "r'" 7))
    (fun w => receipts "m" w.abs.controls = 1)
    (by decide +kernel)
  have hdelivers : Reaches sampleConfig (Spawning (delivers ·)) Initial w :=
    hw.mono fun _ _ hl => hl.1
  exact ⟨w, hw, hreceipts, ((requeue_receipts hdelivers "m").2.1 hw).symm.trans hreceipts⟩

end SmsNotification.RequeueReceipts

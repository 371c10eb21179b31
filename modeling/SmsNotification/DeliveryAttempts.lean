import SmsNotification.DispatchClaims
import SmsNotification.OutboxConservation
import SmsNotification.ReferentialIntegrity

namespace SmsNotification.DeliveryAttempts

open SmsNotification.DispatchClaims
open SmsNotification.LabelledRuns
open SmsNotification.LifecycleEffects
open SmsNotification.MessageAggregate
open SmsNotification.OutboxConservation
open SmsNotification.ReferentialIntegrity
open SmsNotification.Schema
open SmsNotification.Service
open SmsNotification.ServiceEffects
open SmsNotification.ServiceRuns
open SmsNotification.SmsLifecycleRepository
open SmsNotification.SmsStateMachine

/-- The counter of the message is the number of its attempts, if it is there. -/
def Matches (s : Database) (m : String) : Prop :=
  ∀ row, smsMessage.find s m = some row → row.deliveryAttempts = (aggregate s m).attempts.length

def isRetryEvent (eventType : String) : Bool :=
  eventType = "SMS_RETRY_SCHEDULED"

/-- The message that a control state schedules a retry of. -/
def scheduling? : Control → Option String
  | .calling (.scheduleRetry m _) => some m
  | .dispatch (.schedulingRetry pass _) => some pass.task.messageId
  | _ => none

/-- The steps that commit no `scheduleRetry` of the message. -/
structure Spares (m : String) (a : ServiceSnapshot) (l : ServiceLabel) : Prop where
  spawning : Spawning Lifecycle a l
  spared : (committing? a l).bind scheduling? ≠ some m

instance Spares.decidable (m : String) (a : ServiceSnapshot) (l : ServiceLabel) :
    Decidable (Spares m a l) :=
  decidable_of_iff (Spawning Lifecycle a l ∧ (committing? a l).bind scheduling? ≠ some m)
    ⟨fun h => ⟨h.1, h.2⟩, fun h => ⟨h.spawning, h.spared⟩⟩

/-- Every retry that the outbox records is one that the counter is ahead of the rows. -/
def Balanced (A : Aggregate) : Prop :=
  ∀ row, A.message = some row →
    row.deliveryAttempts = A.attempts.length + intents isRetryEvent A

section Steps

variable {m : String} {A A' : Aggregate} {source : SmsStatus → Bool} {target : SmsStatus}
  {data : SmsMessage → SmsMessage} {intent : Option OutboxIntent}

theorem deliveryAttempts_of_transition (h : Transition m source target data intent)
    (row : SmsMessage) :
    (data row).deliveryAttempts =
      row.deliveryAttempts + if intent.any (fun intent => isRetryEvent intent.eventType) then 1
        else 0 := by
  cases h <;> simp [isRetryEvent, processingRecovered, retryScheduled, deadLettered,
    ScheduleRetryOptions.data, withError, ambiguousOutcomeExpired]

theorem Balanced.moved (h : Balanced A) (htransition : Transition m source target data intent)
    (hmoved : Moved m source target data intent A A') : Balanced A' := by
  have hretries := intents_of_moved isRetryEvent hmoved
  obtain ⟨row, now, events', hrow, _, _, rfl⟩ := hmoved
  intro new hnew
  obtain rfl := Option.some.inj hnew
  rw [hretries, ← Nat.add_assoc, ← h row hrow]
  exact deliveryAttempts_of_transition htransition row

theorem retries_of_created {call : SmsPersistenceRepository.CreateOrGetMessage}
    (h : Created call m A A') : intents isRetryEvent A' = intents isRetryEvent A := by
  obtain ⟨c, events', _, _, _, hevents, rfl⟩ := h
  exact countP_intended isRetryEvent hevents

theorem retries_of_reserved {providerName attemptId : String}
    (h : Reserved m providerName attemptId A A') :
    intents isRetryEvent A' = intents isRetryEvent A := by
  obtain ⟨row, now, c, _, _, _, rfl⟩ := h
  rfl

theorem retries_of_finalized {attemptId : String} {input : FinalizeProviderAttemptInput}
    (h : Finalized m attemptId input A A') :
    intents isRetryEvent A' = intents isRetryEvent A := by
  obtain ⟨old, _, _, _, hinput⟩ := h
  rcases input with providerMessageId | ⟨_ | _, _, _, _⟩
  · obtain ⟨row, now, _, _, rfl⟩ := hinput
    rfl
  · obtain ⟨row, now, _, _, rfl⟩ := hinput
    rfl
  · obtain ⟨delayMs, events', _, hevents, rfl⟩ := hinput
    exact countP_intended isRetryEvent hevents

theorem retries_of_resolved {attemptId : String} {input : ResolveTwilioAttemptInput}
    (h : Resolved m attemptId input A A') : intents isRetryEvent A' = intents isRetryEvent A := by
  obtain ⟨row, c, c', _, _, _, rfl⟩ := h
  rfl

theorem Balanced.finalized (h : Balanced A) {attemptId : String}
    {input : FinalizeProviderAttemptInput} (hfinalized : Finalized m attemptId input A A') :
    Balanced A' := by
  have hretries := retries_of_finalized hfinalized
  obtain ⟨old, _, _, _, hinput⟩ := hfinalized
  have hlength : (smsAttempt.replace (input.record old) A.attempts).length = A.attempts.length :=
    List.length_map _
  intro new hnew
  rw [hretries]
  rcases input with providerMessageId | ⟨_ | _, _, _, _⟩
  · obtain ⟨row, now, hrow, _, rfl⟩ := hinput
    obtain rfl := Option.some.inj hnew
    rw [hlength]
    exact h row hrow
  · obtain ⟨row, now, hrow, _, rfl⟩ := hinput
    obtain rfl := Option.some.inj hnew
    rw [hlength]
    exact h row hrow
  · obtain ⟨delayMs, events', _, hevents, rfl⟩ := hinput
    rw [hlength]
    exact h new hnew

theorem Balanced.step {q : Control} (hcoherent : Coherent A) (h : Balanced A)
    (hkeyed : A.Keyed) (hstep : MessageStep q m A A') : Balanced A' := by
  cases hstep with
  | created call hcreated =>
      obtain ⟨c, events', hnone, _, _, hevents, rfl⟩ := hcreated
      obtain ⟨hattempts, _, houtbox⟩ := hcoherent.owned hnone
      intro new hnew
      obtain rfl := Option.some.inj hnew
      have hcount := countP_intended isRetryEvent hevents
      rw [houtbox] at hcount
      rw [intents, hattempts, hcount]
      rfl
  | moved htransition hmoved => exact h.moved htransition hmoved
  | requeued _ hrequeued =>
      have hretries := intents_of_moved isRetryEvent hrequeued
      obtain ⟨row, now, events', hrow, _, _, rfl⟩ := hrequeued
      intro new hnew
      obtain rfl := Option.some.inj hnew
      rw [hretries]
      exact h row hrow
  | reserved _ _ _ hreserved =>
      have hretries := retries_of_reserved hreserved
      obtain ⟨row, now, c, hrow, _, _, rfl⟩ := hreserved
      intro new hnew
      obtain rfl := Option.some.inj hnew
      rw [hretries, List.length_append, List.length_singleton, Nat.add_right_comm, ← h row hrow]
  | finalized _ _ _ hfinalized => exact h.finalized hfinalized
  | resolved _ input hresolved =>
      obtain ⟨row, c, c', hrow, _, _, rfl⟩ := hresolved
      intro new hnew
      obtain rfl := Option.some.inj hnew
      refine Eq.trans ?_ (h row hrow)
      rcases input with sid | ⟨⟨⟩⟩ <;> rfl
  | relayed hrelayed =>
      have hretries : intents isRetryEvent A' = intents isRetryEvent A :=
        intents_of_relayed hkeyed hrelayed
      obtain ⟨event, _, _, _, _, rfl⟩ := hrelayed
      intro new hnew
      rw [hretries]
      exact h new hnew

end Steps

section Controls

variable {config : Config} {s s' : Database} {m m' : String}
  {change : Aggregate → Aggregate → Prop}

/-- No message has a retry more or less in the outbox. -/
def Unretried (s s' : Database) : Prop :=
  ∀ m, intents isRetryEvent (aggregate s' m) = intents isRetryEvent (aggregate s m)

theorem unretried_of_eq (h : s' = s) : Unretried s s' := fun m => by rw [h]

theorem unretried_of_changes
    (hchange : ∀ A A', A.Keyed → change A A' → intents isRetryEvent A' = intents isRetryEvent A)
    (h : Changes m change s s') : Unretried s s' := by
  obtain ⟨A', hstep, hupdate⟩ := h
  intro m'
  rw [hupdate]
  by_cases hm : m' = m
  · subst hm
    rw [Function.update_self]
    exact hchange _ _ (keyed _ _) hstep
  · rw [Function.update_of_ne hm]

theorem unretried_of_moved {source : SmsStatus → Bool} {target : SmsStatus}
    {data : SmsMessage → SmsMessage} {intent : Option OutboxIntent}
    (hintent : intent.any (fun intent => isRetryEvent intent.eventType) = false)
    (h : Changes m (Moved m source target data intent) s s') : Unretried s s' :=
  unretried_of_changes (fun A A' _ hmoved => by
    rw [intents_of_moved isRetryEvent hmoved, hintent]
    rfl) h

theorem unretried_of_guardedTransition {target : SmsStatus} {data : SmsMessage → SmsMessage}
    {intent : Option OutboxIntent} {message : LifecycleSmsMessage}
    (hintent : intent.any (fun intent => isRetryEvent intent.eventType) = false)
    (h : guardedTransitionSpec m target data intent s (.ok message) s') : Unretried s s' :=
  unretried_of_moved hintent h.1

theorem unretried_of_operation {op : Operation} {answer : Answer}
    (hop : scheduling? (.calling op) = none) (h : operationSpec op s (.ok answer) s') :
    Unretried s s' := by
  cases op with
  | beginProcessing m =>
      obtain ⟨_ | _, _, hbegin⟩ := h
      · exact unretried_of_moved rfl hbegin.1
      · exact unretried_of_eq hbegin.1
  | reserveProviderAttempt m providerName =>
      obtain ⟨_ | _, _, hreserve⟩ := h
      · exact unretried_of_changes (fun _ _ _ => retries_of_reserved) hreserve.1
      · exact unretried_of_eq hreserve
  | finalizeProviderAttempt m attemptId input =>
      obtain ⟨_, _, hfinalize⟩ := h
      exact unretried_of_changes (fun _ _ _ => retries_of_finalized) hfinalize
  | resolveTwilioAttempt m attemptId input =>
      obtain ⟨_ | _ | _ | _ | _ | _, _, hresolve⟩ := h
      · exact unretried_of_changes (fun _ _ _ => retries_of_resolved) hresolve.1
      · exact unretried_of_eq hresolve.1
      all_goals exact unretried_of_eq hresolve
  | scheduleRetry m opts => cases hop
  | markPermanentProviderFailure m status lastError =>
      obtain ⟨_, _, hmark⟩ := h
      exact unretried_of_guardedTransition rfl hmark
  | markFatalFailure m lastError =>
      obtain ⟨_, _, hmark⟩ := h
      exact unretried_of_guardedTransition rfl hmark
  | expireAmbiguousOutcome m =>
      obtain ⟨_ | _, _, hexpire⟩ := h
      · exact unretried_of_moved rfl hexpire
      · exact unretried_of_eq hexpire.1
  | resetForRequeue m =>
      obtain ⟨_ | _ | _, _, hreset⟩ := h
      · exact unretried_of_moved rfl hreset.1
      all_goals exact unretried_of_eq hreset
  | applyDeliveryReport input =>
      obtain ⟨_ | _ | _ | _, _, hreport⟩ := h
      · exact unretried_of_moved rfl hreport.1
      all_goals exact unretried_of_eq hreport

theorem unretried_of_dispatch {processor : SmsProcessor.Config} {state : SmsProcessor.State}
    {q' : Control} (hstate : scheduling? (.dispatch state) = none)
    (h : dispatchSpec processor state s (.ok q') s') : Unretried s s' := by
  cases state with
  | beginning task =>
      obtain ⟨_ | _, _, hbegin⟩ := h
      · exact unretried_of_moved rfl hbegin.1
      · exact unretried_of_eq hbegin.1
  | loading task begin =>
      obtain ⟨_, _, hload⟩ := h
      exact unretried_of_eq hload.1
  | markingMissing task =>
      obtain ⟨_, _, hmark⟩ := h
      exact unretried_of_guardedTransition rfl hmark
  | reserving pass provider rest =>
      obtain ⟨_ | _, _, hreserve⟩ := h
      · exact unretried_of_changes (fun _ _ _ => retries_of_reserved) hreserve.1
      · exact unretried_of_eq hreserve
  | finalizing hold input =>
      obtain ⟨_, _, hfinalize⟩ := h
      exact unretried_of_changes (fun _ _ _ => retries_of_finalized) hfinalize
  | schedulingRetry pass opts => cases hstate
  | markingFatal pass lastError reason =>
      obtain ⟨_, _, hmark⟩ := h
      exact unretried_of_guardedTransition rfl hmark
  | _ => exact h.elim

theorem unretried_of_relay {state : OutboxRelayService.State} {q' : Control}
    (h : relaySpec state s (.ok q') s') : Unretried s s' := by
  have hupdate : ∀ {id data}, updating? (.relay state) = some (id, data) →
      updateOutboxEventSpec id data s (.ok ()) s' → Unretried s s' := by
    intro id data hq hspec
    obtain hsame | ⟨m, hrelayed⟩ := relayed_of_updateOutboxEvent hq hspec
    · exact unretried_of_eq hsame
    · exact unretried_of_changes (fun _ _ hkeyed => intents_of_relayed hkeyed) hrelayed
  cases state with
  | fetching batchSize =>
      obtain ⟨_, _, hfetch⟩ := h
      exact unretried_of_eq hfetch.1
  | marking event rest =>
      obtain ⟨_, _, hmark⟩ := h
      exact hupdate rfl hmark
  | recording event description rest =>
      obtain ⟨_, _, hrecord⟩ := h
      exact hupdate rfl hrecord
  | _ => exact h.elim

theorem unretried_of_controlSpec {q q' : Control} (hq : scheduling? q = none)
    (h : controlSpec config q s (.ok q') s') : Unretried s s' := by
  cases q with
  | calling op =>
      obtain ⟨answer, _, hoperation⟩ := h
      exact unretried_of_operation hq hoperation
  | creating call again =>
      obtain ⟨⟨_ | _, message⟩, _, hcreate⟩ := h
      · exact unretried_of_eq hcreate.1
      · exact unretried_of_changes (fun _ _ _ => retries_of_created) hcreate.2.1
  | sweep state =>
      cases state with
      | selecting cutoff limit =>
          obtain ⟨_, _, hselect⟩ := h
          exact unretried_of_eq hselect
      | recovering cutoff candidate rest recovered =>
          obtain ⟨_ | _, _, hrecover⟩ := h
          · exact unretried_of_eq hrecover
          · exact unretried_of_moved rfl hrecover
      | _ => exact h.elim
  | dispatch state => exact unretried_of_dispatch hq h
  | relay state => exact unretried_of_relay h
  | _ => exact h.elim

theorem retries_of_controlSpec {q q' : Control} (hq : scheduling? q ≠ some m)
    (h : controlSpec config q s (.ok q') s') :
    intents isRetryEvent (aggregate s' m) = intents isRetryEvent (aggregate s m) := by
  have hother : ∀ {m' opts message}, scheduleRetrySpec m' opts s (.ok message) s' → m ≠ m' →
      intents isRetryEvent (aggregate s' m) = intents isRetryEvent (aggregate s m) := by
    intro m' opts message ⟨⟨_, _, hupdate⟩, _⟩ hm
    rw [hupdate, Function.update_of_ne hm]
  cases hscheduling : scheduling? q with
  | none => exact unretried_of_controlSpec hscheduling h m
  | some m' =>
      have hm : m ≠ m' := fun heq => hq (heq ▸ hscheduling)
      unfold scheduling? at hscheduling
      split at hscheduling
      · obtain rfl := Option.some.inj hscheduling
        obtain ⟨_, _, _, _, hretry⟩ := h
        exact hother hretry hm
      · obtain rfl := Option.some.inj hscheduling
        obtain ⟨_, _, hretry⟩ := h
        exact hother hretry hm
      · cases hscheduling

end Controls

section Runs

variable {config : Config} {w : ServiceWorld} {m : String}

/-- In every run, the counter is ahead of the rows by the retries in the outbox. -/
theorem balanced_of_reaches (h : Reaches config (Spawning Lifecycle) Initial w) (m : String) :
    Coherent (aggregate w.store m) ∧ Balanced (aggregate w.store m) := by
  refine aggregate_invariant (fun _ A => Coherent A ∧ Balanced A) (fun a hinit m => ?_)
    (fun q m A A' hkeyed hinv hstep =>
      ⟨hinv.1.step hkeyed hstep, hinv.2.step hinv.1 hkeyed hstep⟩)
    (h.atomic fun _ q hq => hq q rfl).2 m
  rw [hinit.store, aggregate_empty]
  exact ⟨⟨by simp, by simp, by simp⟩, by simp [Balanced]⟩

theorem retries_of_step {a a' : ServiceSnapshot} {l : ServiceLabel} (hok : Spares m a l)
    (hstep : ServiceStep config a l a') :
    intents isRetryEvent (aggregate a'.store m) = intents isRetryEvent (aggregate a.store m) := by
  obtain hsame | ⟨i, q, q', hq, hlabel, hspec⟩ := hstep.store
  · rw [hsame]
  · have hcommitting : committing? a l = some q := by
      rcases hlabel with rfl | rfl <;> exact hq
    have hspared := hok.spared
    rw [hcommitting] at hspared
    exact retries_of_controlSpec hspared hspec

theorem retries_of_spared (h : Reaches config (Spares m) Initial w) :
    intents isRetryEvent (aggregate w.store m) = 0 := by
  have hinit : ∀ a, Initial a → intents isRetryEvent (aggregate a.store m) = 0 := by
    intro a hinit
    rw [hinit.store, aggregate_empty]
    rfl
  obtain ⟨_, hreach⟩ := Reaches.atomic (fun _ q hok => hok.spawning q rfl) h
  exact Reachable.invariant hinit
    (fun a l a' _ hinv hok hstep => (retries_of_step hok hstep).trans hinv) hreach

theorem matches_iff (h : Reaches config (Spawning Lifecycle) Initial w) :
    Matches w.store m ↔
      ∀ event ∈ (aggregate w.store m).outbox, event.eventType ≠ "SMS_RETRY_SCHEDULED" := by
  obtain ⟨hcoherent, hbalanced⟩ := balanced_of_reaches h m
  have hnone : intents isRetryEvent (aggregate w.store m) = 0 ↔
      ∀ event ∈ (aggregate w.store m).outbox, event.eventType ≠ "SMS_RETRY_SCHEDULED" := by
    simp [intents, isRetryEvent]
  rw [← hnone]
  constructor
  · intro hmatches
    cases hmessage : (aggregate w.store m).message with
    | none =>
        rw [intents, (hcoherent.owned hmessage).2.2]
        rfl
    | some row =>
        have hcount := hbalanced row hmessage
        rw [hmatches row hmessage] at hcount
        omega
  · intro hretries row hrow
    rw [hbalanced row hrow, hretries, Nat.add_zero]

end Runs

/-- The counter of a message matches its attempts in every state of a run whose steps
commit no `scheduleRetry` of it; and in any run, it does so just while the outbox records
no retry of the message. -/
theorem deliveryAttempts_matches (config : Config) (m : String) :
    (∀ w, Reaches config (Spares m) Initial w → Matches w.store m) ∧
    ∀ w, Reaches config (Spawning Lifecycle) Initial w → (Matches w.store m ↔
      ∀ event ∈ (aggregate w.store m).outbox, event.eventType ≠ "SMS_RETRY_SCHEDULED") := by
  refine ⟨fun w h row hrow => ?_, fun w h => matches_iff h⟩
  have hreaches : Reaches config (Spawning Lifecycle) Initial w :=
    Reachable.mono (fun _ _ hok => hok.spawning) h
  rw [(balanced_of_reaches hreaches m).2 row hrow, retries_of_spared h, Nat.add_zero]

/-- A worker takes the message `m` and sends it to its one provider. -/
def sending (reply : SendSmsResult) : List ServiceLabel :=
  creation ++ callingPass ++
    .run 1 { sampleChoice "" 2 with reply := some reply } ::
    statements 1 2 (sampleChoice "" 2) ++ [.commit 1]

/-- The provider accepts, and the one attempt is counted once. -/
theorem deliveryAttempts_matches_sent : ∃ w row, Reaches sampleConfig (Spares "m") Initial w ∧
    smsMessage.find w.store "m" = some row ∧ row.deliveryAttempts = 1 ∧ Matches w.store "m" := by
  obtain ⟨w, hreaches, hcounted⟩ := exists_reaches_of_exec sampleConfig (Spares "m")
    (sending ⟨true, some "X", none, false, none⟩)
    (fun w => (smsMessage.find w.store "m").any fun row => row.deliveryAttempts = 1)
    (by decide +kernel)
  obtain ⟨row, hrow, hone⟩ := (Option.any_eq_true _ _).mp hcounted
  exact ⟨w, row, hreaches, hrow, of_decide_eq_true hone,
    (deliveryAttempts_matches sampleConfig "m").1 w hreaches⟩

/-- The provider is busy and the worker schedules a retry: the one attempt counts twice. -/
theorem attempt_counted_twice : ∃ w row, Reaches sampleConfig (Spawning Lifecycle) Initial w ∧
    smsMessage.find w.store "m" = some row ∧ row.status = .retryScheduled ∧
    row.deliveryAttempts = 2 ∧ (aggregate w.store "m").attempts.length = 1 ∧
    ¬Matches w.store "m" := by
  obtain ⟨w, hreaches, hcounted, hone⟩ := exists_reaches_of_exec sampleConfig
    (Spawning Lifecycle)
    (sending ⟨false, none, some "busy", true, none⟩ ++ statements 1 4 (sampleChoice "r" 3) ++
      [.commit 1])
    (fun w => ((smsMessage.find w.store "m").any fun row =>
      row.status = .retryScheduled ∧ row.deliveryAttempts = 2) ∧
      (aggregate w.store "m").attempts.length = 1)
    (by decide +kernel)
  obtain ⟨row, hrow, htwo⟩ := (Option.any_eq_true _ _).mp hcounted
  obtain ⟨hstatus, htwo⟩ := of_decide_eq_true htwo
  refine ⟨w, row, hreaches, hrow, hstatus, htwo, hone, fun hmatches => ?_⟩
  have hcount := hmatches row hrow
  rw [htwo, hone] at hcount
  cases hcount

end SmsNotification.DeliveryAttempts

import SmsNotification.NoDuplicateDelivery

namespace SmsNotification.DispatchClaims

open SmsNotification.ActorSystem
open SmsNotification.LifecycleEffects
open SmsNotification.MessageAggregate
open SmsNotification.NoDuplicateDelivery
open SmsNotification.Schema
open SmsNotification.Service
open SmsNotification.ServiceEffects
open SmsNotification.ServiceRuns
open SmsNotification.SmsLifecycleRepository
open SmsNotification.SmsPersistenceRepository
open SmsNotification.SmsProcessor (Hold Pass Task)
open SmsNotification.SmsStateMachine

/-- The message that a worker has claimed and is still at. -/
def claims? : Control → Option String
  | .dispatch (.loading task _) => some task.messageId
  | .dispatch (.markingMissing task) => some task.messageId
  | .dispatch (.reserving pass _ _) => some pass.task.messageId
  | .dispatch (.acquiring hold) => some hold.pass.task.messageId
  | .dispatch (.calling hold) => some hold.pass.task.messageId
  | .dispatch (.awaiting hold _) => some hold.pass.task.messageId
  | .dispatch (.finalizing hold _) => some hold.pass.task.messageId
  | .dispatch (.schedulingRetry pass _) => some pass.task.messageId
  | .dispatch (.markingFatal pass _ _) => some pass.task.messageId
  | _ => none

/-- The worker has ended its pass, or it has crashed. -/
def isOver : Control → Bool
  | .dispatch (.finishing _ _) => true
  | .dispatch (.failing _) => true
  | .dispatch (.finished _) => true
  | .dispatch .failed => true
  | .dispatch .crashed => true
  | _ => false

/-- The message that a sweep is about to recover. -/
def recovering? : Control → Option String
  | .sweep (.recovering _ m _ _) => some m
  | _ => none

/-- The actor whose transaction commits in the step. -/
def committing? (a : ServiceSnapshot) : ServiceLabel → Option Control
  | .commit i => a.controls[i]?
  | .lost i => a.controls[i]?
  | _ => none

/-- The statuses of a message that a worker may still be at. -/
def isClaimed : SmsStatus → Bool
  | .queued | .retryScheduled | .fatalFailure => false
  | _ => true

def Claimed (A : Aggregate) : Prop :=
  A.status.any isClaimed

/-- A message that is or may have been with a provider gets a final status or is
known as sent. -/
def Settles (A A' : Aggregate) : Prop :=
  ∃ row row', A.message = some row ∧ isClaimed row.status ∧ A'.message = some row' ∧
    row'.status ∈ [.sent, .delivered, .undelivered, .rejected] ∧
    row'.retryRounds = row.retryRounds ∧ A'.outbox = A.outbox

/-- What a transaction does to one message, by the control state it runs in and
the one it goes on to. -/
inductive PassStep (config : Config) (m : String) (q q' : Control) (A A' : Aggregate) : Prop where
  | created (call : CreateOrGetMessage) : Created call m A A' → PassStep config m q q' A A'
  | begun (task : Task) (row : SmsMessage) : q = .dispatch (.beginning task) →
      q' = .dispatch (.loading task (lifecycleSelect row)) → task.messageId = m →
      A'.message = some row → Moved m beginProcessingFrom.contains .processing id none A A' →
      PassStep config m q q' A A'
  | recovered : recovering? q = some m →
      Moved m (· = .processing) .retryScheduled id (some (processingRecovered m)) A A' →
      PassStep config m q q' A A'
  | requeued : q = .calling (.resetForRequeue m) → Requeued m A A' → PassStep config m q q' A A'
  | retried (pass : Pass) (opts : ScheduleRetryOptions) :
      q = .dispatch (.schedulingRetry pass opts) → isOver q' → pass.task.messageId = m →
      Moved m (isValidTransition · .retryScheduled) .retryScheduled opts.data
        (some (retryScheduled m opts.delayMs)) A A' →
      PassStep config m q q' A A'
  | died (lastError : String) : claims? q = some m → isOver q' →
      Moved m (isValidTransition · .fatalFailure) .fatalFailure (withError lastError)
        (some (deadLettered m)) A A' →
      PassStep config m q q' A A'
  | reserved (pass : Pass) (provider attemptId : String) (rest : List String) :
      q = .dispatch (.reserving pass provider rest) → pass.task.messageId = m →
      Reserved m provider attemptId A A' → PassStep config m q q' A A'
  | finalized (hold : Hold) (input : FinalizeProviderAttemptInput) :
      q = .dispatch (.finalizing hold input) → hold.pass.task.messageId = m →
      Finalized m hold.attemptId input A A' → PassStep config m q q' A A'
  | settled : claims? q = none → Settles A A' → PassStep config m q q' A A'
  | relayed : Relayed q A A' → PassStep config m q q' A A'

section Transactions

variable {config : Config} {q q' : Control} {s s' : Database} {m : String}

theorem settles_of_moved {A A' : Aggregate} {source : SmsStatus → Bool} {target : SmsStatus}
    {data : SmsMessage → SmsMessage} (hsource : ∀ status, source status → isClaimed status)
    (htarget : target ∈ [SmsStatus.sent, .delivered, .undelivered, .rejected])
    (hdata : ∀ row, (data row).retryRounds = row.retryRounds)
    (h : Moved m source target data none A A') : Settles A A' := by
  obtain ⟨row, now, events', hrow, hguard, hevents, rfl⟩ := h
  exact ⟨row, _, hrow, hsource _ hguard, rfl, htarget, hdata row, hevents⟩

theorem isClaimed_of_reported {status : DeliveryTerminalStatus} {source : SmsStatus}
    (h : isValidTransition source status.status) : isClaimed source := by
  cases status <;> cases source <;>
    simp_all [isValidTransition, transitionTable, DeliveryTerminalStatus.status, isClaimed]

theorem settles_of_resolved {A A' : Aggregate} {attemptId : String}
    {input : ResolveTwilioAttemptInput} (h : Resolved m attemptId input A A') : Settles A A' := by
  obtain ⟨row, c, c', hrow, hstatus, _, rfl⟩ := h
  refine ⟨row, _, hrow, by rw [hstatus]; rfl, rfl, ?_, ?_, rfl⟩
  · rcases input with sid | ⟨⟨⟩⟩ <;> simp [ResolveTwilioAttemptInput.apply]
  · rcases input with sid | ⟨⟨⟩⟩ <;> rfl

theorem passStep_of_operation {op : Operation} {r : Except Failure Answer}
    (hop : delivers (.calling op)) (h : operationSpec op s r s') :
    s' = s ∨ ∃ m, Changes m (PassStep config m (.calling op) q') s s' := by
  cases op with
  | expireAmbiguousOutcome m =>
      obtain ⟨r', h⟩ := exists_of_maps h
      rcases r' with e | (_ | _)
      · exact h.elim
      · refine Or.inr ⟨m, Changes.mono (fun A A' hmoved => .settled rfl ?_) h⟩
        have hdata : ∀ row, (ambiguousOutcomeExpired row).retryRounds = row.retryRounds :=
          fun _ => rfl
        refine settles_of_moved (fun status hstatus => ?_) (by simp) hdata hmoved
        rw [of_decide_eq_true hstatus]
        rfl
      · exact Or.inl h.1
  | resolveTwilioAttempt m attemptId input =>
      obtain ⟨r', h⟩ := exists_of_maps h
      rcases r' with e | (message | message | _ | _ | _ | _)
      · exact Or.inl h
      · exact Or.inr ⟨m, h.1.mono fun _ _ hresolved => .settled rfl (settles_of_resolved hresolved)⟩
      · exact Or.inl h.1
      all_goals exact Or.inl h
  | applyDeliveryReport input =>
      obtain ⟨r', h⟩ := exists_of_maps h
      rcases r' with e | (message | _ | _ | _)
      · exact Or.inl h
      · refine Or.inr ⟨_, Changes.mono (fun A A' hmoved => .settled rfl ?_) h.1⟩
        refine settles_of_moved (fun _ => isClaimed_of_reported) ?_ (fun _ => rfl) hmoved
        cases input.terminalStatus <;> simp [DeliveryTerminalStatus.status]
      all_goals exact Or.inl h
  | resetForRequeue m =>
      obtain ⟨r', h⟩ := exists_of_maps h
      rcases r' with e | (message | _ | _)
      · exact h.elim
      · exact Or.inr ⟨m, h.1.mono fun _ _ hrequeued => .requeued rfl hrequeued⟩
      · exact Or.inl h
      · exact Or.inl h
  | _ => simp [delivers] at hop

section Passes

variable (pass : Pass)

@[simp] theorem claims?_endOfPass (config : SmsProcessor.Config) :
    claims? (.dispatch (SmsProcessor.endOfPass config pass)) = some pass.task.messageId := by
  simp only [SmsProcessor.endOfPass]
  split <;> rfl

@[simp] theorem claims?_nextProvider (config : SmsProcessor.Config) (providers : List String) :
    claims? (.dispatch (SmsProcessor.nextProvider config pass providers)) =
      some pass.task.messageId := by
  cases providers with
  | nil => exact claims?_endOfPass pass config
  | cons provider rest => rfl

end Passes

theorem passStep_of_dispatch {state : SmsProcessor.State}
    (h : dispatchSpec config.processor state s (.ok q') s') :
    s' = s ∨ ∃ m, Changes m (PassStep config m (.dispatch state) q') s s' := by
  cases state with
  | beginning task =>
      obtain ⟨result, rfl, hspec⟩ := h
      cases result with
      | notStartable => exact Or.inl hspec.1
      | started message =>
          obtain ⟨⟨A', hmoved, hupdate⟩, row, hrow, rfl⟩ := hspec
          refine Or.inr ⟨task.messageId, A', .begun task row rfl rfl rfl ?_ hmoved, hupdate⟩
          have hmessage := congrArg Aggregate.message (congrFun hupdate task.messageId)
          rw [Function.update_self] at hmessage
          exact hmessage.symm.trans hrow
  | loading task begin =>
      obtain ⟨row, _, hspec, _⟩ := h
      exact Or.inl hspec
  | markingMissing task =>
      obtain ⟨message, rfl, hspec⟩ := h
      exact Or.inr ⟨task.messageId, hspec.1.mono fun _ _ hmoved => .died _ rfl rfl hmoved⟩
  | reserving pass provider rest =>
      obtain ⟨result, rfl, hspec⟩ := h
      cases result with
      | notReservable => exact Or.inl hspec
      | reserved attemptId =>
          exact Or.inr ⟨pass.task.messageId,
            hspec.1.mono fun _ _ hreserved =>
              .reserved pass provider attemptId rest rfl rfl hreserved⟩
  | finalizing hold input =>
      obtain ⟨_, rfl, hspec⟩ := h
      exact Or.inr ⟨hold.pass.task.messageId,
        Changes.mono (fun _ _ hfinal => .finalized hold input rfl rfl hfinal) hspec⟩
  | schedulingRetry pass opts =>
      obtain ⟨message, rfl, hspec⟩ := h
      exact Or.inr ⟨pass.task.messageId,
        hspec.1.mono fun _ _ hmoved => .retried pass opts rfl rfl rfl hmoved⟩
  | markingFatal pass lastError reason =>
      obtain ⟨message, rfl, hspec⟩ := h
      exact Or.inr ⟨pass.task.messageId, hspec.1.mono fun _ _ hmoved => .died _ rfl rfl hmoved⟩
  | _ => exact h.elim

theorem passStep_of_controlSpec (hcall : isCall q → delivers q)
    (h : controlSpec config q s (.ok q') s') :
    s' = s ∨ ∃ m, Changes m (PassStep config m q q') s s' := by
  cases q with
  | calling op =>
      obtain ⟨answer, _, hspec⟩ := h
      exact passStep_of_operation (hcall rfl) hspec
  | creating call again =>
      obtain ⟨⟨_ | _, message⟩, _, hspec⟩ := h
      · exact Or.inl hspec.1
      · exact Or.inr ⟨_, hspec.2.1.mono fun _ _ hcreated => .created call hcreated⟩
  | sweep state =>
      cases state
      case selecting =>
        obtain ⟨candidates, _, hspec⟩ := h
        exact Or.inl hspec
      case recovering cutoff candidate rest recovered =>
        obtain ⟨_ | _, _, hspec⟩ := h
        · exact Or.inl hspec
        · exact Or.inr ⟨candidate, Changes.mono (fun _ _ hmoved => .recovered rfl hmoved) hspec⟩
      all_goals exact h.elim
  | dispatch state => exact passStep_of_dispatch h
  | relay state =>
      have hrelay : s' = s ∨ ∃ m, Changes m (Relayed (.relay state)) s s' := by
        cases state
        case fetching =>
          obtain ⟨events, _, hspec⟩ := h
          exact Or.inl hspec.1
        case marking | recording =>
          obtain ⟨_, _, hspec⟩ := h
          exact relayed_of_updateOutboxEvent rfl hspec
        all_goals exact h.elim
      exact hrelay.imp_right fun ⟨m, hchange⟩ =>
        ⟨m, hchange.mono fun _ _ hrelayed => .relayed hrelayed⟩
  | _ => exact h.elim

end Transactions

section Messages

variable {config : Config} {q q' : Control} {m : String} {A A' : Aggregate}

theorem claimed_of_row {row : SmsMessage} (hrow : A.message = some row)
    (hstatus : isClaimed row.status) : Claimed A := by
  simp [Claimed, Aggregate.status, hrow, hstatus]

theorem status_of_claimed (h : Claimed A) :
    ∃ row, A.message = some row ∧ isClaimed row.status := by
  obtain ⟨status, hstatus, hclaimed⟩ := (Option.any_eq_true _ _).mp h
  obtain ⟨row, hrow, rfl⟩ := Option.map_eq_some_iff.mp hstatus
  exact ⟨row, hrow, hclaimed⟩

theorem not_claimed_of_moved {source : SmsStatus → Bool} {target : SmsStatus}
    {data : SmsMessage → SmsMessage} {intent : Option OutboxIntent}
    (hsource : ∀ status, source status → isClaimed status = false)
    (h : Moved m source target data intent A A') : ¬Claimed A := by
  intro hclaimed
  obtain ⟨row, now, events', hrow, hguard, _, _⟩ := h
  obtain ⟨row', hrow', hstatus⟩ := status_of_claimed hclaimed
  obtain rfl := Option.some.inj (hrow.symm.trans hrow')
  simp [hsource _ hguard] at hstatus

theorem isClaimed_of_startable (status : SmsStatus) (h : beginProcessingFrom.contains status) :
    isClaimed status = false := by
  cases status <;> simp_all [beginProcessingFrom, isClaimed]

theorem claimed_of_moved {source : SmsStatus → Bool} {target : SmsStatus}
    {data : SmsMessage → SmsMessage} {intent : Option OutboxIntent} (htarget : isClaimed target)
    (h : Moved m source target data intent A A') : Claimed A' := by
  obtain ⟨row, now, events', _, _, _, rfl⟩ := h
  exact claimed_of_row rfl htarget

/-- A message stays claimed until a sweep takes it back or its worker gives it up
at the end of the pass. -/
theorem PassStep.claimed (h : PassStep config m q q' A A') (hclaimed : Claimed A)
    (hrecovering : recovering? q ≠ some m) :
    Claimed A' ∨ (claims? q = some m ∧ isOver q') := by
  cases h with
  | created call hcreated =>
      obtain ⟨c, events', hnone, _⟩ := hcreated
      simp [Claimed, Aggregate.status, hnone] at hclaimed
  | begun task row _ _ _ _ hmoved =>
      exact absurd hclaimed (not_claimed_of_moved isClaimed_of_startable hmoved)
  | recovered hq _ => exact absurd hq hrecovering
  | requeued _ hrequeued =>
      refine absurd hclaimed (not_claimed_of_moved (fun status hstatus => ?_) hrequeued)
      rw [of_decide_eq_true hstatus]
      rfl
  | retried pass opts hq hover hm _ =>
      subst hq
      exact Or.inr ⟨congrArg some hm, hover⟩
  | died lastError hclaims hover _ => exact Or.inr ⟨hclaims, hover⟩
  | reserved pass provider attemptId rest _ _ hreserved =>
      obtain ⟨row, now, c, _, _, _, rfl⟩ := hreserved
      exact Or.inl (claimed_of_row rfl rfl)
  | finalized hold input _ _ hfinal =>
      obtain ⟨old, _, _, _, hrest⟩ := hfinal
      rcases input with providerMessageId | ⟨_ | _, isRetryable, errorMessage, delayMs⟩
      · obtain ⟨row, now, _, _, rfl⟩ := hrest
        exact Or.inl (claimed_of_row rfl rfl)
      · obtain ⟨row, now, _, _, rfl⟩ := hrest
        exact Or.inl (claimed_of_row rfl rfl)
      · obtain ⟨delay, events', _, _, rfl⟩ := hrest
        exact Or.inl hclaimed
  | settled _ hsettles =>
      obtain ⟨row, row', _, _, hrow', hstatus, _⟩ := hsettles
      refine Or.inl (claimed_of_row hrow' ?_)
      cases h : row'.status <;> simp_all [isClaimed]
  | relayed hrelayed =>
      obtain ⟨event, _, data, c, _, rfl⟩ := hrelayed
      exact Or.inl hclaimed

end Messages

section Controls

variable {config : Config} {q q' : Control} {s s' : Database} {m : String}

theorem claims?_eq_none (h : family q ≠ .dispatch) : claims? q = none := by
  cases q <;> first | rfl | exact absurd rfl h

theorem claims_of_ok (h : controlSpec config q s (.ok q') s') (hclaims : claims? q' = some m) :
    claims? q = some m ∨ ∃ task begin, q = .dispatch (.beginning task) ∧
      q' = .dispatch (.loading task begin) ∧ task.messageId = m := by
  by_cases hq : family q = .dispatch
  · cases q with
    | dispatch state =>
        cases state with
        | beginning task =>
            obtain ⟨result, rfl, _⟩ := h
            cases result with
            | notStartable => simp [SmsProcessor.afterBegin, claims?] at hclaims
            | started message => exact Or.inr ⟨task, message, rfl, rfl, Option.some.inj hclaims⟩
        | loading task begin =>
            obtain ⟨row, rfl, _⟩ := h
            refine Or.inl ?_
            cases row with
            | none => exact hclaims
            | some row =>
                simp only [SmsProcessor.afterLoad] at hclaims
                split at hclaims
                · simp [claims?] at hclaims
                · rwa [claims?_nextProvider] at hclaims
        | reserving pass provider rest =>
            obtain ⟨result, rfl, _⟩ := h
            cases result with
            | notReservable => simp [SmsProcessor.afterReserve, claims?] at hclaims
            | reserved attemptId => exact Or.inl hclaims
        | finalizing hold input =>
            obtain ⟨_, rfl, _⟩ := h
            rcases input with _ | ⟨_ | _, _, _, _⟩
            · simp [SmsProcessor.afterFinalize, claims?] at hclaims
            · rw [SmsProcessor.afterFinalize, claims?_nextProvider] at hclaims
              exact Or.inl hclaims
            · simp [SmsProcessor.afterFinalize, claims?] at hclaims
        | markingMissing task =>
            obtain ⟨_, rfl, _⟩ := h
            simp [claims?] at hclaims
        | schedulingRetry pass opts =>
            obtain ⟨_, rfl, _⟩ := h
            simp [claims?] at hclaims
        | markingFatal pass lastError reason =>
            obtain ⟨_, rfl, _⟩ := h
            simp [claims?] at hclaims
        | _ => exact h.elim
    | _ => simp [family] at hq
  · simp [claims?_eq_none ((family_of_ok h).1 ▸ hq)] at hclaims

theorem begun_of_loading {task task' : Task} {begin : LifecycleSmsMessage}
    (h : controlSpec config (.dispatch (.beginning task)) s
      (.ok (.dispatch (.loading task' begin))) s') :
    task' = task ∧ ∃ row, begin = lifecycleSelect row ∧
      (aggregate s' task.messageId).message = some row ∧
      Changes task.messageId (Moved task.messageId beginProcessingFrom.contains .processing id none)
        s s' := by
  obtain ⟨result, heq, hspec⟩ := h
  cases result with
  | notStartable => simp [SmsProcessor.afterBegin] at heq
  | started message =>
      simp only [SmsProcessor.afterBegin, Control.dispatch.injEq,
        SmsProcessor.State.loading.injEq] at heq
      obtain ⟨rfl, rfl⟩ := heq
      obtain ⟨hchange, row, hrow, rfl⟩ := hspec
      exact ⟨rfl, row, rfl, hrow, hchange⟩

theorem over_of_ok (h : controlSpec config q s (.ok q') s') (hclaims : claims? q = some m) :
    claims? q' = some m ∨ isOver q' := by
  cases q with
  | dispatch state =>
      cases state with
      | loading task begin =>
          obtain ⟨row, rfl, _⟩ := h
          cases row with
          | none => exact Or.inl hclaims
          | some row =>
              simp only [SmsProcessor.afterLoad]
              split
              · exact Or.inr rfl
              · exact Or.inl ((claims?_nextProvider _ _ _).trans hclaims)
      | reserving pass provider rest =>
          obtain ⟨result, rfl, _⟩ := h
          cases result with
          | notReservable => exact Or.inr rfl
          | reserved attemptId => exact Or.inl hclaims
      | finalizing hold input =>
          obtain ⟨_, rfl, _⟩ := h
          rcases input with _ | ⟨_ | _, _, _, _⟩
          · exact Or.inr rfl
          · exact Or.inl ((claims?_nextProvider _ _ _).trans hclaims)
          · exact Or.inr rfl
      | markingMissing task =>
          obtain ⟨_, rfl, _⟩ := h
          exact Or.inr rfl
      | schedulingRetry pass opts =>
          obtain ⟨_, rfl, _⟩ := h
          exact Or.inr rfl
      | markingFatal pass lastError reason =>
          obtain ⟨_, rfl, _⟩ := h
          exact Or.inr rfl
      | acquiring | calling | awaiting => exact h.elim
      | _ => simp [claims?] at hclaims
  | _ => simp [claims?] at hclaims

theorem over_of_error {t : Sql Control} {onError : Failure → Control}
    (hcode : code config q = .tx t onError) (e : Failure) (hclaims : claims? q = some m) :
    isOver (onError e) := by
  have hq : family q = .dispatch := by
    by_contra hq
    simp [claims?_eq_none hq] at hclaims
  obtain ⟨_, _, _, _, h | h⟩ := dispatch_of_error hcode e hq <;> rw [h] <;> rfl

theorem claims_of_error {t : Sql Control} {onError : Failure → Control}
    (hcode : code config q = .tx t onError) (e : Failure) : claims? (onError e) = none := by
  by_cases hq : family q = .dispatch
  · obtain ⟨_, _, _, _, h | h⟩ := dispatch_of_error hcode e hq <;> rw [h] <;> rfl
  · exact claims?_eq_none ((family_of_error hcode e).1 ▸ hq)

theorem over_of_crash (hclaims : claims? q = some m) : isOver (crash q) := by
  cases q with
  | dispatch state => rfl
  | _ => simp [claims?] at hclaims

theorem claims_of_crash (q : Control) : claims? (crash q) = none := by
  cases q <;> rfl

theorem claims?_process (job : QueueConstants.Job) :
    claims? (.dispatch (SmsProcessor.process job)) = none := by
  rw [SmsProcessor.process]
  split <;> rfl

theorem claims_of_acts {c : Choice} {o o' : Surroundings.Outside} (h : Acts config c o q o' q')
    (hclaims : claims? q' = some m) : claims? q = some m := by
  cases h with
  | acquired => exact hclaims
  | started => exact hclaims
  | answered _ _ _ =>
      cases hreply : c.reply with
      | none => simp [SmsProcessor.afterSend, hreply, claims?] at hclaims
      | some result =>
          rw [hreply] at hclaims
          exact hclaims
  | took => simp [claims?_process] at hclaims
  | _ => simp [claims?] at hclaims

theorem over_of_acts {c : Choice} {o o' : Surroundings.Outside} (h : Acts config c o q o' q')
    (hclaims : claims? q = some m) : claims? q' = some m ∨ isOver q' := by
  cases h with
  | acquired => exact Or.inl hclaims
  | notAcquired => exact Or.inr rfl
  | started => exact Or.inl hclaims
  | answered _ _ _ =>
      cases c.reply with
      | none => exact Or.inr rfl
      | some result => exact Or.inl hclaims
  | _ => simp [claims?] at hclaims

theorem isOver_of_acts {c : Choice} {o o' : Surroundings.Outside} (h : Acts config c o q o' q')
    (hover : isOver q) : isOver q' := by
  cases h <;> first | rfl | simp [isOver] at hover

/-- What becomes of an actor in one step. -/
inductive Moves (config : Config) (a a' : ServiceSnapshot) (q q' : Control) : Prop where
  | stays : q' = q → Moves config a a' q q'
  | went : controlSpec config q a.store (.ok q') a'.store → Moves config a a' q q'
  | failed {t : Sql Control} {onError : Failure → Control} (e : Failure) :
      code config q = .tx t onError → q' = onError e → Moves config a a' q q'
  | acted (c : Choice) : Acts config c a.ext q a'.ext q' → Moves config a a' q q'
  | crashed : q' = crash q → Moves config a a' q q'

theorem moves_of_step {a a' : ServiceSnapshot} {l : ServiceLabel}
    (hstep : ServiceStep config a l a') {i : Nat} (hq' : a'.controls[i]? = some q') :
    (l = .spawn q' ∧ a.controls[i]? = none) ∨
      ∃ q, a.controls[i]? = some q ∧ Moves config a a' q q' := by
  have hset : ∀ {j : Nat} {q₁ q₂ : Control}, a.controls[j]? = some q₁ → Moves config a a' q₁ q₂ →
      (a.controls.set j q₂)[i]? = some q' →
        ∃ q, a.controls[i]? = some q ∧ Moves config a a' q q' := by
    intro j q₁ q₂ hq₁ hmoves hset
    rcases getElem?_set_eq_some hset with ⟨rfl, rfl⟩ | ⟨_, hset⟩
    · exact ⟨q₁, hq₁, hmoves⟩
    · exact ⟨q', hset, .stays rfl⟩
  cases hstep with
  | spawn q =>
      by_cases hlt : i < a.controls.length
      · rw [List.getElem?_append_left hlt] at hq'
        exact Or.inr ⟨q', hq', .stays rfl⟩
      · refine Or.inl ⟨?_, List.getElem?_eq_none (Nat.le_of_not_lt hlt)⟩
        rcases getElem?_concat_eq_some hq' with hq' | rfl
        · exact absurd (List.getElem?_eq_some_iff.mp hq').1 hlt
        · rfl
  | answer hq _ hspec => exact Or.inr (hset hq (.went hspec) hq')
  | error hq hcode _ => exact Or.inr (hset hq (.failed _ hcode rfl) hq')
  | act hq hcode hact => exact Or.inr (hset hq (.acted _ (acts_of_code hcode hact)) hq')
  | commit hq _ hspec => exact Or.inr (hset hq (.went hspec) hq')
  | lost hq hcode _ => exact Or.inr (hset hq (.failed _ hcode rfl) hq')
  | fault hq hcode => exact Or.inr (hset hq (.failed _ hcode rfl) hq')
  | crash hq _ => exact Or.inr (hset hq (.crashed rfl) hq')
  | env _ => exact Or.inr ⟨q', hq', .stays rfl⟩

theorem exists_control_of_step {a a' : ServiceSnapshot} {l : ServiceLabel}
    (hstep : ServiceStep config a l a') {i : Nat} (hq : a.controls[i]? = some q) :
    ∃ q', a'.controls[i]? = some q' ∧ Moves config a a' q q' := by
  have hlength : a.controls.length ≤ a'.controls.length := by
    cases hstep <;> simp
  have hlt := Nat.lt_of_lt_of_le (List.getElem?_eq_some_iff.mp hq).1 hlength
  have hq' := List.getElem?_eq_getElem hlt
  obtain ⟨_, hnone⟩ | ⟨q₁, hq₁, hmoves⟩ := moves_of_step hstep hq'
  · simp [hnone] at hq
  · obtain rfl := Option.some.inj (hq₁.symm.trans hq)
    exact ⟨_, hq', hmoves⟩

theorem Moves.over {a a' : ServiceSnapshot} (h : Moves config a a' q q')
    (hclaims : claims? q = some m) : claims? q' = some m ∨ isOver q' := by
  cases h with
  | stays hsame => exact Or.inl (hsame ▸ hclaims)
  | went hspec => exact over_of_ok hspec hclaims
  | failed e hcode hq' => exact Or.inr (hq' ▸ over_of_error hcode e hclaims)
  | acted c hacts => exact over_of_acts hacts hclaims
  | crashed hq' => exact Or.inr (hq' ▸ over_of_crash hclaims)

theorem Moves.over_of_over {a a' : ServiceSnapshot} (h : Moves config a a' q q')
    (hover : isOver q) : isOver q' := by
  cases q with
  | dispatch state =>
      cases h with
      | stays hsame => exact hsame ▸ hover
      | went hspec =>
          cases state <;> first | exact hspec.elim | simp [isOver] at hover
      | failed e hcode hq' => cases state <;> simp_all [isOver, code, dispatchCode]
      | acted c hacts => exact isOver_of_acts hacts hover
      | crashed hq' => exact hq' ▸ rfl
  | _ => simp [isOver] at hover

end Controls

end SmsNotification.DispatchClaims

import SmsNotification.LostRaces
import SmsNotification.PassResults

namespace SmsNotification.PassStages

open SmsNotification.ActorSystem
open SmsNotification.LifecycleEffects
open SmsNotification.LostRaces
open SmsNotification.MessageAggregate
open SmsNotification.PassResults
open SmsNotification.ReadCommitted
open SmsNotification.Schema
open SmsNotification.Service
open SmsNotification.ServiceEffects
open SmsNotification.SmsLifecycleRepository
open SmsNotification.SmsProcessor hiding Config
open SmsNotification.SmsStateMachine
open SmsNotification.Surroundings

section Refusals

/-- The pass is rejected, or ends as skipped. -/
def givesUp : Except Failure Control → Bool
  | .error _ => true
  | .ok (.dispatch state) => skips state
  | .ok _ => false

/-- A pass that gives up does not find its message in PROCESSING. -/
def GivesUpRightly (state : SmsProcessor.State) (s : Database) (r : Except Failure Control)
    (_ : Database) : Prop :=
  ∀ m, expected? state = some (m, .processing) → givesUp r →
    ∀ row, smsMessage.find s m = some row → row.status ≠ .processing

variable {config : SmsProcessor.Config} {state : SmsProcessor.State}
  {rely : Database → Database → Prop} {s : Database}

theorem skips_nextProvider (pass : Pass) (providers : List String) :
    skips (nextProvider config pass providers) = false := by
  cases providers with
  | nil =>
      simp only [nextProvider, endOfPass]
      split <;> rfl
  | cons provider rest => rfl

theorem skips_afterLoad (task : Task) (begin : LifecycleSmsMessage) (row : Option SmsMessage) :
    skips (afterLoad config task begin row) = false := by
  cases row with
  | none => rfl
  | some row =>
      rw [afterLoad]
      split
      · rfl
      · exact skips_nextProvider _ _

theorem takesEffect_givesUp_transition {m : String} {target : SmsStatus}
    {data : SmsMessage → SmsMessage} {intent : Option OutboxIntent} {task : Task}
    {outcome : ProcessOutcome} (htarget : target = .retryScheduled ∨ target = .fatalFailure)
    (hdata : ∀ row, (data row).id = row.id) (houtcome : outcome ≠ .skipped)
    (hexpected : expected? state = some (m, .processing)) :
    TakesEffect Choice.supplied rely (GivesUpRightly state)
      ((guardedTransition m target data intent).map fun _ => .dispatch (.finishing task outcome))
      s [] := by
  have hsole : ∀ status, isValidTransition status target ↔ status = .processing := by
    rcases htarget with rfl | rfl <;> intro status <;> cases status <;> decide
  refine ((takesEffect_guardedTransition_rejecting m target data intent hdata).map _).mono
    fun s r s' hspec m' hm' hgives => ?_
  obtain rfl := (Prod.mk.inj (Option.some.inj (hexpected.symm.trans hm'))).1
  cases r with
  | error e => exact hspec.2 e rfl _ hsole
  | ok q =>
      obtain ⟨_, rfl, _⟩ := hspec
      cases outcome <;> first | exact absurd rfl houtcome | cases hgives

theorem takesEffect_givesUp {t : Sql Control} {onError : Failure → Control}
    (hcode : dispatchCode config state = .tx t onError) (s : Database) :
    TakesEffect Choice.supplied rely (GivesUpRightly state) t s [] := by
  have hplain : TakesEffect Choice.supplied rely (dispatchSpec config state) t s [] :=
    dispatch_takesEffect config hcode s
  cases state with
  | beginning task => exact hplain.mono fun s r s' _ m hm => by simp [expected?] at hm
  | loading task begin =>
      refine hplain.mono fun s r s' hspec m _ hgives => ?_
      cases r with
      | error e => exact hspec.elim
      | ok q =>
          obtain ⟨row, rfl, _⟩ := hspec
          simp [givesUp, skips_afterLoad] at hgives
  | markingMissing task =>
      obtain ⟨rfl, _⟩ := Code.tx.inj hcode
      exact takesEffect_givesUp_transition (Or.inr rfl) (fun _ => rfl) (by simp) rfl
  | reserving pass provider rest =>
      obtain ⟨rfl, _⟩ := Code.tx.inj hcode
      refine ((takesEffect_reserveProviderAttempt_refusing _ _).map _).mono
        fun s r s' hspec m hm hgives => ?_
      obtain rfl := (Prod.mk.inj (Option.some.inj hm)).1
      cases r with
      | error e => exact hspec.1.elim
      | ok q =>
          obtain ⟨reservation, rfl, _, hnone⟩ := hspec
          cases reservation with
          | notReservable => exact hnone rfl
          | reserved attemptId => simp [givesUp, afterReserve, skips] at hgives
  | finalizing hold input => exact hplain.mono fun s r s' _ m hm => by simp [expected?] at hm
  | schedulingRetry pass opts =>
      obtain ⟨rfl, _⟩ := Code.tx.inj hcode
      exact takesEffect_givesUp_transition (Or.inl rfl) (fun _ => rfl) (by simp) rfl
  | markingFatal pass lastError reason =>
      obtain ⟨rfl, _⟩ := Code.tx.inj hcode
      exact takesEffect_givesUp_transition (Or.inr rfl) (fun _ => rfl) (by simp) rfl
  | _ => simp [dispatchCode] at hcode

/-- What the transactions of a pass may answer and do, and why they give up. -/
def passSpec (config : Config) : Control → Database → Except Failure Control → Database → Prop
  | .dispatch state => fun s r s' =>
      dispatchSpec config.processor state s r s' ∧ GivesUpRightly state s r s'
  | _ => fun _ _ _ => False

theorem sound_pass (config : Config) :
    Sound (service config) (fun q => family q = .dispatch) (fun _ _ => True)
      (passSpec config) where
  refl _ := trivial
  trans _ _ _ _ _ := trivial
  guarantee _ _ _ _ _ _ := trivial
  takesEffect q t onError hq hcode s := by
    change code config q = .tx t onError at hcode
    cases q with
    | dispatch state =>
        exact (dispatch_takesEffect config.processor hcode s).and (takesEffect_givesUp hcode s)
    | _ => simp [family] at hq
  live_ok q t onError s q' s' hq _ hspec := by
    cases q with
    | dispatch state =>
        have hcontrol : controlSpec config (.dispatch state) s (.ok q') s' := hspec.1
        exact (family_of_ok hcontrol).1
    | _ => simp [family] at hq
  live_error q t onError e hq hcode := (family_of_error hcode e).1.trans hq
  live_act q act c o o' q' hq hcode hact := (acts_of_code hcode hact).family.1.trans hq
  live_crashed q hq := by
    cases q with
    | dispatch state => rfl
    | _ => simp [family] at hq

end Refusals

/-- The providers' results that a pass has taken note of. -/
def noted (send : Send) : PassFailure :=
  ⟨send.provider, send.result.isRetryable⟩

section Stages

variable {config : SmsProcessor.Config} (d : Assignment config)

/-- A pass between the sends `past` and the sends `todo`. -/
structure Along (past todo : List Send) (pass : Pass) : Prop where
  sends : d.sends = past ++ todo
  undecided : ∀ send ∈ past, decides send = false
  task : pass.task = d.task
  rounds : pass.begin.retryRounds = d.row.retryRounds
  failures : pass.passFailures = past.map noted

/-- The message between two sends: claimed, with an attempt for each send behind. -/
structure Standing (past : List Send) (A : Aggregate) : Prop where
  message : ∃ row, A.message = some row ∧ row.status = .processing ∧
    row.retryRounds = d.row.retryRounds
  appends : Appends d past A
  outbox : A.outbox = d.before.outbox

/-- The message during a send: reserved for its provider, with the reservation as its
last attempt. -/
structure Holding (past : List Send) (send : Send) (attemptId : String) (A : Aggregate) :
    Prop where
  message : ∃ row, A.message = some row ∧ row.status = .awaitingProviderResult ∧
    row.retryRounds = d.row.retryRounds ∧ row.selectedProvider = some send.provider
  attempts : ∃ new c, A.attempts =
      d.before.attempts ++ new ++ [reservation d.task.messageId send.provider c] ∧
    c.uuid = attemptId ∧ List.Forall₂ (Recorded config d.task.messageId) past new
  resolutions : A.resolutions = d.before.resolutions
  outbox : A.outbox = d.before.outbox

/-- A pass during a send. -/
structure During (past : List Send) (send : Send) (todo : List Send) (hold : Hold)
    (A : Aggregate) : Prop where
  along : Along d past (send :: todo) hold.pass
  provider : hold.provider = send.provider
  rest : hold.rest = todo.map Send.provider
  holding : Holding d past send hold.attemptId A

/-- A call that can still be answered with the result. -/
def Open (o : Outside) (call : Nat) (result : SendSmsResult) : Prop :=
  ∃ started, o.calls[call]? = some started ∧ started.state = .inFlight ∧
    (Outside.isRefusal result → started.accepted = false)

/-- Where a pass is, with what it has made of its message. -/
inductive Stage (A : Aggregate) (o : Outside) : SmsProcessor.State → Prop where
  | beginning : A = d.before → Stage A o (.beginning d.task)
  | loading {begin : LifecycleSmsMessage} {now : Int} :
      begin.retryRounds = d.row.retryRounds →
      A = { d.before with
        message := some { d.row with status := .processing, updatedAt := now } } →
      Stage A o (.loading d.task begin)
  | reserving {past todo : List Send} {send : Send} {pass : Pass} :
      Along d past (send :: todo) pass → Standing d past A →
      Stage A o (.reserving pass send.provider (todo.map Send.provider))
  | acquiring {past todo : List Send} {send : Send} {hold : Hold} :
      During d past send todo hold A → Stage A o (.acquiring hold)
  | calling {past todo : List Send} {send : Send} {hold : Hold} :
      During d past send todo hold A → Stage A o (.calling hold)
  | awaiting {past todo : List Send} {send : Send} {hold : Hold} {call : Nat} :
      During d past send todo hold A → Open o call send.result → Stage A o (.awaiting hold call)
  | finalizing {past todo : List Send} {send : Send} {hold : Hold} :
      During d past send todo hold A →
      Stage A o (.finalizing hold (recordedResult config send.result))
  | schedulingRetry {pass : Pass} {opts : ScheduleRetryOptions} :
      Along d d.sends [] pass → Standing d d.sends A →
      endOfPass config pass = .schedulingRetry pass opts → Stage A o (.schedulingRetry pass opts)
  | markingFatal {pass : Pass} {lastError : String} {reason : DeadLetterReason} :
      Along d d.sends [] pass → Standing d d.sends A →
      endOfPass config pass = .markingFatal pass lastError reason →
      Stage A o (.markingFatal pass lastError reason)
  | finishing {outcome : ProcessOutcome} : d.Result outcome A →
      Stage A o (.finishing d.task outcome)
  | finished {outcome : ProcessOutcome} : d.Result outcome A → Stage A o (.finished outcome)

variable {d} {A A' : Aggregate} {o : Outside} {past todo : List Send} {send : Send} {pass : Pass}
  {hold : Hold}

theorem stage_nextProvider (halong : Along d past todo pass) (hstanding : Standing d past A) :
    Stage d A o (nextProvider config pass (todo.map Send.provider)) := by
  cases todo with
  | cons send todo => exact .reserving halong hstanding
  | nil =>
      have hsends : d.sends = past := by rw [halong.sends, List.append_nil]
      subst hsends
      generalize hend : endOfPass config pass = state
      simp only [List.map_nil, nextProvider, hend]
      have hcases := hend
      simp only [endOfPass] at hcases
      split at hcases
      · subst hcases
        exact .schedulingRetry halong hstanding hend
      · subst hcases
        exact .markingFatal halong hstanding hend

theorem Standing.reserved {attemptId : String} (h : Standing d past A)
    (hreserved : Reserved d.task.messageId send.provider attemptId A A') :
    Holding d past send attemptId A' := by
  obtain ⟨row, now, c, hrow, _, hc, rfl⟩ := hreserved
  obtain ⟨row', hrow', _, hrounds⟩ := h.message
  obtain rfl := Option.some.inj (hrow.symm.trans hrow')
  obtain ⟨⟨new, hattempts, hnew⟩, hresolutions⟩ := h.appends
  refine ⟨⟨_, rfl, rfl, hrounds, rfl⟩, ⟨new, c, ?_, hc, hnew⟩, hresolutions, h.outbox⟩
  simp [hattempts]

theorem Holding.recorded {attemptId : String} {old : SmsAttempt}
    {input : FinalizeProviderAttemptInput} (h : Holding d past send attemptId A)
    (hkeyed : A.Keyed) (hmem : old ∈ A.attempts) (hid : old.id = attemptId)
    (hinput : recordedResult config send.result = input)
    (hresolutions : A'.resolutions = A.resolutions)
    (hattempts : A'.attempts = smsAttempt.replace (input.record old) A.attempts) :
    Appends d (past ++ [send]) A' ∧ ∃ c, A'.attempts.getLast? =
      some (input.record (reservation d.task.messageId send.provider c)) := by
  obtain ⟨new, c, hbefore, hc, hnew⟩ := h.attempts
  have hold : old = reservation d.task.messageId send.provider c :=
    List.inj_on_of_nodup_map hkeyed.attempts hmem (by simp [hbefore]) (hid.trans hc.symm)
  have hreplace : A'.attempts = d.before.attempts ++ new ++ [input.record old] := by
    rw [hattempts, hbefore, ← hold]
    refine Table.replace_append ?_ (by cases input <;> rfl)
    rw [hold, ← hbefore]
    exact hkeyed.attempts
  refine ⟨⟨⟨new ++ [input.record old], ?_, ?_⟩, ?_⟩, c, ?_⟩
  · rw [hreplace, List.append_assoc]
  · exact List.rel_append hnew (List.Forall₂.cons ⟨c, by rw [hold, hinput]⟩ List.Forall₂.nil)
  · rw [hresolutions, h.resolutions]
  · rw [hreplace, List.getLast?_concat, hold]

theorem During.accepted {id : String} (h : During d past send todo hold A) (hkeyed : A.Keyed)
    (haccepts : Accepts send id)
    (hfinal : Finalized d.task.messageId hold.attemptId (.accepted id) A A') :
    d.Result (.sent send.provider) A' := by
  obtain ⟨old, hmem, hid, _, row, now, hrow, _, hA'⟩ := hfinal
  have hrecorded := recordedResult_of_accepts config haccepts
  have hdecides : decides send := by simp [decides, haccepts.1]
  obtain ⟨row', hrow', _, _, hselected⟩ := h.holding.message
  obtain rfl := Option.some.inj (hrow.symm.trans hrow')
  obtain ⟨happends, c, hlast⟩ := h.holding.recorded hkeyed hmem hid hrecorded
    (by rw [hA']) (congrArg Aggregate.attempts hA')
  have hdecider : decider? d.sends = some send := by
    rw [h.along.sends, decider_of_past h.along.undecided hdecides]
  have htried : tried d.sends = past ++ [send] := by
    rw [h.along.sends, tried_of_past h.along.undecided hdecides]
  rw [← htried] at happends
  subst hA'
  exact result_sent hdecider haccepts happends
    ⟨_, send, id, _, rfl, rfl, hselected, rfl, hdecider, haccepts, hlast, rfl, h.holding.outbox⟩

theorem During.unclear {isRetryable : Bool} {errorMessage : String} {delayMs : Option ℚ}
    (h : During d past send todo hold A) (hkeyed : A.Keyed) (hdecides : decides send)
    (hnot : ∀ id, ¬Accepts send id) (hrecorded : recordedResult config send.result =
      .failed true isRetryable errorMessage delayMs)
    (hfinal : Finalized d.task.messageId hold.attemptId
      (.failed true isRetryable errorMessage delayMs) A A') :
    d.Result .awaitingProviderResult A' := by
  obtain ⟨old, hmem, hid, _, delayMs, events', _, ⟨c, _, _, rfl⟩, hA'⟩ := hfinal
  obtain ⟨row, hrow, hstatus, _⟩ := h.holding.message
  obtain ⟨happends, _⟩ := h.holding.recorded hkeyed hmem hid hrecorded
    (by rw [hA']) (congrArg Aggregate.attempts hA')
  have hdecider : decider? d.sends = some send := by
    rw [h.along.sends, decider_of_past h.along.undecided hdecides]
  have htried : tried d.sends = past ++ [send] := by
    rw [h.along.sends, tried_of_past h.along.undecided hdecides]
  rw [← htried] at happends
  subst hA'
  exact result_awaiting hdecider hnot happends
    ⟨row, hrow, hstatus, delayMs, c, by rw [h.holding.outbox]⟩

theorem During.refused {errorMessage : String} {delayMs : Option ℚ}
    (h : During d past send todo hold A) (hkeyed : A.Keyed) (hundecided : decides send = false)
    (hrecorded : recordedResult config send.result =
      .failed false send.result.isRetryable errorMessage delayMs)
    (hfinal : Finalized d.task.messageId hold.attemptId
      (.failed false send.result.isRetryable errorMessage delayMs) A A') :
    Along d (past ++ [send]) todo { hold.pass with
      passFailures := hold.pass.passFailures ++ [⟨hold.provider, send.result.isRetryable⟩] } ∧
    Standing d (past ++ [send]) A' := by
  obtain ⟨old, hmem, hid, _, row, now, hrow, _, hA'⟩ := hfinal
  obtain ⟨row', hrow', _, hrounds, _⟩ := h.holding.message
  obtain rfl := Option.some.inj (hrow.symm.trans hrow')
  obtain ⟨happends, _⟩ := h.holding.recorded hkeyed hmem hid hrecorded
    (by rw [hA']) (congrArg Aggregate.attempts hA')
  obtain ⟨hsends, hpast, htask, hround, hfailures⟩ := h.along
  subst hA'
  refine ⟨⟨by simp [hsends], fun other hother => ?_, htask, hround, ?_⟩,
    ⟨_, rfl, rfl, hrounds⟩, happends, h.holding.outbox⟩
  · rcases List.mem_append.mp hother with hother | hother
    · exact hpast other hother
    · rw [List.mem_singleton.mp hother, hundecided]
  · simp [hfailures, h.provider, noted]

theorem During.finalized (h : During d past send todo hold A) (hkeyed : A.Keyed)
    (hfinal : Finalized d.task.messageId hold.attemptId (recordedResult config send.result)
      A A') : Stage d A' o (afterFinalize config hold (recordedResult config send.result)) := by
  by_cases haccepts : ∃ id, Accepts send id
  · obtain ⟨id, haccepts⟩ := haccepts
    rw [recordedResult_of_accepts config haccepts] at hfinal ⊢
    rw [afterFinalize, h.along.task, h.provider]
    exact .finishing (h.accepted hkeyed haccepts hfinal)
  have hnot : ∀ id, ¬Accepts send id := fun id hid => haccepts ⟨id, hid⟩
  cases hdecides : decides send with
  | true =>
      obtain ⟨isRetryable, errorMessage, hrecorded⟩ :=
        recordedResult_ambiguous config hdecides hnot
      rw [hrecorded] at hfinal ⊢
      rw [afterFinalize, h.along.task]
      exact .finishing (h.unclear hkeyed hdecides hnot hrecorded hfinal)
  | false =>
      obtain ⟨errorMessage, hrecorded⟩ := recordedResult_of_undecided config hdecides
      rw [hrecorded] at hfinal ⊢
      rw [afterFinalize, h.rest]
      obtain ⟨halong, hstanding⟩ := h.refused hkeyed hdecides hrecorded hfinal
      exact stage_nextProvider halong hstanding

theorem allRetryable_iff (h : Along d past todo pass) :
    allRetryable pass.passFailures ↔ AllRetryable past := by
  rw [allRetryable, h.failures]
  cases past with
  | nil => simp [AllRetryable]
  | cons send past => simp [AllRetryable, noted]

theorem endOfPass_schedulingRetry {opts : ScheduleRetryOptions} (halong : Along d d.sends [] pass)
    (h : endOfPass config pass = .schedulingRetry pass opts) :
    Concludes d .retryScheduled ∧ opts.incrementRound = true ∧
      opts.delayMs = (config.backoffBaseMs * 2 ^ d.row.retryRounds : Nat) := by
  simp only [endOfPass] at h
  split at h
  · rename_i hdecision
    obtain ⟨_, rfl⟩ := SmsProcessor.State.schedulingRetry.inj h
    rw [Bool.and_eq_true, allRetryable_iff halong, decide_eq_true_eq, halong.rounds] at hdecision
    exact ⟨hdecision, rfl, by rw [halong.rounds]; rfl⟩
  · cases h

theorem endOfPass_markingFatal {lastError : String} {reason : DeadLetterReason}
    (halong : Along d d.sends [] pass)
    (h : endOfPass config pass = .markingFatal pass lastError reason) :
    Concludes d (.deadLetter reason) := by
  simp only [endOfPass] at h
  split at h
  · cases h
  · rename_i hdecision
    obtain ⟨_, _, rfl⟩ := SmsProcessor.State.markingFatal.inj h
    rw [Bool.and_eq_true, allRetryable_iff halong, decide_eq_true_eq, halong.rounds] at hdecision
    split
    · rename_i hretryable
      have hall := (allRetryable_iff halong).mp hretryable
      exact ⟨hall, Nat.le_of_not_lt fun hround => hdecision ⟨hall, hround⟩⟩
    · rename_i hretryable
      exact fun hall => hretryable ((allRetryable_iff halong).mpr hall)

theorem Standing.retried {opts : ScheduleRetryOptions} (halong : Along d d.sends [] pass)
    (h : Standing d d.sends A) (hend : endOfPass config pass = .schedulingRetry pass opts)
    (hmoved : Moved d.task.messageId (isValidTransition · .retryScheduled) .retryScheduled opts.data
      (some (retryScheduled d.task.messageId opts.delayMs)) A A') :
    d.Result .retryScheduled A' := by
  obtain ⟨row, now, _, hrow, _, ⟨c, _, _, rfl⟩, rfl⟩ := hmoved
  obtain ⟨hconcludes, hincrement, hdelay⟩ := endOfPass_schedulingRetry halong hend
  obtain ⟨row', hrow', _, hrounds⟩ := h.message
  obtain rfl := Option.some.inj (hrow.symm.trans hrow')
  refine result_undecided (decider_eq_none halong.undecided) hconcludes h.appends
    ⟨_, rfl, rfl, ?_, c, ?_⟩
  · simp [ScheduleRetryOptions.data, hincrement, hrounds]
  · rw [h.outbox, hdelay]

theorem Standing.deadLettered {lastError : String} {reason : DeadLetterReason}
    (halong : Along d d.sends [] pass) (h : Standing d d.sends A)
    (hend : endOfPass config pass = .markingFatal pass lastError reason)
    (hmoved : Moved d.task.messageId (isValidTransition · .fatalFailure) .fatalFailure
      (withError lastError) (some (deadLettered d.task.messageId)) A A') :
    d.Result (.deadLetter reason) A' := by
  obtain ⟨row, now, _, hrow, _, ⟨c, _, _, rfl⟩, rfl⟩ := hmoved
  obtain ⟨row', hrow', _, hrounds⟩ := h.message
  obtain rfl := Option.some.inj (hrow.symm.trans hrow')
  exact result_undecided (decider_eq_none halong.undecided) (endOfPass_markingFatal halong hend)
    h.appends ⟨_, rfl, rfl, hrounds, c, by rw [h.outbox]⟩

end Stages

section Steps

variable {config : SmsProcessor.Config} {d : Assignment config} {s s' : Database} {o : Outside}
  {state : SmsProcessor.State} {q : Control} {past todo : List Send} {send : Send} {hold : Hold}

theorem aggregate_of_changes {m : String} {change : Aggregate → Aggregate → Prop}
    (h : Changes m change s s') :
    change (aggregate s m) (aggregate s' m) ∧ ∀ m', m' ≠ m → aggregate s' m' = aggregate s m' := by
  obtain ⟨A', hchange, hupdate⟩ := h
  rw [hupdate, Function.update_self]
  exact ⟨hchange, fun m' hm' => Function.update_of_ne hm' _ _⟩

/-- What an answer of the database does: the pass goes on to its next stage, and the other
messages stay. -/
def Advances (d : Assignment config) (s : Database) (o : Outside) (q : Control) (s' : Database) :
    Prop :=
  (∃ state, q = .dispatch state ∧ Stage d (aggregate s' d.task.messageId) o state) ∧
    ∀ m, m ≠ d.task.messageId → aggregate s' m = aggregate s m

theorem advances_of_begin {begin : BeginProcessingResult}
    (hbefore : aggregate s d.task.messageId = d.before)
    (hspec : beginProcessingSpec d.task.messageId s (.ok begin) s') :
    Advances d s o (.dispatch (afterBegin d.task begin)) s' := by
  have hfound : smsMessage.find s d.task.messageId = some d.row :=
    (congrArg Aggregate.message hbefore).trans d.found
  cases begin with
  | notStartable =>
      have hstartable := hspec.2 d.row hfound
      rw [d.startable] at hstartable
      cases hstartable
  | started message =>
      obtain ⟨hchanges, row, hrow, rfl⟩ := hspec
      obtain ⟨⟨row', now, events', hrow', _, hevents, hA'⟩, hothers⟩ :=
        aggregate_of_changes hchanges
      obtain rfl := Option.some.inj (hfound.symm.trans hrow')
      have hmessage := congrArg Aggregate.message hA'
      obtain rfl := Option.some.inj (hrow.symm.trans hmessage)
      rw [hbefore] at hA' hevents
      rw [show events' = d.before.outbox from hevents] at hA'
      exact ⟨⟨_, rfl, .loading rfl hA'⟩, hothers⟩

theorem advances_of_load {begin : LifecycleSmsMessage} {now : Int}
    (hrounds : begin.retryRounds = d.row.retryRounds)
    (hclaimed : aggregate s d.task.messageId = { d.before with
      message := some { d.row with status := .processing, updatedAt := now } }) :
    Advances d s o
      (.dispatch (afterLoad config d.task begin (smsMessage.find s d.task.messageId))) s := by
  have hrow := congrArg Aggregate.message hclaimed
  obtain ⟨body, hbody⟩ := Option.isSome_iff_exists.mp d.decrypts
  rw [show smsMessage.find s d.task.messageId = _ from hrow]
  simp only [afterLoad, hbody, d.providers]
  refine ⟨⟨_, rfl, ?_⟩, fun _ _ => rfl⟩
  rw [hclaimed]
  have halong : Along d [] d.sends ⟨d.task, begin, d.row.recipientPhone, body, []⟩ :=
    ⟨rfl, by simp, rfl, hrounds, rfl⟩
  exact stage_nextProvider halong ⟨⟨_, rfl, rfl, rfl⟩, ⟨⟨[], by simp, .nil⟩, rfl⟩, rfl⟩

theorem During.attempt (h : During d past send todo hold (aggregate s d.task.messageId)) :
    ∃ row, smsAttempt.find s hold.attemptId = some row ∧
      row.smsMessageId = d.task.messageId ∧ row.outcome = .reserved := by
  obtain ⟨new, c, hattempts, hc, _⟩ := h.holding.attempts
  have hmem : reservation d.task.messageId send.provider c ∈
      (aggregate s d.task.messageId).attempts := by
    rw [hattempts]
    exact List.mem_concat_self
  obtain ⟨hfind, _⟩ := mem_attempts_iff.mp hmem
  exact ⟨_, by rw [← hc]; exact hfind, rfl, rfl⟩

theorem advances_of_ok (h : Stage d (aggregate s d.task.messageId) o state)
    (hspec : dispatchSpec config state s (.ok q) s') (hgives : GivesUpRightly state s (.ok q) s') :
    Advances d s o q s' := by
  cases h with
  | beginning hbefore =>
      obtain ⟨begin, rfl, hbegin⟩ := hspec
      exact advances_of_begin hbefore hbegin
  | loading hrounds hclaimed =>
      obtain ⟨row, rfl, rfl, rfl⟩ := hspec
      exact advances_of_load hrounds hclaimed
  | @reserving past todo send pass halong hstanding =>
      obtain ⟨reservation, rfl, hreserve⟩ := hspec
      rw [halong.task] at hreserve
      cases reservation with
      | notReservable =>
          obtain ⟨row, hrow, hstatus, _⟩ := hstanding.message
          have hmoved := hgives d.task.messageId (by rw [expected?, halong.task]) rfl row hrow
          exact absurd hstatus hmoved
      | reserved attemptId =>
          obtain ⟨hreserved, hothers⟩ := aggregate_of_changes hreserve.1
          exact ⟨⟨_, rfl, .acquiring ⟨halong, rfl, rfl, hstanding.reserved hreserved⟩⟩, hothers⟩
  | @finalizing past todo send hold hduring =>
      obtain ⟨_, rfl, hfinalize⟩ := hspec
      rw [hduring.along.task] at hfinalize
      obtain ⟨hfinal, hothers⟩ := aggregate_of_changes hfinalize
      exact ⟨⟨_, rfl, hduring.finalized (keyed _ _) hfinal⟩, hothers⟩
  | @schedulingRetry pass opts halong hstanding hend =>
      obtain ⟨_, rfl, hmove, _⟩ := hspec
      rw [halong.task] at hmove
      obtain ⟨hmoved, hothers⟩ := aggregate_of_changes hmove
      refine ⟨⟨_, rfl, ?_⟩, hothers⟩
      rw [halong.task]
      exact .finishing (hstanding.retried halong hend hmoved)
  | @markingFatal pass lastError reason halong hstanding hend =>
      obtain ⟨_, rfl, hmove, _⟩ := hspec
      rw [halong.task] at hmove
      obtain ⟨hmoved, hothers⟩ := aggregate_of_changes hmove
      refine ⟨⟨_, rfl, ?_⟩, hothers⟩
      rw [halong.task]
      exact .finishing (hstanding.deadLettered halong hend hmoved)
  | _ => exact hspec.elim

theorem no_error {e : Failure} (h : Stage d (aggregate s d.task.messageId) o state)
    (hspec : dispatchSpec config state s (.error e) s')
    (hgives : GivesUpRightly state s (.error e) s') : False := by
  cases h with
  | @finalizing past todo send hold hduring =>
      obtain ⟨_, hrefused⟩ := hspec
      rw [hduring.along.task] at hrefused
      obtain ⟨row, hrow, hstatus, _⟩ := hduring.holding.message
      exact not_refused (ParkedMessages.expires_recordedResult config send.result)
        (by rw [Aggregate.status, hrow, Option.map_some, hstatus]) hduring.attempt hrefused
  | @schedulingRetry pass opts halong hstanding _ =>
      obtain ⟨row, hrow, hstatus, _⟩ := hstanding.message
      exact hgives d.task.messageId (by rw [expected?, halong.task]) rfl row hrow hstatus
  | @markingFatal pass lastError reason halong hstanding _ =>
      obtain ⟨row, hrow, hstatus, _⟩ := hstanding.message
      exact hgives d.task.messageId (by rw [expected?, halong.task]) rfl row hrow hstatus
  | _ => exact hspec.elim

end Steps

/-- The result that the provider of a hold has in an assignment. -/
def assigned? (sends : List Send) (hold : Hold) : Option SendSmsResult :=
  (sends[hold.pass.passFailures.length]?).map Send.result

/-- A call is answered with the result that its provider has in an assignment. -/
def answers (sends : List Send) (c : Choice) : Control → Bool
  | .dispatch (.awaiting hold _) => c.reply = assigned? sends hold
  | _ => true

/-- A provider does not accept a call that it is to refuse. -/
def allows (sends : List Send) (c : Choice) : Control → Bool
  | .dispatch (.awaiting hold call) =>
      match c.move with
      | .accept call' => call' ≠ call || !(assigned? sends hold).any Outside.isRefusal
      | _ => true
  | _ => true

section Calls

variable {config : Config} {d : Assignment config.processor} {A : Aggregate} {o o' : Outside}
  {c : Choice} {state : SmsProcessor.State} {q : Control} {past todo : List Send} {send : Send}
  {hold : Hold}

theorem During.assigned (h : During d past send todo hold A) :
    assigned? d.sends hold = some send.result := by
  simp [assigned?, h.along.sends, h.along.failures]

theorem stage_of_acts (h : Stage d A o state) (hacts : Acts config c o (.dispatch state) o' q)
    (hserves : serves c o (.dispatch state)) (hanswers : answers d.sends c (.dispatch state)) :
    ∃ state', q = .dispatch state' ∧ Stage d A o' state' := by
  cases hacts with
  | took _ => cases h
  | notAcquired hold hnot => simp [serves, hnot] at hserves
  | acquired hold _ =>
      cases h with
      | acquiring hduring => exact ⟨_, rfl, .calling hduring⟩
  | started hold =>
      cases h with
      | calling hduring =>
          exact ⟨_, rfl, .awaiting hduring ⟨_, List.getElem?_concat_length, rfl, fun _ => rfl⟩⟩
  | answered hold call hanswer =>
      cases h with
      | awaiting hduring hopen =>
          have hreply : c.reply = some _ :=
            (of_decide_eq_true hanswers).trans hduring.assigned
          rw [hreply]
          exact ⟨_, rfl, .finalizing hduring⟩
  | finished task outcome =>
      cases h with
      | finishing hresult => exact ⟨_, rfl, .finished hresult⟩
  | failed task => cases h

theorem answerCall_of_open {call : Nat} {result : SendSmsResult} (h : Open o call result) :
    ∃ o', o.answerCall call (some result) = some o' := by
  obtain ⟨started, hstarted, hflight, haccepted⟩ := h
  cases hrefusal : Outside.isRefusal result with
  | true => simp [Outside.answerCall, hstarted, hflight, hrefusal, haccepted hrefusal]
  | false => simp [Outside.answerCall, hstarted, hflight, hrefusal]

theorem open_of_move {call : Nat} {result : SendSmsResult} (h : Open o call result)
    (hmove : o.move c = some o')
    (hallows : ∀ call', c.move = .accept call' → call' = call →
      Outside.isRefusal result = false) : Open o' call result := by
  obtain ⟨started, hstarted, hflight, haccepted⟩ := h
  cases Outside.movesTo_of_move hmove with
  | @accepted call' _ hc haccept =>
      obtain ⟨started', hstarted', _, rfl⟩ := Outside.acceptCall_eq_some haccept
      by_cases hcall : call' = call
      · have hrefusal := hallows call' hc hcall
        subst hcall
        obtain rfl := Option.some.inj (hstarted.symm.trans hstarted')
        exact ⟨_, List.getElem?_set_self (List.getElem?_eq_some_iff.mp hstarted).1, hflight,
          by simp [hrefusal]⟩
      · exact ⟨started, by rw [List.getElem?_set_ne hcall, hstarted], hflight, haccepted⟩
  | _ => exact ⟨started, hstarted, hflight, haccepted⟩

theorem stage_of_move (h : Stage d A o state) (hmove : o.move c = some o')
    (hallows : allows d.sends c (.dispatch state)) : Stage d A o' state := by
  cases h with
  | awaiting hduring hopen =>
      refine .awaiting hduring (open_of_move hopen hmove fun call' hc hcall => ?_)
      simpa [allows, hc, hcall, hduring.assigned] using hallows
  | beginning hbefore => exact .beginning hbefore
  | loading hrounds hclaimed => exact .loading hrounds hclaimed
  | reserving halong hstanding => exact .reserving halong hstanding
  | acquiring hduring => exact .acquiring hduring
  | calling hduring => exact .calling hduring
  | finalizing hduring => exact .finalizing hduring
  | schedulingRetry halong hstanding hend => exact .schedulingRetry halong hstanding hend
  | markingFatal halong hstanding hend => exact .markingFatal halong hstanding hend
  | finishing hresult => exact .finishing hresult
  | finished hresult => exact .finished hresult

end Calls

end SmsNotification.PassStages

import SmsNotification.ClaimExclusivity

namespace SmsNotification.PassBudget

open SmsNotification.ActorSystem
open SmsNotification.ClaimExclusivity
open SmsNotification.DispatchClaims
open SmsNotification.MessageAggregate
open SmsNotification.NoDuplicateDelivery
open SmsNotification.QueueConstants
open SmsNotification.Schema
open SmsNotification.Service
open SmsNotification.ServiceEffects
open SmsNotification.ServiceRuns
open SmsNotification.SmsLifecycleRepository
open SmsNotification.SmsProcessor (Hold Pass Task)
open SmsNotification.Surroundings

/-- The message that an actor requeues next. -/
def requeueing? : Control → Option String
  | .calling (.resetForRequeue m) => some m
  | _ => none

/-- Steps of the delivering parts that recover no message. -/
def Unrecovered (a : ServiceSnapshot) (l : ServiceLabel) : Prop :=
  Spawning (delivers ·) a l ∧ (committing? a l).bind recovering? = none

/-- Steps that do not requeue the message either. -/
def Unrequeued (m : String) (a : ServiceSnapshot) (l : ServiceLabel) : Prop :=
  Unrecovered a l ∧ (committing? a l).bind requeueing? ≠ some m

instance Unrecovered.decidable (a : ServiceSnapshot) (l : ServiceLabel) :
    Decidable (Unrecovered a l) :=
  inferInstanceAs (Decidable (_ ∧ _))

instance Unrequeued.decidable (m : String) (a : ServiceSnapshot) (l : ServiceLabel) :
    Decidable (Unrequeued m a l) :=
  inferInstanceAs (Decidable (_ ∧ _))

theorem patient_of_unrecovered {a : ServiceSnapshot} {l : ServiceLabel} (h : Unrecovered a l) :
    Patient a l :=
  ⟨h.1, by rw [overtakes, h.2]; rfl⟩

/-- The passes that the row of a message accounts for. -/
def passes (row : SmsMessage) : Nat :=
  row.retryRounds + if beginProcessingFrom.contains row.status then 0 else 1

/-- What a worker at its pass knows of the rounds. -/
def AtRound (config : Config) (rounds : Nat) : Control → Prop
  | .dispatch (.loading _ begin) => begin.retryRounds = rounds
  | .dispatch (.reserving pass _ _) => pass.begin.retryRounds = rounds
  | .dispatch (.acquiring hold) => hold.pass.begin.retryRounds = rounds
  | .dispatch (.calling hold) => hold.pass.begin.retryRounds = rounds
  | .dispatch (.awaiting hold _) => hold.pass.begin.retryRounds = rounds
  | .dispatch (.finalizing hold _) => hold.pass.begin.retryRounds = rounds
  | .dispatch (.schedulingRetry pass opts) => pass.begin.retryRounds = rounds ∧
      opts.incrementRound ∧ rounds < config.processor.maxRetryRounds
  | .dispatch (.markingFatal pass _ _) => pass.begin.retryRounds = rounds
  | _ => True

/-- The provider calls that a worker may still make in its pass. -/
def left (config : Config) : Control → Nat
  | .dispatch (.loading _ _) => config.processor.orderedProviders.length
  | .dispatch (.reserving _ _ rest) => rest.length + 1
  | .dispatch (.acquiring hold) => hold.rest.length + 1
  | .dispatch (.calling hold) => hold.rest.length + 1
  | .dispatch (.awaiting hold _) => hold.rest.length
  | .dispatch (.finalizing hold _) => hold.rest.length
  | _ => 0

section Controls

variable {config : Config} {q q' : Control} {s s' : Database} {m : String} {rounds : Nat}

theorem atRound_endOfPass {pass : Pass} (h : pass.begin.retryRounds = rounds) :
    AtRound config rounds (.dispatch (SmsProcessor.endOfPass config.processor pass)) := by
  simp only [SmsProcessor.endOfPass]
  split
  · rename_i hretry
    simp only [Bool.and_eq_true, decide_eq_true_eq] at hretry
    exact ⟨h, rfl, h ▸ hretry.2⟩
  · exact h

theorem left_endOfPass (pass : Pass) :
    left config (.dispatch (SmsProcessor.endOfPass config.processor pass)) = 0 := by
  simp only [SmsProcessor.endOfPass]
  split <;> rfl

theorem atRound_nextProvider {pass : Pass} (providers : List String)
    (h : pass.begin.retryRounds = rounds) :
    AtRound config rounds
      (.dispatch (SmsProcessor.nextProvider config.processor pass providers)) := by
  cases providers with
  | nil => exact atRound_endOfPass h
  | cons provider rest => exact h

theorem left_nextProvider (pass : Pass) (providers : List String) :
    left config (.dispatch (SmsProcessor.nextProvider config.processor pass providers)) =
      providers.length := by
  cases providers with
  | nil => exact left_endOfPass pass
  | cons provider rest => rfl

theorem atRound_of_ok (h : controlSpec config q s (.ok q') s') (hclaims : claims? q = some m)
    (hclaims' : claims? q' = some m) (hround : AtRound config rounds q) :
    AtRound config rounds q' ∧ left config q' ≤ left config q := by
  cases q with
  | dispatch state =>
      cases state with
      | loading task begin =>
          obtain ⟨row, rfl, _⟩ := h
          cases row with
          | none => exact ⟨trivial, Nat.zero_le _⟩
          | some row =>
              simp only [SmsProcessor.afterLoad] at hclaims' ⊢
              split
              · exact ⟨trivial, Nat.zero_le _⟩
              · exact ⟨atRound_nextProvider _ hround, (left_nextProvider _ _).le⟩
      | reserving pass provider rest =>
          obtain ⟨result, rfl, _⟩ := h
          cases result with
          | notReservable => exact ⟨trivial, Nat.zero_le _⟩
          | reserved attemptId => exact ⟨hround, le_refl _⟩
      | finalizing hold input =>
          obtain ⟨_, rfl, _⟩ := h
          rcases input with _ | ⟨_ | _, _, _, _⟩
          · exact ⟨trivial, Nat.zero_le _⟩
          · exact ⟨atRound_nextProvider _ hround, (left_nextProvider _ _).le⟩
          · exact ⟨trivial, Nat.zero_le _⟩
      | markingMissing task =>
          obtain ⟨_, rfl, _⟩ := h
          simp [claims?] at hclaims'
      | schedulingRetry pass opts =>
          obtain ⟨_, rfl, _⟩ := h
          simp [claims?] at hclaims'
      | markingFatal pass lastError reason =>
          obtain ⟨_, rfl, _⟩ := h
          simp [claims?] at hclaims'
      | acquiring | calling | awaiting => exact h.elim
      | _ => simp [claims?] at hclaims
  | _ => simp [claims?] at hclaims

/-- The calls of a message. -/
def callsOf (m : String) (o : Outside) : Nat :=
  o.calls.countP (·.messageId = m)

theorem callsOf_set (call' : SendCall) {o : Outside} {call : Nat} {started : SendCall}
    (hk : o.calls[call]? = some started) (hm : call'.messageId = started.messageId) :
    callsOf m { o with calls := o.calls.set call call' } = callsOf m o := by
  have hmessages := congrArg (List.countP fun id => id = m) (map_set_of_eq hk hm)
  rwa [List.countP_map, List.countP_map] at hmessages

theorem left_process (job : Job) : left config (.dispatch (SmsProcessor.process job)) = 0 := by
  rw [SmsProcessor.process]
  split <;> rfl

theorem left_of_acts {c : Choice} {o o' : Outside} (h : Acts config c o q o' q') :
    callsOf m o' + left config q' ≤ callsOf m o + left config q := by
  cases h with
  | acquired => exact le_refl _
  | notAcquired => exact Nat.add_le_add_left (Nat.zero_le _) _
  | started hold =>
      simp only [callsOf, Outside.startCall, List.countP_append, List.countP_singleton, left]
      split <;> omega
  | answered hold call hanswer =>
      obtain ⟨started, state, hk, _, rfl, _⟩ := Outside.answerCall_eq_some hanswer
      rw [callsOf_set { started with state := state } hk rfl]
      cases c.reply with
      | none => exact Nat.add_le_add_left (Nat.zero_le _) _
      | some result => exact le_refl _
  | took htake =>
      obtain ⟨queued, _, _, _, _, rfl⟩ := Outside.takeJob_eq_some htake
      rw [left_process]
      exact le_refl _
  | tookMaintenance _ htake =>
      obtain ⟨queued, _, _, _, _, rfl⟩ := Outside.takeJob_eq_some htake
      exact le_refl _
  | notAdded _ _ _ ho => rcases ho with rfl | rfl <;> exact le_refl _
  | _ => exact le_refl _

theorem not_acts_of_tx {t : Sql Control} {onError : Failure → Control}
    (hcode : code config q = .tx t onError) {c : Choice} {o o' : Outside}
    (h : Acts config c o q o' q') : False := by
  cases h <;> simp [code, dispatchCode, relayCode, maintenanceCode] at hcode

theorem atRound_of_acts {c : Choice} {o o' : Outside} (h : Acts config c o q o' q')
    (hclaims' : claims? q' = some m) (hround : AtRound config rounds q) :
    AtRound config rounds q' := by
  cases h with
  | acquired => exact hround
  | started => exact hround
  | answered hold call hanswer =>
      cases hreply : c.reply with
      | none => simp [SmsProcessor.afterSend, hreply, claims?] at hclaims'
      | some result => exact hround
  | took => simp [claims?_process] at hclaims'
  | _ => simp [claims?] at hclaims'

theorem callsOf_of_acts {c : Choice} {o o' : Outside} (h : Acts config c o q o' q')
    (hclaims : claims? q ≠ some m) : callsOf m o' = callsOf m o := by
  cases h with
  | started hold =>
      have hne : hold.pass.task.messageId ≠ m := fun hm => hclaims (congrArg some hm)
      simp [callsOf, Outside.startCall, hne]
  | answered hold call hanswer =>
      obtain ⟨started, state, hk, _, rfl, _⟩ := Outside.answerCall_eq_some hanswer
      exact callsOf_set { started with state := state } hk rfl
  | took htake | tookMaintenance _ htake =>
      obtain ⟨queued, _, _, _, _, rfl⟩ := Outside.takeJob_eq_some htake
      rfl
  | notAdded _ _ _ ho => rcases ho with rfl | rfl <;> rfl
  | _ => rfl

end Controls

section Messages

variable {config : Config} {q q' : Control} {m : String} {A A' : Aggregate} {row : SmsMessage}

theorem starts_of_same (h : A'.status = A.status) : starts A A' = false := by
  rw [starts, h]
  rcases A.status with _ | status
  · rfl
  · cases status <;> rfl

theorem passes_of_settled {row' : SmsMessage} (hrow : A.message = some row)
    (hrow' : A'.message = some row') (hrounds : row'.retryRounds = row.retryRounds)
    (hstatus : isClaimed row.status)
    (hstatus' : beginProcessingFrom.contains row'.status = false) :
    ∃ row', A'.message = some row' ∧ row'.retryRounds = row.retryRounds ∧
      passes row' = passes row + if starts A A' then 1 else 0 := by
  refine ⟨row', hrow', hrounds, ?_⟩
  have hclosed := not_startable_of_isClaimed hstatus
  rw [starts_eq_false (claimed_of_row hrow hstatus), passes, passes, hrounds, hstatus', hclosed]
  rfl

theorem passes_of_passStep (h : PassStep config m q q' A A') (hrow : A.message = some row)
    (hrecovering : recovering? q ≠ some m) (hrequeueing : q ≠ .calling (.resetForRequeue m))
    (hclaimed : claims? q = some m → isClaimed row.status)
    (hround : claims? q = some m → AtRound config row.retryRounds q) :
    (∃ row', A'.message = some row' ∧ row'.retryRounds = row.retryRounds ∧
        passes row' = passes row + if starts A A' then 1 else 0) ∨
      (∃ row', A'.message = some row' ∧ row'.retryRounds = row.retryRounds + 1 ∧
        row.retryRounds < config.processor.maxRetryRounds ∧ passes row' = passes row ∧
        starts A A' = false ∧ claims? q = some m ∧ isOver q') := by
  cases h with
  | created call hcreated =>
      obtain ⟨c, events', hnone, _⟩ := hcreated
      simp [hrow] at hnone
  | begun task row₁ _ _ _ _ hmoved =>
      obtain ⟨row₂, now, events', hrow₂, hguard, _, rfl⟩ := hmoved
      obtain rfl := Option.some.inj (hrow₂.symm.trans hrow)
      refine Or.inl ⟨_, rfl, rfl, ?_⟩
      rw [starts, Aggregate.status, hrow]
      simp only [Option.map_some, Option.any_some, hguard, passes]
      rfl
  | recovered hq _ => exact absurd hq hrecovering
  | requeued hq _ => exact absurd hq hrequeueing
  | retried pass opts hq hover hm hmoved =>
      subst hq
      obtain ⟨row₂, now, events', hrow₂, hguard, _, rfl⟩ := hmoved
      obtain rfl := Option.some.inj (hrow₂.symm.trans hrow)
      have hclaims : claims? (.dispatch (.schedulingRetry pass opts)) = some m :=
        congrArg some hm
      obtain ⟨_, hincrement, hlt⟩ : pass.begin.retryRounds = row₂.retryRounds ∧
        opts.incrementRound ∧ row₂.retryRounds < config.processor.maxRetryRounds := hround hclaims
      have hstatus := hclaimed hclaims
      have hdata : (opts.data row₂).retryRounds = row₂.retryRounds + 1 := by
        simp [ScheduleRetryOptions.data, hincrement]
      refine Or.inr ⟨_, rfl, hdata, hlt, ?_, starts_eq_false (claimed_of_row hrow hstatus),
        hclaims, hover⟩
      rw [passes, passes, not_startable_of_isClaimed hstatus, hdata]
      rfl
  | died lastError hclaims hover hmoved =>
      obtain ⟨row₂, now, events', hrow₂, hguard, _, rfl⟩ := hmoved
      obtain rfl := Option.some.inj (hrow₂.symm.trans hrow)
      exact Or.inl (passes_of_settled hrow rfl rfl (hclaimed hclaims) rfl)
  | reserved pass provider attemptId rest hq hm hreserved =>
      obtain ⟨row₂, now, c, hrow₂, hstatus, _, rfl⟩ := hreserved
      obtain rfl := Option.some.inj (hrow₂.symm.trans hrow)
      exact Or.inl (passes_of_settled hrow rfl rfl (by rw [hstatus]; rfl) rfl)
  | finalized hold input hq hm hfinal =>
      obtain ⟨old, _, _, _, hrest⟩ := hfinal
      rcases input with providerMessageId | ⟨_ | _, isRetryable, errorMessage, delayMs⟩
      · obtain ⟨row₂, now, hrow₂, hstatus, rfl⟩ := hrest
        obtain rfl := Option.some.inj (hrow₂.symm.trans hrow)
        exact Or.inl (passes_of_settled hrow rfl rfl (by rw [hstatus]; rfl) rfl)
      · obtain ⟨row₂, now, hrow₂, hstatus, rfl⟩ := hrest
        obtain rfl := Option.some.inj (hrow₂.symm.trans hrow)
        exact Or.inl (passes_of_settled hrow rfl rfl (by rw [hstatus]; rfl) rfl)
      · obtain ⟨delay, events', _, _, rfl⟩ := hrest
        subst hq
        have hstatus := hclaimed (congrArg some hm)
        exact Or.inl (passes_of_settled hrow hrow rfl hstatus (not_startable_of_isClaimed hstatus))
  | settled _ hsettles =>
      obtain ⟨row₂, row', hrow₂, hstatus, hrow', hstatus', hrounds, _⟩ := hsettles
      obtain rfl := Option.some.inj (hrow₂.symm.trans hrow)
      refine Or.inl (passes_of_settled hrow hrow' hrounds hstatus ?_)
      cases h : row'.status <;> simp_all [beginProcessingFrom]
  | relayed hrelayed =>
      obtain ⟨event, _, data, c, _, rfl⟩ := hrelayed
      refine Or.inl ⟨row, hrow, rfl, ?_⟩
      have hnot :
          starts A { A with outbox := outboxEvent.replace (data c event) A.outbox } = false :=
        starts_of_same rfl
      rw [hnot]
      rfl

end Messages

/-- The invariant since the budget was last restored, `base` being the calls made
before and `n` the passes begun since. -/
structure Budget (config : Config) (m : String) (base n : Nat) (a : ServiceSnapshot) : Prop where
  rounds : ∃ row, (aggregate a.store m).message = some row ∧
    row.retryRounds ≤ config.processor.maxRetryRounds ∧ n = passes row ∧
    ∀ (i : Nat) q, a.controls[i]? = some q → claims? q = some m →
      AtRound config row.retryRounds q
  calls : callsOf m a.ext ≤ base + n * config.processor.orderedProviders.length
  left : ∀ (i : Nat) q, a.controls[i]? = some q → claims? q = some m →
    callsOf m a.ext + left config q ≤ base + n * config.processor.orderedProviders.length

section Preservation

variable {config : Config} {a a' : ServiceSnapshot} {m : String} {base n : Nat}

theorem Budget.keep (h : Budget config m base n a) {i : Nat} {q q' : Control} {s : Database}
    {x : Outside} (hq : a.controls[i]? = some q)
    (hmessage : (aggregate s m).message = (aggregate a.store m).message)
    (hcalls : callsOf m x ≤ base + n * config.processor.orderedProviders.length)
    (hown : ∀ rounds, claims? q' = some m → (claims? q = some m → AtRound config rounds q) →
      claims? q = some m ∧ AtRound config rounds q' ∧
        callsOf m x + PassBudget.left config q' ≤ callsOf m a.ext + PassBudget.left config q)
    (hothers : ∀ (j : Nat) q₂, i ≠ j → a.controls[j]? = some q₂ → claims? q₂ = some m →
      callsOf m x = callsOf m a.ext) :
    Budget config m base n ⟨s, a.controls.set i q', x⟩ := by
  obtain ⟨row, hrow, hrounds, hn, hpasses⟩ := h.rounds
  refine ⟨⟨row, hmessage.trans hrow, hrounds, hn, fun j q₂ hq₂ hclaims => ?_⟩, hcalls,
    fun j q₂ hq₂ hclaims => ?_⟩
  · rcases getElem?_set_eq_some hq₂ with ⟨_, rfl⟩ | ⟨_, hq₂⟩
    · exact (hown _ hclaims fun hclaims => hpasses i q hq hclaims).2.1
    · exact hpasses j q₂ hq₂ hclaims
  · rcases getElem?_set_eq_some hq₂ with ⟨_, rfl⟩ | ⟨hij, hq₂⟩
    · obtain ⟨hclaims', _, hleft⟩ := hown _ hclaims fun hclaims => hpasses i q hq hclaims
      exact hleft.trans (h.left i q hq hclaims')
    · change callsOf m x + _ ≤ _
      rw [hothers j q₂ hij hq₂ hclaims]
      exact h.left j q₂ hq₂ hclaims

theorem passStep_of_message {q q' : Control} {s s' : Database}
    (hcall : isCall q → delivers q) (hspec : controlSpec config q s (.ok q') s') (m : String) :
    aggregate s' m = aggregate s m ∨ PassStep config m q q' (aggregate s m) (aggregate s' m) := by
  obtain rfl | ⟨m', A', hpass, hupdate⟩ := passStep_of_controlSpec hcall hspec
  · exact Or.inl rfl
  · rw [hupdate]
    by_cases hm : m = m'
    · subst hm
      rw [Function.update_self]
      exact Or.inr hpass
    · exact Or.inl (Function.update_of_ne hm _ _)

theorem atRound_of_begun {task : Task} {begin : LifecycleSmsMessage} {s s' : Database}
    (hspec : controlSpec config (.dispatch (.beginning task)) s
      (.ok (.dispatch (.loading task begin))) s') :
    starts (aggregate s task.messageId) (aggregate s' task.messageId) ∧
      ∀ row, (aggregate s' task.messageId).message = some row →
        begin.retryRounds = row.retryRounds := by
  obtain ⟨_, row, rfl, hrow, A', ⟨old, now, events', hold, hguard, _, rfl⟩, hupdate⟩ :=
    begun_of_loading hspec
  constructor
  · rw [hupdate, Function.update_self, starts, Aggregate.status, hold]
    simp only [Option.map_some, Option.any_some, hguard]
    rfl
  · intro row' hrow'
    obtain rfl := Option.some.inj (hrow.symm.trans hrow')
    rfl

theorem Budget.commit (h : Budget config m base n a) (hexclusive : Exclusive a) {i : Nat}
    {q q₁ q' : Control} {s : Database} (hq : a.controls[i]? = some q)
    (hspec : controlSpec config q a.store (.ok q₁) s) (hrecovering : recovering? q ≠ some m)
    (hrequeueing : q ≠ .calling (.resetForRequeue m)) (hcontrol : q' = q₁ ∨ claims? q' = none) :
    Budget config m base
      (n + if starts (aggregate a.store m) (aggregate s m) then 1 else 0)
      ⟨s, a.controls.set i q', a.ext⟩ := by
  have hnext : claims? q' = some m → q' = q₁ := fun hclaims =>
    hcontrol.resolve_right (by simp [hclaims])
  obtain hsame | hpass := passStep_of_message (hexclusive.calls i q hq) hspec m
  · rw [starts_of_same (congrArg Aggregate.status hsame)]
    refine h.keep hq (congrArg Aggregate.message hsame) h.calls (fun rounds hclaims hround => ?_)
      fun _ _ _ _ _ => rfl
    obtain rfl := hnext hclaims
    obtain hkept | ⟨task, begin, rfl, rfl, rfl⟩ := claims_of_ok hspec hclaims
    · obtain ⟨hround', hleft⟩ := atRound_of_ok hspec hkept hclaims (hround hkept)
      exact ⟨hkept, hround', Nat.add_le_add_left hleft _⟩
    · have hstarts := (atRound_of_begun hspec).1
      rw [starts_of_same (congrArg Aggregate.status hsame)] at hstarts
      simp at hstarts
  obtain ⟨row, hrow, hrounds, rfl, hpasses⟩ := h.rounds
  have hclaimed : claims? q = some m → isClaimed row.status := by
    intro hclaims
    obtain ⟨row', hrow', hstatus⟩ := status_of_claimed (hexclusive.claimed i q m hq hclaims)
    obtain rfl := Option.some.inj (hrow.symm.trans hrow')
    exact hstatus
  obtain ⟨row', hrow', hsame, hn⟩ | ⟨row', hrow', hnew, hlt, hn, hnot, hclaims, hover⟩ :=
    passes_of_passStep hpass hrow hrecovering hrequeueing hclaimed (hpasses i q hq)
  · have hmono : base + passes row * config.processor.orderedProviders.length ≤
        base + passes row' * config.processor.orderedProviders.length :=
      Nat.add_le_add_left (Nat.mul_le_mul_right _ (by rw [hn]; exact Nat.le_add_right _ _)) _
    rw [← hn]
    refine ⟨⟨row', hrow', hsame ▸ hrounds, rfl, fun j q₂ hq₂ hclaims => ?_⟩, h.calls.trans hmono,
      fun j q₂ hq₂ hclaims => ?_⟩
    · rcases getElem?_set_eq_some hq₂ with ⟨_, rfl⟩ | ⟨_, hq₂⟩
      · obtain rfl := hnext hclaims
        obtain hkept | ⟨task, begin, rfl, rfl, rfl⟩ := claims_of_ok hspec hclaims
        · rw [hsame]
          exact (atRound_of_ok hspec hkept hclaims (hpasses i q hq hkept)).1
        · exact (atRound_of_begun hspec).2 row' hrow'
      · rw [hsame]
        exact hpasses j q₂ hq₂ hclaims
    · rcases getElem?_set_eq_some hq₂ with ⟨_, rfl⟩ | ⟨_, hq₂⟩
      · obtain rfl := hnext hclaims
        obtain hkept | ⟨task, begin, rfl, rfl, rfl⟩ := claims_of_ok hspec hclaims
        · have hleft := (atRound_of_ok hspec hkept hclaims (hpasses i q hq hkept)).2
          exact ((Nat.add_le_add_left hleft _).trans (h.left i q hq hkept)).trans hmono
        · rw [hn, (atRound_of_begun hspec).1, if_pos rfl, Nat.succ_mul, ← Nat.add_assoc]
          exact Nat.add_le_add_right h.calls _
      · exact (h.left j q₂ hq₂ hclaims).trans hmono
  · have hnone : ∀ (j : Nat) q₂, (a.controls.set i q')[j]? = some q₂ → claims? q₂ ≠ some m := by
      intro j q₂ hq₂ hclaims₂
      rcases getElem?_set_eq_some hq₂ with ⟨_, rfl⟩ | ⟨hij, hq₂⟩
      · obtain rfl := hnext hclaims₂
        simp [isOver_eq_false_of_claims hclaims₂] at hover
      · exact hij (hexclusive.single i j q q₂ m hq hq₂ hclaims hclaims₂)
    rw [hnot, ← hn]
    refine ⟨⟨row', hrow', hnew ▸ hlt, rfl, fun j q₂ hq₂ hclaims₂ => ?_⟩, hn ▸ h.calls,
      fun j q₂ hq₂ hclaims₂ => ?_⟩
    · exact absurd hclaims₂ (hnone j q₂ hq₂)
    · exact absurd hclaims₂ (hnone j q₂ hq₂)

theorem callsOf_of_move {c : Choice} {o o' : Outside} (h : o.move c = some o') :
    callsOf m o' = callsOf m o := by
  obtain hcalls | ⟨call, haccept⟩ := Outside.calls_of_move h
  · rw [callsOf, hcalls]
    rfl
  · obtain ⟨started, hk, _, rfl⟩ := Outside.acceptCall_eq_some haccept
    exact callsOf_set { started with accepted := true } hk rfl

theorem Budget.drop (h : Budget config m base n a) {i : Nat} {q q' : Control}
    (hq : a.controls[i]? = some q) (hnone : claims? q' = none) :
    Budget config m base n ⟨a.store, a.controls.set i q', a.ext⟩ :=
  h.keep hq rfl h.calls (fun _ hclaims => by simp [hnone] at hclaims) fun _ _ _ _ _ => rfl

theorem Budget.act (h : Budget config m base n a) (hexclusive : Exclusive a) {i : Nat}
    {q q' : Control} {c : Choice} {x : Outside} (hq : a.controls[i]? = some q)
    (hacts : Acts config c a.ext q x q') :
    Budget config m base n ⟨a.store, a.controls.set i q', x⟩ := by
  by_cases hclaims : claims? q = some m
  · have hleft := left_of_acts (m := m) hacts
    refine h.keep hq rfl ?_ (fun rounds hclaims' hround =>
      ⟨hclaims, atRound_of_acts hacts hclaims' (hround hclaims), hleft⟩)
      fun j q₂ hij hq₂ hclaims₂ =>
        absurd (hexclusive.single i j q q₂ m hq hq₂ hclaims hclaims₂) hij
    exact ((Nat.le_add_right _ _).trans hleft).trans (h.left i q hq hclaims)
  · have hcalls := callsOf_of_acts hacts hclaims
    refine h.keep hq rfl (hcalls ▸ h.calls) (fun rounds hclaims' _ => ?_) fun _ _ _ _ _ => hcalls
    exact absurd (claims_of_acts hacts hclaims') hclaims

theorem Budget.step (h : Budget config m base n a) (hexclusive : Exclusive a) {l : ServiceLabel}
    (hl : Unrequeued m a l) (hstep : ServiceStep config a l a') :
    Budget config m base
      (n + if starts (aggregate a.store m) (aggregate a'.store m) then 1 else 0) a' := by
  have hsame : starts (aggregate a.store m) (aggregate a.store m) = false := starts_of_same rfl
  have hcommits : ∀ {i : Nat} {q : Control}, a.controls[i]? = some q →
      (l = .commit i ∨ l = .lost i) →
        recovering? q ≠ some m ∧ q ≠ .calling (.resetForRequeue m) := by
    intro i q hq hlabel
    have hcommitting : committing? a l = some q := by
      rcases hlabel with rfl | rfl <;> exact hq
    obtain ⟨⟨_, hrecovering⟩, hrequeueing⟩ := hl
    rw [hcommitting, Option.bind_some] at hrecovering hrequeueing
    refine ⟨by simp [hrecovering], ?_⟩
    rintro rfl
    exact hrequeueing rfl
  cases hstep with
  | spawn q =>
      have hnone := claims_of_delivers (hl.1.1 q rfl)
      obtain ⟨row, hrow, hrounds, hn, hpasses⟩ := h.rounds
      have hold : ∀ (j : Nat) q₂, (a.controls ++ [q])[j]? = some q₂ → claims? q₂ = some m →
          a.controls[j]? = some q₂ := by
        intro j q₂ hq₂ hclaims
        rcases getElem?_concat_eq_some hq₂ with hq₂ | rfl
        · exact hq₂
        · simp [hnone] at hclaims
      rw [hsame]
      exact ⟨⟨row, hrow, hrounds, hn, fun j q₂ hq₂ hclaims =>
        hpasses j q₂ (hold j q₂ hq₂ hclaims) hclaims⟩, h.calls,
        fun j q₂ hq₂ hclaims => h.left j q₂ (hold j q₂ hq₂ hclaims) hclaims⟩
  | answer hq _ hspec =>
      rw [hsame]
      refine h.keep hq rfl h.calls (fun rounds hclaims hround => ?_) fun _ _ _ _ _ => rfl
      have hkept := claims_of_answer hspec hclaims
      obtain ⟨hround', hleft⟩ := atRound_of_ok hspec hkept hclaims (hround hkept)
      exact ⟨hkept, hround', Nat.add_le_add_left hleft _⟩
  | error hq hcode _ =>
      rw [hsame]
      exact h.drop hq (claims_of_error hcode _)
  | act hq hcode hact =>
      rw [hsame]
      exact h.act hexclusive hq (acts_of_code hcode hact)
  | commit hq _ hspec =>
      obtain ⟨hrecovering, hrequeueing⟩ := hcommits hq (Or.inl rfl)
      exact h.commit hexclusive hq hspec hrecovering hrequeueing (Or.inl rfl)
  | lost hq hcode hspec =>
      obtain ⟨hrecovering, hrequeueing⟩ := hcommits hq (Or.inr rfl)
      exact h.commit hexclusive hq hspec hrecovering hrequeueing
        (Or.inr (claims_of_error hcode _))
  | fault hq hcode =>
      rw [hsame]
      exact h.drop hq (claims_of_error hcode _)
  | crash hq _ =>
      rw [hsame]
      exact h.drop hq (claims_of_crash _)
  | env hmove =>
      have hcalls := callsOf_of_move (m := m) hmove
      rw [hsame]
      refine ⟨h.rounds, hcalls ▸ h.calls, fun j q₂ hq₂ hclaims => ?_⟩
      rw [hcalls]
      exact h.left j q₂ hq₂ hclaims

end Preservation

end SmsNotification.PassBudget

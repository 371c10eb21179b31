import SmsNotification.PassLength

namespace SmsNotification.ActorTermination

open SmsNotification.ActorSystem
open SmsNotification.LabelledRuns
open SmsNotification.PassLength hiding awaitsLeft
open SmsNotification.QueueConstants
open SmsNotification.ReadCommitted
open SmsNotification.RetentionService
open SmsNotification.Schema
open SmsNotification.Service
open SmsNotification.ServiceEffects
open SmsNotification.ServiceRuns
open SmsNotification.SmsLifecycleRepository
open SmsNotification.SmsPersistenceRepository
open SmsNotification.StepBudgets
open SmsNotification.Surroundings

/-- The awaits of a tick, three for each event. -/
def tickAwaits : OutboxRelayService.State → Nat
  | .fetching batchSize => 3 * batchSize + 1
  | .adding _ _ rest => 3 * rest.length + 3
  | .marking _ rest => 3 * rest.length + 2
  | .recording _ _ rest => 3 * rest.length + 1
  | _ => 0

def sweepAwaits : Sweep → Nat
  | .selecting _ limit => limit + 1
  | .recovering _ _ rest _ => rest.length + 1
  | _ => 0

def jobAwaits (config : MaintenanceProcessors.Config) : MaintenanceProcessors.State → Nat
  | .idle _ => config.recoveryBatchSize + 3
  | .purging _ _ => 2
  | .selecting _ _ => config.recoveryBatchSize + 2
  | .recovering _ _ _ rest => rest.length + 2
  | .expiring _ _ => 2
  | .finishing _ _ => 1
  | .failing _ => 1
  | _ => 0

/-- How many awaits an actor can have before it, the one it is at included. -/
def awaitsLeft (config : Config) : Control → Nat
  | .calling _ => 1
  | .creating _ again => if again then 1 else 2
  | .sweep state => sweepAwaits state
  | .purging _ _ => 1
  | .dispatch state => PassLength.awaitsLeft config.processor state
  | .relay state => tickAwaits state
  | .maintenance state => jobAwaits config.maintenance state
  | _ => 0

section Loops

theorem tickAwaits_relay (events : List UnpublishedOutboxEvent) :
    tickAwaits (OutboxRelayService.relay events) ≤ 3 * events.length := by
  cases events with
  | nil => exact Nat.zero_le _
  | cons event rest =>
      rw [OutboxRelayService.relay, List.length_cons]
      split <;> simp only [tickAwaits] <;> omega

theorem sweepAwaits_next (cutoff : Int) (recovered : Nat) (candidates : List String) :
    sweepAwaits (Sweep.next cutoff recovered candidates) ≤ candidates.length := by
  cases candidates with
  | nil => exact Nat.zero_le _
  | cons candidate rest => exact Nat.le_refl _

theorem jobAwaits_recoverNext (config : MaintenanceProcessors.Config)
    (task : MaintenanceProcessors.Task) (cutoff : Int) (candidates : List String) :
    jobAwaits config (MaintenanceProcessors.recoverNext task cutoff candidates) ≤
      candidates.length + 1 := by
  cases candidates with
  | nil => exact Nat.le_refl _
  | cons candidate rest => exact Nat.le_refl _

theorem jobAwaits_process (config : MaintenanceProcessors.Config)
    (processor : MaintenanceProcessor) (job : Job) (now : Int) :
    jobAwaits config (MaintenanceProcessors.process config processor job now) ≤
      config.recoveryBatchSize + 2 := by
  cases processor with
  | retention =>
      rw [MaintenanceProcessors.process, MaintenanceProcessors.RetentionProcessor.process]
      split <;> simp only [jobAwaits] <;> omega
  | processingRecovery =>
      rw [MaintenanceProcessors.process, MaintenanceProcessors.ProcessingRecoveryProcessor.process]
      split <;> simp only [jobAwaits] <;> omega
  | ambiguousOutcomeExpiry =>
      rw [MaintenanceProcessors.process,
        MaintenanceProcessors.AmbiguousOutcomeExpiryProcessor.process]
      split
      · simp only [jobAwaits]
        omega
      · split <;> simp only [jobAwaits] <;> omega

end Loops

section Statements

theorem within_fetchUnpublishedOutbox (limit : Nat) :
    Within (fun events => events.length ≤ limit) 1 (fetchUnpublishedOutbox limit) := by
  refine .stmt fun c s => .done ?_
  simp only [unpublished, List.length_map]
  exact List.length_take_le _ _

theorem within_staleCandidates (cutoff : Int) (limit : Nat) :
    Within (fun candidates => candidates.length ≤ limit) 1 (staleCandidates cutoff limit) := by
  refine .stmt fun c s => .done ?_
  simp only [List.length_map]
  exact List.length_take_le _ _

theorem within_updateOutboxEvent (id : String) (data : Choice → OutboxEvent → OutboxEvent) :
    Within (fun _ => True) 1 (updateOutboxEvent id data) := by
  refine (within_updateMany _ _ _ _).bind (m := 0) fun count _ => ?_
  split
  · exact .abort _
  · exact .done trivial

theorem within_recoverCandidate (cutoff : Int) (candidate : String) :
    Within (fun _ => True) 2 (recoverCandidate cutoff candidate) := by
  refine (within_updateMany _ _ _ _).bind (m := 1) fun updated _ => ?_
  split
  · exact .done trivial
  · exact (within_create _ _).bind (m := 0) fun _ _ => .done trivial

theorem within_expireAmbiguousOutcome (m : String) :
    Within (fun _ => True) 1 (expireAmbiguousOutcome m) :=
  (within_updateMany _ _ _ _).bind (m := 0) fun _ _ => .done trivial

theorem within_resetForRequeue (m : String) : Within (fun _ => True) 4 (resetForRequeue m) := by
  refine (Within.read _).bind (m := 3) fun row _ => ?_
  cases row with
  | none => exact .done trivial
  | some current =>
      dsimp only
      split
      · exact .done trivial
      · refine (within_updateMany _ _ _ _).bind (m := 2) fun updated _ => ?_
        split
        · exact .done trivial
        · refine (within_create _ _).bind (m := 1) fun _ _ => ?_
          exact (within_readLifecycle m).bind (m := 0) fun _ _ => .done trivial

theorem within_applyDeliveryReport (input : ApplyDeliveryReportInput) :
    Within (fun _ => True) 3 (applyDeliveryReport input) := by
  refine (Within.read _).bind (m := 2) fun row _ => ?_
  cases row with
  | none => exact .done trivial
  | some current =>
      have hread : ∀ answer : LifecycleSmsMessage → ApplyDeliveryReportResult,
          Within (fun _ => True) 1
            (readLifecycle current.id >>= fun message => ReadCommitted.Tx.done (answer message)) :=
        fun _ => (within_readLifecycle _).bind (m := 0) fun _ _ => .done trivial
      dsimp only
      split
      · exact (hread _).mono (by decide)
      · split
        · exact .done trivial
        · refine (within_updateMany _ _ _ _).bind (m := 1) fun updated _ => ?_
          split
          · exact .done trivial
          · exact hread _

theorem within_answerExisting (m : String) (existing : SmsAttemptResolution)
    (input : ResolveTwilioAttemptInput) :
    Within (fun _ => True) 1 (answerExisting m existing input) := by
  rw [answerExisting]
  split
  · exact (within_readLifecycle m).bind (m := 0) fun _ _ => .done trivial
  · exact .done trivial

theorem within_applyDecision (m attemptId : String) (input : ResolveTwilioAttemptInput) :
    Within (fun _ => True) 3 (applyDecision m attemptId input) := by
  refine (within_updateMany _ _ _ _).bind (m := 2) fun updated _ => ?_
  split
  · refine (Within.read _).bind (m := 1) fun concurrent _ => ?_
    cases concurrent with
    | none => exact .done trivial
    | some concurrent => exact within_answerExisting m concurrent input
  · refine (within_create _ _).bind (m := 1) fun _ _ => ?_
    exact (within_readLifecycle m).bind (m := 0) fun _ _ => .done trivial

theorem within_resolveTwilioAttempt (m attemptId : String) (input : ResolveTwilioAttemptInput) :
    Within (fun _ => True) 7 (resolveTwilioAttempt m attemptId input) := by
  have hvalid : Within (fun _ => True) 1 (assertValidTwilioResolution input) := by
    refine (Within.read _).bind (m := 0) fun _ _ => ?_
    cases input with
    | knownSid sid =>
        dsimp only
        split
        · exact .done trivial
        · exact .abort _
    | undelivered code => exact .done trivial
  refine hvalid.bind (m := 6) fun _ _ => (Within.read _).bind (m := 5) fun row _ => ?_
  cases row with
  | none => exact .done trivial
  | some current =>
      refine (Within.read _).bind (m := 4) fun existing _ => ?_
      cases existing with
      | some existing => exact (within_answerExisting m existing input).mono (by decide)
      | none =>
          dsimp only
          split
          · exact .done trivial
          · refine (Within.read _).bind (m := 3) fun attempt _ => ?_
            split
            · exact .done trivial
            · exact within_applyDecision m attemptId input

theorem within_createMessage (call : CreateOrGetMessage) :
    Within (fun _ => True) 3 (createMessage call) := by
  refine (Within.require _ _).bind (m := 3) fun _ _ => ?_
  refine (within_create _ _).bind (m := 2) fun message _ => ?_
  refine (within_create _ _).bind (m := 1) fun _ _ => ?_
  refine (Within.require _ _).bind (m := 1) fun _ _ => ?_
  exact (within_create _ _).bind (m := 0) fun _ _ => .done trivial

theorem within_createOrGetMessage (call : CreateOrGetMessage) :
    Within (fun _ => True) 6 (createOrGetMessageInTransaction call) := by
  have hcreate : Within (fun _ => True) 5 (createMessage call) :=
    (within_createMessage call).mono (by decide)
  refine (Within.read _).bind (m := 5) fun existing _ => ?_
  cases existing with
  | none => exact hcreate
  | some existing =>
      dsimp only
      split
      · exact .done trivial
      · have hdelete : Within (fun _ => True) 2 call.deleteExpiredOwner :=
          (Within.read _).bind (m := 1) fun _ _ => .stmt fun _ _ => .done trivial
        exact hdelete.bind (m := 3) fun _ _ => within_createMessage call

theorem within_deleteChildren {α : Type} (t : Table α) (messageId : α → String)
    (ids : List String) : Within (fun _ => True) 2 (deleteChildren t messageId ids) :=
  (Within.read _).bind (m := 1) fun _ _ => .stmt fun _ _ => .done trivial

theorem within_deleteAttempts (ids : List String) :
    Within (fun _ => True) 2 (deleteAttempts ids) := by
  refine (Within.read _).bind (m := 1) fun found _ => .stmt fun _ s => ?_
  split
  · exact .abort _
  · exact .done trivial

theorem within_deleteMessages (ids : List String) :
    Within (fun _ => True) 1 (deleteMessages ids) := by
  refine .stmt fun _ s => ?_
  split
  · exact .abort _
  · exact .done trivial

theorem within_purgeExpired (now : Int) (batchSize : Nat) :
    Within (fun _ => True) 8 (purgeExpired now batchSize) := by
  refine (Within.read _).bind (m := 7) fun ids _ => ?_
  split
  · exact .done trivial
  · refine (within_deleteChildren _ _ _).bind (m := 5) fun _ _ => ?_
    refine (within_deleteAttempts _).bind (m := 3) fun _ _ => ?_
    exact (within_deleteChildren _ _ _).bind (m := 1) fun _ _ => within_deleteMessages _

theorem within_runOperation (op : Operation) : Within (fun _ => True) 8 (runOperation op) := by
  have hanswer : ∀ {α : Type} {f : α → Answer} {t : Sql α} {n : Nat},
      Within (fun _ => True) n t → n ≤ 8 → Within (fun _ => True) 8 (t.map f) :=
    fun hwithin hn => (hwithin.mono hn).map
  cases op with
  | beginProcessing m => exact hanswer (within_beginProcessing m) (by decide)
  | reserveProviderAttempt m provider =>
      exact hanswer (within_reserveProviderAttempt m provider) (by decide)
  | finalizeProviderAttempt m attemptId input =>
      exact hanswer (within_finalizeProviderAttempt m attemptId input) (by decide)
  | resolveTwilioAttempt m attemptId input =>
      exact hanswer (within_resolveTwilioAttempt m attemptId input) (by decide)
  | scheduleRetry | markPermanentProviderFailure | markFatalFailure =>
      exact hanswer (within_guardedTransition _ _ _ _) (by decide)
  | expireAmbiguousOutcome m => exact hanswer (within_expireAmbiguousOutcome m) (by decide)
  | resetForRequeue m => exact hanswer (within_resetForRequeue m) (by decide)
  | applyDeliveryReport input => exact hanswer (within_applyDeliveryReport input) (by decide)

end Statements

section Ranks

variable {config : Config} {q q' : Control} {t : Sql Control} {onError : Failure → Control}

theorem awaitsLeft_of_dispatch (h : family q = .dispatch) :
    awaitsLeft config q = workerRank config q := by
  cases q with
  | dispatch state => rfl
  | _ => cases h

theorem starts_of_code (hcode : code config q = .tx t onError) :
    ∃ writes next, t = .stmt writes next := by
  cases q with
  | calling op =>
      obtain ⟨rfl, _⟩ := Code.tx.inj hcode
      cases op <;> exact ⟨_, _, rfl⟩
  | creating call again =>
      obtain ⟨rfl, _⟩ := Code.tx.inj hcode
      exact ⟨_, _, rfl⟩
  | sweep state =>
      cases state
      case selecting | recovering =>
        obtain ⟨rfl, _⟩ := Code.tx.inj hcode
        exact ⟨_, _, rfl⟩
      all_goals simp [code, sweepCode] at hcode
  | purging now batchSize =>
      obtain ⟨rfl, _⟩ := Code.tx.inj hcode
      exact ⟨_, _, rfl⟩
  | dispatch state => exact (starts_of_dispatch rfl hcode).1
  | relay state =>
      cases state
      case fetching | marking | recording =>
        obtain ⟨rfl, _⟩ := Code.tx.inj hcode
        exact ⟨_, _, rfl⟩
      all_goals simp [code, relayCode] at hcode
  | maintenance state =>
      cases state
      case purging | selecting | recovering | expiring =>
        obtain ⟨rfl, _⟩ := Code.tx.inj hcode
        exact ⟨_, _, rfl⟩
      all_goals simp [code, maintenanceCode] at hcode
  | _ => simp [code] at hcode

theorem within_map {α : Type} {f : α → Control} {u : Sql α} {ok : α → Prop} {n r : Nat}
    (h : Within ok n u) (hn : n ≤ 8) (hf : ∀ a, ok a → awaitsLeft config (f a) < r) :
    Within (fun q' => True ∧ awaitsLeft config q' < r) 8 (u.map f) :=
  ((h.mono hn).weaken fun a ha => ⟨trivial, hf a ha⟩).map

theorem within_of_code (hcode : code config q = .tx t onError) :
    Within (fun q' => True ∧ awaitsLeft config q' < awaitsLeft config q) 8 t := by
  cases q with
  | calling op =>
      obtain ⟨rfl, _⟩ := Code.tx.inj hcode
      exact within_map (within_runOperation op) (le_refl _) fun _ _ => Nat.one_pos
  | creating call again =>
      obtain ⟨rfl, _⟩ := Code.tx.inj hcode
      refine within_map (within_createOrGetMessage call) (by decide) fun _ _ => ?_
      cases again <;> simp [awaitsLeft]
  | sweep state =>
      cases state with
      | selecting cutoff limit =>
          obtain ⟨rfl, _⟩ := Code.tx.inj hcode
          exact within_map (within_staleCandidates cutoff limit) (by decide) fun candidates hlen =>
            Nat.lt_succ_of_le ((sweepAwaits_next _ _ _).trans hlen)
      | recovering cutoff candidate rest recovered =>
          obtain ⟨rfl, _⟩ := Code.tx.inj hcode
          exact within_map (within_recoverCandidate cutoff candidate) (by decide) fun _ _ =>
            Nat.lt_succ_of_le (sweepAwaits_next _ _ _)
      | _ => simp [code, sweepCode] at hcode
  | purging now batchSize =>
      obtain ⟨rfl, _⟩ := Code.tx.inj hcode
      exact within_map (within_purgeExpired now batchSize) (le_refl _) fun _ _ => Nat.one_pos
  | dispatch state =>
      refine ((within_of_dispatch rfl hcode).mono (by decide)).weaken fun q' hq' => ⟨trivial, ?_⟩
      rw [awaitsLeft_of_dispatch hq'.1]
      exact hq'.2
  | relay state =>
      cases state with
      | fetching batchSize =>
          obtain ⟨rfl, _⟩ := Code.tx.inj hcode
          refine within_map (within_fetchUnpublishedOutbox batchSize) (by decide)
            fun events hlen => Nat.lt_succ_of_le ((tickAwaits_relay events).trans ?_)
          exact Nat.mul_le_mul_left 3 hlen
      | marking event rest | recording event description rest =>
          obtain ⟨rfl, _⟩ := Code.tx.inj hcode
          refine within_map (within_updateOutboxEvent _ _) (by decide) fun _ _ =>
            (tickAwaits_relay rest).trans_lt ?_
          simp only [awaitsLeft, tickAwaits]
          omega
      | _ => simp [code, relayCode] at hcode
  | maintenance state =>
      cases state with
      | purging task now =>
          obtain ⟨rfl, _⟩ := Code.tx.inj hcode
          exact within_map (within_purgeExpired _ _) (le_refl _) fun _ _ => Nat.lt_succ_self 1
      | selecting task cutoff =>
          obtain ⟨rfl, _⟩ := Code.tx.inj hcode
          exact within_map (within_staleCandidates _ _) (by decide) fun candidates hlen =>
            Nat.lt_succ_of_le ((jobAwaits_recoverNext _ _ _ _).trans (Nat.succ_le_succ hlen))
      | recovering task cutoff candidate rest =>
          obtain ⟨rfl, _⟩ := Code.tx.inj hcode
          exact within_map (within_recoverCandidate _ _) (by decide) fun _ _ =>
            Nat.lt_succ_of_le (jobAwaits_recoverNext _ _ _ _)
      | expiring task m =>
          obtain ⟨rfl, _⟩ := Code.tx.inj hcode
          exact within_map (within_expireAmbiguousOutcome m) (by decide) fun _ _ =>
            Nat.lt_succ_self 1
      | _ => simp [code, maintenanceCode] at hcode
  | _ => simp [code] at hcode

theorem awaitsLeft_of_error (hcode : code config q = .tx t onError) (e : Failure) :
    awaitsLeft config (onError e) < awaitsLeft config q := by
  cases q with
  | calling op =>
      obtain ⟨_, rfl⟩ := Code.tx.inj hcode
      exact Nat.one_pos
  | creating call again =>
      obtain ⟨_, rfl⟩ := Code.tx.inj hcode
      cases again with
      | true => exact Nat.one_pos
      | false =>
          dsimp only
          split
          · exact Nat.lt_succ_self 1
          · exact Nat.two_pos
  | sweep state =>
      cases state
      case selecting | recovering =>
        obtain ⟨_, rfl⟩ := Code.tx.inj hcode
        exact Nat.succ_pos _
      all_goals simp [code, sweepCode] at hcode
  | purging now batchSize =>
      obtain ⟨_, rfl⟩ := Code.tx.inj hcode
      exact Nat.one_pos
  | dispatch state =>
      rw [awaitsLeft_of_dispatch ((family_of_error hcode e).1), rank_of_error rfl hcode e]
      exact (starts_of_dispatch rfl hcode).2
  | relay state =>
      cases state
      case fetching | marking | recording =>
        obtain ⟨_, rfl⟩ := Code.tx.inj hcode
        simp [awaitsLeft, tickAwaits]
      all_goals simp [code, relayCode] at hcode
  | maintenance state =>
      cases state
      case purging | selecting | recovering | expiring =>
        obtain ⟨_, rfl⟩ := Code.tx.inj hcode
        simp [awaitsLeft, jobAwaits]
      all_goals simp [code, maintenanceCode] at hcode
  | _ => simp [code] at hcode

theorem awaitsLeft_of_acts {c : Choice} {o o' : Outside} (h : Acts config c o q o' q') :
    awaitsLeft config q' < awaitsLeft config q := by
  by_cases hq : family q = .dispatch
  · rw [awaitsLeft_of_dispatch hq, awaitsLeft_of_dispatch (h.family.1.trans hq)]
    exact rank_of_acts hq h
  · cases h with
    | added | notAdded => simp [awaitsLeft, tickAwaits]
    | tookMaintenance processor =>
        exact Nat.lt_succ_of_le (jobAwaits_process config.maintenance processor _ _)
    | completed | failedMaintenance => simp [awaitsLeft, jobAwaits]
    | _ => simp [family] at hq

/-- An await of any actor comes before the one it leads to. -/
theorem ranked_service (config : Config) :
    Ranked (service config) (fun _ => True) (awaitsLeft config) 8 where
  starts _ _ _ _ hcode := starts_of_code hcode
  tx _ _ _ _ hcode := within_of_code hcode
  error _ _ _ e _ hcode := ⟨trivial, awaitsLeft_of_error hcode e⟩
  act _ _ _ _ _ _ _ hcode hact := ⟨trivial, awaitsLeft_of_acts (acts_of_code hcode hact)⟩
  crashed q _ := ⟨trivial, by cases q <;> rfl⟩

end Ranks

/-- The actor waits for a job of a queue or for the answer of a provider. -/
def waits : Control → Bool
  | .dispatch .idle => true
  | .dispatch (.awaiting _ _) => true
  | .maintenance (.idle _) => true
  | _ => false

section Runs

variable {config : Config} {w : ServiceWorld} {i : Nat} {q : Control}

theorem acts_of_not_waits {act : Choice → Outside → Option (Outside × Control)}
    (hcode : code config q = .ext act) (hwaits : waits q = false) (c : Choice) (o : Outside) :
    (act c o).isSome := by
  cases q with
  | dispatch state =>
      cases state
      case acquiring | calling | finishing | failing =>
        obtain rfl := Code.ext.inj hcode
        rfl
      case idle | awaiting => simp [waits] at hwaits
      all_goals simp [code, dispatchCode] at hcode
  | relay state =>
      cases state
      case adding =>
        obtain rfl := Code.ext.inj hcode
        dsimp only
        split <;> rfl
      all_goals simp [code, relayCode] at hcode
  | maintenance state =>
      cases state
      case finishing | failing =>
        obtain rfl := Code.ext.inj hcode
        rfl
      case idle => simp [waits] at hwaits
      all_goals simp [code, maintenanceCode] at hcode
  | sweep state => cases state <;> simp [code, sweepCode] at hcode
  | creating call again => simp [code, creatingCode] at hcode
  | _ => simp [code] at hcode

/-- Whatever the service starts comes to an end. In every run an actor takes nine steps at
most for each await before it, and as long as it has not come to its end, only a job, a
provider or the uncommitted writes of another transaction keep it from the next one. -/
theorem every_actor_ends (h : Reaches config (fun _ _ => True) (fun _ => True) w)
    (hat : w.abs.controls[i]? = some q) :
    (∀ k w', Counted (fun w l w' => (service config).step w l = some w') (fun _ _ => True)
      (Own i) w k w' → k ≤ awaitsLeft config q * 9) ∧
    (code config q ≠ .halt → waits q = false →
      (∀ (j : Nat) b, w.actors[j]? = some b → j ≠ i → b.pending = []) →
      ∃ l, Own i l ∧ ((service config).step w l).isSome) := by
  obtain ⟨a, ha, rfl⟩ := exists_actor_of_abs hat
  have hleft := left_of_reachable (ranked_service config) (fun _ hw => hw.1)
    (fun _ _ _ => trivial) h ha
  refine ⟨fun k w' hrun => ?_, fun hcode hwaits hothers => ?_⟩
  · obtain ⟨_, n', hle, _⟩ := counted_le (ranked_service config) ha hleft hrun
    exact Nat.le_trans (Nat.le_add_right k n') hle
  · cases hc : code config a.control with
    | halt => exact absurd hc hcode
    | tx t onError => exact exists_step_of_tx hleft ha hc hothers (exists_supplied w.store)
    | ext act =>
        obtain ⟨c, _⟩ := exists_supplied w.store
        obtain ⟨⟨o, q⟩, hq⟩ := Option.isSome_iff_exists.mp (acts_of_not_waits hc hwaits c w.ext)
        refine ⟨.run i c, Or.inr ⟨c, rfl⟩, ?_⟩
        simp only [Protocol.step, ha, show (service config).code a.control = .ext act from hc, hq,
          Option.isSome_some]

theorem awaitsLeft_of_halt (h : code config q = .halt) : awaitsLeft config q = 0 := by
  cases q with
  | dispatch state => cases state <;> first | rfl | cases h
  | relay state => cases state <;> first | rfl | cases h
  | maintenance state => cases state <;> first | rfl | cases h
  | sweep state => cases state <;> first | rfl | cases h
  | calling | purging => cases h
  | creating call again => simp [code, creatingCode] at h
  | _ => rfl

/-- The second one of two requests with one key, before its transaction. -/
theorem every_actor_ends_repeated :
    ∃ w q, Reaches sampleConfig (fun _ _ => True) (fun _ => True) w ∧
      w.abs.controls[1]? = some q ∧
      (∀ k w', Counted (fun w l w' => (service sampleConfig).step w l = some w')
        (fun _ _ => True) (Own 1) w k w' → k ≤ 18) ∧
      ∃ l, Own 1 l ∧ ((service sampleConfig).step w l).isSome := by
  obtain ⟨w, hw, hbegun, hfree⟩ := exists_reaches_of_exec sampleConfig (fun _ _ => True)
    (creation ++ [.spawn (.creating (sampleCall "k" 1) false)])
    (fun w => (w.abs.controls[1]?.any fun q => !waits q && awaitsLeft sampleConfig q == 2) ∧
      w.actors.all fun a => a.pending.isEmpty)
    (by decide +kernel)
  obtain ⟨q, hat, hq⟩ := (Option.any_eq_true _ _).mp hbegun
  rw [Bool.and_eq_true, Bool.not_eq_true', beq_iff_eq] at hq
  obtain ⟨hends, hgoes⟩ := every_actor_ends (hw.weaken fun _ hw => ⟨hw.1, trivial⟩) hat
  rw [hq.2] at hends
  refine ⟨w, q, hw.weaken fun _ hw => ⟨hw.1, trivial⟩, hat, hends, hgoes ?_ hq.1 ?_⟩
  · intro hhalt
    simp [awaitsLeft_of_halt hhalt] at hq
  · intro j b hb _
    exact List.isEmpty_iff.mp (List.all_eq_true.mp hfree b (List.mem_of_getElem? hb))

end Runs

end SmsNotification.ActorTermination

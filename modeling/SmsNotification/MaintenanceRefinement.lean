import SmsNotification.ClaimExclusivity
import SmsNotification.WholeService

namespace SmsNotification.MaintenanceRefinement

open SmsNotification.ActorSystem
open SmsNotification.ClaimExclusivity
open SmsNotification.DispatchClaims
open SmsNotification.HiddenParts
open SmsNotification.LabelledRuns
open SmsNotification.LifecycleEffects
open SmsNotification.MessageAggregate
open SmsNotification.NoDuplicateDelivery
open SmsNotification.QueueConstants
open SmsNotification.ReadCommitted
open SmsNotification.Schema
open SmsNotification.Service
open SmsNotification.ServiceEffects
open SmsNotification.ServiceRuns
open SmsNotification.Surroundings
open SmsNotification.WholeService

section Worlds

/-- The job is on the maintenance queue. -/
def OnMaintenance (queued : QueuedJob) : Prop :=
  queued.job.queue = .smsMaintenance

/-- The two worlds differ in the maintenance queue and in its log at most. -/
def SameBut (o p : Outside) : Prop :=
  ∃ jobs completed, Agree OnMaintenance OnMaintenance o.jobs jobs ∧
    p = { o with jobs := jobs, completed := completed }

variable {o o' p : Outside} {job : Job}

theorem sameBut_refl (o : Outside) : SameBut o o := by
  refine ⟨o.jobs, o.completed, ?_, rfl⟩
  induction o.jobs with
  | nil => exact .nil
  | cons queued jobs ih =>
      by_cases hqueue : OnMaintenance queued
      · exact .hidden hqueue (.extra hqueue ih)
      · exact .both hqueue ih

theorem SameBut.addJob (h : SameBut o p) (job : Job) : SameBut (o.addJob job) (p.addJob job) := by
  obtain ⟨jobs, completed, hjobs, rfl⟩ := h
  refine ⟨_, completed, ?_, rfl⟩
  simp only [Outside.addJob]
  generalize (if job.delay.any fun ms => 0 < ms then JobState.delayed else .waiting) = state
  by_cases hqueue : job.queue = .smsMaintenance
  · have hnew : Agree OnMaintenance OnMaintenance [⟨job, state, o.clock⟩] [] :=
      .hidden hqueue .nil
    have hnew' : Agree OnMaintenance OnMaintenance [] [⟨job, state, o.clock⟩] :=
      .extra hqueue .nil
    split <;> split
    · exact hjobs
    · simpa using hjobs.append hnew'
    · simpa using hjobs.append hnew
    · simpa using hjobs.append (hnew.append hnew')
  · have hother : ∀ queued : QueuedJob, OnMaintenance queued → sameJob queued.job job = false := by
      intro queued hqueued
      simp only [sameJob, Bool.and_eq_false_iff, decide_eq_false_iff_not]
      exact Or.inl fun hsame => hqueue (hsame.symm.trans hqueued)
    rw [hjobs.any_eq hother hother]
    split
    · exact hjobs
    · exact hjobs.append (.both hqueue .nil)

theorem SameBut.removeJob (h : SameBut o p) (job : Job) :
    SameBut (o.removeJob job) (p.removeJob job) := by
  obtain ⟨jobs, completed, hjobs, rfl⟩ := h
  exact ⟨_, completed, hjobs.filter _, rfl⟩

theorem SameBut.remove_hidden (h : SameBut o p) (hqueue : job.queue = .smsMaintenance) :
    SameBut (o.removeJob job) p := by
  obtain ⟨jobs, completed, hjobs, rfl⟩ := h
  refine ⟨jobs, completed, hjobs.filter_hidden fun queued hqueued => ?_, rfl⟩
  simp only [sameJob, Bool.not_eq_true', Bool.and_eq_false_iff, decide_eq_false_iff_not]
  exact Or.inl fun hsame => hqueued (hsame.trans hqueue)

theorem SameBut.takeJob (h : SameBut o p) {pick : Nat}
    (htake : o.takeJob .smsDispatch pick = some (o', job)) :
    ∃ pick' p', p.takeJob .smsDispatch pick' = some (p', job) ∧ SameBut o' p' := by
  obtain ⟨jobs, completed, hjobs, rfl⟩ := h
  obtain ⟨queued, hqueued, rfl, hqueue, hstate, rfl⟩ := Outside.takeJob_eq_some htake
  obtain ⟨j, hj, hset⟩ := hjobs.exists_get hqueued (by simp [OnMaintenance, hqueue])
  refine ⟨j, { o with jobs := jobs.set j _, completed := completed }, ?_,
    _, completed, hset _ (by simp [OnMaintenance, hqueue]), rfl⟩
  simp [Outside.takeJob, hj, hqueue, hstate]

theorem SameBut.take_hidden (h : SameBut o p) {pick : Nat}
    (htake : o.takeJob .smsMaintenance pick = some (o', job)) :
    SameBut o' p ∧ job.queue = .smsMaintenance := by
  obtain ⟨jobs, completed, hjobs, rfl⟩ := h
  obtain ⟨queued, hqueued, rfl, hqueue, _, rfl⟩ := Outside.takeJob_eq_some htake
  exact ⟨⟨jobs, completed, hjobs.set_hidden hqueued hqueue hqueue, rfl⟩, hqueue⟩

theorem SameBut.move (h : SameBut o p) {c : Choice} (hmove : o.move c = some o') :
    ∃ p', p.move c = some p' ∧ SameBut o' p' := by
  obtain ⟨jobs, completed, hjobs, rfl⟩ := h
  unfold Outside.move at hmove ⊢
  split at hmove
  · obtain ⟨started, hstarted, hstate, rfl⟩ := Outside.acceptCall_eq_some hmove
    exact ⟨_, by simp [Outside.acceptCall, hstarted, hstate], jobs, completed, hjobs, rfl⟩
  · rw [← Option.some.inj hmove]
    refine ⟨_, rfl, _, completed, hjobs.map _ (fun queued => ?_) (fun queued hqueued => ?_), rfl⟩
    · unfold OnMaintenance
      split <;> rfl
    · unfold OnMaintenance at hqueued ⊢
      split <;> exact hqueued
  · rw [← Option.some.inj hmove]
    exact ⟨_, rfl, jobs, completed, hjobs, rfl⟩
  · split at hmove
    · rename_i hqueue
      rw [← Option.some.inj hmove]
      exact ⟨_, if_pos hqueue, SameBut.addJob ⟨jobs, completed, hjobs, rfl⟩ _⟩
    · simp at hmove

theorem SameBut.act (h : SameBut o p) {config : Config} {q q' : Control} {c : Choice}
    {act : Choice → Outside → Option (Outside × Control)} (hq : family q ≠ .maintenance)
    (hcode : code config q = .ext act) (hact : act c o = some (o', q')) :
    ∃ pick p', act { c with pick := pick } p = some (p', q') ∧ SameBut o' p' := by
  cases q with
  | dispatch state =>
      cases state with
      | idle =>
          obtain rfl := Code.ext.inj hcode
          obtain ⟨⟨o'', job⟩, htake, heq⟩ := Option.map_eq_some_iff.mp hact
          obtain ⟨rfl, rfl⟩ := Prod.mk.inj heq
          obtain ⟨pick, p', htake', hsame⟩ := h.takeJob htake
          exact ⟨pick, p', by simp [htake'], hsame⟩
      | acquiring hold =>
          obtain rfl := Code.ext.inj hcode
          obtain ⟨rfl, rfl⟩ := Prod.mk.inj (Option.some.inj hact)
          exact ⟨c.pick, p, rfl, h⟩
      | calling hold =>
          obtain rfl := Code.ext.inj hcode
          obtain ⟨rfl, rfl⟩ := Prod.mk.inj (Option.some.inj hact)
          obtain ⟨jobs, completed, hjobs, rfl⟩ := h
          exact ⟨c.pick, _, rfl, jobs, completed, hjobs, rfl⟩
      | awaiting hold call =>
          obtain rfl := Code.ext.inj hcode
          obtain ⟨o'', hanswer, heq⟩ := Option.map_eq_some_iff.mp hact
          obtain ⟨rfl, rfl⟩ := Prod.mk.inj heq
          obtain ⟨jobs, completed, hjobs, rfl⟩ := h
          obtain ⟨started, state, hstarted, hflight, rfl, hreply⟩ :=
            Outside.answerCall_eq_some hanswer
          refine ⟨c.pick, { o with
            calls := o.calls.set call { started with state := state }
            jobs := jobs
            completed := completed }, ?_, jobs, completed, hjobs, rfl⟩
          split at hreply
          · rename_i hrefusal
            obtain ⟨haccepted, rfl⟩ := hreply
            simp [Outside.answerCall, hstarted, hflight, hrefusal, haccepted]
          · rename_i hrefusal
            subst hreply
            simp [Outside.answerCall, hstarted, hflight, hrefusal]
      | finishing task outcome =>
          obtain rfl := Code.ext.inj hcode
          obtain ⟨rfl, rfl⟩ := Prod.mk.inj (Option.some.inj hact)
          exact ⟨c.pick, _, rfl, h.removeJob _⟩
      | failing task =>
          obtain rfl := Code.ext.inj hcode
          obtain ⟨rfl, rfl⟩ := Prod.mk.inj (Option.some.inj hact)
          exact ⟨c.pick, _, rfl, h.removeJob _⟩
      | _ => simp [code, dispatchCode] at hcode
  | relay state =>
      cases state with
      | adding event queueJob rest =>
          obtain rfl := Code.ext.inj hcode
          have hadded := h.addJob (queueJob.toJob event.id)
          by_cases hserved : c.served
          · simp only [hserved, if_true] at hact
            obtain ⟨rfl, rfl⟩ := Prod.mk.inj (Option.some.inj hact)
            obtain ⟨jobs, completed, hjobs, hp⟩ := hadded
            refine ⟨c.pick, p.acknowledgeJob (queueJob.toJob event.id), by simp [hserved],
              jobs, completed, hjobs, ?_⟩
            obtain ⟨_, _, _, rfl⟩ := h
            simp only [Outside.acknowledgeJob, hp]
          · simp only [hserved] at hact
            obtain ⟨rfl, rfl⟩ := Prod.mk.inj (Option.some.inj hact)
            refine ⟨c.pick, _, by simp only [hserved]; rfl, ?_⟩
            split
            · exact hadded
            · exact h
      | _ => simp [code, relayCode] at hcode
  | maintenance state => exact absurd rfl hq
  | sweep state => cases state <;> simp [code, sweepCode] at hcode
  | _ => simp [code, creatingCode] at hcode

end Worlds

/-- The job that a maintenance worker has in hand. -/
def handed? : Control → Option Job
  | .maintenance (.purging task _) => some task.job
  | .maintenance (.selecting task _) => some task.job
  | .maintenance (.recovering task _ _ _) => some task.job
  | .maintenance (.expiring task _) => some task.job
  | .maintenance (.finishing task _) => some task.job
  | .maintenance (.failing task) => some task.job
  | _ => none

/-- The actors that may stand in for a maintenance worker. -/
def StandsIn (q : Control) : Prop :=
  family q = .sweep ∨ family q = .call

/-- The second snapshot is the first one without its maintenance workers, and with what
stands in for them. -/
structure Mirrors (a b : ServiceSnapshot) : Prop where
  store : b.store = a.store
  outside : SameBut a.ext b.ext
  controls : Agree (family · = .maintenance) StandsIn a.controls b.controls
  handed : ∀ (i : Nat) q job, a.controls[i]? = some q → handed? q = some job →
    job.queue = .smsMaintenance

/-- The recovery, with its cutoff and its candidate, that a control state is at. -/
def recoversAt? : Control → Option (Int × String)
  | .sweep (.recovering cutoff m _ _) => some (cutoff, m)
  | .maintenance (.recovering _ cutoff m _) => some (cutoff, m)
  | _ => none

/-- The step takes a message back, whose row is stale. -/
def TakesBack (a : ServiceSnapshot) (l : ServiceLabel) (m : String) : Prop :=
  ∃ cutoff, (committing? a l).bind recoversAt? = some (cutoff, m) ∧ Stale cutoff m a.store

section Helpers

variable {config : Config} {ok' : ServiceSnapshot → ServiceLabel → Prop} {b : ServiceSnapshot}
  {s : Database} {m : String}

/-- A choice to label a step with whose choice does not matter. -/
def anyChoice : Choice :=
  ⟨0, "", fun _ => 0, true, true, 0, none, "", .tick 0⟩

theorem answer_last {q q' : Control} {t : Sql Control} {onError : Failure → Control}
    (hcode : code config q = .tx t onError)
    (hspec : controlSpec config q b.store (.ok q') b.store) :
    ServiceStep config { b with controls := b.controls ++ [q] }
      (.run b.controls.length anyChoice) { b with controls := b.controls ++ [q'] } := by
  have hstep : ServiceStep config { b with controls := b.controls ++ [q] }
      (.run b.controls.length anyChoice) _ :=
    Atomic.answer List.getElem?_concat_length hcode hspec
  simpa using hstep

theorem commit_last {q q' : Control} {t : Sql Control} {onError : Failure → Control}
    (hcode : code config q = .tx t onError)
    (hspec : controlSpec config q b.store (.ok q') s) :
    ServiceStep config { b with controls := b.controls ++ [q] } (.commit b.controls.length)
      { b with store := s, controls := b.controls ++ [q'] } := by
  have hstep : ServiceStep config { b with controls := b.controls ++ [q] }
      (.commit b.controls.length) _ :=
    Atomic.commit List.getElem?_concat_length hcode hspec
  simpa using hstep

theorem reachable_recovered {cutoff : Int} (hspec : recoverCandidateSpec m b.store (.ok true) s)
    (hquiet : ∀ a l, Spawning (delivers ·) a l → (committing? a l).bind recovering? = none →
      ok' a l)
    (hcommit : ok' { b with controls := b.controls ++ [.sweep (.recovering cutoff m [] 0)] }
      (.commit b.controls.length)) :
    Reachable (ServiceStep config) ok' (· = b)
      { b with store := s, controls := b.controls ++ [.sweep (.returned 1)] } := by
  have hspawned := Reachable.next (.spawn (.sweep (.selecting cutoff 0)))
    (Reachable.start rfl : Reachable (ServiceStep config) ok' (· = b) b)
    (hquiet _ _ (fun q hq => by cases hq; rfl) rfl) (Atomic.spawn _)
  have hselect : controlSpec config (.sweep (.selecting cutoff 0)) b.store
      (.ok (.sweep (.recovering cutoff m [] 0))) b.store := ⟨[m], rfl, rfl⟩
  have hselected := Reachable.next _ hspawned (hquiet _ _ (fun _ hq => by cases hq) rfl)
    (answer_last rfl hselect)
  have hrecover : controlSpec config (.sweep (.recovering cutoff m [] 0)) b.store
      (.ok (.sweep (.returned 1))) s := ⟨true, rfl, hspec⟩
  exact Reachable.next _ hselected hcommit (commit_last rfl hrecover)

theorem reachable_expired (hspec : expireAmbiguousOutcomeSpec m b.store (.ok .expired) s)
    (hquiet : ∀ a l, Spawning (delivers ·) a l → (committing? a l).bind recovering? = none →
      ok' a l) :
    Reachable (ServiceStep config) ok' (· = b)
      { b with
        store := s
        controls := b.controls ++
          [.returned (.expireAmbiguousOutcome m) (.expiry .expired)] } := by
  have hspawned := Reachable.next (.spawn (.calling (.expireAmbiguousOutcome m)))
    (Reachable.start rfl : Reachable (ServiceStep config) ok' (· = b) b)
    (hquiet _ _ (fun q hq => by cases hq; rfl) rfl) (Atomic.spawn _)
  have hexpire : controlSpec config (.calling (.expireAmbiguousOutcome m)) b.store
      (.ok (.returned (.expireAmbiguousOutcome m) (.expiry .expired))) s :=
    ⟨.expiry .expired, rfl, .expired, rfl, hspec⟩
  exact Reachable.next _ hspawned
    (hquiet _ _ (fun _ hq => by cases hq) (by simp [committing?, recovering?]))
    (commit_last rfl hexpire)

end Helpers

/-- What may be started beside the delivering parts: workers of the maintenance queue, but
not those of retention. -/
def works : Control → Bool
  | .maintenance (.idle processor) => processor ≠ .retention
  | q => delivers q

section Handed

variable {config : Config} {state : MaintenanceProcessors.State} {q q' : Control} {job : Job}

theorem handed_of_visible (h : family q ≠ .maintenance) : handed? q = none := by
  cases q with
  | maintenance state => exact absurd rfl h
  | _ => rfl

theorem handed_recoverNext (task : MaintenanceProcessors.Task) (cutoff : Int)
    (candidates : List String) :
    handed? (.maintenance (MaintenanceProcessors.recoverNext task cutoff candidates)) =
      some task.job := by
  cases candidates <;> rfl

theorem handed_of_ok {s s' : Database} (h : maintainedSpec state s (.ok q') s')
    (hjob : handed? q' = some job) : handed? (.maintenance state) = some job := by
  cases state with
  | selecting task cutoff =>
      obtain ⟨candidates, rfl, _⟩ := h
      exact (handed_recoverNext _ _ _).symm.trans hjob
  | recovering task cutoff candidate rest =>
      obtain ⟨_, rfl, _⟩ := h
      exact (handed_recoverNext _ _ _).symm.trans hjob
  | expiring task m =>
      obtain ⟨_, rfl, _⟩ := h
      exact hjob
  | _ => exact h.elim

theorem handed_of_error {t : Sql Control} {onError : Failure → Control}
    (hcode : code config (.maintenance state) = .tx t onError) (e : Failure) :
    handed? (onError e) = handed? (.maintenance state) := by
  cases state
  case purging | selecting | recovering | expiring =>
    obtain ⟨_, rfl⟩ := Code.tx.inj hcode
    rfl
  all_goals simp [code, maintenanceCode] at hcode

theorem handed_crash (q : Control) : handed? (crash q) = none := by
  cases q <;> rfl

theorem hidden_crash (q : Control) :
    family (crash q) = .maintenance ↔ family q = .maintenance := by
  cases q <;> simp [crash, family]

theorem handed_process (config : MaintenanceProcessors.Config)
    (processor : MaintenanceProcessor) (job : Job) (now : Int) :
    handed? (.maintenance (MaintenanceProcessors.process config processor job now)) =
      some job := by
  cases processor with
  | retention =>
      simp only [MaintenanceProcessors.process, MaintenanceProcessors.RetentionProcessor.process]
      split <;> rfl
  | processingRecovery =>
      simp only [MaintenanceProcessors.process,
        MaintenanceProcessors.ProcessingRecoveryProcessor.process]
      split <;> rfl
  | ambiguousOutcomeExpiry =>
      simp only [MaintenanceProcessors.process,
        MaintenanceProcessors.AmbiguousOutcomeExpiryProcessor.process]
      split
      · rfl
      · split <;> rfl

end Handed

/-- What stands in for a step from `a` is allowed: all steps that take no message back, and
those that take a message back that the step takes back as well. -/
structure Permits (ok' : ServiceSnapshot → ServiceLabel → Prop) (a : ServiceSnapshot)
    (l : ServiceLabel) : Prop where
  quiet : ∀ b l', Spawning (delivers ·) b l' → (committing? b l').bind recovering? = none →
    ok' b l'
  recovers : ∀ m b l', TakesBack a l m → Mirrors a b →
    (committing? b l').bind recovering? = some m → ok' b l'

section Steps

variable {config : Config} {a a' b : ServiceSnapshot} {l : ServiceLabel}
  {ok' : ServiceSnapshot → ServiceLabel → Prop}

theorem Mirrors.exists_like (h : Mirrors a b) {i : Nat} {q : Control}
    (hq : a.controls[i]? = some q) (hvisible : family q ≠ .maintenance) :
    ∃ j, b.controls[j]? = some q ∧ ∀ q' s o p, family q' ≠ .maintenance → SameBut o p →
      Mirrors ⟨s, a.controls.set i q', o⟩ ⟨s, b.controls.set j q', p⟩ := by
  obtain ⟨j, hj, hset⟩ := h.controls.exists_get hq hvisible
  refine ⟨j, hj, fun q' s o p hq' hsame => ⟨rfl, hsame, hset q' hq', fun k q₂ job hq₂ hjob => ?_⟩⟩
  rcases getElem?_set_eq_some hq₂ with ⟨_, rfl⟩ | ⟨_, hq₂⟩
  · simp [handed_of_visible hq'] at hjob
  · exact h.handed k q₂ job hq₂ hjob

theorem Mirrors.set_hidden (h : Mirrors a b) {i : Nat} {q q' : Control}
    (hq : a.controls[i]? = some q) (hhidden : family q = .maintenance)
    (hhidden' : family q' = .maintenance)
    (hhanded : ∀ job, handed? q' = some job → job.queue = .smsMaintenance) {o : Outside}
    (hsame : SameBut o b.ext) : Mirrors ⟨a.store, a.controls.set i q', o⟩ b := by
  refine ⟨h.store, hsame, h.controls.set_hidden hq hhidden hhidden', fun k q₂ job hq₂ hjob => ?_⟩
  rcases getElem?_set_eq_some hq₂ with ⟨_, rfl⟩ | ⟨_, hq₂⟩
  · exact hhanded job hjob
  · exact h.handed k q₂ job hq₂ hjob

theorem Mirrors.standIn (h : Mirrors a b) {q : Control} (hq : StandsIn q) :
    Mirrors a { b with controls := b.controls ++ [q] } := by
  refine ⟨h.store, h.outside, ?_, h.handed⟩
  simpa using h.controls.append (.extra hq .nil)

theorem ok_of_commit (hok : Permits ok' a l) (h : Mirrors a b) {i j : Nat} {q q' : Control}
    {s : Database}
    (hq : a.controls[i]? = some q) (hj : b.controls[j]? = some q)
    (hvisible : family q ≠ .maintenance) (hspec : wholeSpec config q a.store (.ok q') s)
    (hl : committing? a l = a.controls[i]?) :
    s = a.store ∨ ∀ l', (∀ q, l' ≠ .spawn q) → committing? b l' = b.controls[j]? → ok' b l' := by
  have hsimple : recovering? q = none → ∀ l', (∀ q, l' ≠ .spawn q) →
      committing? b l' = b.controls[j]? → ok' b l' := by
    intro hnone l' hspawn hl'
    exact hok.quiet _ _ (fun q hq => absurd hq (hspawn q))
      (by rw [hl', hj, Option.bind_some, hnone])
  cases q with
  | sweep state =>
      cases state
      case recovering cutoff m rest recovered =>
        obtain ⟨didRecover, rfl, hrecover, hstale⟩ := hspec
        cases didRecover with
        | false => exact Or.inl hrecover
        | true =>
            refine Or.inr fun l' _ hl' => hok.recovers m b l' ⟨cutoff, ?_, hstale rfl⟩ h ?_
            · rw [hl, hq]
              rfl
            · rw [hl', hj]
              rfl
      all_goals exact Or.inr (hsimple rfl)
  | maintenance state => exact absurd rfl hvisible
  | _ => exact Or.inr (hsimple rfl)

theorem Mirrors.commit_hidden (h : Mirrors a b) (hok : Permits ok' a l) {i : Nat}
    {state : MaintenanceProcessors.State} {q q' : Control} {s : Database}
    (hq : a.controls[i]? = some (.maintenance state))
    (hspec : maintainedSpec state a.store (.ok q) s) (hl : committing? a l = a.controls[i]?)
    (hhidden : family q' = .maintenance)
    (hhanded : ∀ job, handed? q' = some job → job.queue = .smsMaintenance) :
    ∃ b', Reachable (ServiceStep config) ok' (· = b) b' ∧
      Mirrors ⟨s, a.controls.set i q', a.ext⟩ b' := by
  have hset := h.set_hidden hq rfl hhidden hhanded h.outside
  have hsame : s = a.store → ∃ b', Reachable (ServiceStep config) ok' (· = b) b' ∧
      Mirrors ⟨s, a.controls.set i q', a.ext⟩ b' := by
    rintro rfl
    exact ⟨b, Reachable.start rfl, hset⟩
  cases state with
  | selecting task cutoff =>
      obtain ⟨_, _, hspec⟩ := hspec
      exact hsame hspec
  | recovering task cutoff m rest =>
      obtain ⟨didRecover, _, hrecover, hstale⟩ := hspec
      cases didRecover with
      | false => exact hsame hrecover
      | true =>
          have hcommit : ok' { b with
              controls := b.controls ++ [.sweep (.recovering cutoff m [] 0)] }
              (.commit b.controls.length) :=
            hok.recovers m _ _ ⟨cutoff, by rw [hl, hq]; rfl, hstale rfl⟩ (h.standIn (Or.inl rfl))
              (by simp [committing?, recovering?])
          rw [← h.store] at hrecover
          refine ⟨_, reachable_recovered hrecover hok.quiet hcommit, rfl, h.outside, ?_,
            hset.handed⟩
          simpa using hset.controls.append (.extra (Or.inl rfl) .nil)
  | expiring task m =>
      obtain ⟨result, _, hexpire⟩ := hspec
      cases result with
      | notAwaitingProviderResult => exact hsame hexpire.1
      | expired =>
          rw [← h.store] at hexpire
          refine ⟨_, reachable_expired hexpire hok.quiet, rfl, h.outside, ?_, hset.handed⟩
          simpa using hset.controls.append (.extra (Or.inr rfl) .nil)
  | _ => exact hspec.elim

theorem Mirrors.act_hidden (h : Mirrors a b) {i : Nat} {q q' : Control} {c : Choice} {o : Outside}
    (hq : a.controls[i]? = some q) (hhidden : family q = .maintenance)
    (hacts : Acts config c a.ext q o q') : Mirrors ⟨a.store, a.controls.set i q', o⟩ b := by
  have hremoved : ∀ {job completed}, handed? q = some job →
      SameBut { a.ext.removeJob job with completed := completed } b.ext := by
    intro job completed hjob
    obtain ⟨jobs, _, hjobs, hext⟩ := h.outside.remove_hidden (h.handed i q job hq hjob)
    exact ⟨jobs, _, hjobs, hext⟩
  cases hacts with
  | tookMaintenance processor htake =>
      obtain ⟨hsame, hqueue⟩ := h.outside.take_hidden htake
      refine h.set_hidden hq rfl rfl (fun job hjob => ?_) hsame
      rw [handed_process, Option.some.injEq] at hjob
      exact hjob ▸ hqueue
  | completed task performed => exact h.set_hidden hq rfl rfl (by simp [handed?]) (hremoved rfl)
  | failedMaintenance task => exact h.set_hidden hq rfl rfl (by simp [handed?]) (hremoved rfl)
  | _ => simp [family] at hhidden

theorem handed_of_works {q : Control} (h : works q) : handed? q = none := by
  cases q with
  | maintenance state =>
      cases state
      case idle => rfl
      all_goals simp [works, delivers] at h
  | _ => rfl

theorem delivers_of_works {q : Control} (h : works q) (hq : family q ≠ .maintenance) :
    delivers q := by
  cases q with
  | maintenance state => exact absurd rfl hq
  | _ => exact h

theorem Mirrors.spawn (h : Mirrors a b) (hok : Permits ok' a l) {q : Control} (hq : works q) :
    ∃ b', Reachable (ServiceStep config) ok' (· = b) b' ∧
      Mirrors { a with controls := a.controls ++ [q] } b' := by
  have hhanded : ∀ (i : Nat) q' job, (a.controls ++ [q])[i]? = some q' → handed? q' = some job →
      job.queue = .smsMaintenance := by
    intro i q' job hq' hjob
    rcases getElem?_concat_eq_some hq' with hq' | rfl
    · exact h.handed i q' job hq' hjob
    · simp [handed_of_works hq] at hjob
  by_cases hhidden : family q = .maintenance
  · refine ⟨b, Reachable.start rfl, h.store, h.outside, ?_, hhanded⟩
    simpa using h.controls.append (.hidden hhidden .nil)
  · have hspawned : ok' b (.spawn q) :=
      hok.quiet _ _ (fun q' hq' => by cases hq'; exact delivers_of_works hq hhidden) rfl
    exact ⟨_, Reachable.next _ (Reachable.start rfl) hspawned (Atomic.spawn q), h.store,
      h.outside, h.controls.append (.both hhidden .nil), hhanded⟩

theorem Mirrors.error_hidden (h : Mirrors a b) {i : Nat} {q : Control} {t : Sql Control}
    {onError : Failure → Control} (hq : a.controls[i]? = some q)
    (hhidden : family q = .maintenance) (hcode : code config q = .tx t onError) (e : Failure) :
    Mirrors ⟨a.store, a.controls.set i (onError e), a.ext⟩ b := by
  cases q with
  | maintenance state =>
      refine h.set_hidden hq rfl (family_of_error hcode e).1 (fun job hjob => ?_) h.outside
      rw [handed_of_error hcode] at hjob
      exact h.handed i _ job hq hjob
  | _ => simp [family] at hhidden

theorem Mirrors.hidden_of_ok (h : Mirrors a b) {i : Nat} {state : MaintenanceProcessors.State}
    {q' : Control} {s s' : Database} (hq : a.controls[i]? = some (.maintenance state))
    (hspec : maintainedSpec state s (.ok q') s') :
    family q' = .maintenance ∧ ∀ job, handed? q' = some job → job.queue = .smsMaintenance := by
  obtain ⟨state', rfl, _⟩ := maintained_of_ok hspec
  exact ⟨rfl, fun job hjob => h.handed i _ job hq (handed_of_ok hspec hjob)⟩

theorem Mirrors.store_hidden (h : Mirrors a b) (hok : Permits ok' a l) {i : Nat} {q q₁ q' : Control}
    {t : Sql Control} {onError : Failure → Control} {s : Database}
    (hq : a.controls[i]? = some q) (hhidden : family q = .maintenance)
    (hcode : code config q = .tx t onError) (hspec : wholeSpec config q a.store (.ok q₁) s)
    (hl : committing? a l = a.controls[i]?) (hq' : q' = q₁ ∨ ∃ e, q' = onError e) :
    ∃ b', Reachable (ServiceStep config) ok' (· = b) b' ∧
      Mirrors ⟨s, a.controls.set i q', a.ext⟩ b' := by
  cases q with
  | maintenance state =>
      rcases hq' with rfl | ⟨e, rfl⟩
      · obtain ⟨hfamily, hhanded⟩ := h.hidden_of_ok hq hspec
        exact h.commit_hidden hok hq hspec hl hfamily hhanded
      · refine h.commit_hidden hok hq hspec hl (family_of_error hcode e).1 fun job hjob => ?_
        rw [handed_of_error hcode] at hjob
        exact h.handed i _ job hq hjob
  | _ => simp [family] at hhidden

/-- One step with the maintenance workers is followed by steps without them. -/
theorem Mirrors.step (h : Mirrors a b) (hok : Permits ok' a l) (hl : Spawning (works ·) a l)
    (hstep : WholeStep config a l a') :
    ∃ b', Reachable (ServiceStep config) ok' (· = b) b' ∧ Mirrors a' b' := by
  obtain ⟨store, controls, ext⟩ := b
  obtain rfl : store = a.store := h.store
  have hone : ∀ {l' b'}, ok' ⟨a.store, controls, ext⟩ l' →
      ServiceStep config ⟨a.store, controls, ext⟩ l' b' → Mirrors a' b' →
      ∃ b', Reachable (ServiceStep config) ok' (· = ⟨a.store, controls, ext⟩) b' ∧
        Mirrors a' b' :=
    fun hl' hstep' hmirrors => ⟨_, Reachable.next _ (Reachable.start rfl) hl' hstep', hmirrors⟩
  have hquiet : ∀ {l'}, (∀ q, l' ≠ .spawn q) →
      committing? ⟨a.store, controls, ext⟩ l' = none → ok' ⟨a.store, controls, ext⟩ l' :=
    fun hspawn hcommit => hok.quiet _ _ (fun q hq => absurd hq (hspawn q)) (by simp [hcommit])
  cases hstep with
  | spawn q => exact h.spawn hok (hl q rfl)
  | @answer i c q q' t onError hq hcode hspec =>
      by_cases hhidden : family q = .maintenance
      · cases q with
        | maintenance state =>
            obtain ⟨hfamily, hhanded⟩ := h.hidden_of_ok hq hspec
            exact ⟨_, Reachable.start rfl, h.set_hidden hq rfl hfamily hhanded h.outside⟩
        | _ => simp [family] at hhidden
      · obtain ⟨j, hj, hset⟩ := h.exists_like hq hhidden
        have hcontrol := controlSpec_of_wholeSpec hspec hhidden
        exact hone (hquiet (by simp) rfl) (Atomic.answer (c := c) hj hcode hcontrol)
          (hset _ _ _ _ ((family_of_ok hcontrol).1 ▸ hhidden) h.outside)
  | @error i c q e t onError hq hcode hspec =>
      by_cases hhidden : family q = .maintenance
      · exact ⟨_, Reachable.start rfl, h.error_hidden hq hhidden hcode e⟩
      · obtain ⟨j, hj, hset⟩ := h.exists_like hq hhidden
        exact hone (hquiet (by simp) rfl)
          (Atomic.error (c := c) hj hcode (controlSpec_of_wholeSpec hspec hhidden))
          (hset _ _ _ _ ((family_of_error hcode e).1 ▸ hhidden) h.outside)
  | @act i c q q' o act hq hcode hact =>
      by_cases hhidden : family q = .maintenance
      · exact ⟨_, Reachable.start rfl, h.act_hidden hq hhidden (acts_of_code hcode hact)⟩
      · obtain ⟨j, hj, hset⟩ := h.exists_like hq hhidden
        obtain ⟨pick, p, hact', hsame⟩ := h.outside.act hhidden hcode hact
        exact hone (hquiet (by simp) rfl) (Atomic.act hj hcode hact')
          (hset _ _ _ _ ((acts_of_code hcode hact).family.1 ▸ hhidden) hsame)
  | @commit i q q' t onError s hq hcode hspec =>
      by_cases hhidden : family q = .maintenance
      · exact h.store_hidden hok hq hhidden hcode hspec rfl (Or.inl rfl)
      · obtain ⟨j, hj, hset⟩ := h.exists_like hq hhidden
        have hcontrol := controlSpec_of_wholeSpec hspec hhidden
        have hmirrors := hset q' s _ _ ((family_of_ok hcontrol).1 ▸ hhidden) h.outside
        obtain rfl | hcommit := ok_of_commit hok h hq hj hhidden hspec rfl
        · exact hone (hquiet (by simp) rfl) (Atomic.answer (c := anyChoice) hj hcode hcontrol)
            hmirrors
        · exact hone (hcommit (.commit j) (by simp) rfl) (Atomic.commit hj hcode hcontrol) hmirrors
  | @lost i q q' t onError s hq hcode hspec =>
      by_cases hhidden : family q = .maintenance
      · exact h.store_hidden hok hq hhidden hcode hspec rfl (Or.inr ⟨_, rfl⟩)
      · obtain ⟨j, hj, hset⟩ := h.exists_like hq hhidden
        have hcontrol := controlSpec_of_wholeSpec hspec hhidden
        have hmirrors := hset (onError (service config).fault) s _ _
          ((family_of_error hcode _).1 ▸ hhidden) h.outside
        obtain rfl | hcommit := ok_of_commit hok h hq hj hhidden hspec rfl
        · exact hone (hquiet (by simp) rfl) (Atomic.fault hj hcode) hmirrors
        · exact hone (hcommit (.lost j) (by simp) rfl) (Atomic.lost hj hcode hcontrol) hmirrors
  | @fault i q t onError hq hcode =>
      by_cases hhidden : family q = .maintenance
      · exact ⟨_, Reachable.start rfl, h.error_hidden hq hhidden hcode _⟩
      · obtain ⟨j, hj, hset⟩ := h.exists_like hq hhidden
        exact hone (hquiet (by simp) rfl) (Atomic.fault hj hcode)
          (hset _ _ _ _ ((family_of_error hcode _).1 ▸ hhidden) h.outside)
  | @crash i q hq hcode =>
      by_cases hhidden : family q = .maintenance
      · refine ⟨_, Reachable.start rfl, h.set_hidden hq hhidden ?_ ?_ h.outside⟩
        · exact (hidden_crash q).mpr hhidden
        · simp [service, handed_crash]
      · obtain ⟨j, hj, hset⟩ := h.exists_like hq hhidden
        exact hone (hquiet (by simp) rfl) (Atomic.crash hj hcode)
          (hset _ _ _ _ (fun hcrash => hhidden ((hidden_crash q).mp hcrash)) h.outside)
  | @env c o hmove =>
      obtain ⟨p, hmove', hsame⟩ := h.outside.move hmove
      exact hone (hquiet (by simp) rfl) (Atomic.env hmove') ⟨rfl, hsame, h.controls, h.handed⟩

end Steps

section Runs

variable {config : Config} {ok ok' : ServiceSnapshot → ServiceLabel → Prop} {w : ServiceWorld}

theorem mirrors_initial {a : ServiceSnapshot} (h : Initial a) : Mirrors a a := by
  refine ⟨rfl, sameBut_refl _, ?_, ?_⟩
  · rw [h.controls]
    exact .nil
  · simp [h.controls]

/-- A run with maintenance workers has its like without them. -/
theorem exists_mirror (hok : ∀ a l, Reachable (WholeStep config) ok Initial a → ok a l →
      Spawning (works ·) a l ∧ Permits ok' a l) {a : ServiceSnapshot}
    (h : Reachable (WholeStep config) ok Initial a) :
    ∃ b, Reachable (ServiceStep config) ok' Initial b ∧ Mirrors a b := by
  refine exists_related (fun a hinit => ⟨a, hinit, mirrors_initial hinit⟩)
    (fun a l a' b hreach hmirrors hl hstep => ?_) h
  obtain ⟨hworks, hpermits⟩ := hok a l hreach hl
  exact hmirrors.step hpermits hworks hstep

theorem serves_of_works {q : Control} (h : works q) : serves q := by
  cases q with
  | maintenance state =>
      cases state
      case idle => exact h
      all_goals simp [works, delivers] at h
  | purging | purged | purgeFailed => simp [works, delivers] at h
  | _ => rfl

/-- The control states of the dispatch workers and of the relays. -/
def carries (q : Control) : Bool :=
  family q = .dispatch || family q = .relay

theorem permits_spawning (a : ServiceSnapshot) (l : ServiceLabel) :
    Permits (Spawning (delivers ·)) a l where
  quiet _ _ h _ := h
  recovers m b l' _ _ hcommit q hq := by
    subst hq
    simp [committing?] at hcommit

/-- The refinement into the atomic specification: for every run of the service with workers
that recover and expire, any number of them and with any jobs on the maintenance queue, there
is a run of the atomic system without them, of sweeps and calls in their place, that comes to
the same tables, with the same calls of providers, the same adds by the relay, the same jobs on
the other queues, and the same dispatch workers and relays in the same control states. -/
theorem whole_service_refines (h : Reaches config (Spawning (works ·)) Initial w) :
    ∃ b, Reachable (ServiceStep config) (Spawning (delivers ·)) Initial b ∧
      b.store = w.store ∧ b.ext.calls = w.ext.calls ∧ b.ext.added = w.ext.added ∧
      b.ext.clock = w.ext.clock ∧
      b.ext.jobs.filter (fun queued => queued.job.queue ≠ .smsMaintenance) =
        w.ext.jobs.filter (fun queued => queued.job.queue ≠ .smsMaintenance) ∧
      b.controls.filter carries = w.abs.controls.filter carries := by
  obtain ⟨_, hreach⟩ := h.simulated (sound_whole config) fun _ _ hspawn =>
    serves_of_works (hspawn _ rfl)
  obtain ⟨b, hb, hmirrors⟩ :=
    exists_mirror (fun a l _ hl => ⟨hl, permits_spawning a l⟩) hreach
  obtain ⟨jobs, completed, hjobs, hext⟩ := hmirrors.outside
  have hhidden : ∀ queued, OnMaintenance queued →
      (decide (queued.job.queue ≠ QueueName.smsMaintenance)) = false :=
    fun queued hqueued => by simpa using show queued.job.queue = .smsMaintenance from hqueued
  refine ⟨b, hb, hmirrors.store, by rw [hext]; rfl, by rw [hext]; rfl, by rw [hext]; rfl, ?_, ?_⟩
  · rw [hext]
    exact hjobs.filter_eq hhidden hhidden
  · refine hmirrors.controls.filter_eq (fun q hq => ?_) fun q hq => ?_
    · simp [carries, hq]
    · rcases hq with hq | hq <;> simp [carries, hq]

/-- A job of the recovery. -/
def recoveryJob : Job :=
  ⟨.smsMaintenance, "processing-recovery", processingRecoveryJob, none, none⟩

/-- A worker claims the message `m` and crashes, and the recovery worker takes it back. -/
def takingBack : List ServiceLabel :=
  creation ++ .spawn sampleWorker :: statements 1 2 (sampleChoice "" 1) ++ .commit 1 ::
    .crash 1 :: .env { sampleChoice "" 1 with move := .schedule recoveryJob } ::
    .spawn (.maintenance (.idle .processingRecovery)) ::
    statements 2 2 (sampleChoice "" 300002) ++ statements 2 2 (sampleChoice "r" 300003) ++
    [.commit 2]

/-- A message that a maintenance worker takes back is taken back in the other run too. -/
theorem whole_service_refines_recovery :
    ∃ w b, Reaches sampleConfig (Spawning (works ·)) Initial w ∧
      Reachable (ServiceStep sampleConfig) (Spawning (delivers ·)) Initial b ∧
      b.store = w.store ∧ (aggregate b.store "m").status = some .retryScheduled := by
  obtain ⟨w, hw, hstatus⟩ := exists_reaches_of_exec sampleConfig (Spawning (works ·)) takingBack
    (fun w => (aggregate w.store "m").status = some .retryScheduled) (by decide +kernel)
  obtain ⟨b, hb, hstore, _⟩ := whole_service_refines hw
  exact ⟨w, b, hw, hb, hstore, hstore ▸ hstatus⟩

end Runs

end SmsNotification.MaintenanceRefinement

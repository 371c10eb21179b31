import SmsNotification.FailoverOrder
import SmsNotification.MaintenanceRefinement

namespace SmsNotification.RecoveryLeases

open SmsNotification.ActorSystem
open SmsNotification.ClaimExclusivity
open SmsNotification.DispatchClaims
open SmsNotification.DispatchPass (pairConfig)
open SmsNotification.FailoverOrder
open SmsNotification.LabelledRuns
open SmsNotification.MaintenanceRefinement
open SmsNotification.MessageAggregate
open SmsNotification.Schema
open SmsNotification.Service
open SmsNotification.ServiceEffects
open SmsNotification.ServiceRuns
open SmsNotification.Surroundings
open SmsNotification.WholeService

/-- The cutoff of a recovery that has begun. -/
def cutoff? : Control → Option Int
  | .sweep (.selecting cutoff _) => some cutoff
  | .sweep (.recovering cutoff _ _ _) => some cutoff
  | .maintenance (.selecting _ cutoff) => some cutoff
  | .maintenance (.recovering _ cutoff _ _) => some cutoff
  | _ => none

/-- Sweeps are started with the cutoff that the recovery service takes, or an earlier one,
and no clock of an actor is ahead. -/
def timely (config : Config) (a : ServiceSnapshot) : ServiceLabel → Bool
  | .spawn q => (cutoff? q).all fun cutoff =>
      cutoff ≤ a.ext.clock - config.maintenance.staleAfterMs
  | .run _ c => c.now ≤ a.ext.clock
  | _ => true

/-- No message is in PROCESSING, under a worker that is at its pass, for longer than the
recovery service allows. -/
def prompt (config : Config) (a : ServiceSnapshot) : Bool :=
  a.controls.all fun q => (claims? q).all fun m => (smsMessage.find a.store m).all fun row =>
    row.status ≠ .processing || a.ext.clock ≤ row.updatedAt + config.maintenance.staleAfterMs

/-- Steps of the service with its maintenance workers while its workers are prompt. -/
def Leased (config : Config) (a : ServiceSnapshot) (l : ServiceLabel) : Prop :=
  Spawning (works ·) a l ∧ timely config a l ∧ prompt config a

instance Leased.decidable (config : Config) (a : ServiceSnapshot) (l : ServiceLabel) :
    Decidable (Leased config a l) :=
  inferInstanceAs (Decidable (_ ∧ _ ∧ _))

/-- The cutoffs of the recoveries are not later than the recovery service takes them. -/
def InTime (config : Config) (a : ServiceSnapshot) : Prop :=
  ∀ (i : Nat) q cutoff, a.controls[i]? = some q → cutoff? q = some cutoff →
    cutoff ≤ a.ext.clock - config.maintenance.staleAfterMs

section Cutoffs

variable {config : Config} {q q' : Control} {cutoff : Int}

theorem cutoff_of_family (hsweep : family q ≠ .sweep) (hmaintenance : family q ≠ .maintenance) :
    cutoff? q = none := by
  cases q with
  | sweep => exact absurd rfl hsweep
  | maintenance => exact absurd rfl hmaintenance
  | _ => rfl

theorem cutoff_next (cutoff : Int) (recovered : Nat) (candidates : List String) {cutoff' : Int}
    (h : cutoff? (.sweep (Sweep.next cutoff recovered candidates)) = some cutoff') :
    cutoff = cutoff' := by
  cases candidates with
  | nil => simp [Sweep.next, cutoff?] at h
  | cons candidate rest => exact Option.some.inj h

theorem cutoff_recoverNext (task : MaintenanceProcessors.Task) (cutoff : Int)
    (candidates : List String) {cutoff' : Int}
    (h : cutoff? (.maintenance (MaintenanceProcessors.recoverNext task cutoff candidates)) =
      some cutoff') : cutoff = cutoff' := by
  cases candidates with
  | nil => simp [MaintenanceProcessors.recoverNext, cutoff?] at h
  | cons candidate rest => exact Option.some.inj h

theorem cutoff_of_ok {s s' : Database} (h : wholeSpec config q s (.ok q') s')
    (hcutoff : cutoff? q' = some cutoff) : cutoff? q = some cutoff := by
  cases q with
  | sweep state =>
      cases state
      case selecting =>
        obtain ⟨candidates, rfl, _⟩ := h
        exact congrArg some (cutoff_next _ _ _ hcutoff)
      case recovering =>
        obtain ⟨didRecover, rfl, _⟩ := h
        exact congrArg some (cutoff_next _ _ _ hcutoff)
      all_goals exact h.elim
  | maintenance state =>
      cases state
      case selecting =>
        obtain ⟨candidates, rfl, _⟩ := h
        exact congrArg some (cutoff_recoverNext _ _ _ hcutoff)
      case recovering =>
        obtain ⟨_, rfl, _⟩ := h
        exact congrArg some (cutoff_recoverNext _ _ _ hcutoff)
      case expiring =>
        obtain ⟨_, rfl, _⟩ := h
        simp [cutoff?] at hcutoff
      all_goals exact h.elim
  | _ =>
      have hfamily := (family_of_ok (controlSpec_of_wholeSpec h (by simp [family]))).1
      rw [cutoff_of_family (by rw [hfamily]; simp [family]) (by rw [hfamily]; simp [family])]
        at hcutoff
      simp at hcutoff

theorem cutoff_of_error {t : Sql Control} {onError : Failure → Control}
    (hcode : code config q = .tx t onError) (e : Failure) : cutoff? (onError e) = none := by
  cases q with
  | sweep state =>
      cases state
      case selecting | recovering =>
        obtain ⟨_, rfl⟩ := Code.tx.inj hcode
        rfl
      all_goals simp [code, sweepCode] at hcode
  | maintenance state =>
      cases state
      case purging | selecting | recovering | expiring =>
        obtain ⟨_, rfl⟩ := Code.tx.inj hcode
        rfl
      all_goals simp [code, maintenanceCode] at hcode
  | _ =>
      have hfamily := (family_of_error hcode e).1
      exact cutoff_of_family (by rw [hfamily]; simp [family]) (by rw [hfamily]; simp [family])

theorem cutoff_crash (q : Control) : cutoff? (crash q) = none := by
  cases q <;> rfl

theorem cutoff_of_acts {c : Choice} {o o' : Outside} (h : Acts config c o q o' q')
    (hcutoff : cutoff? q' = some cutoff) : cutoff = c.now - config.maintenance.staleAfterMs := by
  cases h with
  | tookMaintenance processor _ =>
      cases processor with
      | retention =>
          simp only [MaintenanceProcessors.process,
            MaintenanceProcessors.RetentionProcessor.process] at hcutoff
          split at hcutoff <;> simp [cutoff?] at hcutoff
      | processingRecovery =>
          simp only [MaintenanceProcessors.process,
            MaintenanceProcessors.ProcessingRecoveryProcessor.process] at hcutoff
          split at hcutoff
          · exact (Option.some.inj hcutoff).symm
          · simp [cutoff?] at hcutoff
      | ambiguousOutcomeExpiry =>
          simp only [MaintenanceProcessors.process,
            MaintenanceProcessors.AmbiguousOutcomeExpiryProcessor.process] at hcutoff
          split at hcutoff
          · simp [cutoff?] at hcutoff
          · split at hcutoff <;> simp [cutoff?] at hcutoff
  | _ => simp [cutoff?] at hcutoff

end Cutoffs

section Runs

variable {config : Config} {a a' : ServiceSnapshot} {w : ServiceWorld}

theorem InTime.set (h : InTime config a) {i : Nat} {q' : Control} {s : Database} {x : Outside}
    (hclock : a.ext.clock ≤ x.clock)
    (hown : ∀ cutoff, cutoff? q' = some cutoff →
      cutoff ≤ a.ext.clock - config.maintenance.staleAfterMs) :
    InTime config ⟨s, a.controls.set i q', x⟩ := by
  intro j q cutoff hq hcutoff
  have hbefore : cutoff ≤ a.ext.clock - config.maintenance.staleAfterMs := by
    rcases getElem?_set_eq_some hq with ⟨_, rfl⟩ | ⟨_, hq⟩
    · exact hown cutoff hcutoff
    · exact h j q cutoff hq hcutoff
  exact hbefore.trans (Int.sub_le_sub_right hclock _)

theorem InTime.step (h : InTime config a) {l : ServiceLabel} (hl : timely config a l)
    (hstep : WholeStep config a l a') : InTime config a' := by
  have hnone : ∀ {i : Nat} {q' : Control} {s : Database}, cutoff? q' = none →
      InTime config ⟨s, a.controls.set i q', a.ext⟩ :=
    fun hcutoff => h.set le_rfl fun _ hsome => by simp [hcutoff] at hsome
  cases hstep with
  | spawn q =>
      intro i q' cutoff hq' hcutoff
      rcases getElem?_concat_eq_some hq' with hq' | rfl
      · exact h i q' cutoff hq' hcutoff
      · simpa [timely, hcutoff] using hl
  | answer hq _ hspec | commit hq _ hspec =>
      exact h.set le_rfl fun cutoff hcutoff => h _ _ cutoff hq (cutoff_of_ok hspec hcutoff)
  | error hq hcode _ | lost hq hcode _ => exact hnone (cutoff_of_error hcode _)
  | fault hq hcode => exact hnone (cutoff_of_error hcode _)
  | crash hq _ => exact hnone (cutoff_crash _)
  | act hq hcode hact =>
      have hacts := acts_of_code hcode hact
      refine h.set hacts.clock.ge fun cutoff hcutoff => ?_
      have hnow := of_decide_eq_true hl
      rw [cutoff_of_acts hacts hcutoff]
      exact Int.sub_le_sub_right hnow _
  | env hmove =>
      intro i q cutoff hq hcutoff
      exact (h i q cutoff hq hcutoff).trans
        (Int.sub_le_sub_right (Outside.clock_of_move hmove) _)

theorem exists_of_committing {l : ServiceLabel} {q : Control} (h : committing? a l = some q) :
    ∃ i : Nat, a.controls[i]? = some q := by
  cases l with
  | commit i | lost i => exact ⟨i, h⟩
  | _ => simp [committing?] at h

theorem cutoff_of_recoversAt {q : Control} {cutoff : Int} {m : String}
    (h : recoversAt? q = some (cutoff, m)) : cutoff? q = some cutoff := by
  unfold recoversAt? at h
  split at h
  · exact congrArg some (Prod.mk.inj (Option.some.inj h)).1
  · exact congrArg some (Prod.mk.inj (Option.some.inj h)).1
  · simp at h

theorem not_claimed_of_takesBack (hintime : InTime config a) (hprompt : prompt config a)
    {l : ServiceLabel} {m : String} (h : TakesBack a l m) :
    ∀ q ∈ a.controls, claims? q ≠ some m := by
  intro q hq hclaims
  obtain ⟨cutoff, hrecovers, row, hrow, hstatus, hupdated⟩ := h
  obtain ⟨q', hcommitting, hrecovering⟩ := Option.bind_eq_some_iff.mp hrecovers
  obtain ⟨i, hi⟩ := exists_of_committing hcommitting
  have hcutoff := hintime i q' cutoff hi (cutoff_of_recoversAt hrecovering)
  have hlate := List.all_eq_true.mp hprompt q hq
  simp only [hclaims, Option.all_some, hrow, hstatus, ne_eq, not_true_eq_false, decide_false,
    Bool.false_or, decide_eq_true_eq] at hlate
  omega

theorem family_of_claims {q : Control} {m : String} (h : claims? q = some m) :
    family q = .dispatch := by
  by_contra hfamily
  simp [claims?_eq_none hfamily] at h

theorem permits_patient (hintime : InTime config a) {l : ServiceLabel}
    (hprompt : prompt config a) : Permits Patient a l where
  quiet b l' hspawn hnone := ⟨hspawn, by simp [overtakes, hnone]⟩
  recovers m b l' htakes hmirrors hcommit := by
    refine ⟨fun q hq => ?_, ?_⟩
    · subst hq
      simp [committing?] at hcommit
    · rw [overtakes, hcommit, Option.any_some, List.any_eq_false]
      intro q hq hclaims
      have hclaims := of_decide_eq_true hclaims
      rcases hmirrors.controls.mem hq with hstands | hmem
      · rw [StandsIn, family_of_claims hclaims] at hstands
        simp at hstands
      · exact not_claimed_of_takesBack hintime hprompt htakes q hmem hclaims

theorem inTime_of_reachable (h : Reachable (WholeStep config) (Leased config) Initial a) :
    InTime config a := by
  refine Reachable.invariant (fun a hinit => ?_)
    (fun a l a' _ hintime hl hstep => hintime.step hl.2.1 hstep) h
  intro i q cutoff hq
  simp [hinit.controls] at hq

theorem family_of_hidden {q q' : Control} {s s' : Database} (hhidden : family q = .maintenance)
    (h : wholeSpec config q s (.ok q') s') : family q' = .maintenance := by
  cases q with
  | maintenance state =>
      obtain ⟨state', rfl, _⟩ := maintained_of_ok h
      rfl
  | _ => simp [family] at hhidden

theorem serviceStep_or_hidden {l : ServiceLabel} (h : WholeStep config a l a') :
    ServiceStep config a l a' ∨ ∃ (i : Nat) (q q' : Control) (s : Database) (x : Outside),
      a.controls[i]? = some q ∧ family q = .maintenance ∧ family q' = .maintenance ∧
        StepEffect q a.store s ∧ a' = ⟨s, a.controls.set i q', x⟩ := by
  cases h with
  | spawn q => exact Or.inl (Atomic.spawn q)
  | @answer i c q q' t onError hq hcode hspec =>
      by_cases hhidden : family q = .maintenance
      · exact Or.inr ⟨i, q, q', _, _, hq, hhidden, family_of_hidden hhidden hspec,
          stepEffect_of_eq rfl, rfl⟩
      · exact Or.inl (Atomic.answer hq hcode (controlSpec_of_wholeSpec hspec hhidden))
  | @error i c q e t onError hq hcode hspec =>
      by_cases hhidden : family q = .maintenance
      · exact Or.inr ⟨i, q, _, _, _, hq, hhidden, (family_of_error hcode e).1.trans hhidden,
          stepEffect_of_eq rfl, rfl⟩
      · exact Or.inl (Atomic.error hq hcode (controlSpec_of_wholeSpec hspec hhidden))
  | @act i c q q' o act hq hcode hact =>
      by_cases hhidden : family q = .maintenance
      · exact Or.inr ⟨i, q, q', _, o, hq, hhidden,
          (acts_of_code hcode hact).family.1.trans hhidden, stepEffect_of_eq rfl, rfl⟩
      · exact Or.inl (Atomic.act hq hcode hact)
  | @commit i q q' t onError s hq hcode hspec =>
      by_cases hhidden : family q = .maintenance
      · exact Or.inr ⟨i, q, q', s, _, hq, hhidden, family_of_hidden hhidden hspec,
          stepEffect_of_wholeSpec hspec, rfl⟩
      · exact Or.inl (Atomic.commit hq hcode (controlSpec_of_wholeSpec hspec hhidden))
  | @lost i q q' t onError s hq hcode hspec =>
      by_cases hhidden : family q = .maintenance
      · exact Or.inr ⟨i, q, _, s, _, hq, hhidden, (family_of_error hcode _).1.trans hhidden,
          stepEffect_of_wholeSpec hspec, rfl⟩
      · exact Or.inl (Atomic.lost hq hcode (controlSpec_of_wholeSpec hspec hhidden))
  | @fault i q t onError hq hcode =>
      exact Or.inl (Atomic.fault hq hcode)
  | @crash i q hq hcode => exact Or.inl (Atomic.crash hq hcode)
  | @env c o hmove => exact Or.inl (Atomic.env hmove)

theorem claims_of_hidden {q : Control} (h : family q = .maintenance) {m : String} :
    claims? q ≠ some m := fun hclaims => by
  simp [family_of_claims hclaims] at h

theorem claims_of_works {q : Control} (h : works q) : claims? q = none := by
  cases q with
  | maintenance state => rfl
  | _ => exact claims_of_delivers h

/-- With the maintenance workers, too, each message is at one worker at most. -/
theorem exclusive_of_leased (h : Reachable (WholeStep config) (Leased config) Initial a) :
    Exclusive a := by
  obtain ⟨b, hb, hmirrors⟩ := exists_mirror (fun a l hreach hl =>
    ⟨hl.1, permits_patient (inTime_of_reachable hreach) hl.2.2⟩) h
  have hstore : b.store = a.store := hmirrors.store
  have hexclusive := exclusive_of_reachable hb
  have hvisible : ∀ {q m}, claims? q = some m → ¬family q = .maintenance :=
    fun hclaims hhidden => claims_of_hidden hhidden hclaims
  have hnone : ∀ {i j : Nat} {q q' m}, a.controls[i]? = some q → a.controls[j]? = some q' →
      claims? q = some m → claims? q' = some m → ¬i < j := by
    intro i j q q' m hq hq' hclaims hclaims' hlt
    obtain ⟨i', j', hlt', hi', hj'⟩ :=
      hmirrors.controls.exists_pair hlt hq hq' (hvisible hclaims) (hvisible hclaims')
    exact hlt'.ne (hexclusive.single i' j' q q' m hi' hj' hclaims hclaims')
  refine ⟨fun i q hq hcall => ?_, fun i j q q' m hq hq' hclaims hclaims' => ?_,
    fun i q m hq hclaims => ?_⟩
  · by_cases hhidden : family q = .maintenance
    · cases q <;> simp [family, isCall] at hhidden hcall
    · obtain ⟨j, hj, _⟩ := hmirrors.controls.exists_get hq hhidden
      exact hexclusive.calls j q hj hcall
  · exact le_antisymm (not_lt.mp (hnone hq' hq hclaims' hclaims))
      (not_lt.mp (hnone hq hq' hclaims hclaims'))
  · obtain ⟨j, hj, _⟩ := hmirrors.controls.exists_get hq (hvisible hclaims)
    exact hstore ▸ hexclusive.claimed j q m hj hclaims

theorem inOrder_of_wholeStep {passes : List (List String)} {m : String}
    (h : InOrder config m passes a) (hexclusive : Exclusive a) (hexclusive' : Exclusive a')
    {l : ServiceLabel} (hl : Spawning (works ·) a l) (hstep : WholeStep config a l a') :
    InOrder config m (passesAfter m a a' passes) a' := by
  obtain hservice | ⟨i, q, q', s, x, hq, hhidden, hhidden', heffect, rfl⟩ :=
    serviceStep_or_hidden hstep
  · exact h.step hexclusive hexclusive' (fun q hq => claims_of_works (hl q hq)) hservice
  · have hasked : asked (aggregate s m) = asked (aggregate a.store m) := by
      refine (asked_of_stepEffect heffect m).resolve_right ?_
      rintro ⟨provider, hreserving, _⟩
      cases q <;> simp [family, reserving?] at hhidden hreserving
    exact h.keep hq hasked (fun hclaims => absurd hclaims (claims_of_hidden hhidden'))
      fun hclaims => absurd hclaims (claims_of_hidden hhidden')

theorem inOrder_of_leased {past : List ServiceWorld}
    (h : Runs config (Leased config) Initial (w :: past)) (m : String) :
    InOrder config m (passes m (w :: past)) w.abs := by
  have hserves : ∀ (a : ServiceSnapshot) q, Leased config a (.spawn q) → serves q :=
    fun _ _ hl => serves_of_works (hl.1 _ rfl)
  refine inOrder_of_steps (fun w₀ w₁ l passes hbefore hl hstep horder => ?_) h
  have hafter : Reaches config (Leased config) Initial w₁ := Reachable.next l hbefore hl hstep
  obtain ⟨hconsistent, hreach⟩ := hbefore.simulated (sound_whole config) hserves
  obtain ⟨_, hsame | hatomic⟩ := simulates (sound_whole config) hconsistent
    (fun q hq => hserves _ q (hq ▸ hl)) hstep
  · exact horder.stay (congrArg Snapshot.store hsame) fun _ _ hq _ => by rwa [hsame] at hq
  · exact inOrder_of_wholeStep horder (exclusive_of_leased hreach)
      (exclusive_of_leased (hafter.simulated (sound_whole config) hserves).2) hl.1 hatomic

/-- Leases: in a run of the service with its recovery and expiry workers in which every
worker leaves PROCESSING within the time that the recovery service allows, no message is
at two workers, no worker loses its claim before its pass is over, and the attempts of each
message are those of its passes, each of which asks the providers in order, and the worker
at the message is in the latest one and has exactly the rest of the order before it. -/
theorem prompt_workers_keep_claims {past : List ServiceWorld}
    (h : Runs config (Leased config) Initial (w :: past)) :
    (∀ (i j : Nat) q q' m, w.abs.controls[i]? = some q → w.abs.controls[j]? = some q' →
      claims? q = some m → claims? q' = some m → i = j) ∧
    (∀ (i : Nat) q m, w.abs.controls[i]? = some q → claims? q = some m →
      Claimed (aggregate w.store m)) ∧
    ∀ m, (passes m (w :: past)).reverse.flatten = asked (aggregate w.store m) ∧
      (∀ pass ∈ passes m (w :: past), pass <+: config.processor.orderedProviders) ∧
      ∀ (i : Nat) q, w.abs.controls[i]? = some q → claims? q = some m →
        (passes m (w :: past)).head? = some (taken q) ∧
          taken q ++ left config q = config.processor.orderedProviders := by
  have hreach : Reaches config (Leased config) Initial w :=
    Run.reachable h w List.mem_cons_self
  have hexclusive := exclusive_of_leased (hreach.simulated (sound_whole config)
    fun _ _ hl => serves_of_works (hl.1 _ rfl)).2
  refine ⟨hexclusive.single, hexclusive.claimed, fun m => ?_⟩
  have horder := inOrder_of_leased h m
  exact ⟨horder.flatten, horder.prefixes, horder.underway⟩

/-- A worker claims the message `m` and crashes; when the time is over, the recovery worker
takes it back, and another worker claims it and asks the first provider. -/
def claimingAgain : List ServiceLabel :=
  creation ++ .spawn sampleWorker :: statements 1 2 (sampleChoice "" 0) ++ .commit 1 ::
    .crash 1 :: .env { sampleChoice "" 0 with move := .tick 300001 } ::
    .env { sampleChoice "" 0 with move := .schedule recoveryJob } ::
    .spawn (.maintenance (.idle .processingRecovery)) ::
    statements 2 2 (sampleChoice "" 300001) ++ statements 2 2 (sampleChoice "r" 300001) ++
    .commit 2 :: .spawn sampleWorker :: statements 3 2 (sampleChoice "" 300001) ++ .commit 3 ::
    statements 3 1 (sampleChoice "" 300001) ++ statements 3 2 (sampleChoice "a" 300001) ++
    [.commit 3]

/-- The message of a crashed worker is taken back and claimed by another one, which begins
the order anew. -/
theorem prompt_workers_keep_claims_again :
    ∃ w past q, Runs pairConfig (Leased pairConfig) Initial (w :: past) ∧
      passes "m" (w :: past) = [["twilio"], []] ∧ w.abs.controls[3]? = some q ∧
      claims? q = some "m" ∧ Claimed (aggregate w.store "m") ∧ left pairConfig q = ["bird"] := by
  obtain ⟨states, hruns, hpasses, hworker⟩ := exists_runs_of_replay pairConfig
    (Leased pairConfig) claimingAgain
    (fun states => passes "m" states = [["twilio"], []] ∧
      ((states.head?.bind fun w => w.abs.controls[3]?).bind claims?) = some "m")
    (by decide +kernel)
  cases states with
  | nil => simp [passes] at hpasses
  | cons w past =>
      obtain ⟨q, hq, hclaims⟩ := Option.bind_eq_some_iff.mp hworker
      obtain ⟨_, hclaimed, horder⟩ := prompt_workers_keep_claims hruns
      obtain ⟨hhead, hrest⟩ := (horder "m").2.2 3 q hq hclaims
      rw [hpasses] at hhead
      rw [← Option.some.inj hhead] at hrest
      exact ⟨w, past, q, hruns, hpasses, hq, hclaims, hclaimed 3 q "m" hq hclaims,
        (List.cons.inj hrest).2⟩

end Runs

end SmsNotification.RecoveryLeases

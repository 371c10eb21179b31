import SmsNotification.DispatchClaims

namespace SmsNotification.ClaimExclusivity

open SmsNotification.ActorSystem
open SmsNotification.DispatchClaims
open SmsNotification.LabelledRuns
open SmsNotification.LifecycleEffects
open SmsNotification.MessageAggregate
open SmsNotification.NoDuplicateDelivery
open SmsNotification.Schema
open SmsNotification.Service
open SmsNotification.ServiceEffects
open SmsNotification.ServiceRuns
open SmsNotification.SmsLifecycleRepository
open SmsNotification.SmsStateMachine
open SmsNotification.Surroundings

/-- The step takes a message back from a worker that is still at its pass. -/
def overtakes (a : ServiceSnapshot) (l : ServiceLabel) : Bool :=
  ((committing? a l).bind recovering?).any fun m => a.controls.any fun q => claims? q = some m

/-- Steps of the delivering parts that take no message back from a worker. -/
def Patient (a : ServiceSnapshot) (l : ServiceLabel) : Prop :=
  Spawning (delivers ·) a l ∧ overtakes a l = false

instance Patient.decidable (a : ServiceSnapshot) (l : ServiceLabel) : Decidable (Patient a l) :=
  inferInstanceAs (Decidable (_ ∧ _))

/-- The invariant of the claims: each message is claimed by one worker at most,
and its status is that of a claimed one. -/
structure Exclusive (a : ServiceSnapshot) : Prop where
  calls : ∀ (i : Nat) q, a.controls[i]? = some q → isCall q → delivers q
  single : ∀ (i j : Nat) q q' m, a.controls[i]? = some q → a.controls[j]? = some q' →
    claims? q = some m → claims? q' = some m → i = j
  claimed : ∀ (i : Nat) q m, a.controls[i]? = some q → claims? q = some m →
    Claimed (aggregate a.store m)

section Preservation

variable {config : Config} {a a' : ServiceSnapshot}

theorem Exclusive.set (h : Exclusive a) {i : Nat} {q q' : Control} {s : Database} {x : Outside}
    (hq : a.controls[i]? = some q) (hcall : isCall q' = false)
    (hfree : ∀ m, claims? q' = some m → claims? q = some m ∨ ¬Claimed (aggregate a.store m))
    (hown : ∀ m, claims? q' = some m → Claimed (aggregate s m))
    (hothers : ∀ (j : Nat) q₂ m, i ≠ j → a.controls[j]? = some q₂ → claims? q₂ = some m →
      Claimed (aggregate s m)) : Exclusive ⟨s, a.controls.set i q', x⟩ := by
  have hnew : ∀ (j : Nat) q₂ m, i ≠ j → a.controls[j]? = some q₂ → claims? q₂ = some m →
      claims? q' ≠ some m := by
    intro j q₂ m hij hq₂ hclaims₂ hclaims
    obtain hsame | hunclaimed := hfree m hclaims
    · exact hij (h.single i j q q₂ m hq hq₂ hsame hclaims₂)
    · exact hunclaimed (h.claimed j q₂ m hq₂ hclaims₂)
  constructor
  · intro j q₂ hq₂ hcall₂
    rcases getElem?_set_eq_some hq₂ with ⟨_, rfl⟩ | ⟨_, hq₂⟩
    · simp [hcall] at hcall₂
    · exact h.calls j q₂ hq₂ hcall₂
  · intro j k q₁ q₂ m hq₁ hq₂ hclaims₁ hclaims₂
    rcases getElem?_set_eq_some hq₁ with ⟨hj, hq₁⟩ | ⟨hj, hq₁⟩ <;>
      rcases getElem?_set_eq_some hq₂ with ⟨hk, hq₂⟩ | ⟨hk, hq₂⟩
    · exact hj.symm.trans hk
    · exact absurd (hq₁ ▸ hclaims₁) (hnew k q₂ m hk hq₂ hclaims₂)
    · exact absurd (hq₂ ▸ hclaims₂) (hnew j q₁ m hj hq₁ hclaims₁)
    · exact h.single j k q₁ q₂ m hq₁ hq₂ hclaims₁ hclaims₂
  · intro j q₂ m hq₂ hclaims
    rcases getElem?_set_eq_some hq₂ with ⟨_, rfl⟩ | ⟨hij, hq₂⟩
    · exact hown m hclaims
    · exact hothers j q₂ m hij hq₂ hclaims

theorem Exclusive.keep (h : Exclusive a) {i : Nat} {q q' : Control} {x : Outside}
    (hq : a.controls[i]? = some q) (hcall : isCall q' = false)
    (hclaims : ∀ m, claims? q' = some m → claims? q = some m) :
    Exclusive ⟨a.store, a.controls.set i q', x⟩ :=
  h.set hq hcall (fun m hm => Or.inl (hclaims m hm))
    (fun m hm => h.claimed i q m hq (hclaims m hm))
    fun j q₂ m _ hq₂ hclaims₂ => h.claimed j q₂ m hq₂ hclaims₂

theorem Exclusive.claimed_of_ok (h : Exclusive a) {i : Nat} {q q' : Control} {s : Database}
    (hq : a.controls[i]? = some q) (hspec : controlSpec config q a.store (.ok q') s)
    (hrecovering : ∀ m, recovering? q = some m → ∀ (j : Nat) q₂, a.controls[j]? = some q₂ →
      claims? q₂ ≠ some m)
    {j : Nat} {q₂ : Control} {m : String} (hq₂ : a.controls[j]? = some q₂)
    (hclaims : claims? q₂ = some m) (hkept : i = j → isOver q' = false) :
    Claimed (aggregate s m) := by
  have hclaimed := h.claimed j q₂ m hq₂ hclaims
  obtain rfl | ⟨m', A', hpass, hupdate⟩ := passStep_of_controlSpec (h.calls i q hq) hspec
  · exact hclaimed
  · rw [hupdate]
    by_cases hm : m = m'
    · subst hm
      rw [Function.update_self]
      obtain hclaimed' | ⟨hown, hover⟩ :=
        hpass.claimed hclaimed fun hm => hrecovering m hm j q₂ hq₂ hclaims
      · exact hclaimed'
      · simp [hkept (h.single i j q q₂ m hq hq₂ hown hclaims)] at hover
    · rw [Function.update_of_ne hm]
      exact hclaimed

theorem isOver_eq_false_of_claims {q : Control} {m : String} (h : claims? q = some m) :
    isOver q = false := by
  cases q with
  | dispatch state => cases state <;> first | rfl | simp [claims?] at h
  | _ => rfl

theorem Exclusive.ok (h : Exclusive a) {i : Nat} {q q' : Control} {s : Database} {x : Outside}
    (hq : a.controls[i]? = some q) (hspec : controlSpec config q a.store (.ok q') s)
    (hrecovering : ∀ m, recovering? q = some m → ∀ (j : Nat) q₂, a.controls[j]? = some q₂ →
      claims? q₂ ≠ some m) : Exclusive ⟨s, a.controls.set i q', x⟩ := by
  refine h.set hq (family_of_ok hspec).2 (fun m hclaims => ?_) (fun m hclaims => ?_)
    fun j q₂ m hij hq₂ hclaims =>
      h.claimed_of_ok hq hspec hrecovering hq₂ hclaims fun hsame => absurd hsame hij
  · obtain hkept | ⟨task, begin, rfl, rfl, rfl⟩ := claims_of_ok hspec hclaims
    · exact Or.inl hkept
    · obtain ⟨_, row, _, _, A', hmoved, _⟩ := begun_of_loading hspec
      exact Or.inr (not_claimed_of_moved isClaimed_of_startable hmoved)
  · obtain hkept | ⟨task, begin, rfl, rfl, rfl⟩ := claims_of_ok hspec hclaims
    · exact h.claimed_of_ok hq hspec hrecovering hq hkept
        fun _ => isOver_eq_false_of_claims hclaims
    · obtain ⟨_, row, _, _, A', hmoved, hupdate⟩ := begun_of_loading hspec
      rw [hupdate, Function.update_self]
      exact claimed_of_moved rfl hmoved

theorem Exclusive.lost (h : Exclusive a) {i : Nat} {q q' : Control} {t : Sql Control}
    {onError : Failure → Control} {e : Failure} {s : Database} {x : Outside}
    (hq : a.controls[i]? = some q) (hcode : code config q = .tx t onError)
    (hspec : controlSpec config q a.store (.ok q') s)
    (hrecovering : ∀ m, recovering? q = some m → ∀ (j : Nat) q₂, a.controls[j]? = some q₂ →
      claims? q₂ ≠ some m) : Exclusive ⟨s, a.controls.set i (onError e), x⟩ := by
  have hnone := claims_of_error hcode e
  refine h.set hq (family_of_error hcode e).2 (by simp [hnone]) (by simp [hnone])
    fun j q₂ m hij hq₂ hclaims =>
      h.claimed_of_ok hq hspec hrecovering hq₂ hclaims fun hsame => absurd hsame hij

theorem claims_of_answer {q q' : Control} {s : Database} {m : String}
    (hspec : controlSpec config q s (.ok q') s) (hclaims : claims? q' = some m) :
    claims? q = some m := by
  obtain hkept | ⟨task, begin, rfl, rfl, rfl⟩ := claims_of_ok hspec hclaims
  · exact hkept
  · obtain ⟨_, row, _, _, A', hmoved, hupdate⟩ := begun_of_loading hspec
    have hsame : A' = aggregate s task.messageId := by
      have hself := congrFun hupdate task.messageId
      rwa [Function.update_self, eq_comm] at hself
    exact absurd (hsame ▸ claimed_of_moved rfl hmoved)
      (not_claimed_of_moved isClaimed_of_startable hmoved)

theorem claims_of_delivers {q : Control} (h : delivers q) : claims? q = none := by
  unfold delivers at h
  split at h <;> first | rfl | simp at h

theorem Exclusive.spawn (h : Exclusive a) {q : Control} (hq : delivers q) :
    Exclusive { a with controls := a.controls ++ [q] } := by
  have hold : ∀ (i : Nat) q' m, (a.controls ++ [q])[i]? = some q' → claims? q' = some m →
      a.controls[i]? = some q' := by
    intro i q' m hq' hclaims
    rcases getElem?_concat_eq_some hq' with hq' | rfl
    · exact hq'
    · simp [claims_of_delivers hq] at hclaims
  constructor
  · intro i q' hq' hcall
    rcases getElem?_concat_eq_some hq' with hq' | rfl
    · exact h.calls i q' hq' hcall
    · exact hq
  · exact fun i j q₁ q₂ m hq₁ hq₂ hclaims₁ hclaims₂ =>
      h.single i j q₁ q₂ m (hold i q₁ m hq₁ hclaims₁) (hold j q₂ m hq₂ hclaims₂) hclaims₁ hclaims₂
  · exact fun i q' m hq' hclaims => h.claimed i q' m (hold i q' m hq' hclaims) hclaims

theorem Exclusive.step (h : Exclusive a) {l : ServiceLabel} (hl : Patient a l)
    (hstep : ServiceStep config a l a') : Exclusive a' := by
  have hpatient : ∀ {i : Nat} {q : Control}, a.controls[i]? = some q →
      (l = .commit i ∨ l = .lost i) → ∀ m, recovering? q = some m → ∀ (j : Nat) q₂,
        a.controls[j]? = some q₂ → claims? q₂ ≠ some m := by
    intro i q hq hlabel m hm j q₂ hq₂ hclaims
    have hovertakes := hl.2
    have hcommitting : committing? a l = some q := by
      rcases hlabel with rfl | rfl <;> exact hq
    rw [overtakes, hcommitting, Option.bind_some, hm, Option.any_some, List.any_eq_false]
      at hovertakes
    exact hovertakes q₂ (List.mem_of_getElem? hq₂) (decide_eq_true hclaims)
  cases hstep with
  | spawn q => exact h.spawn (hl.1 q rfl)
  | answer hq _ hspec => exact h.keep hq (family_of_ok hspec).2 fun _ => claims_of_answer hspec
  | error hq hcode _ =>
      exact h.keep hq (family_of_error hcode _).2 (by simp [claims_of_error hcode])
  | act hq hcode hact =>
      have hacts := acts_of_code hcode hact
      exact h.keep hq hacts.family.2 fun m => claims_of_acts hacts
  | commit hq _ hspec => exact h.ok hq hspec (hpatient hq (Or.inl rfl))
  | lost hq hcode hspec => exact h.lost hq hcode hspec (hpatient hq (Or.inr rfl))
  | fault hq hcode =>
      exact h.keep hq (family_of_error hcode _).2 (by simp [claims_of_error hcode])
  | crash hq _ =>
      exact h.keep hq (family_crash _).2 fun m hm => by simp [service, claims_of_crash] at hm
  | env _ => exact ⟨h.calls, h.single, h.claimed⟩

end Preservation

section Runs

variable {config : Config} {w w₁ v v' : ServiceWorld} {past : List ServiceWorld} {m : String}

theorem lifecycle_of_patient {a : ServiceSnapshot} {q : Control} (h : Patient a (.spawn q)) :
    Lifecycle q :=
  (holds_nothing_of_delivers (h.1 q rfl)).1

theorem exclusive_of_reachable {a : ServiceSnapshot}
    (h : Reachable (ServiceStep config) Patient Initial a) : Exclusive a := by
  refine Reachable.invariant (fun a hinit => ?_) (fun a l a' _ hexclusive hl hstep =>
    hexclusive.step hl hstep) h
  constructor <;> simp [hinit.controls]

theorem exclusive_of_reaches (h : Reaches config Patient Initial w) : Exclusive w.abs :=
  exclusive_of_reachable (h.atomic fun _ _ => lifecycle_of_patient).2

/-- The message is begun. -/
def starts (A A' : Aggregate) : Bool :=
  A.status.any beginProcessingFrom.contains && A'.status = some .processing

/-- Some worker begins the message in the step. -/
def begins (m : String) (w w' : ServiceWorld) : Bool :=
  starts (aggregate w.store m) (aggregate w'.store m)

/-- The message that a worker is about to begin. -/
def beginning? : Control → Option String
  | .dispatch (.beginning task) => some task.messageId
  | _ => none

/-- The worker has claimed the message in the step. -/
def Begins (i : Nat) (m : String) (w w' : ServiceWorld) : Prop :=
  w.abs.controls[i]?.bind beginning? = some m ∧ w'.abs.controls[i]?.bind claims? = some m

instance Begins.decidable (i : Nat) (m : String) (w w' : ServiceWorld) :
    Decidable (Begins i m w w') :=
  inferInstanceAs (Decidable (_ ∧ _))

theorem patient_of_begins {i : Nat} (h : Begins i m w w₁) : Patient w.abs (.commit i) := by
  refine ⟨fun q hq => (by cases hq), ?_⟩
  obtain ⟨q, hq, hbeginning⟩ := Option.bind_eq_some_iff.mp h.1
  unfold beginning? at hbeginning
  split at hbeginning
  · rw [overtakes, committing?, hq]
    rfl
  · simp at hbeginning

/-- The message that a worker reserves an attempt of, reschedules or gives up next. -/
def advancing? : Control → Option String
  | .dispatch (.reserving pass _ _) => some pass.task.messageId
  | .dispatch (.schedulingRetry pass _) => some pass.task.messageId
  | .dispatch (.markingFatal pass _ _) => some pass.task.messageId
  | .dispatch (.markingMissing task) => some task.messageId
  | _ => none

/-- The worker's `reserveProviderAttempt`, `scheduleRetry` or `markFatalFailure` of
the message commits in the step. -/
def Advances (config : Config) (i : Nat) (m : String) (w w' : ServiceWorld) : Prop :=
  w.abs.controls[i]?.bind advancing? = some m ∧
    ((service config).step w (.commit i) = some w' ∨ (service config).step w (.lost i) = some w')

theorem not_startable_of_isClaimed {status : SmsStatus} (h : isClaimed status) :
    beginProcessingFrom.contains status = false := by
  cases status <;> simp_all [beginProcessingFrom, isClaimed]

theorem starts_eq_false {A A' : Aggregate} (h : Claimed A) : starts A A' = false := by
  obtain ⟨row, hrow, hstatus⟩ := status_of_claimed h
  rw [starts, Aggregate.status, hrow, Option.map_some, Option.any_some,
    not_startable_of_isClaimed hstatus, Bool.false_and]

theorem claims_of_advancing {q : Control} (h : advancing? q = some m) : claims? q = some m := by
  unfold advancing? at h
  split at h <;> first | exact h | simp at h

/-- The steps of a run from one world. -/
abbrev Since (config : Config) (ok : ServiceSnapshot → ServiceLabel → Prop) (w : ServiceWorld) :
    List ServiceWorld → Prop :=
  Run (fun w l w' => (service config).step w l = some w') (fun w l => ok w.abs l) (· = w)

/-- The worker is at the pass it has begun, and nobody has begun the message since;
or its pass is over. -/
def AtPass (i : Nat) (m : String) (v : ServiceWorld) (past : List ServiceWorld) : Prop :=
  ∃ q, v.abs.controls[i]? = some q ∧
    ((claims? q = some m ∧ occurrences (begins m) (v :: past) = 0) ∨ isOver q)

theorem atPass_of_since {i : Nat} (h : Reaches config Patient Initial w)
    (hclaims : ∃ q, w.abs.controls[i]? = some q ∧ claims? q = some m)
    (hsince : Since config Patient w (v :: past)) : AtPass i m v past := by
  induction past generalizing v with
  | nil =>
      cases hsince with
      | start h0 =>
          obtain ⟨q, hq, hclaims⟩ := hclaims
          exact ⟨q, h0 ▸ hq, Or.inl ⟨hclaims, rfl⟩⟩
  | cons u past ih =>
      cases hsince with
      | next l hprev hl hstep =>
          obtain ⟨q, hq, hpass⟩ := ih hprev
          have hu : Reaches config Patient Initial u :=
            h.later (fun _ _ hl => hl) (hprev.reachable u List.mem_cons_self)
          have hmoves : ∃ q', v.abs.controls[i]? = some q' ∧ Moves config u.abs v.abs q q' := by
            obtain hsame | hatomic :=
              serviceStep_of_step (fun _ _ => lifecycle_of_patient) hu hl hstep
            · exact ⟨q, hsame ▸ hq, .stays rfl⟩
            · exact exists_control_of_step hatomic hq
          obtain ⟨q', hq', hmoves⟩ := hmoves
          refine ⟨q', hq', ?_⟩
          rcases hpass with ⟨hclaims, hcount⟩ | hover
          · refine (hmoves.over hclaims).imp_left fun hkept => ⟨hkept, ?_⟩
            -- a message that the worker is at cannot be begun
            have hnot : begins m u v = false :=
              starts_eq_false ((exclusive_of_reaches hu).claimed i q m hq hclaims)
            rw [occurrences, hcount, hnot]
            rfl
          · exact Or.inr (hmoves.over_of_over hover)

/-- Claim exclusivity: in a run in which no sweep takes a message back from a
worker that is still at its pass, nobody begins the message between a worker's
claim and what the worker does under it. -/
theorem claim_exclusivity {i : Nat} {l : ServiceLabel} (h : Reaches config Patient Initial w)
    (hl : Patient w.abs l) (hstep : (service config).step w l = some w₁) (hbegins : Begins i m w w₁)
    (hsince : Since config Patient w₁ (v :: past)) (hadvances : Advances config i m v v') :
    occurrences (begins m) (v :: past) = 0 := by
  obtain ⟨q, hq, hclaims⟩ := Option.bind_eq_some_iff.mp hbegins.2
  obtain ⟨q', hq', hadvancing⟩ := Option.bind_eq_some_iff.mp hadvances.1
  have hclaims' := claims_of_advancing hadvancing
  obtain ⟨q₂, hq₂, ⟨_, hcount⟩ | hover⟩ :=
    atPass_of_since (Reachable.next l h hl hstep) ⟨q, hq, hclaims⟩ hsince
  · exact hcount
  · obtain rfl := Option.some.inj (hq₂.symm.trans hq')
    simp [isOver_eq_false_of_claims hclaims'] at hover

end Runs

/-- A worker on a job for the message `m`. -/
def sampleWorker : Control :=
  .dispatch (.beginning ⟨sampleJob, "m"⟩)

/-- The message `m` is created, and worker 1 is about to claim it. -/
def claiming : List ServiceLabel :=
  creation ++ .spawn sampleWorker :: statements 1 2 (sampleChoice "" 1)

/-- A sweep takes the message back from worker 1, which has its providers before it,
and worker 2 claims it. -/
def overtaking : List ServiceLabel :=
  statements 1 1 (sampleChoice "" 1) ++ .spawn (.sweep (.selecting 2 100)) ::
    statements 2 3 (sampleChoice "r" 300002) ++ .commit 2 :: .spawn sampleWorker ::
    statements 3 2 (sampleChoice "" 300003) ++ .commit 3 :: statements 1 2 (sampleChoice "a" 300004)

/-- A message that has become stale is recovered and claimed again, and the first
worker then reserves an attempt of it. -/
theorem claim_overtaken :
    ∃ w w₁ v v' past, Reaches sampleConfig (Spawning (delivers ·)) Initial w ∧
      (service sampleConfig).step w (.commit 1) = some w₁ ∧ Begins 1 "m" w w₁ ∧
      Since sampleConfig (Spawning (delivers ·)) w₁ (v :: past) ∧
      Advances sampleConfig 1 "m" v v' ∧
      (aggregate v.store "m").status = some .processing ∧
      (aggregate v'.store "m").status = some .awaitingProviderResult ∧
      occurrences (begins "m") (v :: past) = 1 := by
  obtain ⟨w, hw, hwitness⟩ := exists_reaches_of_exec sampleConfig (Spawning (delivers ·)) claiming
    (fun w => ((service sampleConfig).step w (.commit 1)).any fun w₁ => Begins 1 "m" w w₁ ∧
      (replay (service sampleConfig).step (fun w l => Spawning (delivers ·) w.abs l) [w₁]
        overtaking).any fun states => states.head?.any fun v =>
          v.abs.controls[1]?.bind advancing? = some "m" ∧
          (aggregate v.store "m").status = some .processing ∧ occurrences (begins "m") states = 1 ∧
          ((service sampleConfig).step v (.commit 1)).any fun v' =>
            (aggregate v'.store "m").status = some .awaitingProviderResult)
    (by decide +kernel)
  obtain ⟨w₁, hw₁, hrest⟩ := (Option.any_eq_true _ _).mp hwitness
  obtain ⟨hbegins, hrest⟩ := of_decide_eq_true hrest
  obtain ⟨states, hstates, hrest⟩ := (Option.any_eq_true _ _).mp hrest
  have hsince : Since sampleConfig (Spawning (delivers ·)) w₁ states :=
    run_of_replay (Run.start rfl) hstates
  cases states with
  | nil => simp at hrest
  | cons v past =>
      obtain ⟨hadvancing, hclaimed, hcount, hrest⟩ := of_decide_eq_true hrest
      obtain ⟨v', hv', hawaiting⟩ := (Option.any_eq_true _ _).mp hrest
      exact ⟨w, w₁, v, v', past, hw, hw₁, hbegins, hsince, ⟨hadvancing, Or.inl hv'⟩, hclaimed,
        of_decide_eq_true hawaiting, hcount⟩

/-- A worker that reserves an attempt after a sweep that has found nothing stale. -/
theorem claim_exclusivity_reserved :
    ∃ w w₁ v v' past, Reaches sampleConfig Patient Initial w ∧
      (service sampleConfig).step w (.commit 1) = some w₁ ∧ Begins 1 "m" w w₁ ∧
      Since sampleConfig Patient w₁ (v :: past) ∧ Advances sampleConfig 1 "m" v v' ∧
      occurrences (begins "m") (v :: past) = 0 := by
  obtain ⟨w, hw, hwitness⟩ := exists_reaches_of_exec sampleConfig Patient claiming
    (fun w => ((service sampleConfig).step w (.commit 1)).any fun w₁ => Begins 1 "m" w w₁ ∧
      (replay (service sampleConfig).step (fun w l => Patient w.abs l) [w₁]
        (.spawn (.sweep (.selecting 1 100)) :: statements 2 1 (sampleChoice "" 2) ++
          statements 1 1 (sampleChoice "" 2) ++ statements 1 2 (sampleChoice "a" 3))).any
        fun states => states.head?.any fun v =>
          v.abs.controls[1]?.bind advancing? = some "m" ∧
          ((service sampleConfig).step v (.commit 1)).isSome)
    (by decide +kernel)
  obtain ⟨w₁, hw₁, hrest⟩ := (Option.any_eq_true _ _).mp hwitness
  obtain ⟨hbegins, hrest⟩ := of_decide_eq_true hrest
  obtain ⟨states, hstates, hrest⟩ := (Option.any_eq_true _ _).mp hrest
  have hsince : Since sampleConfig Patient w₁ states := run_of_replay (Run.start rfl) hstates
  cases states with
  | nil => simp at hrest
  | cons v past =>
      obtain ⟨hadvancing, hcommit⟩ := of_decide_eq_true hrest
      obtain ⟨v', hv'⟩ := Option.isSome_iff_exists.mp hcommit
      have hadvances : Advances sampleConfig 1 "m" v v' := ⟨hadvancing, Or.inl hv'⟩
      have hl : Patient w.abs (.commit 1) := patient_of_begins hbegins
      exact ⟨w, w₁, v, v', past, hw, hw₁, hbegins, hsince, hadvances,
        claim_exclusivity hw hl hw₁ hbegins hsince hadvances⟩

end SmsNotification.ClaimExclusivity

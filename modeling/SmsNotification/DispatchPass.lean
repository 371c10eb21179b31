import SmsNotification.PassStages

namespace SmsNotification.DispatchPass

open SmsNotification.ActorSystem
open SmsNotification.KeyedStore
open SmsNotification.LabelledRuns
open SmsNotification.LostRaces
open SmsNotification.MessageAggregate
open SmsNotification.PassLength
open SmsNotification.PassResults
open SmsNotification.PassStages
open SmsNotification.Schema
open SmsNotification.Service
open SmsNotification.ServiceEffects
open SmsNotification.ServiceRuns
open SmsNotification.SmsProcessor hiding Config
open SmsNotification.SmsStateMachine
open SmsNotification.StepBudgets

/-- The worker that has been handed the job. -/
def starts (task : Task) : Control → Bool
  | .dispatch (.beginning other) => other.job = task.job && other.messageId = task.messageId
  | _ => false

theorem eq_of_starts {task : Task} {q : Control} (h : starts task q) :
    q = .dispatch (.beginning task) := by
  unfold starts at h
  split at h
  · simp only [Bool.and_eq_true, decide_eq_true_eq] at h
    obtain ⟨job, messageId⟩ := task
    obtain ⟨rfl, rfl⟩ := h
    rfl
  · cases h

variable {config : Config} {d : Assignment config.processor} {w w' : ServiceWorld}
  {a a' : ServiceSnapshot} {l : ServiceLabel} {state : SmsProcessor.State}

/-- Nobody but the worker of the assignment is started, and the providers answer it as
they are assigned. -/
def alone (d : Assignment config.processor) (a : ServiceSnapshot) : ServiceLabel → Bool
  | .spawn q => a.controls.isEmpty && starts d.task q
  | .run _ c => a.controls[0]?.all (answers d.sends c)
  | .env c => a.controls[0]?.all (allows d.sends c)
  | _ => true

/-- A step with the worker alone in which nothing that it calls fails. -/
def solo (d : Assignment config.processor) (a : ServiceSnapshot) (l : ServiceLabel) : Bool :=
  healthy 0 a l && alone d a l

/-- Nothing has been started in the database of the assignment. -/
def Waiting (d : Assignment config.processor) (a : ServiceSnapshot) : Prop :=
  a.controls = [] ∧ a.store = d.store

/-- The worlds of the runs of the worker alone. -/
abbrev Solo (d : Assignment config.processor) : ServiceWorld → Prop :=
  Reaches config (fun a l => solo d a l) (Waiting d)

section Stages

/-- The worker is at a stage of its pass, and has left all other messages as they were. -/
structure Staged (d : Assignment config.processor) (a : ServiceSnapshot)
    (state : SmsProcessor.State) : Prop where
  controls : a.controls = [.dispatch state]
  stage : Stage d (aggregate a.store d.task.messageId) a.ext state
  others : ∀ m, m ≠ d.task.messageId → aggregate a.store m = aggregate d.store m

/-- The worker has not been started, or is at a stage of its pass. -/
def Progress (d : Assignment config.processor) (a : ServiceSnapshot) : Prop :=
  Waiting d a ∨ ∃ state, Staged d a state

theorem Progress.staged (h : Progress d a) {i : Nat} {q : Control}
    (hq : a.controls[i]? = some q) : i = 0 ∧ ∃ state, q = .dispatch state ∧ Staged d a state := by
  obtain ⟨hnone, _⟩ | ⟨state, hstaged⟩ := h
  · simp [hnone] at hq
  · rw [hstaged.controls, List.getElem?_singleton] at hq
    split at hq
    · exact ⟨‹i = 0›, state, (Option.some.inj hq).symm, hstaged⟩
    · cases hq

theorem Staged.advances {q : Control} {s : Database} (h : Staged d a state)
    (hadvances : Advances d a.store a.ext q s) :
    Progress d { a with store := s, controls := a.controls.set 0 q } := by
  obtain ⟨⟨state', rfl, hstage⟩, hothers⟩ := hadvances
  exact Or.inr ⟨state', by simp [h.controls], hstage,
    fun m hm => (hothers m hm).trans (h.others m hm)⟩

/-- What a worker that is alone can do: start, let a transaction answer, or call the
outside, which moves on by itself. -/
inductive SoloStep (d : Assignment config.processor) (a : ServiceSnapshot) :
    ServiceSnapshot → Prop where
  | started : Waiting d a → SoloStep d a { a with controls := [.dispatch (.beginning d.task)] }
  | answered {state : SmsProcessor.State} {q : Control} {s : Database} : Staged d a state →
      passSpec config (.dispatch state) a.store (.ok q) s →
      SoloStep d a { a with store := s, controls := a.controls.set 0 q }
  | acted {state : SmsProcessor.State} {c : Choice} {q : Control} {o : Surroundings.Outside} :
      Staged d a state → Acts config c a.ext (.dispatch state) o q →
      serves c a.ext (.dispatch state) → answers d.sends c (.dispatch state) →
      SoloStep d a { a with controls := a.controls.set 0 q, ext := o }
  | moved {c : Choice} {o : Surroundings.Outside} : a.ext.move c = some o →
      (∀ state, Staged d a state → allows d.sends c (.dispatch state)) →
      SoloStep d a { a with ext := o }

theorem soloStep_of_step (h : Progress d a) (hl : solo d a l)
    (hstep : Atomic (service config) (passSpec config) a l a') : SoloStep d a a' := by
  rw [solo, Bool.and_eq_true] at hl
  obtain ⟨hhealthy, hsolo⟩ := hl
  cases hstep with
  | spawn q =>
      simp only [alone, Bool.and_eq_true, List.isEmpty_iff] at hsolo
      obtain rfl := eq_of_starts hsolo.2
      obtain hwaiting | ⟨state, hstaged⟩ := h
      · simpa [hsolo.1] using SoloStep.started hwaiting
      · simp [hstaged.controls] at hsolo
  | answer hq hcode hspec =>
      obtain ⟨rfl, state, rfl, hstaged⟩ := h.staged hq
      exact .answered hstaged hspec
  | error hq hcode hspec =>
      obtain ⟨rfl, state, rfl, hstaged⟩ := h.staged hq
      exact (no_error hstaged.stage hspec.1 hspec.2).elim
  | commit hq hcode hspec =>
      obtain ⟨rfl, state, rfl, hstaged⟩ := h.staged hq
      exact .answered hstaged hspec
  | act hq hcode hact =>
      obtain ⟨rfl, state, rfl, hstaged⟩ := h.staged hq
      simp only [healthy, hq, Option.all_some, ne_eq, not_true_eq_false, decide_false,
        Bool.false_or] at hhealthy
      simp only [alone, hq, Option.all_some] at hsolo
      exact .acted hstaged (acts_of_code hcode hact) hhealthy hsolo
  | lost hq _ _ =>
      obtain ⟨rfl, _⟩ := h.staged hq
      simp [healthy] at hhealthy
  | fault hq _ =>
      obtain ⟨rfl, _⟩ := h.staged hq
      simp [healthy] at hhealthy
  | crash hq _ =>
      obtain ⟨rfl, _⟩ := h.staged hq
      simp [healthy] at hhealthy
  | env hmove =>
      refine .moved hmove fun state hstaged => ?_
      simpa [alone, hstaged.controls] using hsolo

theorem progress_of_step (h : Progress d a) (hl : solo d a l)
    (hstep : Atomic (service config) (passSpec config) a l a') : Progress d a' := by
  cases soloStep_of_step h hl hstep with
  | started hwaiting =>
      refine Or.inr ⟨.beginning d.task, rfl, .beginning ?_, fun m _ => ?_⟩
      · rw [Assignment.before, ← hwaiting.2]
      · rw [← hwaiting.2]
  | answered hstaged hspec =>
      exact hstaged.advances (advances_of_ok hstaged.stage hspec.1 hspec.2)
  | acted hstaged hacts hserves hanswers =>
      obtain ⟨state', rfl, hstage⟩ := stage_of_acts hstaged.stage hacts hserves hanswers
      exact Or.inr ⟨state', by simp [hstaged.controls], hstage, hstaged.others⟩
  | moved hmove hallows =>
      obtain hnone | ⟨state, hstaged⟩ := h
      · exact Or.inl hnone
      · exact Or.inr ⟨state, hstaged.controls,
          stage_of_move hstaged.stage hmove (hallows state hstaged), hstaged.others⟩

theorem family_of_solo {q : Control} (hl : solo d a (.spawn q)) : family q = .dispatch := by
  simp only [solo, alone, Bool.and_eq_true] at hl
  rw [eq_of_starts hl.2.2]
  rfl

theorem progress_of_solo (h : Solo d w) : Progress d w.abs := by
  obtain ⟨_, hreach⟩ := h.simulated (sound_pass config) fun _ _ => family_of_solo
  exact Reachable.invariant (fun a (ha : Waiting d a) => (Or.inl ha : Progress d a))
    (fun a l a' _ h hl hstep => progress_of_step h hl hstep) hreach

theorem staged_of_solo (h : Solo d w) (hat : At 0 state w) : Staged d w.abs state := by
  obtain ⟨_, state', hstate, hstaged⟩ := (progress_of_solo h).staged hat
  obtain rfl := Control.dispatch.inj hstate
  exact hstaged

theorem Staged.expected {m : String} {status : SmsStatus} (h : Staged d a state)
    (hexpected : expected? state = some (m, status)) :
    (aggregate a.store m).status = some status := by
  have hmessage : ∀ {A : Aggregate} {row : SmsMessage} {status : SmsStatus},
      A.message = some row → row.status = status → A.status = some status := by
    intro A row status hrow hstatus
    rw [Aggregate.status, hrow, Option.map_some, hstatus]
  obtain ⟨_, hstage, _⟩ := h
  cases hstage with
  | loading _ hclaimed =>
      obtain ⟨rfl, rfl⟩ := Prod.mk.inj (Option.some.inj hexpected)
      rw [hclaimed]
      rfl
  | reserving halong hstanding | schedulingRetry halong hstanding _
    | markingFatal halong hstanding _ =>
      obtain ⟨rfl, rfl⟩ := Prod.mk.inj (Option.some.inj hexpected)
      obtain ⟨row, hrow, hstatus, _⟩ := hstanding.message
      rw [halong.task]
      exact hmessage hrow hstatus
  | acquiring hduring | calling hduring | awaiting hduring _ | finalizing hduring =>
      obtain ⟨rfl, rfl⟩ := Prod.mk.inj (Option.some.inj hexpected)
      obtain ⟨row, hrow, hstatus, _⟩ := hduring.holding.message
      rw [hduring.along.task]
      exact hmessage hrow hstatus
  | _ => simp [expected?] at hexpected

theorem benign_of_solo (h : Solo d w) (hl : solo d w.abs l) : Benign config 0 w l where
  healthy := by
    rw [solo, Bool.and_eq_true] at hl
    exact hl.1
  loaded task begin _ hat := by
    obtain ⟨_, hstage, _⟩ := staged_of_solo h hat
    cases hstage with
    | loading _ hclaimed =>
        exact ⟨_, congrArg Aggregate.message hclaimed, d.decrypts⟩
  finalized hold input _ hat := by
    have hstaged := staged_of_solo h hat
    refine ⟨hstaged.expected rfl, ?_⟩
    obtain ⟨_, hstage, _⟩ := hstaged
    cases hstage with
    | finalizing hduring =>
        rw [hduring.along.task]
        exact hduring.attempt
  decided state m _ hat hdeciding _ := by
    have hstaged := staged_of_solo h hat
    cases state with
    | schedulingRetry | markingFatal =>
        obtain rfl := Option.some.inj hdeciding
        exact hstaged.expected rfl
    | _ => simp [deciding?, decided?] at hdeciding
  kept state m status hat hexpected _ _ _ := (staged_of_solo h hat).expected hexpected

theorem benignly_of_solo (h : Solo d w) : Benignly config 0 w := by
  induction h with
  | start h0 => exact Reachable.start h0.1
  | next l hprev hl hstep ih => exact Reachable.next l ih (benign_of_solo hprev hl) hstep

end Stages

section Progress

variable {x : ServiceActor}

theorem solo_of_own (hat : At 0 state w) (hown : Own 0 l)
    (hserves : ∀ c, serves c w.ext (.dispatch state))
    (hanswers : ∀ c, answers d.sends c (.dispatch state)) : solo d w.abs l := by
  rcases hown with rfl | ⟨c, rfl⟩
  · rfl
  · have hext : w.abs.ext = w.ext := rfl
    rw [solo, healthy, alone, hat, Option.all_some, Option.all_some, hext, hserves, hanswers]
    rfl

theorem exists_solo_step (h : Solo d w) (ha : w.actors[0]? = some x)
    (hcontrol : x.control = .dispatch state) (hended : isEnded state = false) :
    ∃ l w', Own 0 l ∧ solo d w.abs l ∧ (service config).step w l = some w' := by
  have hat : At 0 state w := by rw [At, abs_control ha, hcontrol]
  obtain ⟨hcontrols, hstage, _⟩ := staged_of_solo h hat
  have hothers : ∀ (j : Nat) b, w.actors[j]? = some b → j ≠ 0 → b.pending = [] := by
    intro j b hb hj
    have hnone := abs_control hb
    rw [hcontrols, List.getElem?_singleton, if_neg hj] at hnone
    cases hnone
  have hleft := left_of_benignly (benignly_of_solo h) x state ha hcontrol
  have hown : isWaiting state = false → (∀ c, serves c w.ext (.dispatch state)) →
      (∀ c, answers d.sends c (.dispatch state)) →
      ∃ l w', Own 0 l ∧ solo d w.abs l ∧ (service config).step w l = some w' := by
    intro hwaiting hserves hanswers
    obtain ⟨l, hl, hsome⟩ := exists_own_step hleft ha hcontrol hended hwaiting hothers
    obtain ⟨w', hstep⟩ := Option.isSome_iff_exists.mp hsome
    exact ⟨l, w', hl, solo_of_own hat hl hserves hanswers, hstep⟩
  have hact : ∀ act c, code config (.dispatch state) = .ext act → (act c w.ext).isSome →
      serves c w.ext (.dispatch state) → answers d.sends c (.dispatch state) →
      ∃ l w', Own 0 l ∧ solo d w.abs l ∧ (service config).step w l = some w' := by
    intro act c hcode hact hserves hanswers
    obtain ⟨⟨o, q⟩, hact⟩ := Option.isSome_iff_exists.mp hact
    have hstep : ((service config).step w (.run 0 c)).isSome := by
      simp only [Protocol.step, ha, hcontrol, hact, Option.isSome_some,
        show (service config).code (.dispatch state) = .ext act from hcode]
    obtain ⟨w', hstep⟩ := Option.isSome_iff_exists.mp hstep
    refine ⟨_, w', Or.inr ⟨c, rfl⟩, ?_, hstep⟩
    have hext : w.abs.ext = w.ext := rfl
    rw [solo, healthy, alone, hat, Option.all_some, Option.all_some, hext, hserves, hanswers]
    rfl
  cases hstage with
  | beginning | loading | reserving | calling | finalizing | schedulingRetry | markingFatal
    | finishing => exact hown rfl (fun _ => rfl) fun _ => rfl
  | acquiring hduring => exact hact _ (sampleChoice "" 0) rfl rfl rfl rfl
  | @awaiting past todo send hold call hduring hopen =>
      obtain ⟨o', hanswer⟩ := answerCall_of_open hopen
      refine hact _ { sampleChoice "" 0 with reply := some send.result } rfl ?_ rfl ?_
      · rw [Option.isSome_map, show w.ext.answerCall call (some send.result) = _ from hanswer]
        rfl
      · simp [answers, hduring.assigned]
  | finished _ => simp [isEnded] at hended

/-- The pass comes to its end. -/
theorem exists_finished (h : Solo d w) (hat : At 0 state w) :
    ∃ w' outcome, Later config (fun a l => solo d a l) w w' ∧ At 0 (.finished outcome) w' := by
  have hgoes : ∀ (w : ServiceWorld) x, (Solo d w ∧ ∃ state, At 0 state w) →
      w.actors[0]? = some x → (service config).code x.control ≠ .halt →
      ∃ l w', Own 0 l ∧ solo d w.abs l ∧ (service config).step w l = some w' ∧
        Solo d w' ∧ ∃ state, At 0 state w' := by
    rintro w x ⟨hw, state, hat⟩ hx hcode
    have hcontrol := Option.some.inj ((abs_control hx).symm.trans hat)
    have hended : isEnded state = false := by
      rw [hcontrol] at hcode
      cases state <;> first | rfl | exact absurd rfl hcode
    obtain ⟨l, w', hown, hl, hstep⟩ := exists_solo_step hw hx hcontrol hended
    have hw' : Solo d w' := Reachable.next l hw hl hstep
    obtain ⟨x', hx', _⟩ := (moves_of_step hstep).turn hx
    obtain ⟨_, state', hstate', _⟩ := (progress_of_solo hw').staged (abs_control hx')
    exact ⟨l, w', hown, hl, hstep, hw', state', by rw [At, abs_control hx', hstate']⟩
  obtain ⟨x, hx, hcontrol⟩ := exists_actor_of_abs hat
  have hleft := left_of_benignly (benignly_of_solo h) x state hx hcontrol
  obtain ⟨w', x', hlater, ⟨hw', state', hat'⟩, hx', hhalt⟩ :=
    exists_halted (ranked_dispatch config) hgoes ⟨h, state, hat⟩ hx hleft
  have hcontrol' := Option.some.inj ((abs_control hx').symm.trans hat')
  rw [hcontrol'] at hhalt
  obtain ⟨_, hstage, _⟩ := staged_of_solo hw' hat'
  cases hstage with
  | @finished outcome _ => exact ⟨w', outcome, hlater, hat'⟩
  | _ => cases hhalt

/-- One dispatch pass, end to end. A worker that is alone with a job for a message that can
be started never rejects, takes five steps at most for each await before it, and comes to
the end of its pass; what it answers then, and what it leaves of its message, is told by the
results of the providers, and no other message has changed. -/
theorem dispatch_pass (h : Solo d w) (hat : At 0 state w) :
    rejects state = false ∧
    (∀ outcome, state = .finished outcome →
      d.Result outcome (aggregate w.store d.task.messageId) ∧
      ∀ m, m ≠ d.task.messageId → aggregate w.store m = aggregate d.store m) ∧
    (∀ k w', Counted (fun w l w' => (service config).step w l = some w') (fun _ _ => True)
      (Own 0) w k w' → k ≤ awaitsLeft config.processor state * 5) ∧
    ∃ w' outcome, Later config (fun a l => solo d a l) w w' ∧ At 0 (.finished outcome) w' := by
  obtain ⟨x, hx, hcontrol⟩ := exists_actor_of_abs hat
  have hleft := left_of_benignly (benignly_of_solo h) x state hx hcontrol
  obtain ⟨_, hstage, hothers⟩ := staged_of_solo h hat
  refine ⟨?_, ?_, fun k w' hrun => ?_, exists_finished h hat⟩
  · cases hstage <;> rfl
  · rintro outcome rfl
    cases hstage with
    | finished hresult => exact ⟨hresult, hothers⟩
  · obtain ⟨_, n', hle, _⟩ := counted_le (ranked_dispatch config) hx hleft hrun
    exact Nat.le_trans (Nat.le_add_right k n') hle

end Progress

/-- A service with two providers. -/
def pairConfig : Config :=
  ⟨.read none none ["twilio", "bird"] some, .read none none none⟩

/-- The first provider is busy, and the second accepts the message. -/
def pairAssignment : Assignment pairConfig.processor where
  task := ⟨sampleJob, "m"⟩
  store := (Store.empty Row.key).apply
    (.put (.message ((sampleCall "k" 0).message (sampleChoice "m" 0))))
  row := (sampleCall "k" 0).message (sampleChoice "m" 0)
  sends :=
    [⟨"twilio", ⟨false, none, some "busy", true, none⟩⟩,
      ⟨"bird", ⟨true, some "X", none, false, none⟩⟩]
  found := rfl
  startable := rfl
  decrypts := rfl
  providers := rfl

/-- The pass over both providers. -/
def pairPass : List ServiceLabel :=
  .spawn (.dispatch (.beginning ⟨sampleJob, "m"⟩)) ::
    statements 0 2 (sampleChoice "" 1) ++ .commit 0 :: statements 0 1 (sampleChoice "" 1) ++
    statements 0 2 (sampleChoice "a" 1) ++ .commit 0 :: statements 0 2 (sampleChoice "" 1) ++
    .run 0 { sampleChoice "" 2 with reply := some ⟨false, none, some "busy", true, none⟩ } ::
    statements 0 2 (sampleChoice "" 2) ++ .commit 0 ::
    statements 0 2 (sampleChoice "b" 3) ++ .commit 0 :: statements 0 2 (sampleChoice "" 3) ++
    .run 0 { sampleChoice "" 4 with reply := some ⟨true, some "X", none, false, none⟩ } ::
    statements 0 2 (sampleChoice "" 4) ++ [.commit 0, .run 0 (sampleChoice "" 4)]

/-- What the pass of a worker has answered. -/
def answered? : Control → Option ProcessOutcome
  | .dispatch (.finished outcome) => some outcome
  | _ => none

theorem dispatch_pass_sent : ∃ w, Solo pairAssignment w ∧ At 0 (.finished (.sent "bird")) w ∧
    pairAssignment.Result (.sent "bird") (aggregate w.store "m") ∧
    (aggregate w.store "m").attempts.map SmsAttempt.provider = ["twilio", "bird"] := by
  obtain ⟨w, hsolo, hanswered, hproviders⟩ := exists_reaches_on pairConfig
    (fun a l => solo pairAssignment a l) (Waiting pairAssignment) pairAssignment.store ⟨rfl, rfl⟩
    pairPass
    (fun w => w.abs.controls[0]?.bind answered? = some (.sent "bird") ∧
      (aggregate w.store "m").attempts.map SmsAttempt.provider = ["twilio", "bird"])
    (by decide +kernel)
  obtain ⟨q, hq, houtcome⟩ := Option.bind_eq_some_iff.mp hanswered
  have hat : At 0 (.finished (.sent "bird")) w := by
    unfold answered? at houtcome
    split at houtcome
    · rw [At, hq, Option.some.inj houtcome]
    · cases houtcome
  exact ⟨w, hsolo, hat, ((dispatch_pass hsolo hat).2.1 _ rfl).1, hproviders⟩

end SmsNotification.DispatchPass

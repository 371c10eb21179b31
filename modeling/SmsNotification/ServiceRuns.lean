import SmsNotification.ServiceEffects

namespace SmsNotification.ServiceRuns

open SmsNotification.ActorSystem
open SmsNotification.KeyedStore
open SmsNotification.LabelledRuns
open SmsNotification.LifecycleEffects
open SmsNotification.MessageAggregate
open SmsNotification.Schema
open SmsNotification.Service
open SmsNotification.ServiceEffects
open SmsNotification.Surroundings

abbrev ServiceWorld := World Choice Row.key Failure Control Outside

abbrev ServiceActor := Actor Choice Row.key Failure Control

abbrev ServiceLabel := Label Choice Control

abbrev ServiceSnapshot := Snapshot Row.key Control Outside

/-- Only actors in the allowed control states are started. -/
def Spawning (allowed : Control → Prop) (_ : ServiceSnapshot) (l : ServiceLabel) : Prop :=
  ∀ q, l = .spawn q → allowed q

/-- Nothing has happened yet. -/
structure Initial (a : ServiceSnapshot) : Prop where
  store : a.store = Store.empty Row.key
  controls : a.controls = []
  ext : a.ext = Outside.empty

/-- The worlds a run of the service gets to, where `ok` says which steps it may
take and `init` where it starts. -/
def Reaches (config : Config) (ok : ServiceSnapshot → ServiceLabel → Prop)
    (init : ServiceSnapshot → Prop) : ServiceWorld → Prop :=
  Reachable (fun w l w' => (service config).step w l = some w') (fun w l => ok w.abs l)
    fun w => w.actors = [] ∧ init w.abs

/-- The worlds of one run of the service, the latest first. -/
def Runs (config : Config) (ok : ServiceSnapshot → ServiceLabel → Prop)
    (init : ServiceSnapshot → Prop) : List ServiceWorld → Prop :=
  Run (fun w l w' => (service config).step w l = some w') (fun w l => ok w.abs l)
    fun w => w.actors = [] ∧ init w.abs

/-- The worlds a run gets to from `w`. -/
def Later (config : Config) (ok : ServiceSnapshot → ServiceLabel → Prop) (w : ServiceWorld) :
    ServiceWorld → Prop :=
  Reachable (fun w l w' => (service config).step w l = some w') (fun w l => ok w.abs l) (· = w)

/-- One step of the service in which a transaction takes effect at once. -/
abbrev ServiceStep (config : Config) : ServiceSnapshot → ServiceLabel → ServiceSnapshot → Prop :=
  Atomic (service config) (controlSpec config)

variable {config : Config} {ok : ServiceSnapshot → ServiceLabel → Prop}
  {init : ServiceSnapshot → Prop} {w : ServiceWorld}

theorem Reaches.later {ok' : ServiceSnapshot → ServiceLabel → Prop} {w' : ServiceWorld}
    (hok : ∀ a l, ok' a l → ok a l) (h : Reaches config ok init w)
    (hlater : Later config ok' w w') : Reaches config ok init w' := by
  induction hlater with
  | start h0 => exact h0 ▸ h
  | next l _ hl hstep ih => exact Reachable.next l ih (hok _ l hl) hstep

/-- The snapshot of a reachable world is reachable in every atomic system that is sound
for the actors of the run. -/
theorem Reaches.simulated {live : Control → Prop} {rely : Database → Database → Prop}
    {spec : Control → Database → Except Failure Control → Database → Prop}
    (hsound : Sound (service config) live rely spec) (hok : ∀ a q, ok a (.spawn q) → live q)
    (h : Reaches config ok init w) :
    Consistent (service config) live rely spec w ∧
      Reachable (Atomic (service config) spec) ok init w.abs :=
  reachable_abs hsound hok h

/-- The snapshot of a reachable world is reachable in the atomic system. -/
theorem Reaches.atomic (hok : ∀ a q, ok a (.spawn q) → Lifecycle q)
    (h : Reaches config ok init w) :
    Consistent (service config) Lifecycle Persists (controlSpec config) w ∧
      Reachable (ServiceStep config) ok init w.abs :=
  h.simulated (sound config) hok

/-- A step of the service is a stutter or a step of the atomic system. -/
theorem serviceStep_of_step (hok : ∀ a q, ok a (.spawn q) → Lifecycle q)
    (h : Reaches config ok init w) {l : ServiceLabel} {w' : ServiceWorld}
    (hl : ok w.abs l) (hstep : (service config).step w l = some w') :
    w'.abs = w.abs ∨ ServiceStep config w.abs l w'.abs :=
  (simulates (sound config) (h.atomic hok).1 (fun q hq => hok w.abs q (hq ▸ hl)) hstep).2

/-- One step of the service changes the messages as one await does. -/
theorem stepEffect_of_step (hok : ∀ a q, ok a (.spawn q) → Lifecycle q)
    (h : Reaches config ok init w) {l : ServiceLabel} {w' : ServiceWorld}
    (hl : ok w.abs l) (hstep : (service config).step w l = some w') :
    w'.store = w.store ∨ ∃ i q, w.abs.controls[i]? = some q ∧ (l = .commit i ∨ l = .lost i) ∧
      StepEffect q w.store w'.store := by
  obtain hsame | hatomic := serviceStep_of_step hok h hl hstep
  · exact Or.inl (congrArg Snapshot.store hsame)
  · obtain hsame | ⟨i, q, q', hq, hlabel, hspec⟩ := hatomic.store
    · exact Or.inl hsame
    · exact Or.inr ⟨i, q, hq, hlabel, stepEffect_of_controlSpec hspec⟩

theorem message_of_stepEffect {q : Control} {s s' : Database} (h : StepEffect q s s')
    (m : String) : aggregate s' m = aggregate s m ∨
      MessageStep q m (aggregate s m) (aggregate s' m) := by
  rcases h with hsame | ⟨m', A', hstep, hupdate⟩
  · exact Or.inl (congrFun hsame m)
  · rw [hupdate]
    by_cases hm : m = m'
    · subst hm
      rw [Function.update_self]
      exact Or.inr hstep
    · rw [Function.update_of_ne hm]
      exact Or.inl rfl

theorem messageStep_of_step (hok : ∀ a q, ok a (.spawn q) → Lifecycle q)
    (h : Reaches config ok init w) {l : ServiceLabel} {w' : ServiceWorld}
    (hl : ok w.abs l) (hstep : (service config).step w l = some w') (m : String) :
    aggregate w'.store m = aggregate w.store m ∨ ∃ i q, w.abs.controls[i]? = some q ∧
      (l = .commit i ∨ l = .lost i) ∧
        MessageStep q m (aggregate w.store m) (aggregate w'.store m) := by
  obtain hsame | ⟨i, q, hq, hlabel, heffect⟩ := stepEffect_of_step hok h hl hstep
  · exact Or.inl (by rw [hsame])
  · exact (message_of_stepEffect heffect m).imp_right fun hmessage => ⟨i, q, hq, hlabel, hmessage⟩

/-- What holds of every message at the start and is kept by each of its steps
holds of every message in every reachable snapshot. -/
theorem aggregate_invariant (inv : String → Aggregate → Prop)
    (hinit : ∀ a, init a → ∀ m, inv m (aggregate a.store m))
    (hstep : ∀ q m A A', A.Keyed → inv m A → MessageStep q m A A' → inv m A')
    {a : ServiceSnapshot} (h : Reachable (ServiceStep config) ok init a) (m : String) :
    inv m (aggregate a.store m) := by
  refine Reachable.invariant hinit (fun a l a' _ hinv _ hatomic m => ?_) h m
  obtain hsame | ⟨i, q, q', _, _, hspec⟩ := hatomic.store
  · rw [hsame]
    exact hinv m
  · obtain hsame | hmessage := message_of_stepEffect (stepEffect_of_controlSpec hspec) m
    · rw [hsame]
      exact hinv m
    · exact hstep q m _ _ (keyed _ _) (hinv m) hmessage

theorem control_of_step {a a' : ServiceSnapshot} {l : ServiceLabel}
    (hstep : ServiceStep config a l a') {i : Nat} {q' : Control}
    (hq' : a'.controls[i]? = some q') : l = .spawn q' ∨ a.controls[i]? = some q' ∨
      ∃ q, a.controls[i]? = some q ∧ (family q' = family q ∨ family q' = .crash) := by
  have hset : ∀ {j : Nat} {q₁ q₂ : Control}, a.controls[j]? = some q₁ →
      (family q₂ = family q₁ ∨ family q₂ = .crash) → (a.controls.set j q₂)[i]? = some q' →
      a.controls[i]? = some q' ∨
        ∃ q, a.controls[i]? = some q ∧ (family q' = family q ∨ family q' = .crash) := by
    intro j q₁ q₂ hq₁ hfamily hset
    rcases getElem?_set_eq_some hset with ⟨rfl, rfl⟩ | ⟨_, hset⟩
    · exact Or.inr ⟨q₁, hq₁, hfamily⟩
    · exact Or.inl hset
  cases hstep with
  | spawn q =>
      rcases getElem?_concat_eq_some hq' with hq' | rfl
      · exact Or.inr (Or.inl hq')
      · exact Or.inl rfl
  | answer hq _ hspec => exact Or.inr (hset hq (Or.inl (family_of_ok hspec).1) hq')
  | error hq hcode _ => exact Or.inr (hset hq (Or.inl (family_of_error hcode _).1) hq')
  | act hq hcode hact => exact Or.inr (hset hq (Or.inl (acts_of_code hcode hact).family.1) hq')
  | commit hq _ hspec => exact Or.inr (hset hq (Or.inl (family_of_ok hspec).1) hq')
  | lost hq hcode _ => exact Or.inr (hset hq (Or.inl (family_of_error hcode _).1) hq')
  | fault hq hcode => exact Or.inr (hset hq (Or.inl (family_of_error hcode _).1) hq')
  | crash hq _ => exact Or.inr (hset hq (family_crash _).1 hq')
  | env _ => exact Or.inr (Or.inl hq')

theorem returned_of_step {a a' : ServiceSnapshot} {l : ServiceLabel}
    (hstep : ServiceStep config a l a') {i : Nat} {op : Operation} {answer : Answer}
    (hq' : a'.controls[i]? = some (.returned op answer)) :
    l = .spawn (.returned op answer) ∨ a.controls[i]? = some (.returned op answer) ∨
      (a.controls[i]? = some (.calling op) ∧ (l = .commit i ∨ ∃ c, l = .run i c) ∧
        operationSpec op a.store (.ok answer) a'.store) := by
  have hset : ∀ {j : Nat} {q : Control}, (∀ op' answer', q ≠ .returned op' answer') →
      (a.controls.set j q)[i]? = some (.returned op answer) →
      a.controls[i]? = some (.returned op answer) := by
    intro j q hq hset
    rcases getElem?_set_eq_some hset with ⟨_, heq⟩ | ⟨_, hset⟩
    · exact absurd heq.symm (hq op answer)
    · exact hset
  have hok : ∀ {j : Nat} {q q' : Control} {s : Database}, a.controls[j]? = some q →
      controlSpec config q a.store (.ok q') s → a'.store = s →
      (l = .commit j ∨ ∃ c, l = .run j c) →
      (a.controls.set j q')[i]? = some (.returned op answer) →
      a.controls[i]? = some (.returned op answer) ∨
        (a.controls[i]? = some (.calling op) ∧ (l = .commit i ∨ ∃ c, l = .run i c) ∧
          operationSpec op a.store (.ok answer) a'.store) := by
    intro j q q' s hq hspec hs hl hset
    rcases getElem?_set_eq_some hset with ⟨rfl, rfl⟩ | ⟨_, hset⟩
    · obtain ⟨rfl, hop⟩ := calling_of_returned hspec
      exact Or.inr ⟨hq, hl, hs ▸ hop⟩
    · exact Or.inl hset
  cases hstep with
  | spawn q =>
      rcases getElem?_concat_eq_some hq' with hq' | rfl
      · exact Or.inr (Or.inl hq')
      · exact Or.inl rfl
  | answer hq _ hspec => exact Or.inr (hok hq hspec rfl (Or.inr ⟨_, rfl⟩) hq')
  | commit hq _ hspec => exact Or.inr (hok hq hspec rfl (Or.inl rfl) hq')
  | error hq hcode _ => exact Or.inr (Or.inl (hset (not_returned_of_error hcode _) hq'))
  | lost hq hcode _ => exact Or.inr (Or.inl (hset (not_returned_of_error hcode _) hq'))
  | fault hq hcode => exact Or.inr (Or.inl (hset (not_returned_of_error hcode _) hq'))
  | act hq hcode hact =>
      refine Or.inr (Or.inl (hset (fun op' answer' heq => ?_) hq'))
      cases acts_of_code hcode hact <;> cases heq
  | @crash j q hq _ =>
      refine Or.inr (Or.inl (hset (fun op' answer' heq => ?_) hq'))
      cases q <;> simp [service, crash] at heq
  | env _ => exact Or.inr (Or.inl hq')

/-- No purge and no maintenance worker is there. -/
def AllLifecycle (a : ServiceSnapshot) : Prop :=
  ∀ (i : Nat) q, a.controls[i]? = some q → Lifecycle q

theorem lifecycle_of_reachable (hok : ∀ a q, ok a (.spawn q) → Lifecycle q)
    (hinit : ∀ a, init a → a.controls = []) {a : ServiceSnapshot}
    (h : Reachable (ServiceStep config) ok init a) : AllLifecycle a := by
  refine Reachable.invariant (fun a h0 => ?_) (fun a l a' _ hinv hl hstep => ?_) h
  · simp [AllLifecycle, hinit a h0]
  · intro i q' hq'
    obtain rfl | hq' | ⟨q, hq, hfamily⟩ := control_of_step hstep hq'
    · exact hok a q' hl
    · exact hinv i q' hq'
    · exact lifecycle_of_family hfamily (hinv i q hq)

section Replay

/-- The service before its first step. -/
def initial : ServiceWorld :=
  ⟨Store.empty Row.key, [], Outside.empty⟩

instance Lifecycle.decidable : DecidablePred Lifecycle := fun q =>
  inferInstanceAs (Decidable (family q ≠ .purge ∧ family q ≠ .maintenance))

instance Spawning.decidable (allowed : Control → Prop) [DecidablePred allowed]
    (a : ServiceSnapshot) : (l : ServiceLabel) → Decidable (Spawning allowed a l)
  | .spawn q =>
      decidable_of_iff (allowed q) ⟨fun h _ hq => Label.spawn.inj hq ▸ h, fun h => h q rfl⟩
  | .run _ _ => isTrue fun _ hq => by cases hq
  | .commit _ => isTrue fun _ hq => by cases hq
  | .lost _ => isTrue fun _ hq => by cases hq
  | .fault _ => isTrue fun _ hq => by cases hq
  | .crash _ => isTrue fun _ hq => by cases hq
  | .env _ => isTrue fun _ hq => by cases hq

/-- The service before its first step on a database that is there already. -/
def startOn (s : Database) : ServiceWorld :=
  ⟨s, [], Outside.empty⟩

theorem exists_reaches_on (config : Config) (ok : ServiceSnapshot → ServiceLabel → Prop)
    [∀ a l, Decidable (ok a l)] (init : ServiceSnapshot → Prop) (s : Database)
    (hinit : init (startOn s).abs) (labels : List ServiceLabel) (p : ServiceWorld → Prop)
    [DecidablePred p]
    (h : (exec (service config).step (fun w l => ok w.abs l) (startOn s) labels).any p) :
    ∃ w, Reaches config ok init w ∧ p w := by
  obtain ⟨w, hw, hp⟩ := (Option.any_eq_true _ _).mp h
  exact ⟨w, reachable_of_exec (Reachable.start ⟨rfl, hinit⟩) hw, of_decide_eq_true hp⟩

/-- The replay of a list of labels from the start. -/
theorem exists_reaches_of_exec (config : Config) (ok : ServiceSnapshot → ServiceLabel → Prop)
    [∀ a l, Decidable (ok a l)] (labels : List ServiceLabel) (p : ServiceWorld → Prop)
    [DecidablePred p]
    (h : (exec (service config).step (fun w l => ok w.abs l) initial labels).any p) :
    ∃ w, Reaches config ok Initial w ∧ p w :=
  exists_reaches_on config ok Initial _ ⟨rfl, rfl, rfl⟩ labels p h

theorem exists_runs_of_replay (config : Config) (ok : ServiceSnapshot → ServiceLabel → Prop)
    [∀ a l, Decidable (ok a l)] (labels : List ServiceLabel) (p : List ServiceWorld → Prop)
    [DecidablePred p]
    (h : (replay (service config).step (fun w l => ok w.abs l) [initial] labels).any p) :
    ∃ states, Runs config ok Initial states ∧ p states := by
  obtain ⟨states, hstates, hp⟩ := (Option.any_eq_true _ _).mp h
  exact ⟨states, run_of_replay (Run.start ⟨rfl, ⟨rfl, rfl, rfl⟩⟩) hstates, of_decide_eq_true hp⟩

/-- A service with one provider and the settings it has where none are given. -/
def sampleConfig : Config :=
  ⟨.read none none ["twilio"] some, .read none none none⟩

/-- A choice under which every external call succeeds. -/
def sampleChoice (uuid : String) (now : Int) : Choice :=
  ⟨now, uuid, fun _ => 0, true, true, 0, none, "", .tick 0⟩

/-- A call of `createOrGetMessage` with a lifetime of one hour. -/
def sampleCall (idempotencyKey : String) (now : Int) :
    SmsPersistenceRepository.CreateOrGetMessage :=
  ⟨⟨idempotencyKey, "+15550100", "body", none⟩, now, 1⟩

/-- The dispatch job of the message `m` for the event `e`. -/
def sampleJob : QueueConstants.Job :=
  ⟨.smsDispatch, "m#e", "dispatch", some "m", none⟩

/-- The statements of one transaction, each with the same choice. -/
def statements (i n : Nat) (c : Choice) : List ServiceLabel :=
  List.replicate n (.run i c)

/-- A message `m` is created by actor 0, which commits. -/
def creation : List ServiceLabel :=
  .spawn (.creating (sampleCall "k" 0) false) :: statements 0 4 (sampleChoice "m" 0) ++ [.commit 0]

/-- Actor 1, a worker, reads the message, reserves an attempt and calls a provider. -/
def callingPass : List ServiceLabel :=
  .spawn (.dispatch (.beginning ⟨sampleJob, "m"⟩)) ::
    statements 1 2 (sampleChoice "" 1) ++ .commit 1 :: statements 1 1 (sampleChoice "" 1) ++
    statements 1 2 (sampleChoice "a" 1) ++ .commit 1 :: statements 1 2 (sampleChoice "" 1)

/-- The provider does not tell whether it has accepted, and the worker records that. -/
def recordedAmbiguous : List ServiceLabel :=
  statements 1 1 { sampleChoice "" 1 with reply := some ⟨false, none, none, false, some true⟩ } ++
    statements 1 2 (sampleChoice "x" 1) ++ [.commit 1]

end Replay

end SmsNotification.ServiceRuns

import SmsNotification.AttemptLedger
import SmsNotification.KeyRetention
import SmsNotification.OperatorResolutions

namespace SmsNotification.ReferentialIntegrity

open SmsNotification.ActorSystem
open SmsNotification.AttemptLedger
open SmsNotification.IdempotentIngestion
open SmsNotification.KeyRetention
open SmsNotification.KeyedStore
open SmsNotification.LabelledRuns
open SmsNotification.LifecycleEffects
open SmsNotification.MessageAggregate
open SmsNotification.OperatorResolutions
open SmsNotification.ReadCommitted
open SmsNotification.Schema
open SmsNotification.Service
open SmsNotification.ServiceEffects
open SmsNotification.ServiceRuns
open SmsNotification.SmsLifecycleRepository
open SmsNotification.SmsStateMachine
open SmsNotification.Surroundings

/-- The decision of a resolution shows in its message. -/
structure Decided (r : SmsAttemptResolution) (row : SmsMessage) : Prop where
  sent : isSent row.status
  knownSid : r.resolution = .knownSid → row.providerMessageId = r.providerMessageId
  undelivered : r.resolution = .undelivered → row.status = .undelivered

/-- The references between the rows of one message. -/
structure Coherent (A : Aggregate) : Prop where
  owned : A.message = none → A.attempts = [] ∧ A.resolutions = [] ∧ A.outbox = []
  attempted : ∀ r ∈ A.resolutions, ∃ a ∈ A.attempts, a.id = r.smsAttemptId ∧ a.provider = "twilio"
  decided : ∀ r ∈ A.resolutions, ∀ row, A.message = some row → Decided r row

section Preservation

variable {m : String} {A A' : Aggregate} {row : SmsMessage}

theorem Coherent.resolutions_eq_nil (h : Coherent A) (hrow : A.message = some row)
    (hstatus : isSent row.status = false) : A.resolutions = [] := by
  refine List.eq_nil_iff_forall_not_mem.mpr fun r hr => ?_
  have hsent := (h.decided r hr row hrow).sent
  simp [hstatus] at hsent

theorem Coherent.withMessage (h : Coherent A) {new : SmsMessage} {events : List OutboxEvent}
    (hnew : ∀ r ∈ A.resolutions, Decided r new) :
    Coherent { A with message := some new, outbox := events } where
  owned hnone := by simp at hnone
  attempted := h.attempted
  decided r hr row hrow := by
    obtain rfl : new = row := Option.some.inj hrow
    exact hnew r hr

theorem not_undelivered_of_transition {source : SmsStatus → Bool} {target : SmsStatus}
    {data : SmsMessage → SmsMessage} {intent : Option OutboxIntent}
    (h : Transition m source target data intent) : source .undelivered = false := by
  cases h <;> rfl

theorem Coherent.moved (h : Coherent A) {source : SmsStatus → Bool} {target : SmsStatus}
    {data : SmsMessage → SmsMessage} {intent : Option OutboxIntent}
    (htransition : Transition m source target data intent)
    (hmoved : Moved m source target data intent A A') : Coherent A' := by
  obtain ⟨row, now, events', hrow, hsource, _, rfl⟩ := hmoved
  refine h.withMessage fun r hr => ?_
  have hdecided := h.decided r hr row hrow
  refine ⟨(isOpen_of_transition htransition hsource).2 hdecided.sent, fun hknown => ?_,
    fun hundelivered => ?_⟩
  · exact (providerMessageId_of_transition htransition row).trans (hdecided.knownSid hknown)
  · rw [hdecided.undelivered hundelivered, not_undelivered_of_transition htransition] at hsource
    simp at hsource

theorem Coherent.requeued (h : Coherent A) (hrequeued : Requeued m A A') : Coherent A' := by
  obtain ⟨row, now, events', hrow, hsource, _, rfl⟩ := hrequeued
  have hnil := h.resolutions_eq_nil hrow (by rw [of_decide_eq_true hsource]; rfl)
  exact h.withMessage fun r hr => by simp [hnil] at hr

theorem Coherent.created (h : Coherent A) {call : SmsPersistenceRepository.CreateOrGetMessage}
    (hcreated : Created call m A A') : Coherent A' := by
  obtain ⟨c, events', hnone, _, _, _, rfl⟩ := hcreated
  have hnil := (h.owned hnone).2.1
  exact h.withMessage fun r hr => by simp [hnil] at hr

theorem Coherent.reserved (h : Coherent A) {providerName attemptId : String}
    (hreserved : Reserved m providerName attemptId A A') : Coherent A' := by
  obtain ⟨row, now, c, hrow, hstatus, _, rfl⟩ := hreserved
  have hnil := h.resolutions_eq_nil hrow (by rw [hstatus]; rfl)
  constructor <;> simp [hnil]

theorem Coherent.record (h : Coherent A) (hkeyed : A.Keyed) (input : FinalizeProviderAttemptInput)
    {old : SmsAttempt} (hold : old ∈ A.attempts) :
    Coherent { A with attempts := smsAttempt.replace (input.record old) A.attempts } where
  owned hnone := by simp [(h.owned hnone).1] at hold
  attempted r hr := by
    obtain ⟨a, ha, hid, hprovider⟩ := h.attempted r hr
    by_cases hsame : a = old
    · subst hsame
      exact ⟨_, Table.mem_replace_of_eq ha (record_id input a).symm,
        (record_id input a).trans hid, (record_provider input a).trans hprovider⟩
    · exact ⟨a, mem_record hkeyed.attempts hold ha hsame, hid, hprovider⟩
  decided := h.decided

theorem Coherent.finalized (h : Coherent A) (hkeyed : A.Keyed) {attemptId : String}
    {input : FinalizeProviderAttemptInput} (hfinalized : Finalized m attemptId input A A') :
    Coherent A' := by
  obtain ⟨old, hold, _, _, hinput⟩ := hfinalized
  have hrecorded := h.record hkeyed input hold
  rcases input with providerMessageId | ⟨_ | _, _, _, _⟩
  · obtain ⟨row, now, hrow, hstatus, rfl⟩ := hinput
    have hnil := h.resolutions_eq_nil hrow (by rw [hstatus]; rfl)
    exact hrecorded.withMessage fun r hr => by simp [hnil] at hr
  · obtain ⟨row, now, hrow, hstatus, rfl⟩ := hinput
    have hnil := h.resolutions_eq_nil hrow (by rw [hstatus]; rfl)
    exact hrecorded.withMessage fun r hr => by simp [hnil] at hr
  · obtain ⟨_, _, _, _, rfl⟩ := hinput
    refine ⟨fun hnone => ?_, hrecorded.attempted, hrecorded.decided⟩
    simp [(h.owned hnone).1] at hold

theorem Coherent.resolved (h : Coherent A) {attemptId : String}
    {input : ResolveTwilioAttemptInput} (hresolved : Resolved m attemptId input A A') :
    Coherent A' := by
  obtain ⟨row, c, c', hrow, hstatus, ⟨a, ha, hid, hprovider⟩, rfl⟩ := hresolved
  have hnil := h.resolutions_eq_nil hrow (by rw [hstatus]; rfl)
  constructor
  · intro hnone
    simp at hnone
  · intro r hr
    obtain rfl : r = input.row m attemptId c' := by simpa [hnil] using hr
    exact ⟨a, ha, hid, hprovider⟩
  · intro r hr new hnew
    obtain rfl : r = input.row m attemptId c' := by simpa [hnil] using hr
    obtain rfl := Option.some.inj hnew
    rcases input with providerMessageId | _ <;> constructor <;>
      simp [ResolveTwilioAttemptInput.row, ResolveTwilioAttemptInput.apply,
        ResolveTwilioAttemptInput.resolution, ResolveTwilioAttemptInput.providerMessageId, isSent]

theorem Coherent.step {q : Control} (h : Coherent A) (hkeyed : A.Keyed)
    (hstep : MessageStep q m A A') : Coherent A' := by
  cases hstep with
  | created call hcreated => exact h.created hcreated
  | moved htransition hmoved => exact h.moved htransition hmoved
  | requeued _ hrequeued => exact h.requeued hrequeued
  | reserved _ _ _ hreserved => exact h.reserved hreserved
  | finalized _ _ _ hfinalized => exact h.finalized hkeyed hfinalized
  | resolved _ _ hresolved => exact h.resolved hresolved
  | relayed hrelayed =>
      obtain ⟨event, hevent, _, _, _, rfl⟩ := hrelayed
      refine ⟨fun hnone => ?_, h.attempted, h.decided⟩
      simp [(h.owned hnone).2.2] at hevent

end Preservation

/-- Every reference of a row leads to a row. -/
structure Integral (s : Database) : Prop where
  coherent : ∀ m, Coherent (aggregate s m)
  owned : ∀ k owner, owner? s k = some owner → (smsMessage.find s owner.smsMessageId).isSome

section Steps

variable {config : Config} {s s' : Database} {q : Control}

theorem Integral.empty : Integral (Store.empty Row.key) where
  coherent m := by
    rw [aggregate_empty]
    constructor <;> simp
  owned k owner h := by simp [owner?, Table.find] at h

/-- What the transaction of a control state does to the rows of the messages and to
the idempotency keys. -/
def integralSpec (config : Config) (q : Control) (s : Database) (r : Except Failure Control)
    (s' : Database) : Prop :=
  controlSpec config q s r s' ∧ (family q ≠ .create → KeepsLifetimes s s')

theorem keepsLifetimes_of_lifecycle {t : Sql Control} {onError : Failure → Control}
    (hq : Lifecycle q) (hcode : code config q = .tx t onError) (s : Database) :
    TakesEffect Choice.supplied Persists
      (fun s _ s' => family q ≠ .create → KeepsLifetimes s s') t s [] := by
  have hkeeps : ∀ {t : Sql Control}, Writes Keeps t → TakesEffect Choice.supplied Persists
      (fun s _ s' => family q ≠ .create → KeepsLifetimes s s') t s [] :=
    fun hwrites => (takesEffect_keepsLifetimes hwrites s).mono fun _ _ _ h _ => h
  cases q with
  | creating call again => exact (takesEffect_trivial t).mono fun _ _ _ _ hne => absurd rfl hne
  | purging now batchSize => exact absurd rfl hq.1
  | maintenance state => exact absurd rfl hq.2
  | calling op =>
      obtain ⟨rfl, _⟩ := Code.tx.inj hcode
      exact hkeeps ((keeps_operation op).map _)
  | dispatch state =>
      obtain ⟨m, hwrites⟩ := writes_dispatch hcode
      exact hkeeps (Writes.keep hwrites)
  | sweep state =>
      obtain ⟨m, hwrites⟩ := writes_sweep hcode
      exact hkeeps (Writes.keep hwrites)
  | relay state => exact hkeeps (keeps_relay hcode)
  | _ => simp [code] at hcode

theorem sound_integral (config : Config) :
    Sound (service config) Lifecycle Persists (integralSpec config) where
  refl := (sound config).refl
  trans := (sound config).trans
  guarantee q s r s' hq h := (sound config).guarantee q s r s' hq h.1
  takesEffect q t onError hq hcode s :=
    ((sound config).takesEffect q t onError hq hcode s).and
      (keepsLifetimes_of_lifecycle hq hcode s)
  live_ok q t onError s q' s' hq hcode h := (sound config).live_ok q t onError s q' s' hq hcode h.1
  live_error := (sound config).live_error
  live_act := (sound config).live_act
  live_crashed := (sound config).live_crashed

/-- What a call does keeps the references. -/
theorem Integral.step (h : Integral s) {q' : Control}
    (hspec : integralSpec config q s (.ok q') s') : Integral s' where
  coherent m := by
    obtain hsame | hmessage := message_of_stepEffect (stepEffect_of_controlSpec hspec.1) m
    · rw [hsame]
      exact h.coherent m
    · exact (h.coherent m).step (keyed _ _) hmessage
  owned k owner howner := by
    by_cases hq : family q = .create
    · cases q with
      | creating call again =>
          obtain ⟨⟨_ | _, message⟩, _, hcreated⟩ := hspec.1
          · rw [hcreated.1] at howner ⊢
            exact h.owned k owner howner
          · obtain ⟨new, hmessage, _, howners⟩ := owner_of_created hcreated
            obtain ⟨hthere, hstays⟩ := isSome_message_of_created hcreated
            rw [howners] at howner
            split at howner
            · obtain rfl := Option.some.inj howner
              rwa [hmessage]
            · exact hstays _ (h.owned k owner howner)
      | created _ _ | createFailed _ _ _ => exact hspec.1.elim
      | _ => cases hq
    · rw [(hspec.2 hq).owner?] at howner
      exact (keepsDecisions_of_stepEffect (stepEffect_of_controlSpec hspec.1)).1 _
        (h.owned k owner howner)

theorem integral_of_reaches {ok : ServiceSnapshot → ServiceLabel → Prop}
    {init : ServiceSnapshot → Prop} {w : ServiceWorld} (hok : ∀ a q, ok a (.spawn q) → Lifecycle q)
    (hinit : ∀ a, init a → Integral a.store) (h : Reaches config ok init w) : Integral w.store := by
  have hatomic := (reachable_abs (sound_integral config) hok h).2
  have hstep : ∀ a l a', Reachable (Atomic (service config) (integralSpec config)) ok init a →
      Integral a.store → ok a l → Atomic (service config) (integralSpec config) a l a' →
      Integral a'.store := by
    intro a l a' _ hintegral _ hstep
    obtain hsame | ⟨i, q, q', _, _, hspec⟩ := hstep.store
    · exact hsame ▸ hintegral
    · exact hintegral.step hspec
  exact Reachable.invariant hinit hstep hatomic

end Steps

end SmsNotification.ReferentialIntegrity

import SmsNotification.AuditTrail
import SmsNotification.OutboxAgreement
import SmsNotification.RetryBackoff

namespace SmsNotification.RelayTicks

open SmsNotification.ActorSystem
open SmsNotification.AttemptLedger
open SmsNotification.AuditTrail
open SmsNotification.LabelledRuns
open SmsNotification.LifecycleEffects
open SmsNotification.MessageAggregate
open SmsNotification.NoDuplicateDelivery
open SmsNotification.OutboxAgreement
open SmsNotification.OutboxPublication
open SmsNotification.OutboxRelayService
open SmsNotification.ReadCommitted
open SmsNotification.RetryBackoff
open SmsNotification.Schema
open SmsNotification.Service
open SmsNotification.ServiceEffects
open SmsNotification.ServiceRuns
open SmsNotification.SmsLifecycleRepository
open SmsNotification.Surroundings

/-- The events of its batch that a tick has still to deal with. -/
def remaining? : OutboxRelayService.State → Option (List UnpublishedOutboxEvent)
  | .adding event _ rest => some (event :: rest)
  | .marking event rest => some (event :: rest)
  | .recording event _ rest => some (event :: rest)
  | .drained => some []
  | _ => none

/-- The tick is about to record a failure. -/
def records : OutboxRelayService.State → Bool
  | .recording _ _ _ => true
  | _ => false

/-- Of the calls of the relay `i` none fails, and it does not crash. -/
def unfailing (i : Nat) (a : ServiceSnapshot) : ServiceLabel → Bool
  | .run j c => j ≠ i || c.served || !(a.controls[i]?.any fun q => (relay? q).isSome)
  | .lost j => j ≠ i
  | .fault j => j ≠ i
  | .crash j => j ≠ i
  | _ => true

/-- The row of the event is still there. -/
def Listed (s₀ s : Database) (event : UnpublishedOutboxEvent) : Prop :=
  ∃ row₀ row, outboxEvent.find s₀ event.id = some row₀ ∧
    outboxEvent.find s event.id = some row ∧ KeptEvent row₀ row

/-- Since `s₀` the event has been published, or a failure has been counted where a call of
the relay may have failed. -/
def Dealt (failing : Bool) (s₀ s : Database) (event : UnpublishedOutboxEvent) : Prop :=
  ∃ row₀ row, outboxEvent.find s₀ event.id = some row₀ ∧
    outboxEvent.find s event.id = some row ∧
    (row.publishedAt.isSome ∨ (failing ∧ row₀.retryCount < row.retryCount))

/-- A tick that has had these events to deal with. -/
inductive AtTick (failing : Bool) (events : List UnpublishedOutboxEvent) (s₀ s : Database) :
    Control → Prop where
  | working {state : OutboxRelayService.State} {rest : List UnpublishedOutboxEvent} :
      remaining? state = some rest → (records state → failing) → (∀ event ∈ rest, event ∈ events) →
      (∀ event ∈ events, event ∈ rest ∨ Dealt failing s₀ s event) →
      AtTick failing events s₀ s (.relay state)
  | tickFailed : failing → AtTick failing events s₀ s (.relay .tickFailed)
  | crashed : failing → AtTick failing events s₀ s (.relay .crashed)

/-- The invariant of the tick of the relay `i`. -/
structure Ticking (failing : Bool) (i : Nat) (events : List UnpublishedOutboxEvent)
    (s₀ : Database) (a : ServiceSnapshot) : Prop where
  listed : ∀ event ∈ events, Listed s₀ a.store event
  atTick : ∃ q, a.controls[i]? = some q ∧ AtTick failing events s₀ a.store q

section Rows

variable {q : Control} {s₀ s s' : Database} {event : UnpublishedOutboxEvent} {failing : Bool}

theorem keptEvent_of_stepEffect (hledger : ∀ m, Ledger (aggregate s m)) (h : StepEffect q s s')
    {id : String} {row : OutboxEvent} (hrow : outboxEvent.find s id = some row) :
    ∃ row', outboxEvent.find s' id = some row' ∧ KeptEvent row row' := by
  obtain rfl : row.id = id := Table.idOf_of_find hrow
  have hmem : row ∈ (aggregate s row.aggregateId).outbox := mem_outbox_iff.mpr ⟨hrow, rfl⟩
  have hextends : Extends (aggregate s row.aggregateId) (aggregate s' row.aggregateId) := by
    obtain hsame | hstep := message_of_stepEffect h row.aggregateId
    · exact hsame ▸ .refl _
    · exact MessageStep.extends (hledger _) (keyed _ _) hstep
  obtain ⟨row', hrow', hkept⟩ := hextends.outbox.mem hmem
  exact ⟨row', hkept.id ▸ (mem_outbox_iff.mp hrow').1, hkept⟩

theorem Listed.of_stepEffect (h : Listed s₀ s event) (hledger : ∀ m, Ledger (aggregate s m))
    (heffect : StepEffect q s s') : Listed s₀ s' event := by
  obtain ⟨row₀, row, hrow₀, hrow, hkept⟩ := h
  obtain ⟨row', hrow', hkept'⟩ := keptEvent_of_stepEffect hledger heffect hrow
  exact ⟨row₀, row', hrow₀, hrow', hkept.trans _ _ _ hkept'⟩

theorem Dealt.of_stepEffect (h : Dealt failing s₀ s event)
    (hledger : ∀ m, Ledger (aggregate s m)) (heffect : StepEffect q s s') :
    Dealt failing s₀ s' event := by
  obtain ⟨row₀, row, hrow₀, hrow, hdealt⟩ := h
  obtain ⟨row', hrow', hkept⟩ := keptEvent_of_stepEffect hledger heffect hrow
  refine ⟨row₀, row', hrow₀, hrow', hdealt.imp hkept.published (And.imp_right fun hcount => ?_)⟩
  exact hcount.trans_le hkept.retryCount

theorem find_of_updateOutboxEvent {id : String} {data : Choice → OutboxEvent → OutboxEvent}
    {r : Unit} (h : updateOutboxEventSpec id data s (.ok r) s')
    (hdata : ∀ c row, (data c row).id = row.id) :
    ∃ row c, outboxEvent.find s id = some row ∧ outboxEvent.find s' id = some (data c row) := by
  obtain ⟨row, c, hrow, hupdate⟩ := h
  obtain rfl : row.id = id := Table.idOf_of_find hrow
  have hmem : row ∈ (aggregate s row.aggregateId).outbox := mem_outbox_iff.mpr ⟨hrow, rfl⟩
  have hnew : data c row ∈ (aggregate s' row.aggregateId).outbox := by
    rw [hupdate, Function.update_self]
    exact Table.mem_replace_of_eq (t := outboxEvent) hmem (hdata c row).symm
  exact ⟨row, c, hrow, hdata c row ▸ (mem_outbox_iff.mp hnew).1⟩

theorem AtTick.of_stepEffect {events : List UnpublishedOutboxEvent} {q' : Control}
    (h : AtTick failing events s₀ s q') (hledger : ∀ m, Ledger (aggregate s m))
    (heffect : StepEffect q s s') : AtTick failing events s₀ s' q' := by
  cases h with
  | working hremaining hrecords hrest hdealt =>
      exact .working hremaining hrecords hrest fun event hevent =>
        (hdealt event hevent).imp_right fun h => h.of_stepEffect hledger heffect
  | tickFailed hfailing => exact .tickFailed hfailing
  | crashed hfailing => exact .crashed hfailing

end Rows

/-- Where nothing may fail the events can be relayed. -/
def Queueable (failing : Bool) (events : List UnpublishedOutboxEvent) : Prop :=
  failing = false → ∀ event ∈ events, ∃ queueJob, queueJobFor event = .ok queueJob

section Ticks

variable {config : Config} {failing : Bool} {events rest : List UnpublishedOutboxEvent}
  {s₀ s s' : Database} {q q' : Control} {event : UnpublishedOutboxEvent}

theorem atTick_relay (hrelayed : Queueable failing events) (hrest : ∀ event ∈ rest, event ∈ events)
    (hdealt : ∀ event ∈ events, event ∈ rest ∨ Dealt failing s₀ s event) :
    AtTick failing events s₀ s (.relay (relay rest)) := by
  cases rest with
  | nil => exact .working rfl (by simp [relay, records]) hrest hdealt
  | cons event rest =>
      rw [relay]
      split
      · rename_i herror
        refine .working rfl (fun _ => ?_) hrest hdealt
        by_contra hfailing
        obtain ⟨queueJob, hjob⟩ :=
          hrelayed (Bool.eq_false_iff.mpr hfailing) event (hrest event List.mem_cons_self)
        simp [hjob] at herror
      · exact .working rfl (by simp [records]) hrest hdealt

theorem atTick_next (hrelayed : Queueable failing events) (hledger : ∀ m, Ledger (aggregate s m))
    (heffect : StepEffect q s s') (hrest : ∀ event' ∈ event :: rest, event' ∈ events)
    (hdealt : ∀ event' ∈ events, event' ∈ event :: rest ∨ Dealt failing s₀ s event')
    (hevent : Dealt failing s₀ s' event) :
    AtTick failing events s₀ s' (.relay (relay rest)) := by
  refine atTick_relay hrelayed (fun event' h => hrest event' (List.mem_cons_of_mem _ h))
    fun event' h => ?_
  obtain hmem | hdealt := hdealt event' h
  · obtain rfl | hmem := List.mem_cons.mp hmem
    · exact Or.inr hevent
    · exact Or.inl hmem
  · exact Or.inr (hdealt.of_stepEffect hledger heffect)

theorem AtTick.ok (h : AtTick failing events s₀ s q) (hrelayed : Queueable failing events)
    (hledger : ∀ m, Ledger (aggregate s m)) (hlisted : ∀ event ∈ events, Listed s₀ s event)
    (hspec : controlSpec config q s (.ok q') s') : AtTick failing events s₀ s' q' := by
  have heffect := stepEffect_of_controlSpec hspec
  cases h with
  | @working state _ hremaining hrecords hrest hdealt =>
      cases state with
      | marking event rest =>
          obtain rfl := Option.some.inj hremaining
          obtain ⟨_, rfl, hupdate⟩ := hspec
          obtain ⟨row, c, _, hrow'⟩ := find_of_updateOutboxEvent hupdate fun _ _ => rfl
          obtain ⟨row₀, _, hrow₀, _, _⟩ := hlisted event (hrest event List.mem_cons_self)
          exact atTick_next hrelayed hledger heffect hrest hdealt
            ⟨row₀, _, hrow₀, hrow', Or.inl rfl⟩
      | recording event description rest =>
          obtain rfl := Option.some.inj hremaining
          obtain ⟨_, rfl, hupdate⟩ := hspec
          obtain ⟨row, c, hrow, hrow'⟩ := find_of_updateOutboxEvent hupdate fun _ _ => rfl
          obtain ⟨row₀, old, hrow₀, hold, hkept⟩ := hlisted event (hrest event List.mem_cons_self)
          obtain rfl := Option.some.inj (hrow.symm.trans hold)
          exact atTick_next hrelayed hledger heffect hrest hdealt
            ⟨row₀, _, hrow₀, hrow', Or.inr ⟨hrecords rfl, Nat.lt_succ_of_le hkept.retryCount⟩⟩
      | fetching => cases hremaining
      | _ => exact hspec.elim
  | _ => exact hspec.elim

theorem AtTick.error {t : Sql Control} {onError : Failure → Control} (hfailing : failing)
    (h : AtTick failing events s₀ s q) (hcode : code config q = .tx t onError) (e : Failure) :
    AtTick failing events s₀ s (onError e) := by
  cases h with
  | @working state _ hremaining hrecords hrest hdealt =>
      cases state with
      | marking event rest =>
          obtain ⟨_, rfl⟩ := Code.tx.inj hcode
          exact .working hremaining (fun _ => hfailing) hrest hdealt
      | recording event description rest =>
          obtain ⟨_, rfl⟩ := Code.tx.inj hcode
          exact .tickFailed hfailing
      | fetching => cases hremaining
      | _ => simp [code, relayCode] at hcode
  | _ => simp [code, relayCode] at hcode

theorem AtTick.act {act : Choice → Outside → Option (Outside × Control)} {c : Choice}
    {o o' : Outside} (h : AtTick failing events s₀ s q) (hserved : c.served ∨ failing)
    (hcode : code config q = .ext act) (hact : act c o = some (o', q')) :
    AtTick failing events s₀ s q' := by
  cases h with
  | @working state _ hremaining hrecords hrest hdealt =>
      cases state with
      | adding event queueJob rest =>
          obtain rfl := Option.some.inj hremaining
          obtain rfl := Code.ext.inj hcode
          by_cases hserved' : c.served
          · simp only [hserved', if_true] at hact
            obtain ⟨rfl, rfl⟩ := Prod.mk.inj (Option.some.inj hact)
            exact .working rfl (by simp [records]) hrest hdealt
          · simp only [hserved'] at hact
            obtain ⟨rfl, rfl⟩ := Prod.mk.inj (Option.some.inj hact)
            exact .working rfl (fun _ => hserved.resolve_left hserved') hrest hdealt
      | _ => simp [code, relayCode] at hcode
  | _ => simp [code, relayCode] at hcode

end Ticks

section Soundness

/-- The mark of an event is refused only where its row is gone. -/
def MarksRightly (q : Control) (s : Database) (r : Except Failure Control) (_ : Database) : Prop :=
  ∀ event rest e, q = .relay (.marking event rest) → r = .error e →
    outboxEvent.find s event.id = none

def tickSpec (config : Config) (q : Control) (s : Database) (r : Except Failure Control)
    (s' : Database) : Prop :=
  controlSpec config q s r s' ∧ MarksRightly q s r s'

theorem takesEffect_marksRightly {config : Config} {q : Control} {t : Sql Control}
    {onError : Failure → Control} (hq : Lifecycle q) (hcode : code config q = .tx t onError)
    (s : Database) : TakesEffect Choice.supplied Persists (MarksRightly q) t s [] := by
  by_cases hmarks : ∃ event rest, q = .relay (.marking event rest)
  · obtain ⟨event, rest, rfl⟩ := hmarks
    obtain ⟨rfl, _⟩ := Code.tx.inj hcode
    have hmark : TakesEffect Choice.supplied Persists
        (fun s (r : Except Failure Unit) _ => ∀ e, r = .error e →
          outboxEvent.find s event.id = none) (markOutboxPublished event.id) s [] := by
      refine Table.takesEffect_updateMany (fun s' _ _ hmiss => takesEffect_abort _ fun _ _ => ?_)
        (fun c s' row new _ _ _ _ _ _ _ => takesEffect_commit _ (by simp) fun _ _ _ e he => ?_)
        fun _ _ => rfl
      · exact Option.eq_none_iff_forall_ne_some.mpr fun row hrow => by simpa using hmiss row hrow
      · cases he
    refine (hmark.map _).mono fun s r s' hspec event' rest' e heq hr => ?_
    obtain ⟨rfl, rfl⟩ : event = event' ∧ rest = rest' := by simpa using heq
    rw [hr] at hspec
    exact hspec e rfl
  · exact (control_takesEffect config hq hcode s).mono fun s r s' _ event rest e heq =>
      absurd ⟨event, rest, heq⟩ hmarks

theorem sound_tick (config : Config) :
    Sound (service config) Lifecycle Persists (tickSpec config) where
  refl := (sound config).refl
  trans := (sound config).trans
  guarantee q s r s' hq h := (sound config).guarantee q s r s' hq h.1
  takesEffect _ _ _ hq hcode s :=
    (control_takesEffect config hq hcode s).and (takesEffect_marksRightly hq hcode s)
  live_ok q t onError s q' s' hq hcode h := (sound config).live_ok q t onError s q' s' hq hcode h.1
  live_error := (sound config).live_error
  live_act := (sound config).live_act
  live_crashed := (sound config).live_crashed

end Soundness

theorem AtTick.relay {failing : Bool} {events : List UnpublishedOutboxEvent} {s₀ s : Database}
    {q : Control} (h : AtTick failing events s₀ s q) : (relay? q).isSome := by
  cases h <;> rfl

theorem AtTick.dealt {failing : Bool} {events rest : List UnpublishedOutboxEvent}
    {s₀ s : Database} {state : OutboxRelayService.State}
    (h : AtTick failing events s₀ s (.relay state)) (hrest : remaining? state = some rest) :
    ∀ event ∈ events, event ∈ rest ∨ Dealt failing s₀ s event := by
  cases h with
  | working hremaining _ _ hdealt =>
      obtain rfl := Option.some.inj (hremaining.symm.trans hrest)
      exact hdealt
  | _ => cases hrest

theorem AtTick.failing_of_error {config : Config} {failing : Bool}
    {events : List UnpublishedOutboxEvent} {s₀ s s' : Database} {q : Control} {t : Sql Control}
    {onError : Failure → Control} {e : Failure} (h : AtTick failing events s₀ s q)
    (hlisted : ∀ event ∈ events, Listed s₀ s event) (hcode : code config q = .tx t onError)
    (hspec : tickSpec config q s (.error e) s') : failing := by
  cases h with
  | @working state _ hremaining hrecords hrest hdealt =>
      cases state with
      | marking event rest =>
          obtain rfl := Option.some.inj hremaining
          have hgone := hspec.2 event rest e rfl rfl
          obtain ⟨_, row, _, hrow, _⟩ := hlisted event (hrest event List.mem_cons_self)
          rw [hgone] at hrow
          cases hrow
      | recording event description rest => exact hrecords rfl
      | fetching => cases hremaining
      | _ => simp [code, relayCode] at hcode
  | _ => simp [code, relayCode] at hcode

section Steps

variable {config : Config} {failing : Bool} {i : Nat} {events : List UnpublishedOutboxEvent}
  {s₀ : Database} {a a' : ServiceSnapshot} {l : ServiceLabel}

theorem Ticking.set (h : Ticking failing i events s₀ a)
    (hledger : ∀ m, Ledger (aggregate a.store m)) {j : Nat} {q q' : Control} {s : Database}
    {o : Outside} (hq : a.controls[j]? = some q) (heffect : StepEffect q a.store s)
    (hown : j = i → AtTick failing events s₀ a.store q → AtTick failing events s₀ s q') :
    Ticking failing i events s₀ ⟨s, a.controls.set j q', o⟩ := by
  obtain ⟨own, hat, htick⟩ := h.atTick
  refine ⟨fun event hevent => (h.listed event hevent).of_stepEffect hledger heffect, ?_⟩
  by_cases hj : j = i
  · subst hj
    obtain rfl := Option.some.inj (hq.symm.trans hat)
    exact ⟨q', List.getElem?_set_self (List.getElem?_eq_some_iff.mp hq).1, hown rfl htick⟩
  · exact ⟨own, (List.getElem?_set_ne hj).trans hat, htick.of_stepEffect hledger heffect⟩

theorem Ticking.step (h : Ticking failing i events s₀ a)
    (hledger : ∀ m, Ledger (aggregate a.store m)) (hrelayed : Queueable failing events)
    (hl : failing = false → unfailing i a l)
    (hstep : Atomic (service config) (tickSpec config) a l a') :
    Ticking failing i events s₀ a' := by
  have hfails : ∀ {j : Nat}, (unfailing i a l → j ≠ i) → j = i → failing := by
    intro j hne hj
    by_contra hfailing
    exact hne (hl (Bool.eq_false_iff.mpr hfailing)) hj
  cases hstep with
  | spawn q =>
      obtain ⟨own, hat, htick⟩ := h.atTick
      refine ⟨h.listed, own, ?_, htick⟩
      rw [List.getElem?_append_left (List.getElem?_eq_some_iff.mp hat).1, hat]
  | answer hq hcode hspec =>
      exact h.set hledger hq (stepEffect_of_controlSpec hspec.1) fun _ htick =>
        htick.ok hrelayed hledger h.listed hspec.1
  | commit hq hcode hspec =>
      exact h.set hledger hq (stepEffect_of_controlSpec hspec.1) fun _ htick =>
        htick.ok hrelayed hledger h.listed hspec.1
  | error hq hcode hspec =>
      exact h.set hledger hq (Or.inl rfl) fun _ htick =>
        htick.error (htick.failing_of_error h.listed hcode hspec) hcode _
  | act hq hcode hact =>
      refine h.set hledger hq (Or.inl rfl) fun hj htick => htick.act ?_ hcode hact
      subst hj
      refine or_iff_not_imp_right.mpr fun hfailing => ?_
      have hserved := hl (Bool.eq_false_iff.mpr hfailing)
      simpa [unfailing, hq, htick.relay] using hserved
  | lost hq hcode hspec =>
      have heffect := stepEffect_of_controlSpec hspec.1
      refine h.set hledger hq heffect fun hj htick =>
        (htick.of_stepEffect hledger heffect).error (hfails ?_ hj) hcode _
      simp [unfailing]
  | fault hq hcode =>
      refine h.set hledger hq (Or.inl rfl) fun hj htick => htick.error (hfails ?_ hj) hcode _
      simp [unfailing]
  | crash hq hhalt =>
      refine h.set hledger hq (Or.inl rfl) fun hj htick => ?_
      have hfailing := hfails (by simp [unfailing]) hj
      cases htick <;> exact .crashed hfailing
  | env hmove => exact ⟨h.listed, h.atTick⟩

end Steps

section Runs

variable {config : Config} {w w' : ServiceWorld} {failing : Bool} {i : Nat}
  {events : List UnpublishedOutboxEvent} {state : OutboxRelayService.State}

theorem fetched_of_remaining (h : Reaches config (Spawning (delivers ·)) Initial w)
    (hat : w.abs.controls[i]? = some (.relay state)) (hrest : remaining? state = some events) :
    ∀ event ∈ events, Fetched w.store event := by
  have hpublished := published_of_reaches
    (h.mono fun _ _ hl q hq => publishes_of_delivers (hl q hq))
  have hbatch := hpublished.batches i _ state hat rfl
  cases state with
  | adding event queueJob rest =>
      obtain rfl := Option.some.inj hrest
      exact hbatch.2
  | marking event rest =>
      obtain rfl := Option.some.inj hrest
      exact hbatch.1
  | recording event description rest =>
      obtain rfl := Option.some.inj hrest
      exact hbatch
  | drained =>
      obtain rfl := Option.some.inj hrest
      simp
  | _ => cases hrest

theorem ticking_start (h : Reaches config (Spawning (delivers ·)) Initial w)
    (hat : w.abs.controls[i]? = some (.relay state)) (hrest : remaining? state = some events)
    (hrecords : records state → failing) : Ticking failing i events w.store w.abs := by
  refine ⟨fun event hevent => ?_, _, hat, .working hrest hrecords (fun _ h => h) fun _ h =>
    Or.inl h⟩
  obtain ⟨row, hrow, _⟩ := fetched_of_remaining h hat hrest event hevent
  exact ⟨row, row, hrow, hrow, .refl row⟩

theorem delayed_of_delivers {q : Control} (h : delivers q) : Delayed q := by
  refine delayed_of_none ?_
  cases q with
  | calling op => cases op <;> simp_all [delivers, retryDelay?]
  | dispatch state => cases state <;> simp_all [delivers, retryDelay?]
  | _ => rfl

theorem relayed_of_fetched (h : Reaches config (Spawning (delivers ·)) Initial w)
    (hfetched : ∀ event ∈ events, Fetched w.store event) : Queueable failing events := by
  intro _ event hevent
  obtain ⟨row, hrow, haggregate, htype, hpayload⟩ := hfetched event hevent
  have hid : row.id = event.id := Table.idOf_of_find hrow
  rw [← hid] at hrow
  obtain ⟨writer, hwrote⟩ :=
    (agreed_of_reaches (h.mono fun _ _ hl q hq => delayed_of_delivers (hl q hq))).wrote row hrow
  have hjob := queueJobFor_of_wrote hwrote
  have hsame : queueJobFor event = queueJobFor (unpublishedSelect row) := by
    rw [queueJobFor, haggregate, htype, hpayload]
    rfl
  exact ⟨_, hsame.trans hjob⟩

theorem ticking_of_later {ok : ServiceSnapshot → ServiceLabel → Prop}
    (hok : ∀ a l, ok a l → Spawning (delivers ·) a l ∧ (failing = false → unfailing i a l))
    (h : Reaches config (Spawning (delivers ·)) Initial w) {s₀ : Database}
    (hrelayed : Queueable failing events) (htick : Ticking failing i events s₀ w.abs)
    (hlater : Later config ok w w') : Ticking failing i events s₀ w'.abs := by
  induction hlater with
  | start h0 => exact h0 ▸ htick
  | next l hprev hl hstep ih =>
      have hreach := h.later (fun a l hl => (hok a l hl).1) hprev
      have hledger := ledger_of_reachable (hreach.atomic lifecycle_of_delivering).2
      have hconsistent := (hreach.simulated (sound_tick config) lifecycle_of_delivering).1
      have hspawn := (hok _ l hl).1
      obtain hsame | hatomic := (simulates (sound_tick config) hconsistent
        (fun q hq => lifecycle_of_delivering _ q (hq ▸ hspawn)) hstep).2
      · exact hsame ▸ ih
      · exact ih.step hledger hrelayed (hok _ l hl).2 hatomic

/-- A tick goes through its whole batch: at every later time of a tick that is still at
work or has come to its end, each event that it had to deal with is still to come, is
published, or has one more failure counted. -/
theorem tick_deals_with_batch (h : Reaches config (Spawning (delivers ·)) Initial w)
    (hlater : Later config (Spawning (delivers ·)) w w')
    (hat : w.abs.controls[i]? = some (.relay state)) (hrest : remaining? state = some events)
    {state' : OutboxRelayService.State} {rest : List UnpublishedOutboxEvent}
    (hat' : w'.abs.controls[i]? = some (.relay state')) (hrest' : remaining? state' = some rest) :
    ∀ event ∈ events, event ∈ rest ∨
      ∃ row row', outboxEvent.find w.store event.id = some row ∧
        outboxEvent.find w'.store event.id = some row' ∧
        (row'.publishedAt.isSome ∨ row.retryCount < row'.retryCount) := by
  have hstart : Ticking true i events w.store w.abs := ticking_start h hat hrest fun _ => rfl
  have htick := ticking_of_later (fun _ _ hl => ⟨hl, fun hfailing => by cases hfailing⟩) h
    (fun hfailing => by cases hfailing) hstart hlater
  obtain ⟨q, hq, htick⟩ := htick.atTick
  obtain rfl := Option.some.inj (hq.symm.trans hat')
  intro event hevent
  refine (htick.dealt hrest' event hevent).imp_right fun ⟨row, row', hrow, hrow', hdealt⟩ => ?_
  exact ⟨row, row', hrow, hrow', hdealt.imp_right And.right⟩

/-- A tick has fetched the event of a new message. -/
def fetched : List ServiceLabel :=
  creation ++ .spawn (.relay (.fetching 1)) :: statements 1 1 (sampleChoice "" 1)

/-- The relay `i` has the event of the message `m` to deal with. -/
def dealsWith (m : String) (i : Nat) (w : ServiceWorld) : Bool :=
  (w.abs.controls[i]?.bind relay?).any fun state => !records state &&
    (remaining? state).any fun events => events.map UnpublishedOutboxEvent.id = [m]

/-- The tick has come to its end. -/
def hasDrained (i : Nat) (w : ServiceWorld) : Bool :=
  (w.abs.controls[i]?.bind relay?).any fun state => (remaining? state).any List.isEmpty

theorem relay_of_relay? {q : Control} (h : relay? q = some state) : q = .relay state := by
  cases q with
  | relay state' => rw [Option.some.inj h]
  | _ => cases h

theorem exists_of_dealsWith {m : String} (h : dealsWith m i w) :
    ∃ state event, w.abs.controls[i]? = some (.relay state) ∧ records state = false ∧
      remaining? state = some [event] ∧ event.id = m := by
  obtain ⟨state, hstate, hdeals⟩ := (Option.any_eq_true _ _).mp h
  obtain ⟨q, hq, hstate⟩ := Option.bind_eq_some_iff.mp hstate
  rw [Bool.and_eq_true, Bool.not_eq_true'] at hdeals
  obtain ⟨events, hevents, hids⟩ := (Option.any_eq_true _ _).mp hdeals.2
  obtain ⟨event, rfl, hid⟩ := List.map_eq_singleton_iff.mp (of_decide_eq_true hids)
  exact ⟨state, event, relay_of_relay? hstate ▸ hq, hdeals.1, hevents, hid⟩

theorem exists_of_hasDrained (h : hasDrained i w) :
    ∃ state, w.abs.controls[i]? = some (.relay state) ∧ remaining? state = some [] := by
  obtain ⟨state, hstate, hempty⟩ := (Option.any_eq_true _ _).mp h
  obtain ⟨q, hq, hstate⟩ := Option.bind_eq_some_iff.mp hstate
  obtain ⟨events, hevents, hnil⟩ := (Option.any_eq_true _ _).mp hempty
  obtain rfl := List.isEmpty_iff.mp hnil
  exact ⟨state, relay_of_relay? hstate ▸ hq, hevents⟩

/-- A tick whose only add fails. -/
theorem tick_deals_with_batch_refused :
    ∃ w w' row row', Reaches sampleConfig (Spawning (delivers ·)) Initial w ∧
      Later sampleConfig (Spawning (delivers ·)) w w' ∧
      outboxEvent.find w.store "m" = some row ∧ outboxEvent.find w'.store "m" = some row' ∧
      (row'.publishedAt.isSome ∨ row.retryCount < row'.retryCount) := by
  obtain ⟨w, hw, hdeals, hrest⟩ := exists_reaches_of_exec sampleConfig (Spawning (delivers ·))
    fetched
    (fun w => dealsWith "m" 1 w ∧
      (exec (service sampleConfig).step (fun w l => Spawning (delivers ·) w.abs l) w
        (statements 1 1 { sampleChoice "" 2 with served := false } ++
          statements 1 1 (sampleChoice "" 3) ++ [.commit 1])).any (hasDrained 1))
    (by decide +kernel)
  obtain ⟨w', hw', hdrained⟩ := (Option.any_eq_true _ _).mp hrest
  have hlater : Later sampleConfig (Spawning (delivers ·)) w w' :=
    reachable_of_exec (Reachable.start rfl) hw'
  obtain ⟨state, event, hat, _, hremaining, hid⟩ := exists_of_dealsWith hdeals
  obtain ⟨state', hat', hremaining'⟩ := exists_of_hasDrained hdrained
  have hdealt := tick_deals_with_batch hw hlater hat hremaining hat' hremaining' event
    List.mem_cons_self
  obtain ⟨row, row', hrow, hrow', hcounted⟩ := hdealt.resolve_left List.not_mem_nil
  exact ⟨w, w', row, row', hw, hlater, hid ▸ hrow, hid ▸ hrow', hcounted⟩

/-- A tick for which nothing fails does not fail, whatever the others do and whatever
happens to them, and each event that it had to deal with is still to come, or its job has
been added and it is published. -/
theorem unfailing_tick_publishes (h : Reaches config (Spawning (delivers ·)) Initial w)
    (hlater : Later config (fun a l => Spawning (delivers ·) a l ∧ unfailing i a l) w w')
    (hat : w.abs.controls[i]? = some (.relay state)) (hrest : remaining? state = some events)
    (hrecords : records state = false) :
    ∃ state' rest, w'.abs.controls[i]? = some (.relay state') ∧ remaining? state' = some rest ∧
      ∀ event ∈ events, event ∈ rest ∨
        ∃ row, outboxEvent.find w'.store event.id = some row ∧ row.publishedAt.isSome ∧
          ∃ job ∈ w'.ext.added, Publishes row.eventType row.aggregateId row.id job := by
  have hstart : Ticking false i events w.store w.abs :=
    ticking_start h hat hrest fun hrecording => by simp [hrecords] at hrecording
  have htick := ticking_of_later (fun _ _ hl => ⟨hl.1, fun _ => hl.2⟩) h
    (relayed_of_fetched h (fetched_of_remaining h hat hrest)) hstart hlater
  have hpublished := published_of_reaches ((h.later (fun _ _ hl => hl.1) hlater).mono
    fun _ _ hl q hq => publishes_of_delivers (hl q hq))
  obtain ⟨q, hq, htick⟩ := htick.atTick
  cases htick with
  | working hremaining _ _ hdealt =>
      refine ⟨_, _, hq, hremaining, fun event hevent => ?_⟩
      refine (hdealt event hevent).imp_right fun ⟨_, row, _, hrow, hmarked⟩ => ?_
      obtain hmarked | ⟨hfailing, _⟩ := hmarked
      · obtain ⟨job, hjob, hpublishes⟩ :=
          hpublished.marked event.id row hrow (Option.isSome_iff_ne_none.mp hmarked)
        exact ⟨row, hrow, hmarked, job, hjob, hpublishes⟩
      · cases hfailing
  | tickFailed hfailing | crashed hfailing => cases hfailing

instance unfailing.decidable (i : Nat) (a : ServiceSnapshot) (l : ServiceLabel) :
    Decidable (Spawning (delivers ·) a l ∧ unfailing i a l) :=
  inferInstanceAs (Decidable (_ ∧ _))

/-- A tick that publishes its event while another one that has fetched it too crashes. -/
theorem unfailing_tick_publishes_beside_crash :
    ∃ w', (∃ w, Reaches sampleConfig (Spawning (delivers ·)) Initial w ∧
        Later sampleConfig (fun a l => Spawning (delivers ·) a l ∧ unfailing 1 a l) w w') ∧
      hasDrained 1 w' ∧ ∃ row, outboxEvent.find w'.store "m" = some row ∧
        row.publishedAt.isSome ∧
        ∃ job ∈ w'.ext.added, Publishes row.eventType row.aggregateId row.id job := by
  obtain ⟨w, hw, hdeals, hrest⟩ := exists_reaches_of_exec sampleConfig (Spawning (delivers ·))
    (fetched ++ .spawn (.relay (.fetching 1)) :: statements 2 1 (sampleChoice "" 1))
    (fun w => dealsWith "m" 1 w ∧
      (exec (service sampleConfig).step
        (fun w l => Spawning (delivers ·) w.abs l ∧ unfailing 1 w.abs l) w
        (statements 1 1 (sampleChoice "" 2) ++ .crash 2 ::
          statements 1 1 (sampleChoice "" 3) ++ [.commit 1])).any (hasDrained 1))
    (by decide +kernel)
  obtain ⟨w', hw', hdrained⟩ := (Option.any_eq_true _ _).mp hrest
  have hlater : Later sampleConfig (fun a l => Spawning (delivers ·) a l ∧ unfailing 1 a l) w w' :=
    reachable_of_exec (Reachable.start rfl) hw'
  obtain ⟨state, event, hat, hrecords, hremaining, hid⟩ := exists_of_dealsWith hdeals
  obtain ⟨state', rest, hat', hremaining', hpublished⟩ :=
    unfailing_tick_publishes hw hlater hat hremaining hrecords
  obtain ⟨ended, hat'', hempty⟩ := exists_of_hasDrained hdrained
  obtain rfl := Control.relay.inj (Option.some.inj (hat'.symm.trans hat''))
  obtain rfl := Option.some.inj (hremaining'.symm.trans hempty)
  have hdone := (hpublished event List.mem_cons_self).resolve_left List.not_mem_nil
  exact ⟨w', ⟨w, hw, hlater⟩, hdrained, hid ▸ hdone⟩

end Runs

end SmsNotification.RelayTicks

import Mathlib.Algebra.Order.Ring.Unbundled.Rat
import SmsNotification.NoDuplicateDelivery
import SmsNotification.OutboxConservation

namespace SmsNotification.ParkedMessages

open SmsNotification.ActorSystem
open SmsNotification.AttemptLedger
open SmsNotification.LabelledRuns
open SmsNotification.LifecycleConformance
open SmsNotification.LifecycleEffects
open SmsNotification.MessageAggregate
open SmsNotification.NoDuplicateDelivery
open SmsNotification.OutboxConservation
open SmsNotification.Reservations
open SmsNotification.Schema
open SmsNotification.Service
open SmsNotification.ServiceEffects
open SmsNotification.ServiceRuns
open SmsNotification.SmsLifecycleRepository
open SmsNotification.SmsProcessor (Hold)
open SmsNotification.SmsStateMachine
open SmsNotification.Surroundings

/-- The message awaits its provider result. -/
def awaits (A : Aggregate) : Bool :=
  A.status = some .awaitingProviderResult

section Messages

variable {q : Control} {m : String} {A A' : Aggregate}

theorem not_awaits_of_transition {source : SmsStatus → Bool} {target : SmsStatus}
    {data : SmsMessage → SmsMessage} {intent : Option OutboxIntent}
    (h : Transition m source target data intent) : target ≠ .awaitingProviderResult := by
  cases h with
  | permanent status => cases status <;> simp [PermanentProviderFailureStatus.status]
  | reported status => cases status <;> simp [DeliveryTerminalStatus.status]
  | _ => simp

theorem attempts_of_awaits (h : MessageStep q m A A') (hawaits : awaits A') :
    (∃ provider attemptId, reserving? q = some (m, provider) ∧
        Reserved m provider attemptId A A') ∨
      (awaits A ∧ ∃ old ∈ A.attempts, ∃ input : FinalizeProviderAttemptInput,
        isUnresolved (input.record old) ∧
          A'.attempts = smsAttempt.replace (input.record old) A.attempts) ∨
      (awaits A ∧ A'.attempts = A.attempts) := by
  cases h with
  | created call hcreated =>
      obtain ⟨c, events', _, _, _, _, rfl⟩ := hcreated
      simp [awaits, Aggregate.status, SmsPersistenceRepository.CreateOrGetMessage.message]
        at hawaits
  | moved htransition hmoved =>
      obtain ⟨_, _, _, htarget⟩ := Moved.status hmoved
      simp [awaits, htarget, not_awaits_of_transition htransition] at hawaits
  | requeued _ hrequeued =>
      obtain ⟨_, _, _, htarget⟩ := Moved.status hrequeued
      simp [awaits, htarget] at hawaits
  | reserved provider attemptId hq hreserved => exact Or.inl ⟨provider, attemptId, hq, hreserved⟩
  | finalized attemptId input _ hfinalized =>
      obtain ⟨old, hold, _, _, hrest⟩ := hfinalized
      rcases input with providerMessageId | ⟨_ | _, isRetryable, errorMessage, delayMs⟩
      · obtain ⟨row, now, _, _, rfl⟩ := hrest
        simp [awaits, Aggregate.status] at hawaits
      · obtain ⟨row, now, _, _, rfl⟩ := hrest
        simp [awaits, Aggregate.status] at hawaits
      · obtain ⟨delay, events', _, _, rfl⟩ := hrest
        exact Or.inr (Or.inl ⟨hawaits, old, hold, _, rfl, rfl⟩)
  | resolved attemptId input hresolved =>
      obtain ⟨row, c, c', _, _, _, rfl⟩ := hresolved
      rcases input with providerMessageId | _
      · simp [awaits, Aggregate.status, ResolveTwilioAttemptInput.apply] at hawaits
      · simp [awaits, Aggregate.status, ResolveTwilioAttemptInput.apply] at hawaits
  | relayed hrelayed =>
      obtain ⟨event, _, data, c, _, rfl⟩ := hrelayed
      exact Or.inr (Or.inr ⟨hawaits, rfl⟩)

/-- A message that awaits its result has an attempt without one. -/
def Attempted (A : Aggregate) : Prop :=
  awaits A → ∃ a ∈ A.attempts, a.outcome = .reserved ∨ isUnresolved a

theorem attempted_of_messageStep (hinv : Attempted A) (h : MessageStep q m A A') :
    Attempted A' := by
  intro hawaits
  obtain ⟨provider, attemptId, _, row, now, c, _, _, _, rfl⟩ |
    ⟨_, old, hold, input, hunresolved, hattempts⟩ | ⟨hbefore, hattempts⟩ :=
    attempts_of_awaits h hawaits
  · exact ⟨_, List.mem_append_right _ List.mem_cons_self, Or.inl rfl⟩
  · rw [hattempts]
    exact ⟨_, Table.mem_replace_of_eq hold (record_id input old).symm, Or.inr hunresolved⟩
  · rw [hattempts]
    exact hinv hbefore

theorem reserved_before (h : MessageStep q m A A') {x : SmsAttempt} (hx : x ∈ A'.attempts)
    (hreserved : x.outcome = .reserved) (hawaits : awaits A') :
    (x ∈ A.attempts ∧ awaits A) ∨ ∃ provider, reserving? q = some (m, provider) := by
  obtain ⟨provider, attemptId, hq, _⟩ | ⟨hbefore, old, _, input, hunresolved, hattempts⟩ |
    ⟨hbefore, hattempts⟩ := attempts_of_awaits h hawaits
  · exact Or.inr ⟨provider, hq⟩
  · rw [hattempts] at hx
    rcases Table.mem_of_mem_replace hx with rfl | ⟨hx, _⟩
    · simp [isUnresolved, hreserved] at hunresolved
    · exact Or.inl ⟨hx, hbefore⟩
  · exact Or.inl ⟨hattempts ▸ hx, hbefore⟩

theorem eq_of_reserved (hledger : Ledger A) {provider attemptId : String}
    (h : Reserved m provider attemptId A A') {x : SmsAttempt} (hx : x ∈ A'.attempts)
    (hreserved : x.outcome = .reserved) : x.id = attemptId := by
  obtain ⟨row, now, c, hrow, hstatus, hid, rfl⟩ := h
  rcases List.mem_append.mp hx with hx | hx
  · have hidle := hledger.idle row hrow (by rw [hstatus]; rfl) x hx
    exact absurd (hledger.live_of_reserved hx hreserved) hidle
  · rw [List.mem_singleton.mp hx]
    exact hid

end Messages

section Controls

variable {config : Config} {q q' : Control} {s s' : Database} {m : String}

theorem hold_of_reserving (h : controlSpec config q s (.ok q') s') (hcall : isCall q = false)
    {provider : String} (hq : reserving? q = some (m, provider)) :
    s' = s ∨ ∃ hold, hold? q' = some hold ∧
      Changes m (Reserved m provider hold.attemptId) s s' := by
  unfold reserving? at hq
  split at hq
  · simp [isCall] at hcall
  · rename_i pass provider' rest
    obtain ⟨rfl, rfl⟩ := Prod.mk.inj (Option.some.inj hq)
    obtain ⟨reservation, rfl, hspec⟩ := h
    cases reservation with
    | reserved attemptId => exact Or.inr ⟨⟨pass, provider', rest, attemptId⟩, rfl, hspec.1⟩
    | notReservable => exact Or.inl hspec
  · simp at hq

theorem recorded_of_finalizing {hold : Hold} {input : FinalizeProviderAttemptInput}
    (h : controlSpec config (.dispatch (.finalizing hold input)) s (.ok q') s') {x : SmsAttempt}
    (hx : smsAttempt.find s' hold.attemptId = some x) : x.outcome ≠ .reserved := by
  obtain ⟨_, _, A', hfinalized, hupdate⟩ := h
  obtain ⟨old, hold', hid, _, hattempts, _⟩ := Finalized.attempts hfinalized
  have hrecord : input.record old ∈ (aggregate s' hold.pass.task.messageId).attempts := by
    rw [hupdate, Function.update_self, hattempts]
    exact Table.mem_replace_of_eq hold' (record_id input old).symm
  rw [mem_attempts_iff, record_id, hid, hx] at hrecord
  obtain rfl := Option.some.inj hrecord.1
  cases input <;> simp [FinalizeProviderAttemptInput.record]

/-- The expiry that goes with an ambiguous result is one that is accepted. -/
def Expires : FinalizeProviderAttemptInput → Prop
  | .failed true _ _ delayMs => delayMs.filter isPositiveInteger ≠ none
  | _ => True

theorem expires_recordedResult (config : SmsProcessor.Config) (result : SendSmsResult) :
    Expires (SmsProcessor.recordedResult config result) := by
  have hpos : (0 : ℚ) < config.ambiguousOutcomeExpiryMs :=
    Rat.num_pos.mp (by simpa using config.expiry_pos)
  have hpositive : isPositiveInteger config.ambiguousOutcomeExpiryMs := by
    simp [isPositiveInteger, hpos]
  unfold SmsProcessor.recordedResult
  split
  · trivial
  · cases hambiguous : (SmsProcessor.classify result).isAmbiguous with
    | false => simp [Expires, hambiguous]
    | true => simp [Expires, hambiguous, hpositive]

end Controls

/-- A worker holds the attempt: it is between its reservation and its finalization. -/
def Attending (a : ServiceSnapshot) (attempt : SmsAttempt) : Prop :=
  ∃ (i : Nat) (q : Control) (hold : Hold), a.controls[i]? = some q ∧ hold? q = some hold ∧
    hold.attemptId = attempt.id

/-- The message of the hold awaits its result. -/
def holdAwaits (s : Database) (hold : Hold) : Bool :=
  awaits (aggregate s hold.pass.task.messageId)

/-- The step makes a worker give up the reservation of a message that awaits its
result: the worker crashes, its limiter or provider call fails, its finalization
is rejected, or it does not learn that it has reserved. -/
def abandons (a : ServiceSnapshot) : ServiceLabel → Bool
  | .crash i => (a.controls[i]?.bind hold?).any (holdAwaits a.store)
  | .fault i =>
      match a.controls[i]? with
      | some (.dispatch (.finalizing hold _)) => holdAwaits a.store hold
      | _ => false
  | .lost i =>
      match a.controls[i]? with
      | some (.dispatch (.reserving _ _ _)) => true
      | _ => false
  | .run i c =>
      match a.controls[i]? with
      | some (.dispatch (.acquiring hold)) => !c.served && holdAwaits a.store hold
      | some (.dispatch (.awaiting hold _)) => c.reply.isNone && holdAwaits a.store hold
      | _ => false
  | _ => false

/-- The invariant where no reservation is given up: every reservation of a message
that awaits its result is held. -/
structure Attended (a : ServiceSnapshot) : Prop where
  calls : ∀ (i : Nat) q, a.controls[i]? = some q → isCall q → delivers q
  expiring : ∀ (i : Nat) hold input, a.controls[i]? = some (.dispatch (.finalizing hold input)) →
    Expires input
  attended : ∀ m, ∀ attempt ∈ (aggregate a.store m).attempts, attempt.outcome = .reserved →
    awaits (aggregate a.store m) → Attending a attempt

section Preservation

variable {config : Config} {a a' : ServiceSnapshot}

theorem Attended.attended_set (h : Attended a) (hguarded : Guarded a) {i : Nat} {q q' : Control}
    {s : Database} {x : Outside} (hq : a.controls[i]? = some q) (heffect : StepEffect q a.store s)
    (hown : ∀ hold, hold? q = some hold → holdAwaits a.store hold → hold? q' = some hold ∨
      ∀ attempt, smsAttempt.find s hold.attemptId = some attempt → attempt.outcome ≠ .reserved)
    (hnew : ∀ m provider, reserving? q = some (m, provider) → s = a.store ∨
      ∃ hold, hold? q' = some hold ∧ Changes m (Reserved m provider hold.attemptId) a.store s)
    (m : String) {attempt : SmsAttempt} (hattempt : attempt ∈ (aggregate s m).attempts)
    (hreserved : attempt.outcome = .reserved) (hawaits : awaits (aggregate s m)) :
    Attending ⟨s, a.controls.set i q', x⟩ attempt := by
  obtain ⟨hlt, hget⟩ := List.getElem?_eq_some_iff.mp hq
  have hi : (a.controls.set i q')[i]? = some q' := by
    rw [List.getElem?_set_self hlt]
  have hbefore : (attempt ∈ (aggregate a.store m).attempts ∧ awaits (aggregate a.store m)) ∨
      ∃ hold, hold? q' = some hold ∧ hold.attemptId = attempt.id := by
    obtain hsame | hstep := message_of_stepEffect heffect m
    · rw [hsame] at hattempt hawaits
      exact Or.inl ⟨hattempt, hawaits⟩
    · obtain hbefore | ⟨provider, hreserving⟩ := reserved_before hstep hattempt hreserved hawaits
      · exact Or.inl hbefore
      · obtain rfl | ⟨hold, hhold, A', hchange, hupdate⟩ := hnew m provider hreserving
        · exact Or.inl ⟨hattempt, hawaits⟩
        · rw [hupdate, Function.update_self] at hattempt
          exact Or.inr ⟨hold, hhold,
            (eq_of_reserved (hguarded.ledger m) hchange hattempt hreserved).symm⟩
  rcases hbefore with ⟨hattempt', hawaits'⟩ | ⟨hold, hhold, hid⟩
  · obtain ⟨j, q₂, hold, hq₂, hhold, hid⟩ := h.attended m attempt hattempt' hreserved hawaits'
    by_cases hij : i = j
    · subst hij
      obtain rfl := Option.some.inj (hq.symm.trans hq₂)
      obtain ⟨row, hrow, hm, _⟩ := hguarded.held.reserved i q hold hq hhold
      have hmem := mem_attempts_iff.mp hattempt'
      rw [hid, hmem.1] at hrow
      obtain rfl := Option.some.inj hrow
      have hholdAwaits : holdAwaits a.store hold := by
        rw [holdAwaits, ← hm, hmem.2]
        exact hawaits'
      obtain hkept | hrecorded := hown hold hhold hholdAwaits
      · exact ⟨i, q', hold, hi, hkept, hid⟩
      · exact absurd hreserved (hrecorded attempt (hid ▸ (mem_attempts_iff.mp hattempt).1))
    · exact ⟨j, q₂, hold, by rw [List.getElem?_set_ne hij, hq₂], hhold, hid⟩
  · exact ⟨i, q', hold, hi, hhold, hid⟩

theorem Attended.set (h : Attended a) (hguarded : Guarded a) {i : Nat} {q q' : Control}
    {s : Database} {x : Outside} (hq : a.controls[i]? = some q) (hcall : isCall q' = false)
    (hexpires : ∀ hold input, q' = .dispatch (.finalizing hold input) → Expires input)
    (heffect : StepEffect q a.store s)
    (hown : ∀ hold, hold? q = some hold → holdAwaits a.store hold → hold? q' = some hold ∨
      ∀ attempt, smsAttempt.find s hold.attemptId = some attempt → attempt.outcome ≠ .reserved)
    (hnew : ∀ m provider, reserving? q = some (m, provider) → s = a.store ∨
      ∃ hold, hold? q' = some hold ∧ Changes m (Reserved m provider hold.attemptId) a.store s) :
    Attended ⟨s, a.controls.set i q', x⟩ := by
  constructor
  · intro j q₂ hq₂ hcall₂
    rcases getElem?_set_eq_some hq₂ with ⟨_, rfl⟩ | ⟨_, hq₂⟩
    · simp [hcall] at hcall₂
    · exact h.calls j q₂ hq₂ hcall₂
  · intro j hold input hq₂
    rcases getElem?_set_eq_some hq₂ with ⟨_, hq₂⟩ | ⟨_, hq₂⟩
    · exact hexpires hold input hq₂.symm
    · exact h.expiring j hold input hq₂
  · exact fun m attempt => h.attended_set hguarded hq heffect hown hnew m

theorem finalizing_of_hold {q : Control} {t : Sql Control} {onError : Failure → Control}
    (hcode : code config q = .tx t onError) {hold : Hold} (hhold : hold? q = some hold) :
    ∃ input, q = .dispatch (.finalizing hold input) := by
  cases q with
  | dispatch state =>
      cases state with
      | finalizing hold' input =>
          obtain rfl := Option.some.inj hhold
          exact ⟨input, rfl⟩
      | acquiring => simp [code, dispatchCode] at hcode
      | calling => simp [code, dispatchCode] at hcode
      | awaiting => simp [code, dispatchCode] at hcode
      | _ => simp [hold?, SmsProcessor.State.hold?] at hhold
  | _ => simp [hold?] at hhold

theorem Attended.reserving (h : Attended a) {i : Nat} {q : Control} (hq : a.controls[i]? = some q)
    {m provider : String} (hreserving : reserving? q = some (m, provider)) :
    isCall q = false ∧ ∃ pass rest, q = .dispatch (.reserving pass provider rest) := by
  unfold reserving? at hreserving
  split at hreserving
  · have hdelivers := h.calls i _ hq rfl
    simp [delivers] at hdelivers
  · obtain ⟨_, rfl⟩ := Prod.mk.inj (Option.some.inj hreserving)
    exact ⟨rfl, _, _, rfl⟩
  · simp at hreserving

theorem Attended.ok (h : Attended a) (hguarded : Guarded a) {i : Nat} {q q' : Control}
    {t : Sql Control} {onError : Failure → Control} {s : Database} (hq : a.controls[i]? = some q)
    (hcode : code config q = .tx t onError) (hspec : controlSpec config q a.store (.ok q') s) :
    Attended ⟨s, a.controls.set i q', a.ext⟩ := by
  refine h.set hguarded hq (family_of_ok hspec).2 (fun hold input hq' => ?_)
    (stepEffect_of_controlSpec hspec) (fun hold hhold _ => ?_) fun m provider hreserving =>
      hold_of_reserving hspec (h.reserving hq hreserving).1 hreserving
  · obtain hnone | ⟨_, _, _, _, _, hacquiring, _⟩ := hold_of_ok hspec
    · simp [hq', SmsProcessor.State.hold?] at hnone
    · simp [hq'] at hacquiring
  · obtain ⟨input, rfl⟩ := finalizing_of_hold hcode hhold
    exact Or.inr fun attempt hattempt => recorded_of_finalizing hspec hattempt

theorem Attended.failed (h : Attended a) (hguarded : Guarded a) {i : Nat} {q : Control}
    {t : Sql Control} {onError : Failure → Control} {e : Failure} {s : Database}
    (hq : a.controls[i]? = some q) (hcode : code config q = .tx t onError)
    (heffect : StepEffect q a.store s)
    (hown : ∀ hold input, q = .dispatch (.finalizing hold input) → holdAwaits a.store hold →
      ∀ attempt, smsAttempt.find s hold.attemptId = some attempt → attempt.outcome ≠ .reserved)
    (hnew : (∃ m provider, reserving? q = some (m, provider)) → s = a.store) :
    Attended ⟨s, a.controls.set i (onError e), a.ext⟩ := by
  refine h.set hguarded hq (family_of_error hcode e).2 (fun hold input hq' => ?_) heffect
    (fun hold hhold hawaits => ?_)
    fun m provider hreserving => Or.inl (hnew ⟨m, provider, hreserving⟩)
  · have hnone := hold_of_error hcode e
    simp [hq', SmsProcessor.State.hold?] at hnone
  · obtain ⟨input, rfl⟩ := finalizing_of_hold hcode hhold
    exact Or.inr (hown hold input rfl hawaits)

theorem Attended.not_refused (h : Attended a) (hguarded : Guarded a) {i : Nat} {hold : Hold}
    {input : FinalizeProviderAttemptInput}
    (hq : a.controls[i]? = some (.dispatch (.finalizing hold input)))
    (hawaits : holdAwaits a.store hold) :
    ¬FinalizeRefused hold.pass.task.messageId hold.attemptId input a.store := by
  rintro (hnone | hstatus | ⟨isRetryable, errorMessage, delayMs, rfl, hdelay⟩)
  · obtain ⟨row, hrow, hm, hreserved⟩ := hguarded.held.reserved i _ hold hq rfl
    exact hnone row hrow ⟨hm, hreserved⟩
  · obtain ⟨row, hrow, hrowStatus⟩ := Option.map_eq_some_iff.mp (of_decide_eq_true hawaits)
    exact hstatus row hrow hrowStatus
  · exact h.expiring i hold _ hq hdelay

theorem Attended.act (h : Attended a) (hguarded : Guarded a) {i : Nat} {q q' : Control} {c : Choice}
    {x : Outside} (hq : a.controls[i]? = some q) (hacts : Acts config c a.ext q x q')
    (hkeeps : abandons a (.run i c) = false) :
    Attended ⟨a.store, a.controls.set i q', x⟩ := by
  refine h.set hguarded hq hacts.family.2 (fun hold input hq' => ?_) (Or.inl rfl)
    (fun hold hhold hawaits => Or.inl ?_) fun _ _ _ => Or.inl rfl
  · cases hacts with
    | answered hold' call hanswer =>
        cases hreply : c.reply with
        | none => simp [SmsProcessor.afterSend, hreply] at hq'
        | some result =>
            simp only [SmsProcessor.afterSend, hreply, Control.dispatch.injEq,
              SmsProcessor.State.finalizing.injEq] at hq'
            rw [← hq'.2]
            exact expires_recordedResult _ result
    | @took _ job =>
        have hnone : hold? (.dispatch (SmsProcessor.process job)) = none :=
          SmsProcessor.hold?_process job
        simp [hq', SmsProcessor.State.hold?] at hnone
    | _ => simp at hq'
  · cases hacts with
    | acquired => exact hhold
    | started => exact hhold
    | notAcquired hold' hserved =>
        obtain rfl := Option.some.inj hhold
        simp [abandons, hq, hserved, hawaits] at hkeeps
    | answered hold' call hanswer =>
        obtain rfl := Option.some.inj hhold
        cases hreply : c.reply with
        | none => simp [abandons, hq, hreply, hawaits] at hkeeps
        | some result => rfl
    | _ => simp [hold?, SmsProcessor.State.hold?] at hhold

theorem Attended.step (h : Attended a) (hguarded : Guarded a) {l : ServiceLabel}
    (hl : Spawning (delivers ·) a l) (hkeeps : abandons a l = false)
    (hstep : ServiceStep config a l a') : Attended a' := by
  cases hstep with
  | spawn q =>
      have hq := hl q rfl
      constructor
      · intro i q₂ hq₂ hcall
        rcases getElem?_concat_eq_some hq₂ with hq₂ | rfl
        · exact h.calls i q₂ hq₂ hcall
        · exact hq
      · intro i hold input hq₂
        rcases getElem?_concat_eq_some hq₂ with hq₂ | rfl
        · exact h.expiring i hold input hq₂
        · simp [delivers] at hq
      · intro m attempt hattempt hreserved hawaits
        obtain ⟨i, q₂, hold, hq₂, hhold⟩ := h.attended m attempt hattempt hreserved hawaits
        exact ⟨i, q₂, hold, by
          rw [List.getElem?_append_left (List.getElem?_eq_some_iff.mp hq₂).1, hq₂], hhold⟩
  | answer hq hcode hspec => exact h.ok hguarded hq hcode hspec
  | @error i c q e t onError hq hcode hspec =>
      refine h.failed hguarded hq hcode (Or.inl rfl) (fun hold input hfinalizing hawaits => ?_)
        fun _ => rfl
      subst hfinalizing
      exact absurd hspec.2 (h.not_refused hguarded hq hawaits)
  | act hq hcode hact => exact h.act hguarded hq (acts_of_code hcode hact) hkeeps
  | commit hq hcode hspec => exact h.ok hguarded hq hcode hspec
  | lost hq hcode hspec =>
      refine h.failed hguarded hq hcode (stepEffect_of_controlSpec hspec)
        (fun hold input hfinalizing _ attempt hattempt => ?_) fun hreserving => ?_
      · subst hfinalizing
        exact recorded_of_finalizing hspec hattempt
      · obtain ⟨m, provider, hreserving⟩ := hreserving
        obtain ⟨_, pass, rest, rfl⟩ := h.reserving hq hreserving
        simp [abandons, hq] at hkeeps
  | fault hq hcode =>
      refine h.failed hguarded hq hcode (Or.inl rfl) (fun hold input hfinalizing hawaits => ?_)
        fun _ => rfl
      subst hfinalizing
      simp [abandons, hq, hawaits] at hkeeps
  | @crash i q hq _ =>
      refine h.set hguarded hq (family_crash q).2 (fun hold input hq' => ?_) (Or.inl rfl)
        (fun hold hhold hawaits => ?_) fun _ _ _ => Or.inl rfl
      · have hnone : hold? ((service config).crashed q) = none := hold_of_crash q
        simp [hq', SmsProcessor.State.hold?] at hnone
      · simp [abandons, hq, hhold, hawaits] at hkeeps
  | env _ => exact ⟨h.calls, h.expiring, h.attended⟩

end Preservation

section Runs

variable {config : Config} {w : ServiceWorld} {m : String}

/-- The steps of the claim's parties in which no reservation is given up. -/
def Keeping (a : ServiceSnapshot) (l : ServiceLabel) : Prop :=
  Spawning (delivers ·) a l ∧ abandons a l = false

instance Keeping.decidable (a : ServiceSnapshot) (l : ServiceLabel) : Decidable (Keeping a l) :=
  inferInstanceAs (Decidable (_ ∧ _))

theorem delivering_of_keeping (h : Reaches config Keeping Initial w) :
    Reaches config (Spawning (delivers ·)) Initial w :=
  Reachable.mono (fun _ _ hl => hl.1) h

theorem attended_of_reaches (h : Reaches config Keeping Initial w) : Attended w.abs := by
  have hatomic := h.atomic fun _ q hq => (holds_nothing_of_delivers (hq.1 q rfl)).1
  refine Reachable.invariant (fun a hinit => ?_) (fun a l a' hreach hattended hl hstep => ?_)
    hatomic.2
  · constructor <;> simp [hinit.store, hinit.controls, aggregate_empty]
  · exact hattended.step (guarded_of_reachable (hreach.mono fun _ _ hl => hl.1)) hl.1 hl.2 hstep

theorem attempted_of_reaches (h : Reaches config (Spawning (delivers ·)) Initial w) (m : String) :
    Attempted (aggregate w.store m) := by
  refine aggregate_invariant (fun _ A => Attempted A) (fun a hinit m => ?_)
    (fun q m A A' _ hinv hstep => attempted_of_messageStep hinv hstep)
    (h.atomic fun _ q hq => (holds_nothing_of_delivers (hq q rfl)).1).2 m
  rw [hinit.store, aggregate_empty]
  simp [Attempted, awaits, Aggregate.status]

/-- No message is parked where no worker gives up a reservation: a message that
awaits its provider result has a reservation that a worker is still at, or an
expiry. -/
theorem not_parked (h : Reaches config Keeping Initial w)
    (hawaits : (aggregate w.store m).status = some .awaitingProviderResult) :
    (∃ attempt ∈ (aggregate w.store m).attempts, attempt.outcome = .reserved ∧
        Attending w.abs attempt) ∨
      ∃ event ∈ (aggregate w.store m).outbox,
        event.eventType = "SMS_AMBIGUOUS_OUTCOME_EXPIRY_SCHEDULED" := by
  have hdelivers := delivering_of_keeping h
  have hwaiting : awaits (aggregate w.store m) := decide_eq_true hawaits
  obtain ⟨attempt, hattempt, hreserved | hunresolved⟩ := attempted_of_reaches hdelivers m hwaiting
  · exact Or.inl ⟨attempt, hattempt, hreserved,
      (attended_of_reaches h).attended m attempt hattempt hreserved hwaiting⟩
  · have hscheduled : ExpiriesScheduled (aggregate w.store m) := expiriesScheduled_of_reaches
      (hdelivers.mono fun _ _ hl q hq => (holds_nothing_of_delivers (hl q hq)).1) m
    have hpos : 0 < intents isExpiryEvent (aggregate w.store m) := by
      rw [hscheduled]
      exact List.countP_pos_iff.mpr ⟨attempt, hattempt, hunresolved⟩
    obtain ⟨event, hevent, hexpiry⟩ := List.countP_pos_iff.mp hpos
    exact Or.inr ⟨event, hevent, of_decide_eq_true hexpiry⟩

end Runs

/-- The worker's call of the limiter is rejected after it has reserved an attempt:
the message awaits a result for good. -/
theorem parked_after_rejected_acquire :
    ∃ w, Reaches sampleConfig (Spawning (delivers ·)) Initial w ∧
      (aggregate w.store "m").status = some .awaitingProviderResult ∧
      ¬((∃ attempt ∈ (aggregate w.store "m").attempts, attempt.outcome = .reserved ∧
          Attending w.abs attempt) ∨
        ∃ event ∈ (aggregate w.store "m").outbox,
          event.eventType = "SMS_AMBIGUOUS_OUTCOME_EXPIRY_SCHEDULED") := by
  obtain ⟨w, hw, hstatus, hidle, hevents⟩ :=
    exists_reaches_of_exec sampleConfig (Spawning (delivers ·))
      (creation ++ .spawn (.relay (.fetching 1)) :: statements 1 3 (sampleChoice "" 1) ++
        .commit 1 :: .spawn (.dispatch .idle) :: statements 2 3 (sampleChoice "" 2) ++
        .commit 2 :: statements 2 1 (sampleChoice "" 2) ++ statements 2 2 (sampleChoice "a" 2) ++
        .commit 2 :: statements 2 2 { sampleChoice "" 3 with served := false })
      (fun w => (aggregate w.store "m").status = some .awaitingProviderResult ∧
        (∀ q ∈ w.abs.controls, (hold? q).isNone) ∧
        ∀ event ∈ (aggregate w.store "m").outbox,
          event.eventType ≠ "SMS_AMBIGUOUS_OUTCOME_EXPIRY_SCHEDULED")
      (by decide +kernel)
  refine ⟨w, hw, hstatus, ?_⟩
  rintro (⟨attempt, _, _, i, q, hold, hq, hhold, _⟩ | ⟨event, hevent, htype⟩)
  · have hnone := hidle q (List.mem_of_getElem? hq)
    simp [hhold] at hnone
  · exact hevents event hevent htype

/-- A message whose ambiguous result has been recorded with its expiry. -/
theorem not_parked_ambiguous :
    ∃ w, Reaches sampleConfig Keeping Initial w ∧
      (aggregate w.store "m").status = some .awaitingProviderResult ∧
      ((∃ attempt ∈ (aggregate w.store "m").attempts, attempt.outcome = .reserved ∧
          Attending w.abs attempt) ∨
        ∃ event ∈ (aggregate w.store "m").outbox,
          event.eventType = "SMS_AMBIGUOUS_OUTCOME_EXPIRY_SCHEDULED") := by
  obtain ⟨w, hw, hstatus⟩ := exists_reaches_of_exec sampleConfig Keeping
    (creation ++ callingPass ++ recordedAmbiguous)
    (fun w => (aggregate w.store "m").status = some .awaitingProviderResult)
    (by decide +kernel)
  exact ⟨w, hw, hstatus, not_parked hw hstatus⟩

end SmsNotification.ParkedMessages

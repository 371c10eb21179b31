import SmsNotification.AttemptLedger

namespace SmsNotification.Reservations

open SmsNotification.ActorSystem
open SmsNotification.AttemptLedger
open SmsNotification.KeyedStore
open SmsNotification.LabelledRuns
open SmsNotification.LifecycleEffects
open SmsNotification.MessageAggregate
open SmsNotification.ReadCommitted
open SmsNotification.Schema
open SmsNotification.Service
open SmsNotification.ServiceEffects
open SmsNotification.ServiceRuns
open SmsNotification.SmsLifecycleRepository
open SmsNotification.SmsProcessor (Hold)
open SmsNotification.Surroundings

/-- The reservation that an actor holds. -/
def hold? : Control → Option Hold
  | .dispatch state => state.hold?
  | _ => none

@[simp] theorem hold?_dispatch (state : SmsProcessor.State) :
    hold? (.dispatch state) = state.hold? :=
  rfl

theorem hold?_eq_none {q : Control} (h : family q ≠ .dispatch) : hold? q = none := by
  cases q <;> first | rfl | exact absurd rfl h

section Attempts

variable {q : Control} {s s' : Database}

theorem find_attempt_of_stepEffect (h : StepEffect q s s') {id : String} {row : SmsAttempt}
    (hrow : smsAttempt.find s id = some row) :
    smsAttempt.find s' id = some row ∨ ∃ input,
      finalizing? q = some (row.smsMessageId, id, input) ∧ row.outcome = .reserved ∧
        smsAttempt.find s' id = some (input.record row) := by
  obtain rfl : row.id = id := Table.idOf_of_find hrow
  have hmem : row ∈ (aggregate s row.smsMessageId).attempts := mem_attempts_iff.mpr ⟨hrow, rfl⟩
  have hkept : row ∈ (aggregate s' row.smsMessageId).attempts →
      smsAttempt.find s' row.id = some row := fun hmem => (mem_attempts_iff.mp hmem).1
  obtain hsame | hstep := message_of_stepEffect h row.smsMessageId
  · exact Or.inl (hkept (hsame ▸ hmem))
  cases hstep with
  | created call hcreated =>
      obtain ⟨c, events', _, _, _, _, hA⟩ := hcreated
      exact Or.inl (hkept (hA ▸ hmem))
  | moved _ hmoved =>
      obtain ⟨old, now, events', _, _, _, hA⟩ := hmoved
      exact Or.inl (hkept (hA ▸ hmem))
  | requeued _ hrequeued =>
      obtain ⟨old, now, events', _, _, _, hA⟩ := hrequeued
      exact Or.inl (hkept (hA ▸ hmem))
  | reserved providerName attemptId _ hreserved =>
      obtain ⟨old, now, c, _, _, _, hA⟩ := hreserved
      exact Or.inl (hkept (hA ▸ List.mem_append_left _ hmem))
  | finalized attemptId input hq hfinalized =>
      obtain ⟨old, hold, hid, hreserved, hattempts, _⟩ := Finalized.attempts hfinalized
      by_cases hsame : row = old
      · subst hsame
        have hrecord := Table.mem_replace_of_eq (t := smsAttempt) hold (record_id input row).symm
        rw [← hattempts, mem_attempts_iff, record_id] at hrecord
        exact Or.inr ⟨input, hid ▸ hq, hreserved, hrecord.1⟩
      · exact Or.inl (hkept (hattempts ▸ mem_record (keyed _ _).attempts hold hmem hsame))
  | resolved attemptId input hresolved =>
      obtain ⟨old, c, c', _, _, _, hA⟩ := hresolved
      exact Or.inl (hkept (hA ▸ hmem))
  | relayed hrelayed =>
      obtain ⟨event, _, data, c, _, hA⟩ := hrelayed
      exact Or.inl (hkept (hA ▸ hmem))

theorem find_attempt_of_reserved {m providerName attemptId : String}
    (h : Changes m (Reserved m providerName attemptId) s s') :
    ∃ row, smsAttempt.find s' attemptId = some row ∧ row.smsMessageId = m ∧
      row.outcome = .reserved := by
  obtain ⟨A', ⟨old, now, c, _, _, hid, hA⟩, hupdate⟩ := h
  have hmem : reservation m providerName c ∈ (aggregate s' m).attempts := by
    rw [hupdate, Function.update_self, hA]
    exact List.mem_append_right _ List.mem_cons_self
  rw [mem_attempts_iff] at hmem
  rw [← hid]
  exact ⟨_, hmem.1, rfl, rfl⟩

end Attempts

section Controls

variable {config : Config} {q q' : Control}

theorem hold_of_ok {s s' : Database} (h : controlSpec config q s (.ok q') s') :
    hold? q' = none ∨ ∃ pass provider rest attemptId,
      q = .dispatch (.reserving pass provider rest) ∧
        q' = .dispatch (.acquiring ⟨pass, provider, rest, attemptId⟩) ∧
          Changes pass.task.messageId (Reserved pass.task.messageId provider attemptId) s s' ∧
            smsAttempt.find s attemptId = none := by
  by_cases hq : family q = .dispatch
  · cases q with
    | dispatch state =>
        cases state
        case reserving pass provider rest =>
          obtain ⟨reservation, rfl, hspec⟩ := h
          cases reservation with
          | reserved attemptId => exact Or.inr ⟨pass, provider, rest, attemptId, rfl, rfl, hspec⟩
          | notReservable => exact Or.inl rfl
        case beginning | loading | finalizing =>
          obtain ⟨_, rfl, _⟩ := h
          exact Or.inl (by simp)
        case markingMissing | schedulingRetry | markingFatal =>
          obtain ⟨_, rfl, _⟩ := h
          exact Or.inl rfl
        all_goals exact h.elim
    | _ => simp [family] at hq
  · exact Or.inl (hold?_eq_none ((family_of_ok h).1 ▸ hq))

theorem hold_of_error {t : Sql Control} {onError : Failure → Control}
    (hcode : code config q = .tx t onError) (e : Failure) : hold? (onError e) = none := by
  by_cases hq : family q = .dispatch
  · obtain ⟨_, _, _, _, h | h⟩ := dispatch_of_error hcode e hq <;> rw [h] <;> rfl
  · exact hold?_eq_none ((family_of_error hcode e).1 ▸ hq)

theorem hold_of_crash (q : Control) : hold? (crash q) = none := by
  cases q <;> rfl

theorem hold_of_acts {c : Choice} {o o' : Outside} (h : Acts config c o q o' q') {hold : Hold}
    (hhold : hold? q' = some hold) : hold? q = some hold := by
  cases h with
  | acquired => exact hhold
  | started => exact hhold
  | answered _ _ hanswer =>
      cases hreply : c.reply with
      | none => simp [SmsProcessor.afterSend, hreply, SmsProcessor.State.hold?] at hhold
      | some result =>
          rw [hreply] at hhold
          exact hhold
  | took => simp at hhold
  | _ => simp [hold?, SmsProcessor.State.hold?] at hhold

theorem finalizing_of_not_isCall (hq : isCall q = false) {m id : String}
    {input : FinalizeProviderAttemptInput} (h : finalizing? q = some (m, id, input)) :
    ∃ hold, q = .dispatch (.finalizing hold input) ∧ hold.attemptId = id := by
  unfold finalizing? at h
  split at h
  · simp [isCall] at hq
  · obtain ⟨_, hid, rfl⟩ : _ ∧ _ ∧ _ := by simpa using h
    exact ⟨_, rfl, hid⟩
  · simp at h

end Controls

/-- The attempt of a hold is there and reserved for its message. -/
def Reservation (s : Database) (hold : Hold) : Prop :=
  ∃ row, smsAttempt.find s hold.attemptId = some row ∧
    row.smsMessageId = hold.pass.task.messageId ∧ row.outcome = .reserved

/-- The invariant of the reservations: only workers finalize, what a worker holds
is reserved, and no two workers hold the same attempt. -/
structure Held (a : ServiceSnapshot) : Prop where
  workers : ∀ (i : Nat) q m id input, a.controls[i]? = some q →
    finalizing? q = some (m, id, input) →
      ∃ hold, q = .dispatch (.finalizing hold input) ∧ hold.attemptId = id
  reserved : ∀ (i : Nat) q hold, a.controls[i]? = some q → hold? q = some hold →
    Reservation a.store hold
  apart : ∀ (i j : Nat) q q' hold hold', a.controls[i]? = some q → a.controls[j]? = some q' →
    i ≠ j → hold? q = some hold → hold? q' = some hold' → hold.attemptId ≠ hold'.attemptId

section Preservation

variable {config : Config} {a : ServiceSnapshot}

theorem held_of_no_controls (h : a.controls = []) : Held a := by
  constructor <;> simp [h]

theorem Held.spawn (h : Held a) {q : Control} (hfinal : finalizing? q = none)
    (hhold : hold? q = none) : Held { a with controls := a.controls ++ [q] } := by
  constructor
  · intro i q' m id input hq' hfinal'
    rcases getElem?_concat_eq_some hq' with hq' | rfl
    · exact h.workers i q' m id input hq' hfinal'
    · simp [hfinal] at hfinal'
  · intro i q' hold hq' hhold'
    rcases getElem?_concat_eq_some hq' with hq' | rfl
    · exact h.reserved i q' hold hq' hhold'
    · simp [hhold] at hhold'
  · intro i j q₁ q₂ hold₁ hold₂ hq₁ hq₂ hij hhold₁ hhold₂
    rcases getElem?_concat_eq_some hq₁ with hq₁ | rfl
    · rcases getElem?_concat_eq_some hq₂ with hq₂ | rfl
      · exact h.apart i j q₁ q₂ hold₁ hold₂ hq₁ hq₂ hij hhold₁ hhold₂
      · simp [hhold] at hhold₂
    · simp [hhold] at hhold₁

theorem Held.reservation_other (h : Held a) {i j : Nat} {q q' : Control} {hold : Hold}
    {s : Database} (hq : a.controls[i]? = some q) (heffect : StepEffect q a.store s)
    (hij : i ≠ j) (hq' : a.controls[j]? = some q') (hhold : hold? q' = some hold) :
    Reservation s hold := by
  obtain ⟨row, hrow, hm, hreserved⟩ := h.reserved j q' hold hq' hhold
  obtain hrow | ⟨input, hfinal, _⟩ := find_attempt_of_stepEffect heffect hrow
  · exact ⟨row, hrow, hm, hreserved⟩
  · obtain ⟨hold', rfl, hid⟩ := h.workers i q _ _ _ hq hfinal
    exact absurd hid (h.apart i j _ q' hold' hold hq hq' hij rfl hhold)

theorem Held.set (h : Held a) {i : Nat} {q q' : Control} {s : Database} {x : Outside}
    (hq : a.controls[i]? = some q) (hcall : isCall q' = false)
    (heffect : StepEffect q a.store s)
    (hhold : ∀ hold, hold? q' = some hold → Reservation s hold ∧
      (hold? q = some hold ∨ smsAttempt.find a.store hold.attemptId = none)) :
    Held ⟨s, a.controls.set i q', x⟩ := by
  have hfresh : ∀ (j : Nat) q₂ hold hold₂, a.controls[j]? = some q₂ → i ≠ j →
      hold? q' = some hold → hold? q₂ = some hold₂ → hold.attemptId ≠ hold₂.attemptId := by
    intro j q₂ hold hold₂ hq₂ hij hhold' hhold₂
    rcases (hhold hold hhold').2 with hsame | hnone
    · exact h.apart i j q q₂ hold hold₂ hq hq₂ hij hsame hhold₂
    · intro hid
      obtain ⟨row, hrow, _⟩ := h.reserved j q₂ hold₂ hq₂ hhold₂
      rw [← hid, hnone] at hrow
      simp at hrow
  constructor
  · intro j q₂ m id input hq₂ hfinal
    rcases getElem?_set_eq_some hq₂ with ⟨_, rfl⟩ | ⟨_, hq₂⟩
    · exact finalizing_of_not_isCall hcall hfinal
    · exact h.workers j q₂ m id input hq₂ hfinal
  · intro j q₂ hold hq₂ hhold₂
    rcases getElem?_set_eq_some hq₂ with ⟨_, rfl⟩ | ⟨hij, hq₂⟩
    · exact (hhold hold hhold₂).1
    · exact h.reservation_other hq heffect hij hq₂ hhold₂
  · intro j k q₁ q₂ hold₁ hold₂ hq₁ hq₂ hjk hhold₁ hhold₂
    rcases getElem?_set_eq_some hq₁ with ⟨hj, hq₁'⟩ | ⟨hj, hq₁'⟩ <;>
      rcases getElem?_set_eq_some hq₂ with ⟨hk, hq₂'⟩ | ⟨hk, hq₂'⟩
    · exact absurd (hj.symm.trans hk) hjk
    · exact hfresh k q₂ hold₁ hold₂ hq₂' hk (hq₁' ▸ hhold₁) hhold₂
    · exact (hfresh j q₁ hold₂ hold₁ hq₁' hj (hq₂' ▸ hhold₂) hhold₁).symm
    · exact h.apart j k q₁ q₂ hold₁ hold₂ hq₁' hq₂' hjk hhold₁ hhold₂

theorem Held.ok (h : Held a) {i : Nat} {q q' : Control} {s : Database} {x : Outside}
    (hq : a.controls[i]? = some q) (hspec : controlSpec config q a.store (.ok q') s) :
    Held ⟨s, a.controls.set i q', x⟩ := by
  have hcall := (family_of_ok hspec).2
  obtain hnone | ⟨pass, provider, rest, attemptId, _, rfl, hreserved, hfresh⟩ :=
    hold_of_ok hspec
  · exact h.set hq hcall (stepEffect_of_controlSpec hspec) (by simp [hnone])
  · refine h.set hq hcall (stepEffect_of_controlSpec hspec) fun hold hhold => ?_
    obtain rfl := Option.some.inj hhold
    exact ⟨find_attempt_of_reserved hreserved, Or.inr hfresh⟩

/-- The reservations are kept by every step that starts nothing which finalizes
or holds one. -/
theorem Held.step (h : Held a) {l : ServiceLabel} {a' : ServiceSnapshot}
    (hl : ∀ q, l = .spawn q → finalizing? q = none ∧ hold? q = none)
    (hstep : ServiceStep config a l a') : Held a' := by
  have herror : ∀ {i : Nat} {q : Control} {t : Sql Control} {onError : Failure → Control}
      {e : Failure} {s : Database}, a.controls[i]? = some q → code config q = .tx t onError →
      StepEffect q a.store s → Held ⟨s, a.controls.set i (onError e), a.ext⟩ := by
    intro i q t onError e s hq hcode heffect
    exact h.set hq (family_of_error hcode e).2 heffect (by simp [hold_of_error hcode e])
  cases hstep with
  | spawn q => exact h.spawn (hl q rfl).1 (hl q rfl).2
  | answer hq _ hspec => exact h.ok hq hspec
  | error hq hcode _ => exact herror hq hcode (Or.inl rfl)
  | act hq hcode hact =>
      have hacts := acts_of_code hcode hact
      refine h.set hq hacts.family.2 (Or.inl rfl) fun hold hhold => ?_
      have hkept : hold? _ = some hold := hold_of_acts hacts hhold
      exact ⟨h.reserved _ _ hold hq hkept, Or.inl hkept⟩
  | commit hq _ hspec => exact h.ok hq hspec
  | lost hq hcode hspec => exact herror hq hcode (stepEffect_of_controlSpec hspec)
  | fault hq hcode => exact herror hq hcode (Or.inl rfl)
  | crash hq _ =>
      exact h.set hq (family_crash _).2 (Or.inl rfl) fun hold hhold => by
        simp [service, hold_of_crash] at hhold
  | env _ => exact ⟨h.workers, h.reserved, h.apart⟩

end Preservation

end SmsNotification.Reservations

import SmsNotification.Reservations

namespace SmsNotification.NoDuplicateDelivery

open SmsNotification.ActorSystem
open SmsNotification.AttemptLedger
open SmsNotification.LabelledRuns
open SmsNotification.MessageAggregate
open SmsNotification.Reservations
open SmsNotification.Schema
open SmsNotification.Service
open SmsNotification.ServiceEffects
open SmsNotification.ServiceRuns
open SmsNotification.SmsLifecycleRepository
open SmsNotification.SmsProcessor (Hold)
open SmsNotification.Surroundings

/-- What may be started: producers, workers on any job, recovery sweeps, relay
ticks, and the calls of the expiry, of operators, carriers and administrators. -/
def delivers : Control → Bool
  | .creating _ _ => true
  | .sweep (.selecting _ _) => true
  | .relay (.fetching _) => true
  | .dispatch .idle => true
  | .dispatch (.beginning _) => true
  | .calling (.expireAmbiguousOutcome _) => true
  | .calling (.resolveTwilioAttempt _ _ _) => true
  | .calling (.applyDeliveryReport _) => true
  | .calling (.resetForRequeue _) => true
  | _ => false

/-- How far the call under a held attempt has come: not started, started, or
refused where a definitive failure is about to be recorded. -/
def Position (calls : List SendCall) : Control → Prop
  | .dispatch (.acquiring hold) => ∀ call ∈ calls, call.attemptId ≠ hold.attemptId
  | .dispatch (.calling hold) => ∀ call ∈ calls, call.attemptId ≠ hold.attemptId
  | .dispatch (.awaiting hold k) => ∃ call, calls[k]? = some call ∧ call.attemptId = hold.attemptId
  | .dispatch (.finalizing hold input) => input.outcome = .failed → input.isAmbiguous = false →
      ∀ call ∈ calls, call.attemptId = hold.attemptId → call.state = .refused
  | _ => True

section Positions

variable {calls : List SendCall} {q : Control}

theorem position_of_hold_none (h : hold? q = none) : Position calls q := by
  cases q with
  | dispatch state => cases state <;> trivial
  | _ => trivial

theorem Position.append {new : SendCall} (h : Position calls q)
    (hne : ∀ hold, hold? q = some hold → new.attemptId ≠ hold.attemptId) :
    Position (calls ++ [new]) q := by
  have hfresh : ∀ hold, hold? q = some hold → (∀ call ∈ calls, call.attemptId ≠ hold.attemptId) →
      ∀ call ∈ calls ++ [new], call.attemptId ≠ hold.attemptId := by
    intro hold hhold hall call hcall
    rcases List.mem_append.mp hcall with hcall | hcall
    · exact hall call hcall
    · exact List.mem_singleton.mp hcall ▸ hne hold hhold
  cases q with
  | dispatch state =>
      cases state with
      | acquiring hold => exact hfresh hold rfl h
      | calling hold => exact hfresh hold rfl h
      | awaiting hold k =>
          obtain ⟨call, hcall, hid⟩ := h
          have hk : k < calls.length := (List.getElem?_eq_some_iff.mp hcall).1
          exact ⟨call, by rw [List.getElem?_append_left hk, hcall], hid⟩
      | finalizing hold input =>
          intro hfailed hdefinitive call hcall hid
          rcases List.mem_append.mp hcall with hcall | hcall
          · exact h hfailed hdefinitive call hcall hid
          · exact absurd (List.mem_singleton.mp hcall ▸ hid) (hne hold rfl)
      | _ => trivial
  | _ => trivial

theorem Position.set {k : Nat} {started call' : SendCall} (h : Position calls q)
    (hk : calls[k]? = some started) (hid : call'.attemptId = started.attemptId)
    (hstate : started.state = .refused → call'.state = .refused) :
    Position (calls.set k call') q := by
  have hstarted := List.mem_of_getElem? hk
  have hmem : ∀ call ∈ calls.set k call', call ∈ calls ∨ call = call' :=
    fun call hcall => List.mem_or_eq_of_mem_set hcall
  have hfresh : ∀ attemptId, (∀ call ∈ calls, call.attemptId ≠ attemptId) →
      ∀ call ∈ calls.set k call', call.attemptId ≠ attemptId := by
    intro attemptId hall call hcall
    rcases hmem call hcall with hcall | rfl
    · exact hall call hcall
    · exact hid ▸ hall started hstarted
  cases q with
  | dispatch state =>
      cases state with
      | acquiring hold => exact hfresh _ h
      | calling hold => exact hfresh _ h
      | awaiting hold j =>
          obtain ⟨call, hcall, hcallId⟩ := h
          by_cases hj : k = j
          · subst hj
            obtain rfl : started = call := Option.some.inj (hk.symm.trans hcall)
            have hlt := (List.getElem?_eq_some_iff.mp hk).1
            exact ⟨call', List.getElem?_set_self hlt, hid.trans hcallId⟩
          · exact ⟨call, by rw [List.getElem?_set_ne hj, hcall], hcallId⟩
      | finalizing hold input =>
          intro hfailed hdefinitive call hcall hcallId
          rcases hmem call hcall with hcall | rfl
          · exact h hfailed hdefinitive call hcall hcallId
          · exact hstate (h hfailed hdefinitive started hstarted (hid ▸ hcallId))
      | _ => trivial
  | _ => trivial

end Positions

/-- The invariant of the calls: each has an attempt of its own, which is live
unless the call has been refused; no refused call has been accepted. -/
structure Called (a : ServiceSnapshot) : Prop where
  known : ∀ call ∈ a.ext.calls, ∃ row, smsAttempt.find a.store call.attemptId = some row ∧
    row.smsMessageId = call.messageId ∧ (call.state ≠ .refused → Live row)
  single : (a.ext.calls.map SendCall.attemptId).Nodup
  accepted : ∀ call ∈ a.ext.calls, call.accepted → call.state ≠ .refused
  position : ∀ (i : Nat) q, a.controls[i]? = some q → Position a.ext.calls q

section Preservation

variable {config : Config} {a : ServiceSnapshot}

theorem Called.known_of_stepEffect (h : Called a) (hheld : Held a) {i : Nat} {q : Control}
    {s : Database} (hq : a.controls[i]? = some q) (heffect : StepEffect q a.store s) :
    ∀ call ∈ a.ext.calls, ∃ row, smsAttempt.find s call.attemptId = some row ∧
      row.smsMessageId = call.messageId ∧ (call.state ≠ .refused → Live row) := by
  intro call hcall
  obtain ⟨row, hrow, hm, hlive⟩ := h.known call hcall
  obtain hkept | ⟨input, hfinal, _, hrecord⟩ := find_attempt_of_stepEffect heffect hrow
  · exact ⟨row, hkept, hm, hlive⟩
  · refine ⟨_, hrecord, (record_smsMessageId input row).trans hm, fun hstate => ?_⟩
    obtain ⟨hold, rfl, hid⟩ := hheld.workers i q _ _ _ hq hfinal
    have hposition : Position a.ext.calls (.dispatch (.finalizing hold input)) :=
      h.position i _ hq
    rcases input with providerMessageId | ⟨_ | _, isRetryable, errorMessage, delayMs⟩
    · exact Or.inr rfl
    · exact absurd (hposition rfl rfl call hcall hid.symm) hstate
    · exact Or.inl rfl

theorem Called.set (h : Called a) (hheld : Held a) {i : Nat} {q q' : Control} {s : Database}
    {x : Outside} (hq : a.controls[i]? = some q) (heffect : StepEffect q a.store s)
    (hcalls : x.calls = a.ext.calls) (hposition : Position a.ext.calls q') :
    Called ⟨s, a.controls.set i q', x⟩ := by
  constructor
  · rw [hcalls]
    exact h.known_of_stepEffect hheld hq heffect
  · rw [hcalls]
    exact h.single
  · rw [hcalls]
    exact h.accepted
  · intro j q₂ hq₂
    rw [hcalls]
    rcases getElem?_set_eq_some hq₂ with ⟨_, rfl⟩ | ⟨_, hq₂⟩
    · exact hposition
    · exact h.position j q₂ hq₂

theorem Called.ok (h : Called a) (hheld : Held a) {i : Nat} {q q' : Control} {s : Database}
    (hq : a.controls[i]? = some q) (hspec : controlSpec config q a.store (.ok q') s) :
    Called ⟨s, a.controls.set i q', a.ext⟩ := by
  refine h.set hheld hq (stepEffect_of_controlSpec hspec) rfl ?_
  obtain hnone | ⟨pass, provider, rest, attemptId, _, rfl, _, hfresh⟩ := hold_of_ok hspec
  · exact position_of_hold_none hnone
  · intro call hcall hid
    obtain ⟨row, hrow, _⟩ := h.known call hcall
    rw [hid, hfresh] at hrow
    simp at hrow

theorem Called.start (h : Called a) (hheld : Held a)
    (hledger : ∀ m, Ledger (aggregate a.store m)) {i : Nat} {hold : Hold}
    (hq : a.controls[i]? = some (.dispatch (.calling hold))) :
    Called ⟨a.store,
      a.controls.set i (.dispatch (.awaiting hold a.ext.calls.length)),
      a.ext.startCall hold.call⟩ := by
  have hposition : ∀ call ∈ a.ext.calls, call.attemptId ≠ hold.attemptId := h.position i _ hq
  constructor
  · intro call hcall
    rcases List.mem_append.mp hcall with hcall | hcall
    · exact h.known call hcall
    · obtain rfl := List.mem_singleton.mp hcall
      obtain ⟨row, hrow, hm, hreserved⟩ := hheld.reserved i _ hold hq rfl
      have hmem : row ∈ (aggregate a.store hold.pass.task.messageId).attempts := by
        rw [mem_attempts_iff, show row.id = hold.attemptId from Table.idOf_of_find hrow]
        exact ⟨hrow, hm⟩
      exact ⟨row, hrow, hm, fun _ => (hledger _).live_of_reserved hmem hreserved⟩
  · simp only [Outside.startCall, List.map_append, List.map_cons, List.map_nil]
    refine List.nodup_append.mpr ⟨h.single, by simp, ?_⟩
    intro id hid id' hid' hsame
    obtain ⟨call, hcall, rfl⟩ := List.mem_map.mp hid
    exact hposition call hcall (hsame.trans (List.mem_singleton.mp hid'))
  · intro call hcall haccepted
    rcases List.mem_append.mp hcall with hcall | hcall
    · exact h.accepted call hcall haccepted
    · obtain rfl := List.mem_singleton.mp hcall
      simp at haccepted
  · intro j q hq'
    rcases getElem?_set_eq_some hq' with ⟨_, rfl⟩ | ⟨hij, hq'⟩
    · exact ⟨_, List.getElem?_concat_length, rfl⟩
    · exact (h.position j q hq').append fun hold' hhold =>
        hheld.apart i j _ q hold hold' hq hq' hij rfl hhold

theorem Called.update (h : Called a) {k : Nat} {started call' : SendCall}
    (hk : a.ext.calls[k]? = some started) (hid : call'.attemptId = started.attemptId)
    (hm : call'.messageId = started.messageId)
    (hstate : started.state = .refused → call'.state = .refused)
    (haccepted : call'.accepted → call'.state ≠ .refused) :
    Called { a with ext := { a.ext with calls := a.ext.calls.set k call' } } := by
  constructor
  · intro call hcall
    rcases List.mem_or_eq_of_mem_set hcall with hcall | rfl
    · exact h.known call hcall
    · obtain ⟨row, hrow, hrowm, hlive⟩ := h.known started (List.mem_of_getElem? hk)
      exact ⟨row, hid ▸ hrow, hrowm.trans hm.symm, fun hne => hlive fun hr => hne (hstate hr)⟩
  · exact (map_set_of_eq hk hid).symm ▸ h.single
  · intro call hcall
    rcases List.mem_or_eq_of_mem_set hcall with hcall | rfl
    · exact h.accepted call hcall
    · exact haccepted
  · intro i q hq
    exact (h.position i q hq).set hk hid hstate

theorem Called.answer (h : Called a) (hheld : Held a) {i k : Nat} {hold : Hold}
    {reply : Option SendSmsResult} {o : Outside}
    (hq : a.controls[i]? = some (.dispatch (.awaiting hold k)))
    (hanswer : a.ext.answerCall k reply = some o) :
    Called ⟨a.store,
      a.controls.set i (.dispatch (SmsProcessor.afterSend config.processor hold reply)), o⟩ := by
  obtain ⟨started, state, hk, hflight, rfl, hstate⟩ := Outside.answerCall_eq_some hanswer
  obtain ⟨call, hcall, hid⟩ : ∃ call, a.ext.calls[k]? = some call ∧
      call.attemptId = hold.attemptId := h.position i _ hq
  obtain rfl : started = call := Option.some.inj (hk.symm.trans hcall)
  have hupdated : Called { a with ext := { a.ext with
      calls := a.ext.calls.set k { started with state := state } } } := by
    refine h.update hk rfl rfl (fun hrefused => by simp [hflight] at hrefused)
      fun haccepted hrefused => ?_
    split at hstate
    · rw [hstate.1] at haccepted
      simp at haccepted
    · simp [show state = .closed from hstate] at hrefused
  refine hupdated.set ⟨hheld.workers, hheld.reserved, hheld.apart⟩ hq (Or.inl rfl) rfl ?_
  cases reply with
  | none => trivial
  | some result =>
      intro hfailed hdefinitive call' hcall' hid'
      -- the only call of the attempt is the one that has been refused
      have hmem : ({ started with state := state } : SendCall) ∈
          a.ext.calls.set k { started with state := state } :=
        List.mem_set (List.getElem?_eq_some_iff.mp hk).1 _
      obtain rfl := List.inj_on_of_nodup_map hupdated.single hcall' hmem (hid'.trans hid.symm)
      rw [Option.any_some,
        if_pos (SmsProcessor.isRefusal_of_recordedResult hfailed hdefinitive)] at hstate
      exact hstate.2

/-- The calls are kept apart by every step that starts no holder. -/
theorem Called.step (h : Called a) (hheld : Held a)
    (hledger : ∀ m, Ledger (aggregate a.store m)) {l : ServiceLabel} {a' : ServiceSnapshot}
    (hl : ∀ q, l = .spawn q → hold? q = none) (hstep : ServiceStep config a l a') :
    Called a' := by
  cases hstep with
  | spawn q =>
      refine ⟨h.known, h.single, h.accepted, fun i q' hq' => ?_⟩
      rcases getElem?_concat_eq_some hq' with hq' | rfl
      · exact h.position i q' hq'
      · exact position_of_hold_none (hl _ rfl)
  | answer hq _ hspec => exact h.ok hheld hq hspec
  | error hq hcode _ =>
      exact h.set hheld hq (Or.inl rfl) rfl (position_of_hold_none (hold_of_error hcode _))
  | act hq hcode hact =>
      cases acts_of_code hcode hact with
      | acquired hold _ =>
          have hposition : Position a.ext.calls (.dispatch (.acquiring hold)) := h.position _ _ hq
          exact h.set hheld hq (Or.inl rfl) rfl hposition
      | started hold => exact h.start hheld hledger hq
      | answered hold call hanswer => exact h.answer hheld hq hanswer
      | took htake =>
          obtain ⟨queued, _, _, _, _, rfl⟩ := Outside.takeJob_eq_some htake
          exact h.set hheld hq (Or.inl rfl) rfl (position_of_hold_none (by simp))
      | notAdded _ _ _ ho =>
          exact h.set hheld hq (Or.inl rfl) (by rcases ho with rfl | rfl <;> rfl) trivial
      | tookMaintenance _ htake =>
          obtain ⟨queued, _, _, _, _, rfl⟩ := Outside.takeJob_eq_some htake
          exact h.set hheld hq (Or.inl rfl) rfl trivial
      | _ => exact h.set hheld hq (Or.inl rfl) rfl trivial
  | commit hq _ hspec => exact h.ok hheld hq hspec
  | lost hq hcode hspec =>
      exact h.set hheld hq (stepEffect_of_controlSpec hspec) rfl
        (position_of_hold_none (hold_of_error hcode _))
  | fault hq hcode =>
      exact h.set hheld hq (Or.inl rfl) rfl (position_of_hold_none (hold_of_error hcode _))
  | crash hq _ =>
      exact h.set hheld hq (Or.inl rfl) rfl (position_of_hold_none (hold_of_crash _))
  | env hmove =>
      obtain hcalls | ⟨call, haccept⟩ := Outside.calls_of_move hmove
      · exact ⟨hcalls ▸ h.known, hcalls ▸ h.single, hcalls ▸ h.accepted, hcalls ▸ h.position⟩
      · obtain ⟨started, hk, hrefused, rfl⟩ := Outside.acceptCall_eq_some haccept
        exact h.update hk rfl rfl id fun _ => hrefused

end Preservation

theorem holds_nothing_of_delivers {q : Control} (h : delivers q) :
    Lifecycle q ∧ finalizing? q = none ∧ hold? q = none := by
  unfold delivers at h
  split at h <;> first | exact ⟨⟨nofun, nofun⟩, rfl, rfl⟩ | simp at h

theorem lifecycle_of_delivering (a : ServiceSnapshot) (q : Control)
    (hq : Spawning (delivers ·) a (.spawn q)) : Lifecycle q :=
  (holds_nothing_of_delivers (hq q rfl)).1

/-- The invariants of the reservations and of the calls, with the ledgers. -/
structure Guarded (a : ServiceSnapshot) : Prop where
  ledger : ∀ m, Ledger (aggregate a.store m)
  held : Held a
  called : Called a

section Runs

variable {config : Config} {a : ServiceSnapshot} {w w' : ServiceWorld} {m : String}

theorem guarded_of_reachable
    (h : Reachable (ServiceStep config) (Spawning (delivers ·)) Initial a) : Guarded a := by
  refine Reachable.invariant (fun a hinit => ?_) (fun a l a' hreach hguarded hl hstep => ?_) h
  · have hreach : Reachable (ServiceStep config) (Spawning (delivers ·)) Initial a :=
      Reachable.start hinit
    refine ⟨ledger_of_reachable hreach, ?_, ?_⟩
    · exact held_of_no_controls hinit.controls
    · constructor <;> simp [hinit.ext, hinit.controls, Outside.empty]
  · have hspawn : ∀ q, l = .spawn q → finalizing? q = none ∧ hold? q = none :=
      fun q hq => (holds_nothing_of_delivers (hl q hq)).2
    exact ⟨ledger_of_reachable (Reachable.next l hreach hl hstep),
      hguarded.held.step hspawn hstep,
      hguarded.called.step hguarded.held hguarded.ledger (fun q hq => (hspawn q hq).2) hstep⟩

theorem guarded_of_reaches (h : Reaches config (Spawning (delivers ·)) Initial w) :
    Guarded w.abs :=
  guarded_of_reachable (h.atomic fun _ q hq => (holds_nothing_of_delivers (hq q rfl)).1).2

/-- Only one call of a message can have been accepted, or still be. -/
theorem Guarded.eq_of_live (h : Guarded a) {call call' : SendCall}
    (hcall : call ∈ a.ext.calls) (hcall' : call' ∈ a.ext.calls)
    (hm : call.messageId = call'.messageId) (hstate : call.state ≠ .refused)
    (hstate' : call'.state ≠ .refused) : call = call' := by
  obtain ⟨row, hrow, hrowm, hlive⟩ := h.called.known call hcall
  obtain ⟨row', hrow', hrowm', hlive'⟩ := h.called.known call' hcall'
  have hid : row.id = call.attemptId := Table.idOf_of_find hrow
  have hid' : row'.id = call'.attemptId := Table.idOf_of_find hrow'
  have hsame : row = row' := (h.ledger call.messageId).eq_of_live
    (mem_attempts_iff.mpr ⟨hid ▸ hrow, hrowm⟩)
    (mem_attempts_iff.mpr ⟨hid' ▸ hrow', hrowm'.trans hm.symm⟩) (hlive hstate) (hlive' hstate')
  exact List.inj_on_of_nodup_map h.called.single hcall hcall'
    (hid.symm.trans ((congrArg SmsAttempt.id hsame).trans hid'))

theorem calls_of_step {l : ServiceLabel} {a' : ServiceSnapshot}
    (hstep : ServiceStep config a l a') :
    a'.ext.calls = a.ext.calls ∨
      (∃ (k : Nat) (started : SendCall) (state : CallState) (accepted : Bool),
        a.ext.calls[k]? = some started ∧
        (started.accepted → accepted) ∧
          a'.ext.calls =
            a.ext.calls.set k { started with state := state, accepted := accepted }) ∨
      ∃ (i : Nat) (hold : Hold), a.controls[i]? = some (.dispatch (.calling hold)) ∧
        a'.ext.calls = a.ext.calls ++ [hold.call] := by
  cases hstep with
  | act hq hcode hact =>
      cases acts_of_code hcode hact with
      | started hold => exact Or.inr (Or.inr ⟨_, hold, hq, rfl⟩)
      | answered hold call hanswer =>
          obtain ⟨started, state, hk, _, rfl, _⟩ := Outside.answerCall_eq_some hanswer
          exact Or.inr (Or.inl ⟨call, started, state, started.accepted, hk, id, rfl⟩)
      | took htake =>
          obtain ⟨queued, _, _, _, _, rfl⟩ := Outside.takeJob_eq_some htake
          exact Or.inl rfl
      | notAdded _ _ _ ho => exact Or.inl (by rcases ho with rfl | rfl <;> rfl)
      | tookMaintenance _ htake =>
          obtain ⟨queued, _, _, _, _, rfl⟩ := Outside.takeJob_eq_some htake
          exact Or.inl rfl
      | _ => exact Or.inl rfl
  | env hmove =>
      obtain hcalls | ⟨call, haccept⟩ := Outside.calls_of_move hmove
      · exact Or.inl hcalls
      · obtain ⟨started, hk, _, rfl⟩ := Outside.acceptCall_eq_some haccept
        exact Or.inr (Or.inl ⟨call, started, started.state, true, hk, fun _ => rfl, rfl⟩)
  | _ => exact Or.inl rfl

/-- Once a call of a message has been accepted, a step starts no other one. -/
theorem Guarded.no_call_after (h : Guarded a) {l : ServiceLabel} {a' : ServiceSnapshot}
    (hstep : ServiceStep config a l a')
    (haccepted : ∃ call ∈ a.ext.calls, call.messageId = m ∧ call.accepted) :
    (∃ call ∈ a'.ext.calls, call.messageId = m ∧ call.accepted) ∧
      a'.ext.calls.countP (·.messageId = m) = a.ext.calls.countP (·.messageId = m) := by
  obtain ⟨call, hcall, hm, hacc⟩ := haccepted
  obtain hcalls | ⟨k, started, state, accepted, hk, hacc', hcalls⟩ | ⟨i, hold, hq, hcalls⟩ :=
    calls_of_step hstep
  · exact ⟨⟨call, hcalls ▸ hcall, hm, hacc⟩, by rw [hcalls]⟩
  · rw [hcalls]
    obtain ⟨hlt, hget⟩ := List.getElem?_eq_some_iff.mp hk
    constructor
    · obtain ⟨j, hj⟩ := List.mem_iff_getElem?.mp hcall
      by_cases hjk : k = j
      · subst hjk
        obtain rfl := Option.some.inj (hk.symm.trans hj)
        exact ⟨_, List.mem_set hlt _, hm, hacc' hacc⟩
      · exact ⟨call, List.mem_of_getElem? (by rw [List.getElem?_set_ne hjk, hj]), hm, hacc⟩
    · have hmessages := congrArg (List.countP fun id => id = m)
        (map_set_of_eq (f := SendCall.messageId)
          (y := { started with state := state, accepted := accepted }) hk rfl)
      rwa [List.countP_map, List.countP_map] at hmessages
  · rw [hcalls]
    refine ⟨⟨call, List.mem_append_left _ hcall, hm, hacc⟩, ?_⟩
    have hne : hold.pass.task.messageId ≠ m := by
      intro hsame
      -- the reservation of the worker would be the attempt that has been accepted
      obtain ⟨row, hrow, hrowm, hreserved⟩ := h.held.reserved i _ hold hq rfl
      obtain ⟨row', hrow', hrowm', hlive⟩ := h.called.known call hcall
      have hid : row.id = hold.attemptId := Table.idOf_of_find hrow
      have hid' : row'.id = call.attemptId := Table.idOf_of_find hrow'
      have hmem : row ∈ (aggregate a.store m).attempts :=
        mem_attempts_iff.mpr ⟨hid ▸ hrow, hrowm.trans hsame⟩
      have hmem' : row' ∈ (aggregate a.store m).attempts :=
        mem_attempts_iff.mpr ⟨hid' ▸ hrow', hrowm'.trans hm⟩
      have heq := (h.ledger m).eq_of_live hmem hmem' ((h.ledger m).live_of_reserved hmem hreserved)
        (hlive (h.called.accepted call hcall hacc))
      have hposition : ∀ call ∈ a.ext.calls, call.attemptId ≠ hold.attemptId :=
        h.called.position i _ hq
      exact hposition call hcall (by rw [← hid, ← hid', heq])
    simp [hne]

/-- No duplicate delivery: in every run, of the calls of `sendSms` for a message at
most one is ever accepted, at most one is in flight, and none starts after one
has been accepted. -/
theorem no_duplicate_delivery (h : Reaches config (Spawning (delivers ·)) Initial w) (m : String) :
    (w.ext.calls.filter fun call => call.messageId = m && call.accepted).length ≤ 1 ∧
      (w.ext.calls.filter fun call => call.messageId = m && call.state = .inFlight).length ≤ 1 ∧
      ∀ w', Later config (Spawning (delivers ·)) w w' →
        (∃ call ∈ w.ext.calls, call.messageId = m ∧ call.accepted) →
          w'.ext.calls.countP (·.messageId = m) = w.ext.calls.countP (·.messageId = m) := by
  have hguarded := guarded_of_reaches h
  have hnodup : w.ext.calls.Nodup := hguarded.called.single.of_map _
  refine ⟨length_filter_le_one hnodup fun call hcall call' hcall' hkeep hkeep' => ?_,
    length_filter_le_one hnodup fun call hcall call' hcall' hkeep hkeep' => ?_,
    fun w' hlater haccepted => ?_⟩
  · simp only [Bool.and_eq_true, decide_eq_true_eq] at hkeep hkeep'
    exact hguarded.eq_of_live hcall hcall' (hkeep.1.trans hkeep'.1.symm)
      (hguarded.called.accepted call hcall hkeep.2)
      (hguarded.called.accepted call' hcall' hkeep'.2)
  · simp only [Bool.and_eq_true, decide_eq_true_eq] at hkeep hkeep'
    exact hguarded.eq_of_live hcall hcall' (hkeep.1.trans hkeep'.1.symm)
      (by simp [hkeep.2]) (by simp [hkeep'.2])
  · suffices (∃ call ∈ w'.ext.calls, call.messageId = m ∧ call.accepted) ∧
        w'.ext.calls.countP (·.messageId = m) = w.ext.calls.countP (·.messageId = m) from this.2
    induction hlater with
    | start h0 =>
        subst h0
        exact ⟨haccepted, rfl⟩
    | @next v v' l hprev hl hstep ih =>
        have hreach := h.later (fun _ _ hl => hl) hprev
        obtain hsame | hatomic :=
          serviceStep_of_step (fun _ q hq => (holds_nothing_of_delivers (hq q rfl)).1)
            hreach hl hstep
        · rwa [show v'.ext = v.ext from congrArg Snapshot.ext hsame]
        · obtain ⟨hacc, hcount⟩ := (guarded_of_reaches hreach).no_call_after hatomic ih.1
          exact ⟨hacc, hcount.trans ih.2⟩

end Runs

/-- A worker whose call has been accepted, and a second worker on the same job. -/
theorem no_duplicate_delivery_accepted :
    ∃ w w', Reaches sampleConfig (Spawning (delivers ·)) Initial w ∧
      Later sampleConfig (Spawning (delivers ·)) w w' ∧
      (∃ call ∈ w.ext.calls, call.messageId = "m" ∧ call.accepted) ∧
      w'.ext.calls.countP (·.messageId = "m") = w.ext.calls.countP (·.messageId = "m") := by
  obtain ⟨w, hw, haccepted, hstep⟩ := exists_reaches_of_exec sampleConfig (Spawning (delivers ·))
    (creation ++ callingPass ++
      [.env { sampleChoice "" 1 with move := .accept 0 }])
    (fun w => (∃ call ∈ w.ext.calls, call.messageId = "m" ∧ call.accepted) ∧
      ((service sampleConfig).step w (.spawn (.dispatch (.beginning ⟨sampleJob, "m"⟩)))).isSome)
    (by decide +kernel)
  obtain ⟨w', hw'⟩ := Option.isSome_iff_exists.mp hstep
  have hlater : Later sampleConfig (Spawning (delivers ·)) w w' :=
    Reachable.next _ (Reachable.start rfl) (fun q hq => by cases hq; rfl) hw'
  exact ⟨w, w', hw, hlater, haccepted, (no_duplicate_delivery hw "m").2.2 w' hlater haccepted⟩

end SmsNotification.NoDuplicateDelivery

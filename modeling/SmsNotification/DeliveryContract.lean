import Mathlib.Data.List.Nodup
import SmsNotification.AtMostOnce
import SmsNotification.NoDuplicateDelivery

/-!
What the service does with a message is what may be done with work that must be done at
most once: its attempts are the tries, and a try is taken where a provider accepts.
-/

namespace SmsNotification.DeliveryContract

open SmsNotification.ActorSystem
open SmsNotification.AtMostOnce
open SmsNotification.AttemptLedger
open SmsNotification.LabelledRuns
open SmsNotification.LifecycleEffects
open SmsNotification.MessageAggregate
open SmsNotification.NoDuplicateDelivery
open SmsNotification.Reservations
open SmsNotification.Schema
open SmsNotification.Service
open SmsNotification.ServiceEffects
open SmsNotification.ServiceRuns
open SmsNotification.SmsLifecycleRepository
open SmsNotification.SmsProcessor (Hold)
open SmsNotification.SmsStateMachine
open SmsNotification.Surroundings

section Abstraction

def phaseOf : CallState → Phase
  | .inFlight => .underway
  | .refused => .refused
  | .closed => .over

def tryOfCall (call : SendCall) : Try :=
  ⟨phaseOf call.state, call.accepted⟩

/-- The try that an attempt stands for: what has become of its call, or a permission
where it has not been called. -/
def tryOf (calls : List SendCall) (attemptId : String) : Try :=
  ((calls.find? fun call => call.attemptId = attemptId).map tryOfCall).getD ⟨.permitted, false⟩

def verdictOfStatus : SmsStatus → Verdict
  | .fatalFailure => .abandoned
  | .sent | .delivered | .undelivered | .rejected => .settled
  | .queued | .processing | .awaitingProviderResult | .retryScheduled => .pending

def verdictOf (message : Option SmsMessage) : Verdict :=
  (message.map fun row => verdictOfStatus row.status).getD .pending

def itemOfAggregate (calls : List SendCall) (A : Aggregate) : Item :=
  ⟨verdictOf A.message, (A.attempts.map SmsAttempt.id).map (tryOf calls)⟩

/-- What the rows and the calls of a message say of it. -/
def itemOf (a : ServiceSnapshot) (m : String) : Item :=
  itemOfAggregate a.ext.calls (aggregate a.store m)

end Abstraction

section Tries

variable {calls : List SendCall} {call : SendCall}

theorem tryOf_eq_permitted {attemptId : String} (h : ∀ call ∈ calls, call.attemptId ≠ attemptId) :
    tryOf calls attemptId = ⟨.permitted, false⟩ := by
  have hnone : (calls.find? fun call => call.attemptId = attemptId) = none :=
    List.find?_eq_none.mpr fun call hcall => by simpa using h call hcall
  rw [tryOf, hnone]
  rfl

theorem tryOf_eq_of_mem (hsingle : (calls.map SendCall.attemptId).Nodup) (hcall : call ∈ calls) :
    tryOf calls call.attemptId = tryOfCall call := by
  obtain ⟨found, hfound⟩ : ∃ found,
      (calls.find? fun other => other.attemptId = call.attemptId) = some found :=
    Option.isSome_iff_exists.mp (List.find?_isSome.mpr ⟨call, hcall, by simp⟩)
  have hid : found.attemptId = call.attemptId := by simpa using List.find?_some hfound
  have hmem : found ∈ calls := List.mem_of_find?_eq_some hfound
  rw [tryOf, hfound, List.inj_on_of_nodup_map hsingle hmem hcall hid]
  rfl

theorem tryOf_append {new : SendCall} (hsingle : ((calls ++ [new]).map SendCall.attemptId).Nodup) :
    tryOf (calls ++ [new]) = Function.update (tryOf calls) new.attemptId (tryOfCall new) := by
  have hold : (calls.map SendCall.attemptId).Nodup := by
    rw [List.map_append] at hsingle
    exact (List.nodup_append.mp hsingle).1
  funext attemptId
  by_cases hnew : attemptId = new.attemptId
  · subst hnew
    rw [Function.update_self, tryOf_eq_of_mem hsingle (by simp)]
  · rw [Function.update_of_ne hnew]
    by_cases hcalled : ∃ call ∈ calls, call.attemptId = attemptId
    · obtain ⟨call, hcall, rfl⟩ := hcalled
      rw [tryOf_eq_of_mem hsingle (List.mem_append_left _ hcall), tryOf_eq_of_mem hold hcall]
    · have hnone : ∀ call ∈ calls, call.attemptId ≠ attemptId :=
        fun call hcall hid => hcalled ⟨call, hcall, hid⟩
      rw [tryOf_eq_permitted hnone, tryOf_eq_permitted fun call hcall => ?_]
      rcases List.mem_append.mp hcall with hcall | hcall
      · exact hnone call hcall
      · exact List.mem_singleton.mp hcall ▸ Ne.symm hnew

theorem tryOf_set (hsingle : (calls.map SendCall.attemptId).Nodup) {k : Nat}
    {started call' : SendCall} (hk : calls[k]? = some started)
    (hid : call'.attemptId = started.attemptId) :
    tryOf (calls.set k call') =
      Function.update (tryOf calls) started.attemptId (tryOfCall call') := by
  have hsingle' : ((calls.set k call').map SendCall.attemptId).Nodup :=
    (map_set_of_eq hk hid).symm ▸ hsingle
  funext attemptId
  by_cases hsame : attemptId = started.attemptId
  · subst hsame
    have hmem : call' ∈ calls.set k call' := List.mem_set (List.getElem?_eq_some_iff.mp hk).1 _
    rw [Function.update_self, ← hid, tryOf_eq_of_mem hsingle' hmem]
  · rw [Function.update_of_ne hsame]
    by_cases hcalled : ∃ call ∈ calls, call.attemptId = attemptId
    · obtain ⟨call, hcall, rfl⟩ := hcalled
      obtain ⟨j, hj⟩ := List.mem_iff_getElem?.mp hcall
      have hne : k ≠ j := by
        rintro rfl
        obtain rfl := Option.some.inj (hk.symm.trans hj)
        exact hsame rfl
      have hmem : call ∈ calls.set k call' :=
        List.mem_of_getElem? ((List.getElem?_set_ne hne).trans hj)
      rw [tryOf_eq_of_mem hsingle' hmem, tryOf_eq_of_mem hsingle hcall]
    · have hnone : ∀ call ∈ calls, call.attemptId ≠ attemptId :=
        fun call hcall hid => hcalled ⟨call, hcall, hid⟩
      rw [tryOf_eq_permitted hnone, tryOf_eq_permitted fun call hcall => ?_]
      rcases List.mem_or_eq_of_mem_set hcall with hcall | rfl
      · exact hnone call hcall
      · exact hid ▸ Ne.symm hsame

theorem item_of_update {calls' : List SendCall} {A : Aggregate} (hkeyed : A.Keyed)
    {attemptId : String} {t : Try} (h : tryOf calls' = Function.update (tryOf calls) attemptId t)
    (hstep : TryStep (tryOf calls attemptId) t) :
    itemOfAggregate calls' A = itemOfAggregate calls A ∨
      Step (itemOfAggregate calls A) (itemOfAggregate calls' A) := by
  rw [itemOfAggregate, itemOfAggregate, h, hkeyed.attempts.map_update]
  by_cases hmem : attemptId ∈ A.attempts.map SmsAttempt.id
  · rw [if_pos hmem]
    refine Or.inr (.tried _ ?_ hstep)
    rw [List.getElem?_map, List.getElem?_idxOf hmem]
    rfl
  · rw [if_neg hmem]
    exact Or.inl rfl

end Tries

section Steps

variable {config : Config} {a a' : ServiceSnapshot} {l : ServiceLabel}

/-- What a step does to the rows and to the calls; never to both. -/
inductive Effect (a a' : ServiceSnapshot) : Prop where
  | kept : a'.store = a.store → a'.ext.calls = a.ext.calls → Effect a a'
  | stored (i : Nat) (q : Control) : a.controls[i]? = some q →
      StepEffect q a.store a'.store → a'.ext.calls = a.ext.calls → Effect a a'
  | started (i : Nat) (hold : Hold) : a.controls[i]? = some (.dispatch (.calling hold)) →
      a'.store = a.store → a'.ext.calls = a.ext.calls ++ [hold.call] → Effect a a'
  | changed (k : Nat) (started call' : SendCall) : a.ext.calls[k]? = some started →
      call'.attemptId = started.attemptId → TryStep (tryOfCall started) (tryOfCall call') →
      a'.store = a.store → a'.ext.calls = a.ext.calls.set k call' → Effect a a'

theorem effect_of_answer {o' : Outside} {k : Nat} {reply : Option SendSmsResult}
    (hanswer : a.ext.answerCall k reply = some o') (hstore : a'.store = a.store)
    (hext : a'.ext = o') : Effect a a' := by
  obtain ⟨started, state, hk, hflight, rfl, hstate⟩ := Outside.answerCall_eq_some hanswer
  refine .changed k started { started with state := state } hk rfl ?_ hstore (by rw [hext])
  rcases started with ⟨_, _, _, _, _, state', accepted⟩
  obtain rfl : state' = .inFlight := hflight
  split at hstate
  · obtain ⟨hfalse, rfl⟩ := hstate
    obtain rfl : accepted = false := hfalse
    exact .refuse
  · obtain rfl := hstate
    exact .finish accepted

theorem effect_of_accept {o' : Outside} {k : Nat} (haccept : a.ext.acceptCall k = some o')
    (hstore : a'.store = a.store) (hext : a'.ext = o') : Effect a a' := by
  obtain ⟨started, hk, hrefused, rfl⟩ := Outside.acceptCall_eq_some haccept
  refine .changed k started { started with accepted := true } hk rfl ?_ hstore (by rw [hext])
  rcases started with ⟨_, _, _, _, _, state, accepted⟩
  cases state with
  | inFlight | closed => exact .take (t := ⟨_, accepted⟩) nofun nofun
  | refused => exact absurd rfl hrefused

theorem effect_of_step (hstep : ServiceStep config a l a') : Effect a a' := by
  cases hstep with
  | answer hq _ hspec => exact .stored _ _ hq (stepEffect_of_controlSpec hspec) rfl
  | commit hq _ hspec => exact .stored _ _ hq (stepEffect_of_controlSpec hspec) rfl
  | lost hq _ hspec => exact .stored _ _ hq (stepEffect_of_controlSpec hspec) rfl
  | act hq hcode hact =>
      cases acts_of_code hcode hact with
      | started hold => exact .started _ hold hq rfl rfl
      | answered hold call hanswer => exact effect_of_answer hanswer rfl rfl
      | took htake =>
          obtain ⟨queued, _, _, _, _, rfl⟩ := Outside.takeJob_eq_some htake
          exact .kept rfl rfl
      | notAdded _ _ _ ho => exact .kept rfl (by rcases ho with rfl | rfl <;> rfl)
      | tookMaintenance _ htake =>
          obtain ⟨queued, _, _, _, _, rfl⟩ := Outside.takeJob_eq_some htake
          exact .kept rfl rfl
      | _ => exact .kept rfl rfl
  | env hmove =>
      obtain hcalls | ⟨call, haccept⟩ := Outside.calls_of_move hmove
      · exact .kept rfl hcalls
      · exact effect_of_accept haccept rfl rfl
  | spawn _ => exact .kept rfl rfl
  | error _ _ _ => exact .kept rfl rfl
  | fault _ _ => exact .kept rfl rfl
  | crash _ _ => exact .kept rfl rfl

end Steps

section Attempts

variable {q : Control} {s s' : Database}

theorem attempt_before (h : StepEffect q s s') {attemptId : String} {row' : SmsAttempt}
    (hrow' : smsAttempt.find s' attemptId = some row') :
    smsAttempt.find s attemptId = some row' ∨ row'.outcome = .reserved ∨
      ∃ input row, finalizing? q = some (row.smsMessageId, attemptId, input) ∧
        smsAttempt.find s attemptId = some row ∧ row' = input.record row := by
  obtain rfl : row'.id = attemptId := Table.idOf_of_find hrow'
  have hmem : row' ∈ (aggregate s' row'.smsMessageId).attempts :=
    mem_attempts_iff.mpr ⟨hrow', rfl⟩
  have hkept : row' ∈ (aggregate s row'.smsMessageId).attempts →
      smsAttempt.find s row'.id = some row' := fun hmem => (mem_attempts_iff.mp hmem).1
  obtain hsame | hstep := message_of_stepEffect h row'.smsMessageId
  · exact Or.inl (hkept (hsame ▸ hmem))
  cases hstep with
  | created call hcreated =>
      obtain ⟨c, events', _, _, _, _, hA⟩ := hcreated
      rw [hA] at hmem
      exact Or.inl (hkept hmem)
  | moved _ hmoved =>
      obtain ⟨old, now, events', _, _, _, hA⟩ := hmoved
      rw [hA] at hmem
      exact Or.inl (hkept hmem)
  | requeued _ hrequeued =>
      obtain ⟨old, now, events', _, _, _, hA⟩ := hrequeued
      rw [hA] at hmem
      exact Or.inl (hkept hmem)
  | reserved providerName attemptId _ hreserved =>
      obtain ⟨old, now, c, _, _, _, hA⟩ := hreserved
      rw [hA] at hmem
      rcases List.mem_append.mp hmem with hmem | hmem
      · exact Or.inl (hkept hmem)
      · rw [List.mem_singleton.mp hmem]
        exact Or.inr (Or.inl rfl)
  | finalized attemptId input hq hfinalized =>
      obtain ⟨old, hold, hid, _, hattempts, _⟩ := Finalized.attempts hfinalized
      obtain ⟨hfound, hm⟩ := mem_attempts_iff.mp hold
      rw [hattempts] at hmem
      rcases Table.mem_of_mem_replace hmem with heq | ⟨hmem, _⟩
      · refine Or.inr (Or.inr ⟨input, old, ?_, ?_, heq⟩)
        · rw [heq, record_smsMessageId] at hq
          rw [heq, record_id, hq, hid]
        · rw [heq, record_id, hfound]
      · exact Or.inl (hkept hmem)
  | resolved attemptId input hresolved =>
      obtain ⟨old, c, c', _, _, _, hA⟩ := hresolved
      rw [hA] at hmem
      exact Or.inl (hkept hmem)
  | relayed hrelayed =>
      obtain ⟨event, _, data, c, _, hA⟩ := hrelayed
      rw [hA] at hmem
      exact Or.inl (hkept hmem)

theorem fresh_of_stepEffect (h : StepEffect q s s') {row : SmsAttempt}
    (hreserved : row.outcome = .reserved) (hrow : smsAttempt.find s' row.id = some row)
    (hnew : row ∉ (aggregate s row.smsMessageId).attempts) : smsAttempt.find s row.id = none := by
  by_contra hsome
  obtain ⟨old, hold⟩ := Option.ne_none_iff_exists'.mp hsome
  obtain hkept | ⟨input, _, _, hrecord⟩ := find_attempt_of_stepEffect h hold
  · obtain rfl := Option.some.inj (hrow.symm.trans hkept)
    exact hnew (mem_attempts_iff.mpr ⟨hold, rfl⟩)
  · obtain rfl := Option.some.inj (hrow.symm.trans hrecord)
    cases input <;> cases hreserved

end Attempts

/-- An attempt that is not live has failed since its provider has refused; a worker that
records a result has made its call. -/
structure Spent (a : ServiceSnapshot) : Prop where
  refused : ∀ attemptId row, smsAttempt.find a.store attemptId = some row → ¬Live row →
    row.outcome = .failed ∧
      ∃ call ∈ a.ext.calls, call.attemptId = attemptId ∧ call.state = .refused
  asked : ∀ (i : Nat) hold input,
    a.controls[i]? = some (.dispatch (.finalizing hold input)) →
      ∃ call ∈ a.ext.calls, call.attemptId = hold.attemptId

section Preservation

variable {config : Config} {a a' : ServiceSnapshot} {l : ServiceLabel}

theorem calls_kept (h : Effect a a') {call : SendCall} (hcall : call ∈ a.ext.calls) :
    ∃ call' ∈ a'.ext.calls, call'.attemptId = call.attemptId ∧
      (call.state = .refused → call'.state = .refused) := by
  cases h with
  | kept _ hcalls => exact ⟨call, hcalls ▸ hcall, rfl, id⟩
  | stored _ _ _ _ hcalls => exact ⟨call, hcalls ▸ hcall, rfl, id⟩
  | started _ _ _ _ hcalls => exact ⟨call, hcalls ▸ List.mem_append_left _ hcall, rfl, id⟩
  | changed k started call' hk hid hstep _ hcalls =>
      obtain ⟨j, hj⟩ := List.mem_iff_getElem?.mp hcall
      rw [hcalls]
      by_cases hkj : k = j
      · subst hkj
        obtain rfl := Option.some.inj (hk.symm.trans hj)
        refine ⟨call', List.mem_set (List.getElem?_eq_some_iff.mp hk).1 _, hid, fun hrefused => ?_⟩
        exact absurd (show (tryOfCall started).phase = .refused by rw [tryOfCall, hrefused]; rfl)
          hstep.not_refused
      · exact ⟨call, List.mem_of_getElem? ((List.getElem?_set_ne hkj).trans hj), rfl, id⟩

theorem awaiting_of_acts {c : Choice} {o o' : Outside} {q q' : Control}
    (h : Acts config c o q o' q') {hold : Hold} {input : FinalizeProviderAttemptInput}
    (hq' : q' = .dispatch (.finalizing hold input)) : ∃ k, q = .dispatch (.awaiting hold k) := by
  cases h with
  | answered hold' call =>
      cases hreply : c.reply with
      | none =>
          rw [hreply] at hq'
          cases hq'
      | some result =>
          rw [hreply] at hq'
          cases hq'
          exact ⟨call, rfl⟩
  | took =>
      have hhold := congrArg hold? hq'
      rw [hold?_dispatch, SmsProcessor.hold?_process] at hhold
      cases hhold
  | _ => cases hq'

theorem finalizing_before (hl : ∀ q, l = .spawn q → hold? q = none)
    (hstep : ServiceStep config a l a') {i : Nat} {hold : Hold}
    {input : FinalizeProviderAttemptInput}
    (hq : a'.controls[i]? = some (.dispatch (.finalizing hold input))) :
    a.controls[i]? = some (.dispatch (.finalizing hold input)) ∨
      ∃ k, a.controls[i]? = some (.dispatch (.awaiting hold k)) := by
  have hset : ∀ {j : Nat} {q' : Control}, hold? q' = none →
      (a.controls.set j q')[i]? = some (.dispatch (.finalizing hold input)) →
      a.controls[i]? = some (.dispatch (.finalizing hold input)) := by
    intro j q' hnone hset
    rcases getElem?_set_eq_some hset with ⟨_, rfl⟩ | ⟨_, hset⟩
    · cases hnone
    · exact hset
  have hok : ∀ {j : Nat} {q q' : Control} {s : Database}, controlSpec config q a.store (.ok q') s →
      (a.controls.set j q')[i]? = some (.dispatch (.finalizing hold input)) →
      a.controls[i]? = some (.dispatch (.finalizing hold input)) := by
    intro j q q' s hspec h
    obtain hnone | ⟨_, _, _, _, _, rfl, _⟩ := hold_of_ok hspec
    · exact hset hnone h
    · rcases getElem?_set_eq_some h with ⟨_, heq⟩ | ⟨_, h⟩
      · cases heq
      · exact h
  cases hstep with
  | spawn q =>
      rcases getElem?_concat_eq_some hq with hq | rfl
      · exact Or.inl hq
      · cases hl _ rfl
  | answer _ _ hspec => exact Or.inl (hok hspec hq)
  | commit _ _ hspec => exact Or.inl (hok hspec hq)
  | error _ hcode _ => exact Or.inl (hset (hold_of_error hcode _) hq)
  | lost _ hcode _ => exact Or.inl (hset (hold_of_error hcode _) hq)
  | fault _ hcode => exact Or.inl (hset (hold_of_error hcode _) hq)
  | crash _ _ => exact Or.inl (hset (hold_of_crash _) hq)
  | env _ => exact Or.inl hq
  | act hq' hcode hact =>
      rcases getElem?_set_eq_some hq with ⟨rfl, heq⟩ | ⟨_, hq⟩
      · obtain ⟨k, rfl⟩ := awaiting_of_acts (acts_of_code hcode hact) heq.symm
        exact Or.inr ⟨k, hq'⟩
      · exact Or.inl hq

/-- Every step keeps what has been refused, and an attempt that stops being live has
been. -/
theorem Spent.step (h : Spent a) (hguarded : Guarded a) (hguarded' : Guarded a')
    (hl : ∀ q, l = .spawn q → hold? q = none) (hstep : ServiceStep config a l a') : Spent a' := by
  have heffect := effect_of_step hstep
  have hkept : ∀ attemptId,
      (∃ call ∈ a.ext.calls, call.attemptId = attemptId ∧ call.state = .refused) →
      ∃ call ∈ a'.ext.calls, call.attemptId = attemptId ∧ call.state = .refused := by
    rintro attemptId ⟨call, hcall, hid, hrefused⟩
    obtain ⟨call', hcall', hid', hkept⟩ := calls_kept heffect hcall
    exact ⟨call', hcall', hid'.trans hid, hkept hrefused⟩
  constructor
  · intro attemptId row hrow hspent
    have hbefore : smsAttempt.find a.store attemptId = some row → row.outcome = .failed ∧
        ∃ call ∈ a'.ext.calls, call.attemptId = attemptId ∧ call.state = .refused :=
      fun hrow => (h.refused attemptId row hrow hspent).imp_right (hkept _)
    cases heffect with
    | kept hstore _ => exact hbefore (hstore ▸ hrow)
    | started _ _ _ hstore _ => exact hbefore (hstore ▸ hrow)
    | changed _ _ _ _ _ _ hstore _ => exact hbefore (hstore ▸ hrow)
    | stored i q hq hstored _ =>
        obtain hrow' | hreserved | ⟨input, old, hfinal, _, rfl⟩ := attempt_before hstored hrow
        · exact hbefore hrow'
        · have hmem : row ∈ (aggregate a'.store row.smsMessageId).attempts := by
            rw [mem_attempts_iff, show row.id = attemptId from Table.idOf_of_find hrow]
            exact ⟨hrow, rfl⟩
          exact absurd ((hguarded'.ledger _).live_of_reserved hmem hreserved) hspent
        · -- only a definitive refusal is recorded as one
          obtain ⟨hold, rfl, rfl⟩ := hguarded.held.workers i q _ _ _ hq hfinal
          obtain ⟨call, hcall, hid⟩ := h.asked i hold input hq
          have hposition : Position a.ext.calls (.dispatch (.finalizing hold input)) :=
            hguarded.called.position i _ hq
          rcases input with providerMessageId | ⟨_ | _, isRetryable, errorMessage, delayMs⟩
          · exact absurd (Or.inr rfl) hspent
          · exact ⟨rfl, hkept _ ⟨call, hcall, hid, hposition rfl rfl call hcall hid⟩⟩
          · exact absurd (Or.inl rfl) hspent
  · intro i hold input hq
    have hcalled : ∃ call ∈ a.ext.calls, call.attemptId = hold.attemptId := by
      obtain hq | ⟨k, hq⟩ := finalizing_before hl hstep hq
      · exact h.asked i hold input hq
      · obtain ⟨call, hcall, hid⟩ : ∃ call, a.ext.calls[k]? = some call ∧
            call.attemptId = hold.attemptId := hguarded.called.position i _ hq
        exact ⟨call, List.mem_of_getElem? hcall, hid⟩
    obtain ⟨call, hcall, hid⟩ := hcalled
    obtain ⟨call', hcall', hid', _⟩ := calls_kept heffect hcall
    exact ⟨call', hcall', hid'.trans hid⟩

theorem spent_of_reachable (h : Reachable (ServiceStep config) (Spawning (delivers ·)) Initial a) :
    Spent a := by
  refine Reachable.invariant (fun a hinit => ?_) (fun a l a' hreach hinv hl hstep => ?_) h
  · have hempty : smsAttempt.find a.store = fun _ => none := by
      funext attemptId
      rw [hinit.store]
      simp [Table.find]
    constructor <;> simp [hempty, hinit.controls]
  · exact hinv.step (guarded_of_reachable hreach)
      (guarded_of_reachable (Reachable.next l hreach hl hstep))
      (fun q hq => (holds_nothing_of_delivers (hl q hq)).2.2) hstep

end Preservation

section Refinement

variable {config : Config} {a a' : ServiceSnapshot} {l : ServiceLabel} {w w' : ServiceWorld}
  {m : String}

theorem verdict_of_transition {source : SmsStatus → Bool} {target status : SmsStatus}
    {data : SmsMessage → SmsMessage} {intent : Option OutboxIntent}
    (h : Transition m source target data intent) (hsource : source status) :
    verdictOfStatus target = verdictOfStatus status ∨
      (verdictOfStatus status = .pending ∧ target = .fatalFailure) ∨
      (verdictOfStatus status = .pending ∧ verdictOfStatus target = .settled) := by
  cases h with
  | begun => cases status <;> simp_all [beginProcessingFrom, verdictOfStatus]
  | recovered => cases status <;> simp_all [verdictOfStatus]
  | retried => cases status <;> simp_all [isValidTransition, transitionTable, verdictOfStatus]
  | permanent status' =>
      cases status' <;> cases status <;>
        simp_all [isValidTransition, transitionTable, verdictOfStatus,
          PermanentProviderFailureStatus.status]
  | fatal => cases status <;> simp_all [isValidTransition, transitionTable, verdictOfStatus]
  | expired => cases status <;> simp_all [verdictOfStatus]
  | reported status' =>
      cases status' <;> cases status <;>
        simp_all [isValidTransition, transitionTable, verdictOfStatus,
          DeliveryTerminalStatus.status]

theorem refused_of_not_live (hguarded : Guarded a) (hspent : Spent a)
    (h : ∀ row ∈ (aggregate a.store m).attempts, ¬Live row) : Refused (itemOf a m).tries := by
  intro t ht
  obtain ⟨attemptId, hattempt, rfl⟩ := List.mem_map.mp ht
  obtain ⟨row, hrow, rfl⟩ := List.mem_map.mp hattempt
  obtain ⟨_, call, hcall, hid, hrefused⟩ :=
    hspent.refused row.id row (mem_attempts_iff.mp hrow).1 (h row hrow)
  rw [← hid, tryOf_eq_of_mem hguarded.called.single hcall, tryOfCall, hrefused]
  rfl

theorem map_id_replace (input : FinalizeProviderAttemptInput) (old : SmsAttempt)
    (attempts : List SmsAttempt) :
    (smsAttempt.replace (input.record old) attempts).map SmsAttempt.id =
      attempts.map SmsAttempt.id := by
  rw [Table.replace, List.map_map]
  refine List.map_congr_left fun row _ => ?_
  rw [Function.comp_apply]
  split
  · rename_i hid
    exact hid.symm
  · rfl

theorem tryOf_of_reserved (hguarded : Guarded a) {q : Control} {s : Database}
    (heffect : StepEffect q a.store s) {row : SmsAttempt} (hreserved : row.outcome = .reserved)
    (happended : (aggregate s row.smsMessageId).attempts =
      (aggregate a.store row.smsMessageId).attempts ++ [row]) :
    tryOf a.ext.calls row.id = ⟨.permitted, false⟩ := by
  have hmem : row ∈ (aggregate s row.smsMessageId).attempts :=
    happended ▸ List.mem_append_right _ List.mem_cons_self
  have hnew : row ∉ (aggregate a.store row.smsMessageId).attempts := by
    have hnodup : (aggregate s row.smsMessageId).attempts.Nodup :=
      (keyed s row.smsMessageId).attempts.of_map _
    rw [happended] at hnodup
    exact fun hold => (List.nodup_append.mp hnodup).2.2 row hold row (by simp) rfl
  have hfresh := fresh_of_stepEffect heffect hreserved (mem_attempts_iff.mp hmem).1 hnew
  refine tryOf_eq_permitted fun call hcall hid => ?_
  obtain ⟨old, hold, _⟩ := hguarded.called.known call hcall
  rw [hid, hfresh] at hold
  cases hold

theorem item_of_stepEffect (hguarded : Guarded a) (hspent : Spent a) {q : Control} {s : Database}
    (heffect : StepEffect q a.store s) :
    itemOfAggregate a.ext.calls (aggregate s m) = itemOf a m ∨
      Step (itemOf a m) (itemOfAggregate a.ext.calls (aggregate s m)) := by
  have hrefused : ∀ row, (aggregate a.store m).message = some row → isOpen row.status →
      Refused (itemOf a m).tries := fun row hrow hopen =>
    refused_of_not_live hguarded hspent ((hguarded.ledger m).idle row hrow hopen)
  obtain hsame | hstep := message_of_stepEffect heffect m
  · exact Or.inl (by rw [hsame, itemOf])
  have htries : ∀ message A', aggregate s m = A' → A'.message = message →
      A'.attempts.map SmsAttempt.id = (aggregate a.store m).attempts.map SmsAttempt.id →
      itemOfAggregate a.ext.calls (aggregate s m) = ⟨verdictOf message, (itemOf a m).tries⟩ := by
    intro message A' hA hmessage hattempts
    rw [itemOfAggregate, hA, hmessage, hattempts]
    rfl
  have hverdict : ∀ row, (aggregate a.store m).message = some row →
      itemOf a m = ⟨verdictOfStatus row.status, (itemOf a m).tries⟩ := by
    intro row hrow
    rw [itemOf, itemOfAggregate, hrow]
    rfl
  cases hstep with
  | created call hcreated =>
      obtain ⟨c, events', hnone, _, _, _, hA⟩ := hcreated
      rw [htries _ _ hA rfl rfl]
      refine Or.inl ?_
      rw [itemOf, itemOfAggregate, hnone]
      rfl
  | moved htransition hmoved =>
      obtain ⟨row, now, events', hrow, hsource, _, hA⟩ := hmoved
      rw [htries _ _ hA rfl rfl, hverdict row hrow]
      obtain hsame | ⟨hpending, rfl⟩ | ⟨hpending, hsettled⟩ :=
        verdict_of_transition htransition hsource
      · exact Or.inl (by rw [verdictOf, Option.map_some, Option.getD_some, hsame])
      · have hopen := (isOpen_of_transition htransition hsource).1 rfl
        rw [hpending]
        exact Or.inr (.abandon (hrefused row hrow hopen))
      · rw [hpending, verdictOf, Option.map_some, Option.getD_some, hsettled]
        exact Or.inr (.settle _)
  | requeued _ hrequeued =>
      obtain ⟨row, now, events', hrow, hsource, _, hA⟩ := hrequeued
      rw [htries _ _ hA rfl rfl, hverdict row hrow,
        show row.status = .fatalFailure from of_decide_eq_true hsource]
      exact Or.inr (.resume _)
  | reserved providerName attemptId _ hreserved =>
      obtain ⟨row, now, c, hrow, hstatus, _, hA⟩ := hreserved
      have hpermitted := tryOf_of_reserved hguarded heffect
        (show (reservation m providerName c).outcome = .reserved from rfl)
        (congrArg Aggregate.attempts hA)
      have hopen : isOpen row.status := by rw [hstatus]; rfl
      have hitem : itemOfAggregate a.ext.calls (aggregate s m) =
          ⟨.pending, (itemOf a m).tries ++ [⟨.permitted, false⟩]⟩ := by
        rw [itemOfAggregate, hA, ← hpermitted]
        simp only [List.map_append, List.map_cons, List.map_nil]
        rfl
      rw [hitem, hverdict row hrow, hstatus]
      exact Or.inr (.permit (hrefused row hrow hopen))
  | finalized attemptId input _ hfinalized =>
      obtain ⟨old, _, _, _, hrest⟩ := hfinalized
      rcases input with providerMessageId | ⟨_ | _, isRetryable, errorMessage, delayMs⟩
      · obtain ⟨row, now, hrow, hstatus, hA⟩ := hrest
        rw [htries _ _ hA rfl (map_id_replace _ _ _), hverdict row hrow, hstatus]
        exact Or.inr (.settle _)
      · obtain ⟨row, now, hrow, hstatus, hA⟩ := hrest
        rw [htries _ _ hA rfl (map_id_replace _ _ _), hverdict row hrow, hstatus]
        exact Or.inl rfl
      · obtain ⟨delay, events', _, _, hA⟩ := hrest
        rw [htries _ _ hA rfl (map_id_replace _ _ _)]
        exact Or.inl rfl
  | resolved attemptId input hresolved =>
      obtain ⟨row, c, c', hrow, hstatus, _, hA⟩ := hresolved
      rw [htries _ _ hA rfl rfl, hverdict row hrow, hstatus]
      refine Or.inr ?_
      rcases input with sid | ⟨⟨⟩⟩ <;> exact .settle _
  | relayed hrelayed =>
      obtain ⟨row, _, data, c, _, hA⟩ := hrelayed
      rw [htries _ _ hA rfl rfl]
      exact Or.inl rfl

theorem item_of_step (hguarded : Guarded a) (hspent : Spent a) (hguarded' : Guarded a')
    (hstep : ServiceStep config a l a') (m : String) :
    itemOf a' m = itemOf a m ∨ Step (itemOf a m) (itemOf a' m) := by
  cases effect_of_step hstep with
  | kept hstore hcalls => exact Or.inl (by rw [itemOf, hstore, hcalls, itemOf])
  | stored i q _ heffect hcalls =>
      rw [show itemOf a' m = itemOfAggregate a.ext.calls (aggregate a'.store m) by
        rw [itemOf, hcalls]]
      exact item_of_stepEffect hguarded hspent heffect
  | started i hold hq hstore hcalls =>
      have hposition : ∀ call ∈ a.ext.calls, call.attemptId ≠ hold.attemptId :=
        hguarded.called.position i _ hq
      have hsingle := hguarded'.called.single
      rw [hcalls] at hsingle
      rw [itemOf, itemOf, hstore, hcalls]
      refine item_of_update (keyed _ _) (tryOf_append hsingle) ?_
      rw [SmsProcessor.Hold.call_attemptId, tryOf_eq_permitted hposition]
      exact .start
  | changed k started call' hk hid htry hstore hcalls =>
      have hsingle := hguarded.called.single
      rw [itemOf, itemOf, hstore, hcalls]
      refine item_of_update (keyed _ _) (tryOf_set hsingle hk hid) ?_
      rwa [tryOf_eq_of_mem hsingle (List.mem_of_getElem? hk)]

theorem spent_of_reaches (h : Reaches config (Spawning (delivers ·)) Initial w) : Spent w.abs :=
  spent_of_reachable (h.atomic fun _ q hq => (holds_nothing_of_delivers (hq q rfl)).1).2

/-- A step of a run is a stutter of the item or one of its steps. -/
theorem item_of_worldStep (h : Reaches config (Spawning (delivers ·)) Initial w)
    (hl : Spawning (delivers ·) w.abs l) (hstep : (service config).step w l = some w')
    (m : String) : itemOf w'.abs m = itemOf w.abs m ∨ Step (itemOf w.abs m) (itemOf w'.abs m) := by
  have h' : Reaches config (Spawning (delivers ·)) Initial w' := Reachable.next l h hl hstep
  obtain hsame | hatomic :=
    serviceStep_of_step (fun _ q hq => (holds_nothing_of_delivers (hq q rfl)).1) h hl hstep
  · exact Or.inl (by rw [hsame])
  · exact item_of_step (guarded_of_reaches h) (spent_of_reaches h) (guarded_of_reaches h') hatomic m

theorem items_of_step (h : Reaches config (Spawning (delivers ·)) Initial w)
    (hl : Spawning (delivers ·) w.abs l) (hstep : (service config).step w l = some w')
    (m : String) : Steps (itemOf w.abs m) (itemOf w'.abs m) := by
  obtain hitem | hitem := item_of_worldStep h hl hstep m
  · rw [hitem]
  · exact .single hitem

theorem steps_from_fresh (h : Reaches config (Spawning (delivers ·)) Initial w) (m : String) :
    Steps fresh (itemOf w.abs m) := by
  induction h with
  | start h0 =>
      rw [itemOf, h0.2.store, aggregate_empty]
      rfl
  | next l hprev hl hstep ih => exact ih.trans (items_of_step hprev hl hstep m)

theorem steps_of_later (h : Reaches config (Spawning (delivers ·)) Initial w)
    (hlater : Later config (Spawning (delivers ·)) w w') (m : String) :
    Steps (itemOf w.abs m) (itemOf w'.abs m) := by
  induction hlater with
  | start h0 => rw [h0]
  | next l hprev hl hstep ih =>
      exact ih.trans (items_of_step (h.later (fun _ _ hl => hl) hprev) hl hstep m)

/-- The delivery contract: whatever interleaves, a message is handled as work that must be
done at most once, each step of the service being one step of it or none. A provider is
reserved for it only after every provider that was asked has refused, it is given up only
then, and what a run does to it later are further steps of the same kind; once a provider
has accepted it, no other is even reserved. -/
theorem delivery_contract (h : Reaches config (Spawning (delivers ·)) Initial w)
    (hlater : Later config (Spawning (delivers ·)) w w') (m : String) :
    Steps fresh (itemOf w.abs m) ∧
      (∀ l v, Spawning (delivers ·) w.abs l → (service config).step w l = some v →
        itemOf v.abs m = itemOf w.abs m ∨ Step (itemOf w.abs m) (itemOf v.abs m)) ∧
      Steps (itemOf w.abs m) (itemOf w'.abs m) ∧
      (∀ call ∈ w.ext.calls, call.messageId = m → tryOfCall call ∈ (itemOf w.abs m).tries) ∧
      ((∃ call ∈ w.ext.calls, call.messageId = m ∧ call.accepted) →
        (aggregate w'.store m).attempts.length = (aggregate w.store m).attempts.length) := by
  have hguarded := guarded_of_reaches h
  have hfresh := steps_from_fresh h m
  have hsteps := steps_of_later h hlater m
  have htries : ∀ call ∈ w.ext.calls, call.messageId = m →
      tryOfCall call ∈ (itemOf w.abs m).tries := by
    intro call hcall hm
    obtain ⟨row, hrow, hrowm, _⟩ := hguarded.called.known call hcall
    have hid : row.id = call.attemptId := Table.idOf_of_find hrow
    rw [← tryOf_eq_of_mem hguarded.called.single hcall, ← hid]
    exact List.mem_map_of_mem (List.mem_map_of_mem
      (mem_attempts_iff.mpr ⟨hid ▸ hrow, hrowm.trans hm⟩))
  have hlength : ∀ v : ServiceWorld,
      (itemOf v.abs m).tries.length = (aggregate v.store m).attempts.length :=
    fun v => (List.length_map _).trans (List.length_map _)
  refine ⟨hfresh, fun l v hl hstep => item_of_worldStep h hl hstep m, hsteps, htries,
    fun ⟨call, hcall, hm, haccepted⟩ => ?_⟩
  have htaken : Taken (itemOf w.abs m) := ⟨_, htries call hcall hm, haccepted⟩
  rw [← hlength, ← hlength, (sound_fresh.steps hfresh).taken_steps htaken hsteps]

/-- A message is tried again, or given up, only after a refusal: in every reachable state
where it is queued, in processing, scheduled for a retry or dead-lettered, each of its
attempts is a definitive failure which the provider that was called for it has answered,
and no call that was ever made for it has been accepted or still can be. -/
theorem retried_after_refusals (h : Reaches config (Spawning (delivers ·)) Initial w)
    {row : SmsMessage} (hrow : (aggregate w.store m).message = some row)
    (hopen : isOpen row.status) :
    (∀ a ∈ (aggregate w.store m).attempts, a.outcome = .failed ∧ a.isAmbiguous = false ∧
        ∃ call ∈ w.ext.calls, call.attemptId = a.id ∧ call.messageId = m) ∧
      ∀ call ∈ w.ext.calls, call.messageId = m →
        call.state = .refused ∧ call.accepted = false := by
  have hguarded := guarded_of_reaches h
  have hspent := spent_of_reaches h
  have hidle := (hguarded.ledger m).idle row hrow hopen
  constructor
  · intro a ha
    obtain ⟨hfound, hm⟩ := mem_attempts_iff.mp ha
    obtain ⟨hfailed, call, hcall, hid, _⟩ := hspent.refused a.id a hfound (hidle a ha)
    obtain ⟨known, hknown, hknownm, _⟩ := hguarded.called.known call hcall
    have hsame : known = a := Option.some.inj (hknown.symm.trans (hid ▸ hfound))
    have hclear : a.isAmbiguous = false := by
      by_contra hambiguous
      exact hidle a ha (Or.inl (by simpa using hambiguous))
    exact ⟨hfailed, hclear, call, hcall, hid, hknownm.symm.trans (hsame ▸ hm)⟩
  · intro call hcall hm
    obtain ⟨a, hfound, ham, hlive⟩ := hguarded.called.known call hcall
    have hid : a.id = call.attemptId := Table.idOf_of_find hfound
    have hmem : a ∈ (aggregate w.store m).attempts :=
      mem_attempts_iff.mpr ⟨hid ▸ hfound, ham.trans hm⟩
    have hrefused : call.state = .refused := by
      by_contra hstate
      exact hidle a hmem (hlive hstate)
    refine ⟨hrefused, ?_⟩
    by_contra haccepted
    exact hguarded.called.accepted call hcall (by simpa using haccepted) hrefused

end Refinement

/-- A call that a provider has accepted, and a second worker on the same job. -/
theorem delivery_contract_accepted :
    ∃ w w', Reaches sampleConfig (Spawning (delivers ·)) Initial w ∧
      Later sampleConfig (Spawning (delivers ·)) w w' ∧
      itemOf w.abs "m" = ⟨.pending, [⟨.underway, true⟩]⟩ ∧
      Steps (itemOf w.abs "m") (itemOf w'.abs "m") ∧
      (aggregate w'.store "m").attempts.length = 1 := by
  obtain ⟨w, hw, ⟨hitem, hcall, hlength⟩, hstep⟩ :=
    exists_reaches_of_exec sampleConfig (Spawning (delivers ·))
      (creation ++ callingPass ++ [.env { sampleChoice "" 1 with move := .accept 0 }])
      (fun w => (itemOf w.abs "m" = ⟨.pending, [⟨.underway, true⟩]⟩ ∧
          (∃ call ∈ w.ext.calls, call.messageId = "m" ∧ call.accepted) ∧
          (aggregate w.store "m").attempts.length = 1) ∧
        ((service sampleConfig).step w
          (.spawn (.dispatch (.beginning ⟨sampleJob, "m"⟩)))).isSome)
      (by decide +kernel)
  obtain ⟨w', hw'⟩ := Option.isSome_iff_exists.mp hstep
  have hlater : Later sampleConfig (Spawning (delivers ·)) w w' :=
    .next _ (.start rfl) (fun q hq => by cases hq; rfl) hw'
  obtain ⟨_, _, hsteps, _, hafter⟩ := delivery_contract hw hlater "m"
  exact ⟨w, w', hw, hlater, hitem, hsteps, (hafter hcall).trans hlength⟩

/-- A message that its only provider has refused, and that is dead-lettered. -/
theorem retried_after_refusals_fatal :
    ∃ w, Reaches sampleConfig (Spawning (delivers ·)) Initial w ∧
      (aggregate w.store "m").message.map SmsMessage.status = some .fatalFailure ∧
      w.ext.calls ≠ [] ∧ ∀ call ∈ w.ext.calls, call.messageId = "m" →
        call.state = .refused ∧ call.accepted = false := by
  obtain ⟨w, hw, hstatus, hcalls⟩ := exists_reaches_of_exec sampleConfig (Spawning (delivers ·))
    (creation ++ callingPass ++ statements 1 1
        { sampleChoice "" 2 with reply := some ⟨false, none, some "bad number", false, none⟩ } ++
      statements 1 2 (sampleChoice "" 3) ++ .commit 1 :: statements 1 4 (sampleChoice "f" 4) ++
      [.commit 1])
    (fun w => (aggregate w.store "m").message.map SmsMessage.status = some .fatalFailure ∧
      w.ext.calls ≠ [])
    (by decide +kernel)
  obtain ⟨row, hrow, hfatal⟩ := Option.map_eq_some_iff.mp hstatus
  have hopen : isOpen row.status := by rw [hfatal]; rfl
  exact ⟨w, hw, hstatus, hcalls, (retried_after_refusals hw hrow hopen).2⟩

end SmsNotification.DeliveryContract

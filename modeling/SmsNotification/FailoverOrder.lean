import SmsNotification.DispatchPass
import SmsNotification.PassBudget

namespace SmsNotification.FailoverOrder

open SmsNotification.ActorSystem
open SmsNotification.AttemptLedger
open SmsNotification.ClaimExclusivity
open SmsNotification.DispatchClaims
open SmsNotification.DispatchPass
open SmsNotification.LabelledRuns
open SmsNotification.LifecycleEffects
open SmsNotification.MessageAggregate
open SmsNotification.NoDuplicateDelivery
open SmsNotification.PassBudget
open SmsNotification.Schema
open SmsNotification.Service
open SmsNotification.ServiceEffects
open SmsNotification.ServiceRuns
open SmsNotification.SmsLifecycleRepository
open SmsNotification.SmsProcessor (Hold PassFailure)
open SmsNotification.Surroundings

/-- The providers that attempts have been reserved for, in order. -/
def asked (A : Aggregate) : List String :=
  A.attempts.map SmsAttempt.provider

/-- The providers that a worker has asked in its pass. -/
def taken : Control → List String
  | .dispatch (.reserving pass _ _) => pass.passFailures.map PassFailure.providerName
  | .dispatch (.acquiring hold) => takenBy hold
  | .dispatch (.calling hold) => takenBy hold
  | .dispatch (.awaiting hold _) => takenBy hold
  | .dispatch (.finalizing hold _) => takenBy hold
  | .dispatch (.schedulingRetry pass _) => pass.passFailures.map PassFailure.providerName
  | .dispatch (.markingFatal pass _ _) => pass.passFailures.map PassFailure.providerName
  | _ => []
where
  takenBy (hold : Hold) : List String :=
    hold.pass.passFailures.map PassFailure.providerName ++ [hold.provider]

/-- The providers of the order that a worker has not come to in its pass. -/
def left (config : Config) : Control → List String
  | .dispatch (.loading _ _) => config.processor.orderedProviders
  | .dispatch (.markingMissing _) => config.processor.orderedProviders
  | .dispatch (.reserving _ provider rest) => provider :: rest
  | .dispatch (.acquiring hold) => hold.rest
  | .dispatch (.calling hold) => hold.rest
  | .dispatch (.awaiting hold _) => hold.rest
  | .dispatch (.finalizing hold _) => hold.rest
  | _ => []

/-- A worker has claimed the message. -/
def isClaimed (m : String) (a : ServiceSnapshot) : Bool :=
  a.controls.any fun q => claims? q = some m

/-- What has been asked since belongs to the latest pass. -/
def prolong (new : List String) : List (List String) → List (List String)
  | pass :: earlier => (pass ++ new) :: earlier
  | [] => []

/-- The passes of a message after a step: a claim begins one. -/
def passesAfter (m : String) (a a' : ServiceSnapshot) (passes : List (List String)) :
    List (List String) :=
  prolong ((asked (aggregate a'.store m)).drop (asked (aggregate a.store m)).length)
    (if !isClaimed m a && isClaimed m a' then [] :: passes else passes)

/-- The providers asked in each pass of a message along a run, the latest pass first. -/
def passes (m : String) : List ServiceWorld → List (List String)
  | w' :: w :: past => passesAfter m w.abs w'.abs (passes m (w :: past))
  | _ => []

/-- The passes account for the attempts: each takes the order from its start, and the
worker at the message is in the latest one, with the rest of the order before it. -/
structure InOrder (config : Config) (m : String) (passes : List (List String))
    (a : ServiceSnapshot) : Prop where
  flatten : passes.reverse.flatten = asked (aggregate a.store m)
  prefixes : ∀ pass ∈ passes, pass <+: config.processor.orderedProviders
  underway : ∀ (i : Nat) q, a.controls[i]? = some q → claims? q = some m →
    passes.head? = some (taken q) ∧ taken q ++ left config q = config.processor.orderedProviders

section Messages

variable {config : Config} {q q' : Control} {s s' : Database} {m : String} {A A' : Aggregate}

theorem asked_record (hkeyed : A.Keyed) (input : FinalizeProviderAttemptInput) {old : SmsAttempt}
    (hold : old ∈ A.attempts) :
    (smsAttempt.replace (input.record old) A.attempts).map SmsAttempt.provider = asked A := by
  rw [Table.replace, List.map_map]
  refine List.map_congr_left fun a ha => ?_
  simp only [Function.comp_apply]
  split
  · rename_i hid
    obtain rfl : a = old :=
      List.inj_on_of_nodup_map hkeyed.attempts ha hold (hid.trans (record_id input old))
    exact record_provider input a
  · rfl

theorem asked_of_finalized (hkeyed : A.Keyed) {attemptId : String}
    {input : FinalizeProviderAttemptInput} (h : Finalized m attemptId input A A') :
    asked A' = asked A := by
  obtain ⟨old, hold, _, _, hinput⟩ := h
  have hrecord := asked_record hkeyed input hold
  rcases input with providerMessageId | ⟨_ | _, _, _, _⟩
  · obtain ⟨_, _, _, _, rfl⟩ := hinput
    exact hrecord
  · obtain ⟨_, _, _, _, rfl⟩ := hinput
    exact hrecord
  · obtain ⟨_, _, _, _, rfl⟩ := hinput
    exact hrecord

theorem asked_of_reserved {provider attemptId : String} (h : Reserved m provider attemptId A A') :
    asked A' = asked A ++ [provider] := by
  obtain ⟨_, _, _, _, _, _, rfl⟩ := h
  exact List.map_append

theorem asked_of_messageStep (hkeyed : A.Keyed) (h : MessageStep q m A A') :
    asked A' = asked A ∨
      ∃ provider, reserving? q = some (m, provider) ∧ asked A' = asked A ++ [provider] := by
  cases h with
  | created call hcreated =>
      obtain ⟨_, _, _, _, _, _, rfl⟩ := hcreated
      exact Or.inl rfl
  | moved _ hmoved =>
      obtain ⟨_, _, _, _, _, _, rfl⟩ := hmoved
      exact Or.inl rfl
  | requeued _ hrequeued =>
      obtain ⟨_, _, _, _, _, _, rfl⟩ := hrequeued
      exact Or.inl rfl
  | reserved provider attemptId hreserving hreserved =>
      exact Or.inr ⟨provider, hreserving, asked_of_reserved hreserved⟩
  | finalized attemptId input _ hfinalized => exact Or.inl (asked_of_finalized hkeyed hfinalized)
  | resolved attemptId input hresolved =>
      obtain ⟨_, _, _, _, _, _, rfl⟩ := hresolved
      exact Or.inl rfl
  | relayed hrelayed =>
      obtain ⟨_, _, _, _, _, rfl⟩ := hrelayed
      exact Or.inl rfl

end Messages

section Workers

variable {config : Config} {q q' : Control} {s s' : Database} {m : String}

theorem worker_of_reserving (hcall : isCall q → delivers q) {provider : String}
    (h : reserving? q = some (m, provider)) : ∃ pass rest,
      q = .dispatch (.reserving pass provider rest) ∧ pass.task.messageId = m := by
  unfold reserving? at h
  split at h
  · simp [isCall, delivers] at hcall
  · rename_i pass provider' rest
    obtain ⟨hm, rfl⟩ := Prod.mk.inj (Option.some.inj h)
    exact ⟨pass, rest, rfl, hm⟩
  · simp at h

theorem place_nextProvider (config : Config) (pass : SmsProcessor.Pass) (rest : List String) :
    taken (.dispatch (SmsProcessor.nextProvider config.processor pass rest)) =
        pass.passFailures.map PassFailure.providerName ∧
      left config (.dispatch (SmsProcessor.nextProvider config.processor pass rest)) = rest := by
  cases rest with
  | nil =>
      simp only [SmsProcessor.nextProvider, SmsProcessor.endOfPass]
      split <;> exact ⟨rfl, rfl⟩
  | cons provider rest => exact ⟨rfl, rfl⟩

/-- A worker begins a pass, or goes on in it: what it asks is the next of the order. -/
inductive Advances (config : Config) (m : String) (q q' : Control) (new : List String) : Prop where
  | begins : claims? q ≠ some m → new = [] → taken q' = [] →
      left config q' = config.processor.orderedProviders → Advances config m q q' new
  | goes : claims? q = some m → taken q' = taken q ++ new → left config q = new ++ left config q' →
      Advances config m q q' new

theorem asked_of_stepEffect (h : StepEffect q s s') (m : String) :
    asked (aggregate s' m) = asked (aggregate s m) ∨ ∃ provider,
      reserving? q = some (m, provider) ∧
        asked (aggregate s' m) = asked (aggregate s m) ++ [provider] := by
  obtain hsame | hmessage := message_of_stepEffect h m
  · exact Or.inl (congrArg asked hsame)
  · exact asked_of_messageStep (keyed _ _) hmessage

theorem Advances.none (hkept : claims? q = some m) (htaken : taken q' = taken q)
    (hleft : left config q' = left config q) : Advances config m q q' [] :=
  .goes hkept (by rw [htaken, List.append_nil]) hleft.symm

theorem advances_of_ok (h : controlSpec config q s (.ok q') s') (hclaims : claims? q' = some m)
    {new : List String} (hasked : asked (aggregate s' m) = asked (aggregate s m) ++ new) :
    Advances config m q q' new := by
  have hnone : asked (aggregate s' m) = asked (aggregate s m) → new = [] := fun hsame =>
    List.append_right_eq_self.mp (hasked.symm.trans hsame)
  have hreserving := asked_of_stepEffect (stepEffect_of_controlSpec h) m
  obtain hkept | ⟨task, begin, rfl, rfl, rfl⟩ := claims_of_ok h hclaims
  · cases q with
    | dispatch state =>
        cases state with
        | loading task begin =>
            obtain ⟨row, rfl, rfl, _⟩ := h
            obtain rfl := hnone rfl
            cases row with
            | none => exact .none hkept rfl rfl
            | some row =>
                simp only [SmsProcessor.afterLoad] at hclaims ⊢
                split
                · rename_i heq
                  simp [heq, claims?] at hclaims
                · rename_i body _
                  obtain ⟨htaken, hleft⟩ := place_nextProvider config
                    ⟨task, begin, row.recipientPhone, body, []⟩ config.processor.orderedProviders
                  exact .none hkept htaken hleft
        | reserving pass provider rest =>
            obtain ⟨result, rfl, hspec⟩ := h
            cases result with
            | notReservable => simp [SmsProcessor.afterReserve, claims?] at hclaims
            | reserved attemptId =>
                obtain ⟨⟨A', hreserved, hupdate⟩, _⟩ := hspec
                obtain rfl : pass.task.messageId = m := Option.some.inj hkept
                rw [hupdate, Function.update_self, asked_of_reserved hreserved] at hasked
                obtain rfl := List.append_cancel_left hasked
                exact .goes hkept rfl rfl
        | finalizing hold input =>
            obtain ⟨_, rfl, A', hfinalized, hupdate⟩ := h
            obtain rfl : hold.pass.task.messageId = m := Option.some.inj hkept
            have hsame := asked_of_finalized (keyed _ _) hfinalized
            obtain rfl := hnone (by rw [hupdate, Function.update_self, hsame])
            rcases input with _ | ⟨_ | _, isRetryable, _, _⟩
            · simp [SmsProcessor.afterFinalize, claims?] at hclaims
            · obtain ⟨htaken, hleft⟩ := place_nextProvider config
                { hold.pass with
                  passFailures := hold.pass.passFailures ++ [⟨hold.provider, isRetryable⟩] }
                hold.rest
              refine .none hkept (htaken.trans ?_) hleft
              exact List.map_append
            · simp [SmsProcessor.afterFinalize, claims?] at hclaims
        | markingMissing | schedulingRetry | markingFatal =>
            obtain ⟨_, rfl, _⟩ := h
            simp [claims?] at hclaims
        | acquiring | calling | awaiting => exact h.elim
        | _ => simp [claims?] at hkept
    | _ => simp [claims?] at hkept
  · exact .begins (by simp [claims?]) (hnone (by simpa [reserving?] using hreserving)) rfl rfl

theorem advances_of_acts {c : Choice} {o o' : Outside} (h : Acts config c o q o' q')
    (hclaims : claims? q' = some m) : Advances config m q q' [] := by
  cases h with
  | acquired => exact .none hclaims rfl rfl
  | started => exact .none hclaims rfl rfl
  | answered hold call hanswer =>
      cases hreply : c.reply with
      | none => simp [SmsProcessor.afterSend, hreply, claims?] at hclaims
      | some result =>
          rw [hreply] at hclaims
          exact .none hclaims rfl rfl
  | took => simp [claims?_process] at hclaims
  | _ => simp [claims?] at hclaims

end Workers

section Preservation

variable {config : Config} {a a' : ServiceSnapshot} {m : String} {passes : List (List String)}

theorem isClaimed_iff : isClaimed m a ↔ ∃ (i : Nat) (q : Control),
    a.controls[i]? = some q ∧ claims? q = some m := by
  simp only [isClaimed, List.any_eq_true, decide_eq_true_eq]
  constructor
  · rintro ⟨q, hq, hclaims⟩
    obtain ⟨i, hi⟩ := List.mem_iff_getElem?.mp hq
    exact ⟨i, q, hi, hclaims⟩
  · rintro ⟨i, q, hi, hclaims⟩
    exact ⟨q, List.mem_of_getElem? hi, hclaims⟩

theorem prolong_nil (passes : List (List String)) : prolong [] passes = passes := by
  cases passes with
  | nil => rfl
  | cons pass earlier => rw [prolong, List.append_nil]

theorem passesAfter_of_kept (hasked : asked (aggregate a'.store m) = asked (aggregate a.store m))
    (hclaimed : isClaimed m a' → isClaimed m a) : passesAfter m a a' passes = passes := by
  have hbegins : (!isClaimed m a && isClaimed m a') = false := by
    cases h : isClaimed m a with
    | true => rfl
    | false => exact Bool.eq_false_iff.mpr fun h' => by simp [hclaimed h'] at h
  rw [passesAfter, hasked, List.drop_length, hbegins, if_neg Bool.false_ne_true, prolong_nil]

theorem InOrder.stay (h : InOrder config m passes a) (hstore : a'.store = a.store)
    (hcontrols : ∀ (i : Nat) q, a'.controls[i]? = some q → claims? q = some m →
      a.controls[i]? = some q) : InOrder config m (passesAfter m a a' passes) a' := by
  rw [passesAfter_of_kept (by rw [hstore])]
  · exact ⟨hstore ▸ h.flatten, h.prefixes, fun i q hq hclaims =>
      h.underway i q (hcontrols i q hq hclaims) hclaims⟩
  · rw [isClaimed_iff, isClaimed_iff]
    exact fun ⟨i, q, hq, hclaims⟩ => ⟨i, q, hcontrols i q hq hclaims, hclaims⟩

section Moves

variable {i : Nat} {q q' : Control} {s : Database} {x : Outside}

theorem InOrder.keep (h : InOrder config m passes a) (hq : a.controls[i]? = some q)
    (hasked : asked (aggregate s m) = asked (aggregate a.store m))
    (hclaims : claims? q' = some m → claims? q = some m)
    (hadvances : claims? q' = some m → Advances config m q q' []) :
    InOrder config m (passesAfter m a ⟨s, a.controls.set i q', x⟩ passes)
      ⟨s, a.controls.set i q', x⟩ := by
  rw [passesAfter_of_kept hasked]
  · refine ⟨hasked ▸ h.flatten, h.prefixes, fun j q₂ hq₂ h₂ => ?_⟩
    rcases getElem?_set_eq_some hq₂ with ⟨rfl, rfl⟩ | ⟨_, hq₂⟩
    · obtain ⟨hhead, horder⟩ := h.underway i q hq (hclaims h₂)
      cases hadvances h₂ with
      | begins hnot => exact absurd (hclaims h₂) hnot
      | goes _ htaken hleft =>
          rw [htaken, List.append_nil]
          exact ⟨hhead, by rw [← horder, hleft, List.nil_append]⟩
    · exact h.underway j q₂ hq₂ h₂
  · rw [isClaimed_iff, isClaimed_iff]
    rintro ⟨j, q₂, hq₂, h₂⟩
    rcases getElem?_set_eq_some hq₂ with ⟨rfl, rfl⟩ | ⟨_, hq₂⟩
    · exact ⟨i, q, hq, hclaims h₂⟩
    · exact ⟨j, q₂, hq₂, h₂⟩

theorem InOrder.begin (h : InOrder config m passes a)
    (hexclusive : Exclusive ⟨s, a.controls.set i q', x⟩) (hq : a.controls[i]? = some q)
    (hasked : asked (aggregate s m) = asked (aggregate a.store m))
    (hclaims : claims? q' = some m) (hnot : claims? q ≠ some m) (htaken : taken q' = [])
    (hleft : left config q' = config.processor.orderedProviders) :
    InOrder config m (passesAfter m a ⟨s, a.controls.set i q', x⟩ passes)
      ⟨s, a.controls.set i q', x⟩ := by
  have hi : (a.controls.set i q')[i]? = some q' :=
    List.getElem?_set_self (List.getElem?_eq_some_iff.mp hq).1
  have hfree : isClaimed m a = false := by
    refine Bool.eq_false_iff.mpr fun hclaimed => ?_
    obtain ⟨j, q₂, hq₂, h₂⟩ := isClaimed_iff.mp hclaimed
    by_cases hij : i = j
    · subst hij
      exact hnot (Option.some.inj (hq.symm.trans hq₂) ▸ h₂)
    · exact hij (hexclusive.single i j q' q₂ m hi (by rwa [List.getElem?_set_ne hij]) hclaims h₂)
  have hclaimed : isClaimed m ⟨s, a.controls.set i q', x⟩ := isClaimed_iff.mpr ⟨i, q', hi, hclaims⟩
  have hpasses : passesAfter m a ⟨s, a.controls.set i q', x⟩ passes = [] :: passes := by
    rw [passesAfter, hasked, List.drop_length, hfree, hclaimed]
    rfl
  rw [hpasses]
  refine ⟨?_, ?_, fun j q₂ hq₂ h₂ => ?_⟩
  · rw [List.reverse_cons, List.flatten_append, hasked, h.flatten]
    simp
  · exact List.forall_mem_cons.mpr ⟨List.nil_prefix, h.prefixes⟩
  · obtain rfl := hexclusive.single i j q' q₂ m hi hq₂ hclaims h₂
    obtain rfl := Option.some.inj (hi.symm.trans hq₂)
    rw [htaken, hleft]
    exact ⟨rfl, rfl⟩

theorem InOrder.ask (h : InOrder config m passes a) (hexclusive : Exclusive a)
    (hq : a.controls[i]? = some q) (hclaims : claims? q = some m) {provider : String}
    {rest : List String} (hleft : left config q = provider :: rest)
    (hasked : asked (aggregate s m) = asked (aggregate a.store m) ++ [provider])
    (hadvances : claims? q' = some m → Advances config m q q' [provider]) :
    InOrder config m (passesAfter m a ⟨s, a.controls.set i q', x⟩ passes)
      ⟨s, a.controls.set i q', x⟩ := by
  obtain ⟨hhead, horder⟩ := h.underway i q hq hclaims
  obtain ⟨earlier, rfl⟩ := List.head?_eq_some_iff.mp hhead
  have hpasses : passesAfter m a ⟨s, a.controls.set i q', x⟩ (taken q :: earlier) =
      (taken q ++ [provider]) :: earlier := by
    rw [passesAfter, hasked, List.drop_left, isClaimed_iff.mpr ⟨i, q, hq, hclaims⟩]
    rfl
  rw [hpasses]
  refine ⟨?_, ?_, fun j q₂ hq₂ h₂ => ?_⟩
  · rw [hasked, ← h.flatten]
    simp
  · refine List.forall_mem_cons.mpr ⟨⟨rest, ?_⟩, (List.forall_mem_cons.mp h.prefixes).2⟩
    rw [← horder, hleft, List.append_assoc, List.singleton_append]
  · rcases getElem?_set_eq_some hq₂ with ⟨rfl, rfl⟩ | ⟨hij, hq₂⟩
    · cases hadvances h₂ with
      | begins hnot => exact absurd hclaims hnot
      | goes _ htaken hleft' =>
          rw [htaken]
          exact ⟨rfl, by rw [List.append_assoc, ← hleft', horder]⟩
    · exact absurd (hexclusive.single i j q q₂ m hq hq₂ hclaims h₂) hij

theorem InOrder.commit (h : InOrder config m passes a) (hexclusive : Exclusive a)
    (hexclusive' : Exclusive ⟨s, a.controls.set i q', x⟩) (hq : a.controls[i]? = some q)
    {q₁ : Control} (hspec : controlSpec config q a.store (.ok q₁) s)
    (hcontrol : q' = q₁ ∨ claims? q' = none) :
    InOrder config m (passesAfter m a ⟨s, a.controls.set i q', x⟩ passes)
      ⟨s, a.controls.set i q', x⟩ := by
  have hadvances : ∀ new, asked (aggregate s m) = asked (aggregate a.store m) ++ new →
      claims? q' = some m → Advances config m q q' new := by
    intro new hasked hclaims
    obtain rfl := hcontrol.resolve_right (by simp [hclaims])
    exact advances_of_ok hspec hclaims hasked
  obtain hsame | ⟨provider, hreserving, hasked⟩ :=
    asked_of_stepEffect (stepEffect_of_controlSpec hspec) m
  · have hadvances' := hadvances [] (by rw [hsame, List.append_nil])
    by_cases hclaims : claims? q' = some m → claims? q = some m
    · exact h.keep hq hsame hclaims hadvances'
    · obtain ⟨hclaims, hnot⟩ := Classical.not_imp.mp hclaims
      cases hadvances' hclaims with
      | begins _ _ htaken hleft => exact h.begin hexclusive' hq hsame hclaims hnot htaken hleft
      | goes hgoes => exact absurd hgoes hnot
  · obtain ⟨pass, rest, rfl, rfl⟩ := worker_of_reserving (hexclusive.calls i q hq) hreserving
    exact h.ask hexclusive hq rfl rfl hasked (hadvances _ hasked)

end Moves

theorem InOrder.step (h : InOrder config m passes a) (hexclusive : Exclusive a)
    (hexclusive' : Exclusive a') {l : ServiceLabel} (hl : ∀ q, l = .spawn q → claims? q = none)
    (hstep : ServiceStep config a l a') : InOrder config m (passesAfter m a a' passes) a' := by
  have hdrop : ∀ {i : Nat} {q q' : Control}, a.controls[i]? = some q → claims? q' = none →
      InOrder config m (passesAfter m a ⟨a.store, a.controls.set i q', a.ext⟩ passes)
        ⟨a.store, a.controls.set i q', a.ext⟩ :=
    fun hq hnone => h.keep hq rfl (by simp [hnone]) (by simp [hnone])
  cases hstep with
  | spawn q =>
      refine h.stay rfl fun i q' hq' hclaims => ?_
      rcases getElem?_concat_eq_some hq' with hq' | rfl
      · exact hq'
      · simp [hl _ rfl] at hclaims
  | answer hq _ hspec => exact h.commit hexclusive hexclusive' hq hspec (Or.inl rfl)
  | commit hq _ hspec => exact h.commit hexclusive hexclusive' hq hspec (Or.inl rfl)
  | lost hq hcode hspec =>
      exact h.commit hexclusive hexclusive' hq hspec (Or.inr (claims_of_error hcode _))
  | error hq hcode _ => exact hdrop hq (claims_of_error hcode _)
  | fault hq hcode => exact hdrop hq (claims_of_error hcode _)
  | crash hq _ => exact hdrop hq (by simp [service, claims_of_crash])
  | act hq hcode hact =>
      have hacts := acts_of_code hcode hact
      exact h.keep hq rfl (claims_of_acts hacts) (advances_of_acts hacts)
  | env _ => exact h.stay rfl fun _ _ hq _ => hq

end Preservation

section Runs

variable {config : Config} {w : ServiceWorld} {past : List ServiceWorld}

theorem inOrder_of_initial {a : ServiceSnapshot} (h : Initial a) (m : String) :
    InOrder config m [] a := by
  refine ⟨?_, by simp, by simp [h.controls]⟩
  rw [h.store, aggregate_empty]
  rfl

/-- The passes of a run are kept in order where each of its steps does so. -/
theorem inOrder_of_steps {ok : ServiceSnapshot → ServiceLabel → Prop} {m : String}
    (hok : ∀ w₀ w₁ l passes, Reaches config ok Initial w₀ → ok w₀.abs l →
      (service config).step w₀ l = some w₁ → InOrder config m passes w₀.abs →
      InOrder config m (passesAfter m w₀.abs w₁.abs passes) w₁.abs)
    (h : Runs config ok Initial (w :: past)) : InOrder config m (passes m (w :: past)) w.abs := by
  generalize hstates : w :: past = states at h
  induction h generalizing w past with
  | start hinit =>
      obtain ⟨rfl, rfl⟩ := List.cons.inj hstates
      exact inOrder_of_initial hinit.2 m
  | @next w₀ w₁ past₀ l hprev hl hstep ih =>
      obtain ⟨rfl, rfl⟩ := List.cons.inj hstates
      exact hok w₀ w l _ (Run.reachable hprev w₀ List.mem_cons_self) hl hstep (ih rfl)

theorem inOrder_of_runs (h : Runs config Patient Initial (w :: past)) (m : String) :
    InOrder config m (passes m (w :: past)) w.abs := by
  refine inOrder_of_steps (fun w₀ w₁ l passes hreach hl hstep horder => ?_) h
  obtain hsame | hatomic :=
    serviceStep_of_step (fun _ _ => lifecycle_of_patient) hreach hl hstep
  · exact horder.stay (congrArg Snapshot.store hsame) fun _ _ hq _ => by rwa [hsame] at hq
  · have hexclusive := exclusive_of_reaches hreach
    exact horder.step hexclusive (hexclusive.step hl hatomic)
      (fun q hq => claims_of_delivers (hl.1 q hq)) hatomic

/-- Failover keeps the configured order: in a run in which no sweep takes a message back
from a worker that is still at its pass, the attempts of a message are those of its
passes, each of which asks the providers in order from the first one, and the worker at
the message is in the latest one and has exactly the rest of the order before it. -/
theorem failover_order (h : Runs config Patient Initial (w :: past)) (m : String) :
    (passes m (w :: past)).reverse.flatten = asked (aggregate w.store m) ∧
      (∀ pass ∈ passes m (w :: past), pass <+: config.processor.orderedProviders) ∧
      ∀ (i : Nat) q, w.abs.controls[i]? = some q → claims? q = some m →
        (passes m (w :: past)).head? = some (taken q) ∧
          taken q ++ left config q = config.processor.orderedProviders := by
  have horder := inOrder_of_runs h m
  exact ⟨horder.flatten, horder.prefixes, horder.underway⟩

/-- A worker asks a provider, which is busy. -/
def refusedBy (i : Nat) (attemptId : String) : List ServiceLabel :=
  statements i 2 (sampleChoice attemptId 2) ++ .commit i :: statements i 2 (sampleChoice "" 2) ++
    statements i 1
      { sampleChoice "" 2 with reply := some ⟨false, none, some "busy", true, none⟩ } ++
    statements i 2 (sampleChoice "" 3) ++ [.commit i]

/-- Both providers refuse the message in a first pass, and the first one is asked in a
second pass. -/
def askedAgain : List ServiceLabel :=
  creation ++ .spawn sampleWorker :: statements 1 2 (sampleChoice "" 1) ++ .commit 1 ::
    statements 1 1 (sampleChoice "" 1) ++ refusedBy 1 "a" ++ refusedBy 1 "b" ++
    statements 1 4 (sampleChoice "r" 4) ++ .commit 1 :: .spawn sampleWorker ::
    statements 2 2 (sampleChoice "" 5) ++ .commit 2 :: statements 2 1 (sampleChoice "" 5) ++
    statements 2 2 (sampleChoice "c" 6) ++ [.commit 2]

theorem failover_order_again :
    ∃ w past q, Runs pairConfig Patient Initial (w :: past) ∧
      passes "m" (w :: past) = [["twilio"], ["twilio", "bird"]] ∧
      asked (aggregate w.store "m") = ["twilio", "bird", "twilio"] ∧
      w.abs.controls[2]? = some q ∧ taken q = ["twilio"] ∧ left pairConfig q = ["bird"] := by
  obtain ⟨states, hruns, hpasses, hworker⟩ := exists_runs_of_replay pairConfig Patient askedAgain
    (fun states => passes "m" states = [["twilio"], ["twilio", "bird"]] ∧
      ((states.head?.bind fun w => w.abs.controls[2]?).bind claims?) = some "m")
    (by decide +kernel)
  cases states with
  | nil => simp [passes] at hpasses
  | cons w past =>
      obtain ⟨q, hq, hclaims⟩ := Option.bind_eq_some_iff.mp hworker
      obtain ⟨hflatten, _, hunderway⟩ := failover_order hruns "m"
      obtain ⟨hhead, horder⟩ := hunderway 2 q hq hclaims
      rw [hpasses] at hflatten hhead
      have htaken := Option.some.inj hhead
      rw [← htaken] at horder
      exact ⟨w, past, q, hruns, hpasses, hflatten.symm, hq, htaken.symm,
        (List.cons.inj horder).2⟩

end Runs

end SmsNotification.FailoverOrder

import SmsNotification.AttemptLedger

namespace SmsNotification.FinalOutcomes

open SmsNotification.ActorSystem
open SmsNotification.AttemptLedger
open SmsNotification.KeyedStore
open SmsNotification.LabelledRuns
open SmsNotification.LifecycleEffects
open SmsNotification.MessageAggregate
open SmsNotification.ReadCommitted
open SmsNotification.Schema
open SmsNotification.Service
open SmsNotification.ServiceEffects
open SmsNotification.ServiceRuns
open SmsNotification.SmsLifecycleRepository
open SmsNotification.SmsStateMachine
open SmsNotification.Surroundings

/-- The statuses that nothing leads out of, not even a requeue. -/
def isClosed : SmsStatus → Bool
  | .delivered | .undelivered | .rejected => true
  | _ => false

/-- How the row of a message may go on. -/
structure Continues (row row' : SmsMessage) : Prop where
  closed : isClosed row.status → row' = row
  sent : isSent row.status → isSent row'.status
  correlated : row'.providerMessageId = row.providerMessageId ∨
    (isSent row.status = false ∧ isSent row'.status)

/-- What a delivery report relies on besides: messages stay and go on so. -/
def Continuing (s s' : Database) : Prop :=
  Persists s s' ∧ ∀ m row, smsMessage.find s m = some row →
    ∃ row', smsMessage.find s' m = some row' ∧ Continues row row'

section Continuation

variable {m : String} {A A' : Aggregate} {row row' row'' : SmsMessage} {s s' s'' : Database}

theorem isSent_of_isClosed {status : SmsStatus} (h : isClosed status) : isSent status := by
  cases status <;> simp_all [isClosed, isSent]

theorem isClosed_of_deliveryTerminalStatus (status : DeliveryTerminalStatus) :
    isClosed status.status := by
  cases status <;> rfl

theorem not_isClosed_of_isValidTransition {source target : SmsStatus}
    (h : isValidTransition source target) : isClosed source = false := by
  cases source <;> simp_all [isValidTransition, transitionTable, isClosed]

theorem not_isClosed_of_transition {source : SmsStatus → Bool} {target status : SmsStatus}
    {data : SmsMessage → SmsMessage} {intent : Option OutboxIntent}
    (h : Transition m source target data intent) (hsource : source status) :
    isClosed status = false := by
  cases h with
  | begun => cases status <;> simp_all [beginProcessingFrom, isClosed]
  | recovered => cases status <;> simp_all [isClosed]
  | expired => cases status <;> simp_all [isClosed]
  | _ => exact not_isClosed_of_isValidTransition hsource

theorem Continues.refl (row : SmsMessage) : Continues row row :=
  ⟨fun _ => rfl, id, Or.inl rfl⟩

theorem Continues.trans (h : Continues row row') (h' : Continues row' row'') :
    Continues row row'' where
  closed hclosed := by
    obtain rfl := h.closed hclosed
    exact h'.closed hclosed
  sent hsent := h'.sent (h.sent hsent)
  correlated := by
    rcases h'.correlated with hsame' | ⟨hunsent, hsent⟩
    · exact h.correlated.imp hsame'.trans fun ⟨hunsent, hsent⟩ => ⟨hunsent, h'.sent hsent⟩
    · refine Or.inr ⟨?_, hsent⟩
      cases hrow : isSent row.status with
      | false => rfl
      | true => simp [h.sent hrow] at hunsent

theorem Continues.of_unsent (hunsent : isSent row.status = false)
    (h : row'.providerMessageId = row.providerMessageId ∨ isSent row'.status) :
    Continues row row' where
  closed hclosed := by simp [isSent_of_isClosed hclosed] at hunsent
  sent hsent := by simp [hunsent] at hsent
  correlated := h.imp_right fun hsent => ⟨hunsent, hsent⟩

theorem Continues.of_transition {source : SmsStatus → Bool} {target : SmsStatus}
    {data : SmsMessage → SmsMessage} {intent : Option OutboxIntent}
    (h : Transition m source target data intent) (hsource : source row.status) (now : Int) :
    Continues row { data row with status := target, updatedAt := now } where
  closed hclosed := by simp [not_isClosed_of_transition h hsource] at hclosed
  sent := (isOpen_of_transition h hsource).2
  correlated := Or.inl (providerMessageId_of_transition h row)

theorem continues_of_messageStep {q : Control} (h : MessageStep q m A A')
    (hrow : A.message = some row) : ∃ row', A'.message = some row' ∧ Continues row row' := by
  have hsame : ∀ {old : SmsMessage}, A.message = some old → row = old :=
    fun hold => Option.some.inj (hrow.symm.trans hold)
  cases h with
  | created call hcreated =>
      obtain ⟨_, _, hnone, _⟩ := hcreated
      simp [hnone] at hrow
  | moved htransition hmoved =>
      obtain ⟨old, now, _, hold, hsource, _, rfl⟩ := hmoved
      obtain rfl := hsame hold
      exact ⟨_, rfl, .of_transition htransition hsource now⟩
  | requeued _ hrequeued =>
      obtain ⟨old, now, _, hold, hsource, _, rfl⟩ := hrequeued
      obtain rfl := hsame hold
      refine ⟨_, rfl, .of_unsent ?_ (Or.inl rfl)⟩
      rw [of_decide_eq_true hsource]
      rfl
  | reserved _ _ _ hreserved =>
      obtain ⟨old, now, _, hold, hstatus, _, rfl⟩ := hreserved
      obtain rfl := hsame hold
      exact ⟨_, rfl, .of_unsent (by rw [hstatus]; rfl) (Or.inl rfl)⟩
  | finalized _ input _ hfinalized =>
      obtain ⟨_, _, _, _, hinput⟩ := hfinalized
      rcases input with providerMessageId | ⟨_ | _, _, _, _⟩
      · obtain ⟨old, now, hold, hstatus, rfl⟩ := hinput
        obtain rfl := hsame hold
        exact ⟨_, rfl, .of_unsent (by rw [hstatus]; rfl) (Or.inr rfl)⟩
      · obtain ⟨old, now, hold, hstatus, rfl⟩ := hinput
        obtain rfl := hsame hold
        exact ⟨_, rfl, .of_unsent (by rw [hstatus]; rfl) (Or.inl rfl)⟩
      · obtain ⟨_, _, _, _, rfl⟩ := hinput
        exact ⟨row, hrow, .refl row⟩
  | resolved _ input hresolved =>
      obtain ⟨old, c, _, hold, hstatus, _, rfl⟩ := hresolved
      obtain rfl := hsame hold
      refine ⟨_, rfl, .of_unsent (by rw [hstatus]; rfl) (Or.inr ?_)⟩
      cases input <;> rfl
  | relayed hrelayed =>
      obtain ⟨_, _, _, _, _, rfl⟩ := hrelayed
      exact ⟨row, hrow, .refl row⟩

theorem continuing_refl (s : Database) : Continuing s s :=
  ⟨persists_refl s, fun _ row hrow => ⟨row, hrow, .refl row⟩⟩

theorem Continuing.trans (h : Continuing s s') (h' : Continuing s' s'') : Continuing s s'' := by
  refine ⟨h.1.trans h'.1, fun m row hrow => ?_⟩
  obtain ⟨row', hrow', hnext⟩ := h.2 m row hrow
  obtain ⟨row'', hrow'', hnext'⟩ := h'.2 m row' hrow'
  exact ⟨row'', hrow'', hnext.trans hnext'⟩

theorem continuing_of_stepEffect {q : Control} (h : StepEffect q s s') : Continuing s s' := by
  refine ⟨persists_of_stepEffect h, fun m row hrow => ?_⟩
  obtain hsame | hmessage := message_of_stepEffect h m
  · have hrow' : smsMessage.find s' m = some row := by
      rw [← hrow]
      exact congrArg Aggregate.message hsame
    exact ⟨row, hrow', .refl row⟩
  · exact continues_of_messageStep hmessage hrow

end Continuation

/-- An answered delivery report has found its message, and the message has ended so. -/
def reportedSpec (input : ApplyDeliveryReportInput) (_ : Database)
    (r : Except Failure ApplyDeliveryReportResult) (s' : Database) : Prop :=
  ∀ message, r = .ok (.applied message) ∨ r = .ok (.duplicate message) →
    ∃ row, smsMessage.find s' message.id = some row ∧
      row.status = input.terminalStatus.status ∧
      row.providerMessageId = some input.providerMessageId

/-- What the answer of a delivery report says, in the control state of its call. -/
def reportSpec : Control → Database → Except Failure Control → Database → Prop
  | .calling (.applyDeliveryReport input) =>
      Maps (.returned (.applyDeliveryReport input)) (Maps .report (reportedSpec input))
  | _ => fun _ _ _ => True

def outcomeSpec (config : Config) (q : Control) (s : Database) (r : Except Failure Control)
    (s' : Database) : Prop :=
  controlSpec config q s r s' ∧ reportSpec q s r s'

section Reports

variable {s : Database}

theorem reportedSpec_of_row {input : ApplyDeliveryReportInput} {s' : Database} {row : SmsMessage}
    {r : Except Failure ApplyDeliveryReportResult}
    (hr : r = .ok (.applied (lifecycleSelect row)) ∨ r = .ok (.duplicate (lifecycleSelect row)))
    (hrow : smsMessage.find s' row.id = some row)
    (hstatus : row.status = input.terminalStatus.status)
    (hsid : row.providerMessageId = some input.providerMessageId) :
    reportedSpec input s r s' := by
  intro message hmessage
  obtain rfl : lifecycleSelect row = message := by
    rcases hr with rfl | rfl <;> rcases hmessage with h | h <;> cases h <;> rfl
  exact ⟨row, hrow, hstatus, hsid⟩

theorem takesEffect_reported (input : ApplyDeliveryReportInput) :
    TakesEffect Choice.supplied Continuing (reportedSpec input)
      (applyDeliveryReport input) s [] := by
  refine takesEffect_read fun c s₁ _ _ => ?_
  cases hfound : (unordered c SmsMessage.id (smsMessage.rows (view s₁ []) fun row =>
      row.providerMessageId = some input.providerMessageId)).head? with
  | none => exact takesEffect_done_nil _ (by simp [reportedSpec])
  | some current =>
      have hmem := (List.mem_insertionSort _).mp (List.mem_of_head? hfound)
      obtain ⟨hfind, hsid⟩ := Table.mem_rows_iff.mp hmem
      by_cases hsame : isSameState current.status input.terminalStatus.status
      · simp only [hsame, if_true]
        have hstatus : current.status = input.terminalStatus.status := of_decide_eq_true hsame
        refine takesEffect_readLifecycle (fun s₂ _ _ _ => by simp [reportedSpec])
          fun s₂ row hrely _ hrow => takesEffect_done_nil _ ?_
        obtain ⟨row', hrow', hnext⟩ := hrely.2 _ _ hfind
        obtain rfl : row' = row := Option.some.inj (hrow'.symm.trans hrow)
        obtain rfl := hnext.closed (hstatus ▸ isClosed_of_deliveryTerminalStatus _)
        exact reportedSpec_of_row (Or.inr rfl) hrow hstatus (of_decide_eq_true hsid)
      · cases hvalid : isValidTransition current.status input.terminalStatus.status with
        | false =>
            simp only [hsame, hvalid, Bool.false_eq_true, if_false, Bool.not_false, if_true]
            exact takesEffect_done_nil _ (by simp [reportedSpec])
        | true =>
            simp only [hsame, hvalid, Bool.false_eq_true, if_false, Bool.not_true]
            refine Table.takesEffect_updateMany
              (fun _ _ _ _ => takesEffect_done_nil _ (by simp [reportedSpec]))
              (fun c s₂ row new _ hrely _ hrow hguard hnew hid => ?_) fun _ _ => rfl
            have hkept : row.providerMessageId = some input.providerMessageId := by
              obtain ⟨row', hrow', hnext⟩ := hrely.2 _ _ hfind
              obtain rfl : row' = row := Option.some.inj (hrow'.symm.trans hrow)
              rcases hnext.correlated with hcorrelated | ⟨hunsent, hsent⟩
              · exact hcorrelated.trans (of_decide_eq_true hsid)
              · simp [of_decide_eq_true hguard, hunsent] at hsent
            refine takesEffect_readOwn (own_message hid) fun s₃ _ _ => ?_
            refine takesEffect_commit _ (by simp) fun s₄ _ _ => ?_
            exact reportedSpec_of_row (Or.inl rfl) (own_message rfl s₄) (by rw [hnew])
              (by rw [hnew]; exact hkept)

theorem sound_outcome (config : Config) :
    Sound (service config) Lifecycle Continuing (outcomeSpec config) where
  refl := continuing_refl
  trans _ _ _ h h' := h.trans h'
  guarantee _ _ _ _ _ h := continuing_of_stepEffect (stepEffect_of_controlSpec h.1)
  takesEffect q t onError hq hcode s := by
    refine (((sound config).takesEffect q t onError hq hcode s).rely_mono fun _ _ h => h.1).and ?_
    cases q with
    | calling op =>
        cases op with
        | applyDeliveryReport input =>
            obtain ⟨rfl, _⟩ := Code.tx.inj hcode
            exact ((takesEffect_reported input).map _).map _
        | _ => exact takesEffect_trivial t
    | _ => exact takesEffect_trivial t
  live_ok q t onError s q' s' hq hcode h := (sound config).live_ok q t onError s q' s' hq hcode h.1
  live_error := (sound config).live_error
  live_act := (sound config).live_act
  live_crashed := (sound config).live_crashed

end Reports

/-- The end of a message that the answer of a call tells of. -/
structure Outcome where
  messageId : String
  status : SmsStatus
  providerMessageId : Option String
  /-- The call itself has ended the message. -/
  own : Bool
  deriving DecidableEq

/-- What a call that has returned has answered about the end of a message. -/
def outcome? : Control → Option Outcome
  | .returned (.applyDeliveryReport input) (.report (.applied message)) =>
      some ⟨message.id, input.terminalStatus.status, some input.providerMessageId, true⟩
  | .returned (.applyDeliveryReport input) (.report (.duplicate message)) =>
      some ⟨message.id, input.terminalStatus.status, some input.providerMessageId, false⟩
  | .returned (.markPermanentProviderFailure m status _) (.transitioned _) =>
      some ⟨m, status.status, none, true⟩
  | .returned (.expireAmbiguousOutcome m) (.expiry .expired) =>
      some ⟨m, .undelivered, none, true⟩
  | .returned (.resolveTwilioAttempt m _ (.undelivered _)) (.resolution (.resolved _)) =>
      some ⟨m, .undelivered, none, true⟩
  | _ => none

/-- The row of a message shows an end of it. -/
structure Shows (row : SmsMessage) (x : Outcome) : Prop where
  status : row.status = x.status
  correlated : ∀ sid, x.providerMessageId = some sid → row.providerMessageId = some sid

/-- What a call does that answers so: the message shows it then, and has not ended
before if the call itself has ended it. -/
structure Ends (x : Outcome) (s s' : Database) : Prop where
  shown : ∃ row, smsMessage.find s' x.messageId = some row ∧ Shows row x
  before : x.own → ∀ row, smsMessage.find s x.messageId = some row → isClosed row.status = false

/-- The invariant of the answers: the messages show them, and one call at most has
ended a message. -/
structure Concluded (a : ServiceSnapshot) : Prop where
  shown : ∀ (i : Nat) q x, a.controls[i]? = some q → outcome? q = some x →
    ∃ row, smsMessage.find a.store x.messageId = some row ∧ Shows row x
  unique : ∀ (i j : Nat) q r x y, a.controls[i]? = some q → outcome? q = some x →
    a.controls[j]? = some r → outcome? r = some y → y.messageId = x.messageId →
    x.own → y.own → j = i

/-- What may be started: every part of the service but the retention purge and the
maintenance workers, and no call that has ended a message already. -/
def unended (q : Control) : Prop :=
  Lifecycle q ∧ outcome? q = none

instance unended.decidable : DecidablePred unended := fun q =>
  inferInstanceAs (Decidable (Lifecycle q ∧ outcome? q = none))

section Steps

variable {config : Config} {s s' : Database} {q q' : Control} {x y : Outcome} {m : String}
  {a a' : ServiceSnapshot} {l : ServiceLabel}

theorem isClosed_of_outcome (h : outcome? q = some x) : isClosed x.status := by
  unfold outcome? at h
  split at h
  · obtain rfl := Option.some.inj h
    exact isClosed_of_deliveryTerminalStatus _
  · obtain rfl := Option.some.inj h
    exact isClosed_of_deliveryTerminalStatus _
  · rename_i status _ _
    obtain rfl := Option.some.inj h
    cases status <;> rfl
  · obtain rfl := Option.some.inj h
    rfl
  · obtain rfl := Option.some.inj h
    rfl
  · simp at h

theorem find_of_update {A' : Aggregate} {row : SmsMessage}
    (hupdate : aggregate s' = Function.update (aggregate s) m A') (hrow : A'.message = some row) :
    smsMessage.find s' m = some row := by
  have hfind := congrArg Aggregate.message (congrFun hupdate m)
  rw [Function.update_self, hrow] at hfind
  exact hfind

theorem ends_of_moved {source : SmsStatus → Bool} {target : SmsStatus}
    {data : SmsMessage → SmsMessage} {intent : Option OutboxIntent}
    (htransition : Transition m source target data intent)
    (h : Changes m (Moved m source target data intent) s s') :
    Ends ⟨m, target, none, true⟩ s s' := by
  obtain ⟨A', ⟨row, now, events', hrow, hsource, _, rfl⟩, hupdate⟩ := h
  refine ⟨⟨_, find_of_update hupdate rfl, rfl, fun sid hsid => by cases hsid⟩,
    fun _ row' hrow' => ?_⟩
  obtain rfl : row = row' := Option.some.inj (hrow.symm.trans hrow')
  exact not_isClosed_of_transition htransition hsource

theorem ends_of_resolved {attemptId : String} {evidenceCode : SmsUndeliveredEvidenceCode}
    (h : Changes m (Resolved m attemptId (.undelivered evidenceCode)) s s') :
    Ends ⟨m, .undelivered, none, true⟩ s s' := by
  obtain ⟨A', ⟨row, c, c', hrow, hstatus, _, rfl⟩, hupdate⟩ := h
  refine ⟨⟨_, find_of_update hupdate rfl, rfl, fun sid hsid => by cases hsid⟩,
    fun _ row' hrow' => ?_⟩
  obtain rfl : row = row' := Option.some.inj (hrow.symm.trans hrow')
  rw [hstatus]
  rfl

theorem ends_of_spec (h : outcomeSpec config q s (.ok q') s') (hx : outcome? q' = some x) :
    Ends x s s' := by
  obtain ⟨hspec, hreport⟩ := h
  unfold outcome? at hx
  split at hx
  · rename_i input message
    obtain ⟨rfl, result, heq, hop⟩ := calling_of_returned hspec
    obtain rfl := Answer.report.inj heq
    obtain rfl := Option.some.inj hx
    obtain ⟨_, heq, result', heq', hreported⟩ := hreport
    obtain ⟨_, rfl⟩ := Control.returned.inj heq
    obtain rfl := Answer.report.inj heq'
    obtain ⟨row, hrow, hstatus, hsid⟩ := hreported message (Or.inl rfl)
    exact ⟨⟨row, hrow, hstatus, fun sid h => h ▸ hsid⟩,
      (ends_of_moved (.reported input.terminalStatus) hop.1).before⟩
  · rename_i input message
    obtain ⟨rfl, result, heq, hop⟩ := calling_of_returned hspec
    obtain rfl := Option.some.inj hx
    obtain ⟨_, heq, result', heq', hreported⟩ := hreport
    obtain ⟨_, rfl⟩ := Control.returned.inj heq
    obtain rfl := Answer.report.inj heq'
    obtain ⟨row, hrow, hstatus, hsid⟩ := hreported message (Or.inr rfl)
    exact ⟨⟨row, hrow, hstatus, fun sid h => h ▸ hsid⟩, fun hown => by cases hown⟩
  · obtain ⟨rfl, message, _, hop⟩ := calling_of_returned hspec
    obtain rfl := Option.some.inj hx
    exact ends_of_moved (.permanent _ _) hop.1
  · obtain ⟨rfl, result, heq, hop⟩ := calling_of_returned hspec
    obtain rfl := Answer.expiry.inj heq
    obtain rfl := Option.some.inj hx
    exact ends_of_moved .expired hop
  · obtain ⟨rfl, result, heq, hop⟩ := calling_of_returned hspec
    obtain rfl := Answer.resolution.inj heq
    obtain rfl := Option.some.inj hx
    exact ends_of_resolved hop.1
  · simp at hx

theorem not_outcome_of_unanswered (h : Unanswered (service config) q q') : outcome? q' = none := by
  cases h with
  | failed e hcode =>
      have hnot := not_returned_of_error hcode e
      unfold outcome?
      split <;> first | rfl | exact absurd ‹_› (hnot _ _)
  | acted hcode hact => cases acts_of_code hcode hact <;> rfl
  | crashed => cases q <;> rfl

theorem outcome_before (hl : Spawning unended a l)
    (hstep : Atomic (service config) (outcomeSpec config) a l a') {i : Nat}
    (hq' : a'.controls[i]? = some q') (hx : outcome? q' = some x) :
    a.controls[i]? = some q' ∨
      ((l = .commit i ∨ ∃ c, l = .run i c) ∧ Ends x a.store a'.store) := by
  obtain hspawn | hbefore | ⟨q, _, ⟨howned, hspec⟩ | hunanswered⟩ := hstep.control hq'
  · simp [(hl _ hspawn).2] at hx
  · exact Or.inl hbefore
  · exact Or.inr ⟨howned, ends_of_spec hspec hx⟩
  · simp [not_outcome_of_unanswered hunanswered] at hx

theorem continuing_of_step (hstep : Atomic (service config) (outcomeSpec config) a l a') :
    Continuing a.store a'.store := by
  obtain hsame | ⟨_, _, _, _, _, hspec⟩ := hstep.store
  · rw [hsame]
    exact continuing_refl _
  · exact continuing_of_stepEffect (stepEffect_of_controlSpec hspec.1)

theorem find_of_continuing (hcontinuing : Continuing s s') (hclosed : isClosed x.status)
    {row : SmsMessage} (hrow : smsMessage.find s x.messageId = some row) (hshows : Shows row x) :
    smsMessage.find s' x.messageId = some row := by
  obtain ⟨row', hrow', hnext⟩ := hcontinuing.2 _ _ hrow
  rw [hrow', hnext.closed (hshows.status ▸ hclosed)]

theorem Concluded.step (h : Concluded a) (hl : Spawning unended a l)
    (hstep : Atomic (service config) (outcomeSpec config) a l a') : Concluded a' where
  shown i q' x hq' hx := by
    obtain hbefore | ⟨_, hends⟩ := outcome_before hl hstep hq' hx
    · obtain ⟨row, hrow, hshows⟩ := h.shown i q' x hbefore hx
      have hclosed := isClosed_of_outcome hx
      exact ⟨row, find_of_continuing (continuing_of_step hstep) hclosed hrow hshows, hshows⟩
    · exact hends.shown
  unique i j q' r' x y hq' hx hr' hy hmessage hxown hyown := by
    have hopen : ∀ {k : Nat} {q : Control} {x y : Outcome}, a.controls[k]? = some q →
        outcome? q = some x → Ends y a.store a'.store → y.own → y.messageId = x.messageId →
        False := by
      intro k q x y hq hx hends hown hsame
      obtain ⟨row, hrow, hshows⟩ := h.shown k q x hq hx
      have hopen := hends.before hown row (hsame ▸ hrow)
      simp [hshows.status, isClosed_of_outcome hx] at hopen
    obtain hq | ⟨howned, hends⟩ := outcome_before hl hstep hq' hx
    · obtain hr | ⟨_, hends'⟩ := outcome_before hl hstep hr' hy
      · exact h.unique i j q' r' x y hq hx hr hy hmessage hxown hyown
      · exact (hopen hq hx hends' hyown hmessage).elim
    · obtain hr | ⟨howned', _⟩ := outcome_before hl hstep hr' hy
      · exact (hopen hr hy hends hxown hmessage.symm).elim
      · rcases howned with rfl | ⟨c, rfl⟩ <;> simpa [eq_comm] using howned'

end Steps

section Runs

variable {config : Config} {w w' : ServiceWorld}

/-- The worlds that the service reaches from any database, with no call under way. -/
abbrev Open (config : Config) : ServiceWorld → Prop :=
  Reaches config (Spawning unended) fun a => a.controls = []

theorem atomic_of_open (h : Open config w) :
    Reachable (Atomic (service config) (outcomeSpec config)) (Spawning unended)
      (fun a => a.controls = []) w.abs :=
  (h.simulated (sound_outcome config) fun _ q hq => (hq q rfl).1).2

theorem concluded_of_open (h : Open config w) : Concluded w.abs := by
  have hinit : ∀ a : ServiceSnapshot, a.controls = [] → Concluded a := by
    intro _ h0
    constructor <;> intro i <;> simp [h0]
  exact Reachable.invariant hinit (fun _ _ _ _ hinv hl hstep => hinv.step hl hstep)
    (atomic_of_open h)

theorem continuing_of_later (h : Open config w) (hlater : Later config (Spawning unended) w w') :
    Continuing w.store w'.store := by
  induction hlater with
  | start h0 =>
      rw [h0]
      exact continuing_refl _
  | next l hprev hl hstep ih =>
      have hreach := h.later (fun _ _ hl => hl) hprev
      refine ih.trans ?_
      obtain hsame | ⟨_, _, _, _, heffect⟩ :=
        stepEffect_of_step (fun _ q hq => (hq q rfl).1) hreach hl hstep
      · rw [hsame]
        exact continuing_refl _
      · exact continuing_of_stepEffect heffect

theorem code_of_outcome {q : Control} {x : Outcome} (hx : outcome? q = some x) :
    code config q = .halt := by
  unfold outcome? at hx
  split at hx <;> first | rfl | simp at hx

/-- An answer about the end of a message stays where it is. -/
theorem outcome_stays {i : Nat} {q : Control} {x : Outcome} (hx : outcome? q = some x)
    (hq : w.abs.controls[i]? = some q) (hlater : Later config (Spawning unended) w w') :
    w'.abs.controls[i]? = some q := by
  induction hlater with
  | start h0 => exact h0 ▸ hq
  | next l _ _ hstep ih =>
      obtain ⟨b, hb, rfl⟩ := Option.map_eq_some_iff.mp ((List.getElem?_map ..).symm.trans ih)
      have hstays := (moves_of_step hstep).halted hb (code_of_outcome hx)
      exact (List.getElem?_map ..).trans (by rw [hstays]; rfl)

/-- One end for every message: what a call has answered about the end of a message is in
its row, which never changes again; whatever calls are answered later tell of the same
end, and a call that has ended the message itself is the only one. -/
theorem final_outcome (h : Open config w) {i : Nat} {q : Control} {x : Outcome}
    (hq : w.abs.controls[i]? = some q) (hx : outcome? q = some x) :
    ∃ row, smsMessage.find w.store x.messageId = some row ∧ Shows row x ∧
      ∀ w', Later config (Spawning unended) w w' →
        smsMessage.find w'.store x.messageId = some row ∧
          ∀ (j : Nat) r y, w'.abs.controls[j]? = some r → outcome? r = some y →
            y.messageId = x.messageId → Shows row y ∧ (x.own → y.own → j = i) := by
  obtain ⟨row, hrow, hshows⟩ := (concluded_of_open h).shown i q x hq hx
  refine ⟨row, hrow, hshows, fun w' hlater => ?_⟩
  have hkept := find_of_continuing (continuing_of_later h hlater) (isClosed_of_outcome hx) hrow
    hshows
  have hconcluded := concluded_of_open (h.later (fun _ _ hl => hl) hlater)
  refine ⟨hkept, fun j r y hr hy hsame => ⟨?_, ?_⟩⟩
  · obtain ⟨row', hrow', hshows'⟩ := hconcluded.shown j r y hr hy
    rw [hsame] at hrow'
    obtain rfl := Option.some.inj (hkept.symm.trans hrow')
    exact hshows'
  · exact hconcluded.unique i j q r x y (outcome_stays hx hq hlater) hx hr hy hsame

/-- The message is delivered; the report comes again, and then another one. -/
theorem final_outcome_delivered :
    ∃ w, Open sampleConfig w ∧ ∃ row, smsMessage.find w.store "m" = some row ∧
      Shows row ⟨"m", .delivered, some "X", false⟩ ∧
      ∀ w', Later sampleConfig (Spawning unended) w w' →
        smsMessage.find w'.store "m" = some row := by
  obtain ⟨w, hw, hanswer⟩ := exists_reaches_on sampleConfig (Spawning unended)
    (fun a => a.controls = []) (Store.empty Row.key) rfl
    (creation ++
      .spawn (.calling (.beginProcessing "m")) :: statements 1 2 (sampleChoice "" 1) ++ .commit 1 ::
      .spawn (.calling (.reserveProviderAttempt "m" "twilio")) ::
        statements 2 2 (sampleChoice "a" 2) ++ .commit 2 ::
      .spawn (.calling (.finalizeProviderAttempt "m" "a" (.accepted "X"))) ::
        statements 3 2 (sampleChoice "" 3) ++ .commit 3 ::
      .spawn (.calling (.applyDeliveryReport ⟨"X", .delivered⟩)) ::
        statements 4 3 (sampleChoice "" 4) ++ .commit 4 ::
      .spawn (.calling (.applyDeliveryReport ⟨"X", .delivered⟩)) ::
        statements 5 2 (sampleChoice "" 5) ++
      .spawn (.calling (.applyDeliveryReport ⟨"X", .rejected⟩)) ::
        statements 6 1 (sampleChoice "" 6))
    (fun w => w.abs.controls[5]?.bind outcome? =
      some ⟨"m", .delivered, some "X", false⟩) (by decide +kernel)
  obtain ⟨q, hq, hx⟩ := Option.bind_eq_some_iff.mp hanswer
  obtain ⟨row, hrow, hshows, hlater⟩ := final_outcome hw hq hx
  exact ⟨w, hw, row, hrow, hshows, fun w' h => (hlater w' h).1⟩

end Runs

end SmsNotification.FinalOutcomes

import SmsNotification.ServiceRuns

namespace SmsNotification.OperatorResolutions

open SmsNotification.ActorSystem
open SmsNotification.KeyedStore
open SmsNotification.LabelledRuns
open SmsNotification.LifecycleEffects
open SmsNotification.MessageAggregate
open SmsNotification.ReadCommitted
open SmsNotification.Schema
open SmsNotification.Service
open SmsNotification.ServiceEffects
open SmsNotification.ServiceRuns
open SmsNotification.SmsLifecycleRepository

/-- What may be started: every part of the service but the retention purge, and no
call that has returned already. -/
def undecided : Control → Bool
  | .returned _ _ => false
  | q => family q ≠ .purge && family q ≠ .maintenance

theorem lifecycle_of_undecided {q : Control} (h : undecided q) :
    Lifecycle q ∧ ∀ op answer, q ≠ .returned op answer := by
  cases q <;> simp_all [undecided, Lifecycle, family]

/-- What a call relies on once the attempt has a decision: messages are not
removed and decisions stay. -/
def KeepsDecisions (s s' : Database) : Prop :=
  (∀ m, (smsMessage.find s m).isSome → (smsMessage.find s' m).isSome) ∧
    ∀ id row, smsAttemptResolution.find s id = some row →
      smsAttemptResolution.find s' id = some row

theorem keepsDecisions_refl (s : Database) : KeepsDecisions s s :=
  ⟨fun _ h => h, fun _ _ h => h⟩

theorem KeepsDecisions.trans {s₁ s₂ s₃ : Database} (h : KeepsDecisions s₁ s₂)
    (h' : KeepsDecisions s₂ s₃) : KeepsDecisions s₁ s₃ :=
  ⟨fun m hm => h'.1 m (h.1 m hm), fun id row hrow => h'.2 id row (h.2 id row hrow)⟩

theorem isSome_message_of_messageStep {q : Control} {m : String} {A A' : Aggregate}
    (h : MessageStep q m A A') (hm : A.message.isSome) : A'.message.isSome := by
  cases h with
  | created call hcreated =>
      obtain ⟨_, _, _, _, _, _, rfl⟩ := hcreated
      rfl
  | moved _ hmoved =>
      obtain ⟨_, _, _, _, _, _, rfl⟩ := hmoved
      rfl
  | requeued _ hmoved =>
      obtain ⟨_, _, _, _, _, _, rfl⟩ := hmoved
      rfl
  | reserved _ _ _ hreserved =>
      obtain ⟨_, _, _, _, _, _, rfl⟩ := hreserved
      rfl
  | finalized attemptId input _ hfinalized =>
      obtain ⟨_, _, _, _, hinput⟩ := hfinalized
      rcases input with _ | ⟨_ | _, _, _, _⟩
      · obtain ⟨_, _, _, _, rfl⟩ := hinput
        rfl
      · obtain ⟨_, _, _, _, rfl⟩ := hinput
        rfl
      · obtain ⟨_, _, _, _, rfl⟩ := hinput
        exact hm
  | resolved _ _ hresolved =>
      obtain ⟨_, _, _, _, _, _, rfl⟩ := hresolved
      rfl
  | relayed hrelayed =>
      obtain ⟨_, _, _, _, _, rfl⟩ := hrelayed
      exact hm

theorem keepsDecisions_of_stepEffect {q : Control} {s s' : Database} (h : StepEffect q s s') :
    KeepsDecisions s s' := by
  refine ⟨fun m hm => ?_, (persists_of_stepEffect h).2⟩
  rcases message_of_stepEffect h m with hsame | hmessage
  · have hfind : smsMessage.find s' m = smsMessage.find s m := congrArg Aggregate.message hsame
    rwa [hfind]
  · exact isSome_message_of_messageStep hmessage hm

section Repeats

/-- The input of a decision that `assertValidTwilioResolution` lets through. -/
def isValid : ResolveTwilioAttemptInput → Bool
  | .knownSid providerMessageId => isTwilioMessageSid providerMessageId
  | .undelivered _ => true

/-- What a call answers where the attempt has the decision `row`. -/
def Repeats (row : SmsAttemptResolution) (input : ResolveTwilioAttemptInput)
    (result : ResolveTwilioAttemptResult) : Prop :=
  if matchesResolution row input then ∃ message, result = .alreadyResolved message
  else result = .conflict

variable {s : Database} {m id : String} {row : SmsAttemptResolution}
  {input : ResolveTwilioAttemptInput}

theorem readsTo_answerExisting (hm : (smsMessage.find s m).isSome) :
    ReadsTo Choice.supplied KeepsDecisions (Repeats row input) (answerExisting m row input) s := by
  unfold answerExisting Repeats
  split
  · unfold readLifecycle
    rw [← Tx.bind_eq, Tx.bind_eq, Tx.bind_assoc]
    refine readsTo_read fun c s' hs' => ?_
    obtain ⟨message, hmessage⟩ := Option.isSome_iff_exists.mp (hs'.1 m hm)
    rw [hmessage]
    exact ⟨_, rfl⟩
  · rfl

theorem readsTo_assertValid {α : Type} {ok : α → Prop} {next : Unit → Sql α}
    (hvalid : isValid input)
    (h : ∀ s', KeepsDecisions s s' → ReadsTo Choice.supplied KeepsDecisions ok (next ()) s') :
    ReadsTo Choice.supplied KeepsDecisions ok (assertValidTwilioResolution input >>= next) s := by
  unfold assertValidTwilioResolution
  rw [Tx.bind_assoc]
  refine readsTo_read fun _ s' hs' => ?_
  cases input with
  | knownSid providerMessageId =>
      have hsid : isTwilioMessageSid providerMessageId := hvalid
      simp only [hsid, if_true]
      exact h s' hs'
  | undelivered evidenceCode => exact h s' hs'

theorem readsTo_resolveTwilioAttempt (hm : (smsMessage.find s m).isSome)
    (hrow : smsAttemptResolution.find s id = some row) (hvalid : isValid input) :
    ReadsTo Choice.supplied KeepsDecisions (Repeats row input)
      (resolveTwilioAttempt m id input) s := by
  refine readsTo_assertValid hvalid fun s₁ h₁ => ?_
  refine readsTo_read fun _ s₂ h₂ => ?_
  obtain ⟨current, hcurrent⟩ := Option.isSome_iff_exists.mp (h₂.1 m (h₁.1 m hm))
  rw [hcurrent]
  refine readsTo_read fun _ s₃ h₃ => ?_
  rw [h₃.2 id row (h₂.2 id row (h₁.2 id row hrow))]
  exact readsTo_answerExisting (by simp [h₃.1 m (by simp [hcurrent])])

end Repeats

/-- The answers that come with a decision of the attempt. -/
def decides : ResolveTwilioAttemptResult → Bool
  | .resolved _ => true
  | .alreadyResolved _ => true
  | _ => false

/-- The actor has returned from a call about the attempt. -/
def Returned (a : ServiceSnapshot) (i : Nat) (m id : String) (input : ResolveTwilioAttemptInput)
    (result : ResolveTwilioAttemptResult) : Prop :=
  a.controls[i]? = some (.returned (.resolveTwilioAttempt m id input) (.resolution result))

/-- The invariant of the decisions: an answer that comes with a decision carried
the one in the row of its attempt, and one call at most has made it. -/
structure Agreed (a : ServiceSnapshot) : Prop where
  recorded : ∀ i m id input result, Returned a i m id input result → decides result →
    ∃ row, smsAttemptResolution.find a.store id = some row ∧ matchesResolution row input
  unique : ∀ i j m m' id input input' message message',
    Returned a i m id input (.resolved message) →
    Returned a j m' id input' (.resolved message') → i = j

section Steps

variable {config : Config} {a a' : ServiceSnapshot} {l : ServiceLabel}

theorem keepsDecisions_of_step (h : ServiceStep config a l a') :
    KeepsDecisions a.store a'.store := by
  obtain hsame | ⟨_, _, _, _, _, hspec⟩ := h.store
  · rw [hsame]
    exact keepsDecisions_refl _
  · exact keepsDecisions_of_stepEffect (stepEffect_of_controlSpec hspec)

theorem matchesResolution_row (input : ResolveTwilioAttemptInput) (m id : String) (c : Choice) :
    matchesResolution (input.row m id c) input := by
  simp [matchesResolution, ResolveTwilioAttemptInput.row]

theorem returned_before (hl : Spawning (undecided ·) a l) (h : ServiceStep config a l a')
    {i : Nat} {m id : String} {input : ResolveTwilioAttemptInput}
    {result : ResolveTwilioAttemptResult} (hi : Returned a' i m id input result) :
    Returned a i m id input result ∨ ((l = .commit i ∨ ∃ c, l = .run i c) ∧
      resolveTwilioAttemptSpec m id input a.store (.ok result) a'.store) := by
  rcases returned_of_step h hi with hspawn | hbefore | ⟨_, howned, hop⟩
  · exact absurd rfl ((lifecycle_of_undecided (hl _ hspawn)).2 _ _)
  · exact Or.inl hbefore
  · obtain ⟨result', heq, hspec⟩ := hop
    obtain rfl := Answer.resolution.inj heq
    exact Or.inr ⟨howned, hspec⟩

theorem find_of_resolved {s s' : Database} {m id : String} {input : ResolveTwilioAttemptInput}
    (h : Changes m (Resolved m id input) s s') :
    ∃ c, smsAttemptResolution.find s' id = some (input.row m id c) := by
  obtain ⟨A', ⟨row, c, c', _, _, _, rfl⟩, hupdate⟩ := h
  have hmem : input.row m id c' ∈ (aggregate s' m).resolutions := by
    rw [hupdate, Function.update_self]
    exact List.mem_append_right _ List.mem_cons_self
  exact ⟨c', (mem_resolutions_iff.mp hmem).1⟩

theorem Agreed.step (h : Agreed a) (hl : Spawning (undecided ·) a l)
    (hstep : ServiceStep config a l a') : Agreed a' := by
  have hkeeps := keepsDecisions_of_step hstep
  constructor
  · intro i m id input result hi hdecides
    rcases returned_before hl hstep hi with hbefore | ⟨_, hspec⟩
    · obtain ⟨row, hrow, hmatches⟩ := h.recorded i m id input result hbefore hdecides
      exact ⟨row, hkeeps.2 _ _ hrow, hmatches⟩
    · cases result with
      | resolved message =>
          obtain ⟨c, hrow⟩ := find_of_resolved hspec.1
          exact ⟨_, hrow, matchesResolution_row input m id c⟩
      | alreadyResolved message =>
          obtain ⟨hsame, _, row, hrow, hmatches⟩ := hspec
          exact ⟨row, by rw [hsame]; exact hrow, hmatches⟩
      | _ => simp [decides] at hdecides
  · intro i j m m' id input input' message message' hi hj
    have hfree : ∀ {k : Nat} {m input message}, Returned a k m id input (.resolved message) →
        smsAttemptResolution.find a.store id ≠ none := by
      intro k m input message hk hnone
      obtain ⟨row, hrow, _⟩ := h.recorded k m id input _ hk rfl
      simp [hnone] at hrow
    rcases returned_before hl hstep hi with hi' | ⟨howned, hspec⟩
    · rcases returned_before hl hstep hj with hj' | ⟨_, hspec'⟩
      · exact h.unique i j m m' id input input' message message' hi' hj'
      · exact absurd hspec'.2.1 (hfree hi')
    · rcases returned_before hl hstep hj with hj' | ⟨howned', _⟩
      · exact absurd hspec.2.1 (hfree hj')
      · rcases howned with rfl | ⟨c, rfl⟩ <;> simpa [eq_comm] using howned'

end Steps

section Runs

variable {config : Config} {w w' : ServiceWorld}

/-- The worlds that any actors but purges reach from any database. -/
abbrev Decisions (config : Config) : ServiceWorld → Prop :=
  Reaches config (Spawning (undecided ·)) fun _ => True

theorem lifecycle_of_spawning (a : ServiceSnapshot) (q : Control)
    (h : Spawning (undecided ·) a (.spawn q)) : Lifecycle q :=
  (lifecycle_of_undecided (h q rfl)).1

theorem agreed_of_reaches (h : Decisions config w) : Agreed w.abs := by
  have hagreed : ∀ {a}, Reachable (ServiceStep config) (Spawning (undecided ·))
      (fun a => a.controls = [] ∧ True) a → Agreed a := by
    intro a ha
    have hinit : ∀ a : ServiceSnapshot, a.controls = [] ∧ True → Agreed a := by
      intro a h0
      constructor <;> intro i <;> simp [Returned, h0.1]
    exact Reachable.invariant hinit (fun _ _ _ _ hinv hl hstep => hinv.step hl hstep) ha
  have hreaches : Reaches config (Spawning (undecided ·)) (fun a => a.controls = [] ∧ True) w := by
    induction h with
    | start h0 => exact Reachable.start ⟨h0.1, by simp [World.abs, h0.1], trivial⟩
    | next l _ hl hstep ih => exact Reachable.next l ih hl hstep
  exact hagreed (hreaches.atomic lifecycle_of_spawning).2

theorem keepsDecisions_of_serviceStep (h : Decisions config w) {l : ServiceLabel}
    (hl : Spawning (undecided ·) w.abs l) (hstep : (service config).step w l = some w') :
    KeepsDecisions w.store w'.store := by
  obtain hsame | hatomic := serviceStep_of_step lifecycle_of_spawning h hl hstep
  · rw [show w'.store = w.store from congrArg Snapshot.store hsame]
    exact keepsDecisions_refl _
  · exact keepsDecisions_of_step hatomic

theorem keepsDecisions_of_later (h : Decisions config w)
    (hlater : Later config (Spawning (undecided ·)) w w') : KeepsDecisions w.store w'.store := by
  induction hlater with
  | start h0 =>
      rw [h0]
      exact keepsDecisions_refl _
  | next l hprev hl hstep ih =>
      exact ih.trans (keepsDecisions_of_serviceStep (h.later (fun _ _ hok => hok) hprev) hl hstep)

theorem repeats_of_later (h : Decisions config w) {m id : String} {row : SmsAttemptResolution}
    (hm : (smsMessage.find w.store m).isSome)
    (hrow : smsAttemptResolution.find w.store id = some row) {input : ResolveTwilioAttemptInput}
    (hvalid : isValid input) {i : Nat}
    (hi : w.actors[i]? = some
      ((service config).enter (.calling (.resolveTwilioAttempt m id input))))
    (hlater : Later config (Spawning (undecided ·)) w w') :
    (w'.abs.controls[i]? = some (.calling (.resolveTwilioAttempt m id input)) ∧
      ∀ c, c.supplied w'.store → ((service config).step w' (.run i c)).isSome) ∨
    (∃ result, Returned w'.abs i m id input result ∧ Repeats row input result) ∨
    w'.abs.controls[i]? = some (.rejected (.resolveTwilioAttempt m id input) .unavailable) ∨
    w'.abs.controls[i]? = some .crashed := by
  have hcode : (service config).code (.calling (.resolveTwilioAttempt m id input)) =
      .tx ((runOperation (.resolveTwilioAttempt m id input)).map
        (.returned (.resolveTwilioAttempt m id input)))
        (.rejected (.resolveTwilioAttempt m id input)) := rfl
  have hreads : ReadsTo Choice.supplied KeepsDecisions
      (fun q => ∃ result, q = .returned (.resolveTwilioAttempt m id input) (.resolution result) ∧
        Repeats row input result)
      ((runOperation (.resolveTwilioAttempt m id input)).map
        (Control.returned (.resolveTwilioAttempt m id input))) w.store :=
    ReadsTo.map (ReadsTo.map ((readsTo_resolveTwilioAttempt hm hrow hvalid).mono
      fun result hresult => ⟨result, rfl, hresult⟩))
  obtain ⟨a, ha, ⟨hcontrol, hreading⟩ | ⟨q, rfl, hq⟩⟩ :=
    reading_of_reachable hcode hi hreads (fun q hq => by cases hq) keepsDecisions_refl
      (fun _ _ _ h h' => h.trans h')
      (fun q hq => by rcases hq with ⟨result, rfl, _⟩ | rfl | rfl <;> rfl)
      (fun w₁ l w₂ hprev hl hstep =>
        keepsDecisions_of_serviceStep (h.later (fun _ _ hok => hok) hprev) hl hstep) hlater
  · exact Or.inl ⟨hcontrol ▸ abs_control ha,
      fun c hc => hreading.run ha (hcontrol ▸ hcode) hc⟩
  · have hq' := abs_control ha
    rw [enter_control] at hq'
    rcases hq with ⟨result, rfl, hrepeats⟩ | rfl | rfl
    · exact Or.inr (Or.inl ⟨result, hq', hrepeats⟩)
    · exact Or.inr (Or.inr (Or.inl hq'))
    · exact Or.inr (Or.inr (Or.inr hq'))

/-- The decisions of operators about one attempt agree: one call at most resolves
it; there is at most one row of the decision, which stays as it is; an answer
that comes with a decision carried the one in the row; and a call that starts
once the row is there answers with a conflict where it carries another decision
and repeats the row's decision otherwise, wherever the message has moved. -/
theorem decisions_agree (h : Decisions config w) (m id : String) :
    (∀ i j input input' message message', Returned w.abs i m id input (.resolved message) →
      Returned w.abs j m id input' (.resolved message') → i = j) ∧
    (smsAttemptResolution.rows w.store fun row => row.smsAttemptId = id).length ≤ 1 ∧
    (∀ i input result, Returned w.abs i m id input result → decides result →
      ∃ row, smsAttemptResolution.find w.store id = some row ∧ matchesResolution row input) ∧
    ∀ row, smsAttemptResolution.find w.store id = some row →
      ∀ w', Later config (Spawning (undecided ·)) w w' →
        smsAttemptResolution.find w'.store id = some row ∧
        ∀ i input, (smsMessage.find w.store m).isSome → isValid input →
          w.actors[i]? = some
            ((service config).enter (.calling (.resolveTwilioAttempt m id input))) →
          (w'.abs.controls[i]? = some (.calling (.resolveTwilioAttempt m id input)) ∧
            ∀ c, c.supplied w'.store → ((service config).step w' (.run i c)).isSome) ∨
          (∃ result, Returned w'.abs i m id input result ∧ Repeats row input result) ∨
          w'.abs.controls[i]? = some (.rejected (.resolveTwilioAttempt m id input) .unavailable) ∨
          w'.abs.controls[i]? = some .crashed := by
  have hagreed := agreed_of_reaches h
  refine ⟨fun i j input input' message message' hi hj =>
      hagreed.unique i j m m id input input' message message' hi hj, ?_,
    fun i input result => hagreed.recorded i m id input result,
    fun row hrow w' hlater => ⟨(keepsDecisions_of_later h hlater).2 _ _ hrow,
      fun i input hm hvalid hi => repeats_of_later h hm hrow hvalid hi hlater⟩⟩
  have hnodup : ((smsAttemptResolution.rows w.store fun row => row.smsAttemptId = id).map
      SmsAttemptResolution.smsAttemptId).Nodup := smsAttemptResolution.rows_nodup w.store _
  have hid : ∀ row ∈ smsAttemptResolution.rows w.store fun row => row.smsAttemptId = id,
      row.smsAttemptId = id := fun row hrow => of_decide_eq_true (Table.mem_rows_iff.mp hrow).2
  rw [List.map_eq_replicate_iff.mpr hid] at hnodup
  exact List.nodup_replicate.mp hnodup

end Runs

section Replay

/-- The attempt `a` of the message `m` is made by actors 1 and 2, ends ambiguously
and is decided as undelivered by actor 4. -/
def decided : List ServiceLabel :=
  creation ++
    .spawn (.calling (.beginProcessing "m")) :: statements 1 2 (sampleChoice "" 1) ++ .commit 1 ::
    .spawn (.calling (.reserveProviderAttempt "m" "twilio")) ::
      statements 2 2 (sampleChoice "a" 2) ++ .commit 2 ::
    .spawn (.calling (.finalizeProviderAttempt "m" "a" (.failed true false "timeout" (some 1)))) ::
      statements 3 2 (sampleChoice "x" 3) ++ .commit 3 ::
    .spawn (.calling (.resolveTwilioAttempt "m" "a" (.undelivered .twilioUndeliveredConfirmed))) ::
      statements 4 7 (sampleChoice "r" 4) ++ [.commit 4]

/-- Another decision. -/
def otherDecision : ResolveTwilioAttemptInput :=
  .knownSid "SM00000000000000000000000000000000"

/-- The call has returned. -/
def hasReturned : Control → Bool
  | .returned _ _ => true
  | _ => false

/-- A call with another decision that starts after the row is there. -/
theorem decisions_agree_conflict :
    ∃ w w', Decisions sampleConfig w ∧ Later sampleConfig (Spawning (undecided ·)) w w' ∧
      Returned w'.abs 5 "m" "a" otherDecision .conflict := by
  obtain ⟨w, hw, hlength, hmessage, hrow, hexec⟩ := exists_reaches_on sampleConfig
    (Spawning (undecided ·)) (fun _ => True) (Store.empty Row.key) trivial decided
    (fun w => w.actors.length = 5 ∧ (smsMessage.find w.store "m").isSome ∧
      (smsAttemptResolution.find w.store "a").any
        (fun row => !matchesResolution row otherDecision) ∧
      (exec (service sampleConfig).step (fun w l => Spawning (undecided ·) w.abs l)
        { w with actors := w.actors ++ [(service sampleConfig).enter
          (.calling (.resolveTwilioAttempt "m" "a" otherDecision))] }
        (statements 5 3 (sampleChoice "" 5))).any fun w' =>
          w'.abs.controls[5]?.any hasReturned) (by decide +kernel)
  obtain ⟨row, hfind, hother⟩ := (Option.any_eq_true _ _).mp hrow
  obtain ⟨w', hw', hreturned⟩ := (Option.any_eq_true _ _).mp hexec
  obtain ⟨q, hq, hreturned⟩ := (Option.any_eq_true _ _).mp hreturned
  have hspawn : Decisions sampleConfig _ := Reachable.next
    (.spawn (.calling (.resolveTwilioAttempt "m" "a" otherDecision))) hw
    (fun q hq => by obtain rfl := Label.spawn.inj hq; rfl) rfl
  have hlater : Later sampleConfig (Spawning (undecided ·)) _ w' :=
    reachable_of_exec (Reachable.start rfl) hw'
  refine ⟨_, w', hspawn, hlater, ?_⟩
  obtain ⟨_, hafter⟩ := (decisions_agree hspawn "m" "a").2.2.2 row hfind w' hlater
  rcases hafter 5 otherDecision hmessage (by decide) (by simp [← hlength]) with
    ⟨hcalling, _⟩ | ⟨result, hresult, hrepeats⟩ | hrejected | hcrashed
  · rw [hcalling] at hq
    obtain rfl := Option.some.inj hq
    simp [hasReturned] at hreturned
  · have hresult' : result = .conflict := by
      rw [Repeats, if_neg (by simpa using hother)] at hrepeats
      exact hrepeats
    exact hresult' ▸ hresult
  · rw [hrejected] at hq
    obtain rfl := Option.some.inj hq
    simp [hasReturned] at hreturned
  · rw [hcrashed] at hq
    obtain rfl := Option.some.inj hq
    simp [hasReturned] at hreturned

end Replay

end SmsNotification.OperatorResolutions

import SmsNotification.PurgeIntegrity

namespace SmsNotification.ResolutionAnswers

open SmsNotification.ActorSystem
open SmsNotification.KeyedStore
open SmsNotification.LabelledRuns
open SmsNotification.LifecycleEffects
open SmsNotification.MessageAggregate
open SmsNotification.OperatorResolutions
open SmsNotification.PurgeIntegrity
open SmsNotification.ReadCommitted
open SmsNotification.ReferentialIntegrity
open SmsNotification.Schema
open SmsNotification.Service
open SmsNotification.ServiceEffects
open SmsNotification.ServiceRuns
open SmsNotification.SmsLifecycleRepository

/-- The message of an answer that comes with a decision. -/
def answeredMessage : ResolveTwilioAttemptResult → Option LifecycleSmsMessage
  | .resolved message => some message
  | .alreadyResolved message => some message
  | _ => none

/-- An answer with a decision is about the message that the call names. -/
structure About (s : Database) (m attemptId : String) (input : ResolveTwilioAttemptInput)
    (message : LifecycleSmsMessage) : Prop where
  attempt : ∃ a, smsAttempt.find s attemptId = some a ∧ a.smsMessageId = m ∧ a.provider = "twilio"
  resolution : ∃ r, smsAttemptResolution.find s attemptId = some r ∧ r.smsMessageId = m ∧
    matchesResolution r input
  named : message.id = m
  knownSid : ∀ sid, input = .knownSid sid → message.providerMessageId = some sid
  undelivered : ∀ code, input = .undelivered code → message.status = .undelivered

/-- The resolution of an attempt that a call repeats names the message of the call. -/
def Pertinent (a : ServiceSnapshot) (l : ServiceLabel) : Prop :=
  ∀ i m attemptId input, (l = .commit i ∨ ∃ c, l = .run i c) →
    a.controls[i]? = some (.calling (.resolveTwilioAttempt m attemptId input)) →
    ∀ r, smsAttemptResolution.find a.store attemptId = some r → matchesResolution r input →
      r.smsMessageId = m

/-- A step of the runs: a part of the service is started, or a call whose attempt has
been resolved already is about the message of the resolution. -/
structure Careful (a : ServiceSnapshot) (l : ServiceLabel) : Prop where
  spawning : Spawning (undecided ·) a l
  pertinent : Pertinent a l

/-- Every database that the service reaches, with no call under way. -/
structure Rested (config : Config) (a : ServiceSnapshot) : Prop where
  controls : a.controls = []
  store : Reached config a.store

/-- All answers with a decision are about the messages that the calls name. -/
def AllAbout (a : ServiceSnapshot) : Prop :=
  ∀ (i : Nat) m attemptId input result message, Returned a i m attemptId input result →
    answeredMessage result = some message → About a.store m attemptId input message

section Answers

variable {s s' : Database} {m attemptId : String} {input : ResolveTwilioAttemptInput}
  {message : LifecycleSmsMessage}

theorem About.persists (h : About s m attemptId input message) (hpersists : Persists s s') :
    About s' m attemptId input message := by
  obtain ⟨a, ha, hm, hprovider⟩ := h.attempt
  obtain ⟨a', ha', hm', hprovider'⟩ := hpersists.1 _ a ha
  obtain ⟨r, hr, hmatches⟩ := h.resolution
  exact ⟨⟨a', ha', hm'.trans hm, hprovider'.trans hprovider⟩,
    ⟨r, hpersists.2 _ r hr, hmatches⟩, h.named, h.knownSid, h.undelivered⟩

theorem about_of_resolution (hcoherent : Coherent (aggregate s m)) {r : SmsAttemptResolution}
    (hr : smsAttemptResolution.find s attemptId = some r) (hm : r.smsMessageId = m)
    (hmatches : matchesResolution r input) (hanswers : Answers m message s) :
    About s m attemptId input message := by
  have hkey : r.smsAttemptId = attemptId := Table.idOf_of_find hr
  have hmem : r ∈ (aggregate s m).resolutions :=
    mem_resolutions_iff.mpr ⟨hkey.symm ▸ hr, hm⟩
  obtain ⟨a, ha, hid, hprovider⟩ := hcoherent.attempted r hmem
  obtain ⟨hfind, hmessage⟩ := mem_attempts_iff.mp ha
  obtain ⟨row, hrow, rfl⟩ := hanswers
  have hdecided := hcoherent.decided r hmem row hrow
  simp only [matchesResolution, Bool.and_eq_true, decide_eq_true_eq] at hmatches
  refine ⟨⟨a, ?_, hmessage, hprovider⟩, ⟨r, hr, hm, ?_⟩, Table.idOf_of_find hrow,
    fun sid hinput => ?_, fun code hinput => ?_⟩
  · rwa [hid, hkey] at hfind
  · simpa [matchesResolution, and_assoc] using hmatches
  · subst hinput
    exact (hdecided.knownSid hmatches.1.1).trans hmatches.1.2
  · subst hinput
    exact hdecided.undelivered hmatches.1.1

end Answers

section Runs

variable {config : Config} {a a' : ServiceSnapshot} {l : ServiceLabel} {w : ServiceWorld}

theorem coherent_of_reachable
    (h : Reachable (ServiceStep config) Careful (Rested config) a) (m : String) :
    Coherent (aggregate a.store m) :=
  aggregate_invariant (fun _ => Coherent)
    (fun _ h0 => (integral_of_reached h0.store).coherent)
    (fun _ _ _ _ hkeyed hcoherent hstep => hcoherent.step hkeyed hstep) h m

theorem AllAbout.step (h : AllAbout a)
    (hreach : Reachable (ServiceStep config) Careful (Rested config) a) (hl : Careful a l)
    (hstep : ServiceStep config a l a') : AllAbout a' := by
  have hcoherent := coherent_of_reachable (Reachable.next l hreach hl hstep)
  have hpersists : Persists a.store a'.store := by
    obtain hsame | ⟨_, _, _, _, _, hspec⟩ := hstep.store
    · rw [hsame]
      exact persists_refl _
    · exact persists_of_stepEffect (stepEffect_of_controlSpec hspec)
  intro i m attemptId input result message hreturned hmessage
  obtain hspawn | hbefore | ⟨hcalling, howned, result', heq, hspec⟩ :=
    returned_of_step hstep hreturned
  · exact absurd rfl ((lifecycle_of_undecided (hl.spawning _ hspawn)).2 _ _)
  · exact (h i m attemptId input result message hbefore hmessage).persists hpersists
  · obtain rfl := Answer.resolution.inj heq
    cases result with
    | resolved message' =>
        obtain rfl := Option.some.inj hmessage
        obtain ⟨hchanges, _, hanswers⟩ := hspec
        obtain ⟨c, hr⟩ := find_of_resolved hchanges
        exact about_of_resolution (hcoherent m) hr rfl (matchesResolution_row input m attemptId c)
          hanswers
    | alreadyResolved message' =>
        obtain rfl := Option.some.inj hmessage
        obtain ⟨hsame, hanswers, r, hr, hmatches⟩ := hspec
        have hm := hl.pertinent i m attemptId input howned hcalling r hr hmatches
        rw [hsame] at hcoherent ⊢
        exact about_of_resolution (hcoherent m) hr hm hmatches hanswers
    | _ => simp [answeredMessage] at hmessage

theorem allAbout_of_reaches (h : Reaches config Careful (Rested config) w) : AllAbout w.abs := by
  have hatomic := (h.atomic fun a q hq =>
    (lifecycle_of_undecided (hq.spawning q rfl)).1).2
  have hinit : ∀ a, Rested config a → AllAbout a := by
    intro a h0 i
    simp [Returned, h0.controls]
  exact Reachable.invariant hinit (fun _ _ _ hreach h hl hstep => h.step hreach hl hstep) hatomic

/-- Where every call whose attempt has been resolved already names the message of the
resolution, every answer with a decision is about the message that its call names. -/
theorem resolution_answers (h : Reaches config Careful (Rested config) w) {i : Nat}
    {m attemptId : String} {input : ResolveTwilioAttemptInput}
    {result : ResolveTwilioAttemptResult} {message : LifecycleSmsMessage}
    (hreturned : Returned w.abs i m attemptId input result)
    (hmessage : answeredMessage result = some message) :
    About w.store m attemptId input message :=
  allAbout_of_reaches h i m attemptId input result message hreturned hmessage

end Runs

section Replay

/-- The decision that the provider has confirmed that it did not deliver. -/
abbrev confirmed : ResolveTwilioAttemptInput :=
  .undelivered .twilioUndeliveredConfirmed

/-- The decision about the attempt `a` of the message `m` is repeated for another
message `n`. -/
def repeatedForAnother : List ServiceLabel :=
  decidedBeside ++
    .spawn (.calling (.resolveTwilioAttempt "n" "a" confirmed)) ::
      statements 6 4 (sampleChoice "" 6)

/-- The message in an answer to the decision about the attempt `a`, if the call has
named the message `m`. -/
def answerFor (m : String) : Control → Option (ResolveTwilioAttemptResult × LifecycleSmsMessage)
  | .returned (.resolveTwilioAttempt m' attemptId (.undelivered _)) (.resolution result) =>
      if m' = m ∧ attemptId = "a" then
        (answeredMessage result).map fun message => (result, message)
      else none
  | _ => none

theorem returned_of_answerFor {a : ServiceSnapshot} {i : Nat} {m : String}
    {result : ResolveTwilioAttemptResult} {message : LifecycleSmsMessage}
    (h : a.controls[i]?.bind (answerFor m) = some (result, message)) :
    Returned a i m "a" confirmed result ∧ answeredMessage result = some message := by
  obtain ⟨q, hq, hanswer⟩ := Option.bind_eq_some_iff.mp h
  unfold answerFor at hanswer
  split at hanswer
  · rename_i m' attemptId code result'
    split at hanswer
    · rename_i hnames
      obtain ⟨rfl, rfl⟩ := hnames
      obtain ⟨message', hmessage, heq⟩ := Option.map_eq_some_iff.mp hanswer
      obtain ⟨rfl, rfl⟩ := Prod.mk.inj heq
      cases code
      exact ⟨hq, hmessage⟩
    · cases hanswer
  · cases hanswer

/-- The call for the message `n` is answered that its attempt is resolved already,
with a message that is still queued, and the attempt belongs to the message `m`. -/
theorem answer_about_another :
    ∃ w result message, Reaches sampleConfig (Spawning (undecided ·)) (Rested sampleConfig) w ∧
      Returned w.abs 6 "n" "a" confirmed result ∧ answeredMessage result = some message ∧
      message.status = .queued ∧ ¬About w.store "n" "a" confirmed message := by
  obtain ⟨w, hw, hanswer, hattempt⟩ := exists_reaches_on sampleConfig (Spawning (undecided ·))
    (Rested sampleConfig) (Store.empty Row.key) ⟨rfl, .empty⟩ repeatedForAnother
    (fun w => (w.abs.controls[6]?.bind (answerFor "n")).any (fun p => p.2.status = .queued) ∧
      (smsAttempt.find w.store "a").all (fun a => a.smsMessageId = "m")) (by decide +kernel)
  obtain ⟨⟨result, message⟩, hreturned, hqueued⟩ := (Option.any_eq_true _ _).mp hanswer
  obtain ⟨hreturned, hmessage⟩ := returned_of_answerFor hreturned
  refine ⟨w, result, message, hw, hreturned, hmessage, by simpa using hqueued, fun habout => ?_⟩
  obtain ⟨a, ha, hm, _⟩ := habout.attempt
  rw [ha] at hattempt
  simp [hm] at hattempt

/-- A check of `Pertinent` for one step. -/
def isPertinent (a : ServiceSnapshot) (i : Nat) : Bool :=
  match a.controls[i]? with
  | some (.calling (.resolveTwilioAttempt m attemptId input)) =>
      (smsAttemptResolution.find a.store attemptId).all fun r =>
        !matchesResolution r input || r.smsMessageId = m
  | _ => true

/-- A step of a call, if it is one. -/
def actor? : ServiceLabel → Option Nat
  | .run i _ => some i
  | .commit i => some i
  | _ => none

theorem careful_of_check {a : ServiceSnapshot} {l : ServiceLabel}
    (hspawning : Spawning (undecided ·) a l) (hcheck : (actor? l).all (isPertinent a)) :
    Careful a l := by
  refine ⟨hspawning, fun i m attemptId input hl hcalling r hr hmatches => ?_⟩
  have hactor : actor? l = some i := by
    rcases hl with rfl | ⟨c, rfl⟩ <;> rfl
  rw [hactor, Option.all_some, isPertinent, hcalling] at hcheck
  simpa [hr, hmatches] using hcheck

theorem resolution_answers_decided :
    ∃ w message, Reaches sampleConfig Careful (Rested sampleConfig) w ∧
      About w.store "m" "a" confirmed message := by
  obtain ⟨w, hw, hanswer⟩ := exists_reaches_on sampleConfig
    (fun a l => Spawning (undecided ·) a l ∧ (actor? l).all (isPertinent a))
    (Rested sampleConfig) (Store.empty Row.key) ⟨rfl, .empty⟩ decided
    (fun w => (w.abs.controls[4]?.bind (answerFor "m")).isSome) (by decide +kernel)
  have hcareful : Reaches sampleConfig Careful (Rested sampleConfig) w :=
    Reachable.mono (fun w l hl => careful_of_check hl.1 hl.2) hw
  obtain ⟨⟨result, message⟩, hreturned⟩ := Option.isSome_iff_exists.mp hanswer
  obtain ⟨hreturned, hmessage⟩ := returned_of_answerFor hreturned
  exact ⟨w, message, hcareful, resolution_answers hcareful hreturned hmessage⟩

end Replay

end SmsNotification.ResolutionAnswers

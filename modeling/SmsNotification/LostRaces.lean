import SmsNotification.ParkedMessages
import SmsNotification.PassLength

/-!
Lost races. A pass holds no lock between its awaits; each of its writes expects the
status that the pass has left its message in, and another actor may have moved the
message since. A worker that finds this out in the guarded update of a write ends its
pass as skipped and has written nothing. It rejects where the race shows elsewhere:
in the read before the update, in the finalization or in the query for the row.
-/

namespace SmsNotification.LostRaces

open SmsNotification.ActorSystem
open SmsNotification.KeyedStore
open SmsNotification.LabelledRuns
open SmsNotification.LifecycleEffects
open SmsNotification.MessageAggregate
open SmsNotification.ParkedMessages
open SmsNotification.PassLength
open SmsNotification.ReadCommitted
open SmsNotification.Schema
open SmsNotification.Service
open SmsNotification.ServiceEffects
open SmsNotification.ServiceRuns
open SmsNotification.SmsLifecycleRepository
open SmsNotification.SmsProcessor hiding Config
open SmsNotification.SmsStateMachine
open SmsNotification.StepBudgets
open SmsNotification.Surroundings

/-- The status that a pass expects its message in. -/
def expected? : SmsProcessor.State → Option (String × SmsStatus)
  | .loading task _ => some (task.messageId, .processing)
  | .markingMissing task => some (task.messageId, .processing)
  | .reserving pass _ _ => some (pass.task.messageId, .processing)
  | .acquiring hold => some (hold.pass.task.messageId, .awaitingProviderResult)
  | .calling hold => some (hold.pass.task.messageId, .awaitingProviderResult)
  | .awaiting hold _ => some (hold.pass.task.messageId, .awaitingProviderResult)
  | .finalizing hold _ => some (hold.pass.task.messageId, .awaitingProviderResult)
  | .schedulingRetry pass _ => some (pass.task.messageId, .processing)
  | .markingFatal pass _ _ => some (pass.task.messageId, .processing)
  | _ => none

/-- The pass has thrown, or its process has crashed. -/
def rejects : SmsProcessor.State → Bool
  | .failing _ => true
  | .failed => true
  | .crashed => true
  | _ => false

/-- The pass has ended, or is about to end, as skipped. -/
def skips : SmsProcessor.State → Bool
  | .finishing _ .skipped => true
  | .finished .skipped => true
  | _ => false

/-- Where a worker starts. -/
def isEntry : Control → Bool
  | .dispatch .idle => true
  | .dispatch (.beginning _) => true
  | .dispatch _ => false
  | _ => true

/-- What a worker's surroundings do for it: jobs name their message, the rate limiter
answers and providers do not throw. -/
def serves (c : Choice) (o : Outside) : Control → Bool
  | .dispatch .idle => (o.takeJob .smsDispatch c.pick).all fun taken => taken.2.messageId.isSome
  | .dispatch (.acquiring _) => c.served
  | .dispatch (.awaiting _ _) => c.reply.isSome
  | _ => true

/-- The step of a run without an infrastructure failure of the worker `i` and without a
provider rejection. -/
def healthy (i : Nat) (a : ServiceSnapshot) : ServiceLabel → Bool
  | .spawn q => isEntry q
  | .run j c => j ≠ i || a.controls[i]?.all (serves c a.ext)
  | .lost j => j ≠ i
  | .fault j => j ≠ i
  | .crash j => j ≠ i
  | _ => true

/-- The worker has control state `state`. -/
def At (i : Nat) (state : SmsProcessor.State) (w : ServiceWorld) : Prop :=
  w.abs.controls[i]? = some (.dispatch state)

/-- The step of a healthy run in which the worker looks at its message, outside of
guarded updates, only while nobody has moved it: when it queries the row, when it
finalizes and when it reads the status at the end of a pass. Nobody brings a
message back to the status that the worker expects. -/
structure Benign (config : Config) (i : Nat) (w : ServiceWorld) (l : ServiceLabel) : Prop where
  healthy : healthy i w.abs l
  loaded : ∀ task begin, Own i l → At i (.loading task begin) w →
    ∃ row, smsMessage.find w.store task.messageId = some row ∧
      (config.processor.decrypt row.encryptedMessage).isSome
  finalized : ∀ hold input, Own i l → At i (.finalizing hold input) w →
    (aggregate w.store hold.pass.task.messageId).status = some .awaitingProviderResult ∧
      ∃ row, smsAttempt.find w.store hold.attemptId = some row ∧
        row.smsMessageId = hold.pass.task.messageId ∧ row.outcome = .reserved
  decided : ∀ state m, Own i l → At i state w → deciding? state = some m →
    w.actors[i]? = some ((service config).enter (.dispatch state)) →
    (aggregate w.store m).status = some .processing
  kept : ∀ state m status, At i state w → expected? state = some (m, status) → ∀ w',
    (service config).step w l = some w' → (aggregate w'.store m).status = some status →
    (aggregate w.store m).status = some status

/-- What the transactions of the workers may answer and do; the other actors may do
anything and stay what they are. -/
def workSpec (config : Config) :
    Control → Database → Except Failure Control → Database → Prop
  | .dispatch state => dispatchSpec config.processor state
  | q => fun _ r _ => ∀ q', r = .ok q' → family q' = family q

theorem sound_work (config : Config) :
    Sound (service config) (fun _ => True) (fun _ _ => True) (workSpec config) where
  refl _ := trivial
  trans _ _ _ _ _ := trivial
  guarantee _ _ _ _ _ _ := trivial
  takesEffect q t onError _ hcode s := by
    change code config q = .tx t onError at hcode
    cases q with
    | dispatch state => exact dispatch_takesEffect config.processor hcode s
    | _ => exact (commitsAs_family hcode).answers
  live_ok _ _ _ _ _ _ _ _ _ := trivial
  live_error _ _ _ _ _ _ := trivial
  live_act _ _ _ _ _ _ _ _ _ := trivial
  live_crashed _ _ := trivial

/-- The worlds of the runs all of whose steps are benign, from any database. -/
abbrev Benignly (config : Config) (i : Nat) : ServiceWorld → Prop :=
  Reachable (fun w l w' => (service config).step w l = some w') (Benign config i)
    fun w => w.actors = []

section Answers

variable {config : Config} {state : SmsProcessor.State} {s s' : Database} {q : Control}
  {m : String} {status : SmsStatus}

/-- The transaction rejects only because the message has left the status that was read. -/
def Acknowledges (spec : Database → Except Failure Control → Database → Prop) (s : Database)
    (r : Except Failure Control) (s' : Database) : Prop :=
  spec s r s' ∧ ∀ e, r = .error e →
    ∃ m expected target, e = .concurrentModification m expected target

/-- What a pass knows in a control state that it has come to in a benign run. -/
def Fine : SmsProcessor.State → Prop
  | .markingMissing _ => False
  | .failing _ => False
  | .failed => False
  | .crashed => False
  | .finalizing _ input => Expires input
  | _ => True

theorem fine_endOfPass (config : SmsProcessor.Config) (pass : Pass) :
    Fine (endOfPass config pass) := by
  simp only [endOfPass]
  split <;> trivial

theorem fine_nextProvider (config : SmsProcessor.Config) (pass : Pass)
    (providers : List String) : Fine (nextProvider config pass providers) := by
  cases providers with
  | nil => exact fine_endOfPass config pass
  | cons provider rest => trivial

theorem expected_nextProvider (config : SmsProcessor.Config) (pass : Pass)
    (providers : List String) :
    expected? (nextProvider config pass providers) = some (pass.task.messageId, .processing) := by
  cases providers with
  | nil =>
      simp only [nextProvider, endOfPass]
      split <;> rfl
  | cons provider rest => rfl

theorem afterLoad_some (task : Task) (begin : LifecycleSmsMessage) {row : SmsMessage}
    (hrow : (config.processor.decrypt row.encryptedMessage).isSome) : ∃ pass, pass.task = task ∧
      afterLoad config.processor task begin (some row) =
        nextProvider config.processor pass config.processor.orderedProviders := by
  obtain ⟨body, hbody⟩ := Option.isSome_iff_exists.mp hrow
  exact ⟨⟨task, begin, row.recipientPhone, body, []⟩, rfl, by simp [afterLoad, hbody]⟩

theorem fine_of_ok (hspec : dispatchSpec config.processor state s (.ok q) s')
    (hfine : Fine state) (hloaded : ∀ task begin, state = .loading task begin →
      ∃ row, smsMessage.find s task.messageId = some row ∧
        (config.processor.decrypt row.encryptedMessage).isSome) :
    ∃ state', q = .dispatch state' ∧ Fine state' := by
  cases state with
  | beginning task =>
      obtain ⟨begin, rfl, _⟩ := hspec
      exact ⟨_, rfl, by cases begin <;> trivial⟩
  | loading task begin =>
      obtain ⟨found, rfl, _, rfl⟩ := hspec
      obtain ⟨row, hrow, hbody⟩ := hloaded task begin rfl
      obtain ⟨pass, _, hload⟩ := afterLoad_some task begin hbody
      exact ⟨_, rfl, by rw [hrow, hload]; exact fine_nextProvider _ _ _⟩
  | markingMissing task => exact hfine.elim
  | reserving pass provider rest =>
      obtain ⟨reservation, rfl, _⟩ := hspec
      exact ⟨_, rfl, by cases reservation <;> trivial⟩
  | finalizing hold input =>
      obtain ⟨_, rfl, _⟩ := hspec
      refine ⟨_, rfl, ?_⟩
      rcases input with _ | ⟨_ | _, _, _, _⟩
      · trivial
      · exact fine_nextProvider _ _ _
      · trivial
  | schedulingRetry pass opts =>
      obtain ⟨_, rfl, _⟩ := hspec
      exact ⟨_, rfl, trivial⟩
  | markingFatal pass lastError reason =>
      obtain ⟨_, rfl, _⟩ := hspec
      exact ⟨_, rfl, trivial⟩
  | _ => exact hspec.elim

theorem finalizing_of_error {e : Failure}
    (hspec : dispatchSpec config.processor state s (.error e) s') (hfine : Fine state)
    (hdeciding : deciding? state = none) : ∃ hold input, state = .finalizing hold input ∧
      FinalizeRefused hold.pass.task.messageId hold.attemptId input s := by
  cases state with
  | finalizing hold input => exact ⟨hold, input, rfl, hspec.2⟩
  | markingMissing task => exact hfine.elim
  | schedulingRetry pass opts => simp [deciding?, decided?] at hdeciding
  | markingFatal pass lastError reason => simp [deciding?, decided?] at hdeciding
  | _ => exact hspec.elim

theorem not_refused {attemptId : String} {input : FinalizeProviderAttemptInput}
    (hexpires : Expires input) (hstatus : (aggregate s m).status = some .awaitingProviderResult)
    (hattempt : ∃ row, smsAttempt.find s attemptId = some row ∧ row.smsMessageId = m ∧
      row.outcome = .reserved) : ¬FinalizeRefused m attemptId input s := by
  obtain ⟨row, hrow, hstatus⟩ := Option.map_eq_some_iff.mp hstatus
  obtain ⟨attempt, hattempt, hm, hreserved⟩ := hattempt
  rintro (hgone | hmoved | ⟨isRetryable, errorMessage, delayMs, rfl, hdelay⟩)
  · exact hgone attempt hattempt ⟨hm, hreserved⟩
  · exact hmoved row hrow hstatus
  · exact hexpires hdelay

theorem processing_of_valid {source target : SmsStatus}
    (htarget : target = .retryScheduled ∨ target = .fatalFailure)
    (h : isValidTransition source target) : source = .processing := by
  rcases htarget with rfl | rfl <;> revert h <;> cases source <;> decide

theorem lost_of_ok (hspec : dispatchSpec config.processor state s (.ok q) s')
    (hfine : Fine state) (hexpected : expected? state = some (m, status))
    (hmoved : (aggregate s m).status ≠ some status)
    (hfinal : ∀ hold input, state ≠ .finalizing hold input)
    (hloaded : ∀ task begin, state = .loading task begin →
      ∃ row, smsMessage.find s task.messageId = some row ∧
        (config.processor.decrypt row.encryptedMessage).isSome) :
    s' = s ∧ ∃ state', q = .dispatch state' ∧
      (expected? state' = some (m, status) ∨ skips state') := by
  have hnot : ∀ {target data intent A'}, target = .retryScheduled ∨ target = .fatalFailure →
      status = .processing →
      ¬Moved m (isValidTransition · target) target data intent (aggregate s m) A' := by
    rintro target data intent A' htarget rfl ⟨row, now, events', hrow, hvalid, _⟩
    exact hmoved (by rw [Aggregate.status, hrow, Option.map_some,
      processing_of_valid htarget hvalid])
  cases state with
  | loading task begin =>
      obtain ⟨rfl, rfl⟩ := Prod.mk.inj (Option.some.inj hexpected)
      obtain ⟨found, rfl, rfl, rfl⟩ := hspec
      obtain ⟨row, hrow, hbody⟩ := hloaded task begin rfl
      obtain ⟨pass, rfl, hload⟩ := afterLoad_some task begin hbody
      exact ⟨rfl, _, rfl, Or.inl (by rw [hrow, hload, expected_nextProvider])⟩
  | markingMissing task => exact hfine.elim
  | reserving pass provider rest =>
      obtain ⟨rfl, rfl⟩ := Prod.mk.inj (Option.some.inj hexpected)
      obtain ⟨reservation, rfl, hreserve⟩ := hspec
      cases reservation with
      | notReservable => exact ⟨hreserve, _, rfl, Or.inr rfl⟩
      | reserved attemptId =>
          obtain ⟨⟨A', ⟨row, now, c, hrow, hstatus, _⟩, _⟩, _⟩ := hreserve
          exact absurd (by rw [Aggregate.status, hrow, Option.map_some, hstatus]) hmoved
  | finalizing hold input => exact absurd rfl (hfinal hold input)
  | schedulingRetry pass opts =>
      obtain ⟨rfl, rfl⟩ := Prod.mk.inj (Option.some.inj hexpected)
      obtain ⟨_, _, ⟨A', hmove, _⟩, _⟩ := hspec
      exact absurd hmove (hnot (Or.inl rfl) rfl)
  | markingFatal pass lastError reason =>
      obtain ⟨rfl, rfl⟩ := Prod.mk.inj (Option.some.inj hexpected)
      obtain ⟨_, _, ⟨A', hmove, _⟩, _⟩ := hspec
      exact absurd hmove (hnot (Or.inr rfl) rfl)
  | beginning task => simp [expected?] at hexpected
  | _ => exact hspec.elim

end Answers

section Decisions

variable {config : Config} {state : SmsProcessor.State} {m : String}

theorem transition_of_deciding (config : Config) (hdeciding : deciding? state = some m) :
    ∃ target data intent f task, isValidTransition .processing target ∧
      (∀ row : SmsMessage, (data row).id = row.id) ∧
      code config (.dispatch state) = .tx ((guardedTransition m target data intent).map f)
        (fun error => .dispatch (guardConcurrency task error)) ∧
      dispatchSpec config.processor state =
        Maps f (guardedTransitionSpec m target data intent) := by
  cases state with
  | schedulingRetry pass opts =>
      obtain rfl := Option.some.inj hdeciding
      exact ⟨_, opts.data, _, _, pass.task, rfl, fun _ => rfl, rfl, rfl⟩
  | markingFatal pass lastError reason =>
      obtain rfl := Option.some.inj hdeciding
      exact ⟨_, withError lastError, _, _, pass.task, rfl, fun _ => rfl, rfl, rfl⟩
  | _ => simp [deciding?, decided?] at hdeciding

/-- The worker has read its message in PROCESSING at the end of a pass. -/
def Deciding (config : Config) (state : SmsProcessor.State)
    (a : ServiceActor) : Prop :=
  ∃ rest s₀, a.rest = some rest ∧ TakesEffect Choice.supplied (fun _ _ => True)
    (Acknowledges (dispatchSpec config.processor state)) rest s₀ a.pending

/-- What holds of a worker in a benign run. -/
def Working (config : Config) (a : ServiceActor)
    (state : SmsProcessor.State) : Prop :=
  Fine state ∧ ∀ m, deciding? state = some m →
    a = (service config).enter (.dispatch state) ∨ Deciding config state a

theorem working_enter (hfine : Fine state) :
    Working config ((service config).enter (.dispatch state)) state :=
  ⟨hfine, fun _ _ => Or.inl rfl⟩

theorem deciding_of_read {s : Database} {c : Choice} (hdeciding : deciding? state = some m)
    (hstatus : (aggregate s m).status = some .processing) {t : Sql Control}
    {onError : Failure → Control} {writes : Choice → Database → List (Write Row.key)}
    {next : Choice → Database → Sql Control}
    (hcode : code config (.dispatch state) = .tx t onError) (ht : t = .stmt writes next) :
    writes c s = [] ∧ ∃ writes' next', next c s = .stmt writes' next' ∧
      TakesEffect Choice.supplied (fun _ _ => True)
        (Acknowledges (dispatchSpec config.processor state)) (next c s) s [] := by
  obtain ⟨target, data, intent, f, task, hvalid, hdata, hcode', hspec⟩ :=
    transition_of_deciding config hdeciding
  obtain ⟨row, hrow, hprocessing⟩ := Option.map_eq_some_iff.mp hstatus
  obtain ⟨rfl, _⟩ := Code.tx.inj (hcode.symm.trans hcode')
  rw [guardedTransition_eq] at ht
  obtain ⟨rfl, rfl⟩ := Tx.stmt.inj ht
  have hvalid' : isValidTransition row.status target := by rw [hprocessing]; exact hvalid
  have hnext : guardedNext m target data intent (smsMessage.find s m) =
      guardedUpdate m row.status target data intent := by
    rw [show smsMessage.find s m = some row from hrow]
    simp [guardedNext, hvalid']
  refine ⟨rfl, ?_⟩
  simp only [hnext]
  refine ⟨_, _, rfl, ?_⟩
  refine ((takesEffect_guardedUpdate hvalid' hdata).map f).mono fun s₁ r s₂ hr => ?_
  rw [hspec]
  cases r with
  | ok q =>
      obtain ⟨message, hq, heffect, _⟩ := hr
      exact ⟨⟨message, hq, heffect⟩, fun e he => by cases he⟩
  | error e =>
      refine ⟨hr.1, fun e' he => ⟨m, row.status, target, ?_⟩⟩
      exact (Except.error.inj he).symm.trans (hr.2 e rfl).1

end Decisions

section Steps

variable {config : Config} {i : Nat} {w w' : ServiceWorld} {l : ServiceLabel}
  {a a' : ServiceActor} {state : SmsProcessor.State}

/-- What a benign step makes of a worker, one case for each way on. -/
inductive Goes (config : Config) (i : Nat) (w : ServiceWorld)
    (a : ServiceActor) (state : SmsProcessor.State) :
    ServiceLabel → ServiceWorld → ServiceActor → Prop where
  | stays {l : ServiceLabel} {w' : ServiceWorld} : ¬Own i l → Goes config i w a state l w' a
  | within {l : ServiceLabel} {w' : ServiceWorld} {a' : ServiceActor} :
      w'.store = w.store → a'.control = .dispatch state → Working config a' state →
      Goes config i w a state l w' a'
  | skipped {l : ServiceLabel} {w' : ServiceWorld} (task : Task) (m : String) :
      w'.store = w.store → deciding? state = some m →
      Goes config i w a state l w' ((service config).enter (.dispatch (.finishing task .skipped)))
  | answered {l : ServiceLabel} {w' : ServiceWorld} (state' : SmsProcessor.State) : Own i l →
      dispatchSpec config.processor state w.store (.ok (.dispatch state')) w'.store → Fine state' →
      Goes config i w a state l w' ((service config).enter (.dispatch state'))
  | acted {c : Choice} {l : ServiceLabel} {w' : ServiceWorld} (state' : SmsProcessor.State) :
      w'.store = w.store → Acts config c w.ext (.dispatch state) w'.ext (.dispatch state') →
      Fine state' → Goes config i w a state l w' ((service config).enter (.dispatch state'))

theorem serves_of_benign {c : Choice} (hl : Benign config i w (.run i c)) (hat : At i state w) :
    serves c w.ext (.dispatch state) := by
  have hhealthy := hl.healthy
  rw [healthy, hat] at hhealthy
  simpa [World.abs] using hhealthy

theorem fine_of_acts {c : Choice} {o o' : Outside} {q : Control}
    (h : Acts config c o (.dispatch state) o' q) (hserves : serves c o (.dispatch state))
    (hfine : Fine state) : ∃ state', q = .dispatch state' ∧ Fine state' := by
  cases h with
  | @took _ job htake =>
      simp only [serves, htake, Option.all_some] at hserves
      obtain ⟨messageId, hid⟩ := Option.isSome_iff_exists.mp hserves
      exact ⟨_, rfl, by simp [process, hid, Fine]⟩
  | acquired hold _ => exact ⟨_, rfl, trivial⟩
  | notAcquired hold hnot => simp [serves, hnot] at hserves
  | started hold => exact ⟨_, rfl, trivial⟩
  | answered hold call _ =>
      obtain ⟨result, hresult⟩ := Option.isSome_iff_exists.mp hserves
      refine ⟨_, rfl, ?_⟩
      rw [hresult]
      exact expires_recordedResult config.processor result
  | finished task outcome => exact ⟨_, rfl, trivial⟩
  | failed task => exact hfine.elim

theorem expected_of_acts {c : Choice} {o o' : Outside} {state' : SmsProcessor.State}
    (h : Acts config c o (.dispatch state) o' (.dispatch state')) (hfine : Fine state') :
    expected? state' = expected? state ∧ skips state' = skips state := by
  generalize hq : Control.dispatch state' = q at h
  cases h with
  | @took _ job _ =>
      obtain rfl := Control.dispatch.inj hq
      cases hid : job.messageId <;> simp [process, hid, expected?, skips]
  | acquired hold _ | started hold =>
      obtain rfl := Control.dispatch.inj hq
      exact ⟨rfl, rfl⟩
  | notAcquired hold _ | failed task =>
      obtain rfl := Control.dispatch.inj hq
      exact hfine.elim
  | answered hold call _ =>
      obtain rfl := Control.dispatch.inj hq
      cases hreply : c.reply with
      | none =>
          rw [hreply] at hfine
          exact hfine.elim
      | some result => exact ⟨rfl, rfl⟩
  | finished task outcome =>
      obtain rfl := Control.dispatch.inj hq
      exact ⟨rfl, by cases outcome <;> rfl⟩

theorem goes_of_ok (hl : Benign config i w l) (hown : Own i l) (hat : At i state w)
    (hfine : Fine state) {q : Control}
    (hspec : dispatchSpec config.processor state w.store (.ok q) w'.store) :
    Goes config i w a state l w' ((service config).enter q) := by
  obtain ⟨state', rfl, hfine'⟩ := fine_of_ok hspec hfine fun task begin hstate =>
    hl.loaded task begin hown (hstate ▸ hat)
  exact .answered state' hown hspec hfine'

theorem goes_of_statement {c : Choice} {t : Sql Control} {onError : Failure → Control}
    {writes : Choice → Database → List (Write Row.key)} {next : Choice → Database → Sql Control}
    (hconsistent : Consistent (service config) (fun _ => True) (fun _ _ => True)
      (workSpec config) w)
    (hl : Benign config i w (.run i c)) (ha : w.actors[i]? = some a)
    (hcontrol : a.control = .dispatch state) (hworking : Working config a state)
    (hcode : code config a.control = .tx t onError) (hrest : a.rest = some (.stmt writes next))
    (hsupply : Choice.supplied c w.store) (hstore : w'.store = w.store) :
    Goes config i w a state (.run i c) w' ((service config).settle a.control onError
      (next c (view w.store a.pending))
      (a.pending ++ record (view w.store a.pending) (writes c (view w.store a.pending)))) := by
  have hat : At i state w := by rw [At, abs_control ha, hcontrol]
  have hown : Own i (.run i c : ServiceLabel) := Or.inr ⟨c, rfl⟩
  obtain ⟨hcurrent, hunder⟩ := hconsistent.underway i a ha
  obtain ⟨hfine, hdecide⟩ := hworking
  rw [hcontrol] at hcode ⊢
  cases hdeciding : deciding? state with
  | none =>
      obtain ⟨rest, hsome, s₀, _, htakes⟩ := hunder t onError (hcontrol ▸ hcode)
      obtain rfl := Option.some.inj (hrest.symm.trans hsome)
      rw [hcontrol] at htakes
      have hsettles :=
        settles_of_statement htakes hsupply trivial hcurrent (.dispatch state) onError
      generalize (service config).settle _ _ _ _ = b at hsettles ⊢
      cases hsettles with
      | under htakes' => exact .within hstore rfl ⟨hfine, by simp [hdeciding]⟩
      | failed e hspec =>
          obtain ⟨hold, input, rfl, hrefused⟩ := finalizing_of_error hspec hfine hdeciding
          obtain ⟨hawaiting, hattempt⟩ := hl.finalized hold input hown hat
          exact absurd hrefused (not_refused hfine hawaiting hattempt)
      | answered q hspec => exact goes_of_ok hl hown hat hfine (hstore ▸ hspec)
  | some m =>
      obtain hfresh | ⟨rest, s₀, hsome, htakes⟩ := hdecide m hdeciding
      · rw [hfresh] at hrest
        simp only [Protocol.enter, service, hcode] at hrest
        rw [hfresh] at ha
        obtain ⟨hwrites, writes', next', hnext, htakes⟩ := deciding_of_read (c := c) hdeciding
          (hl.decided state m hown hat hdeciding ha) hcode (Option.some.inj hrest)
        rw [hfresh, enter_pending, view_nil, hwrites, record_nil, List.append_nil, hnext]
        rw [hnext] at htakes
        exact .within hstore rfl ⟨hfine, fun _ _ => Or.inr ⟨_, w.store, rfl, htakes⟩⟩
      · obtain rfl := Option.some.inj (hrest.symm.trans hsome)
        have hsettles : Settles (service config) (fun _ _ => True)
            (Acknowledges (dispatchSpec config.processor state)) _ onError w.store _ :=
          settles_of_statement htakes hsupply trivial hcurrent (.dispatch state) onError
        generalize (service config).settle _ _ _ _ = b at hsettles ⊢
        cases hsettles with
        | under htakes' =>
            exact .within hstore rfl ⟨hfine, fun _ _ => Or.inr ⟨_, w.store, rfl, htakes'⟩⟩
        | failed e hspec =>
            obtain ⟨target, data, intent, f, task, _, _, hcode', _⟩ :=
              transition_of_deciding config hdeciding
            obtain ⟨_, rfl⟩ := Code.tx.inj (hcode.symm.trans hcode')
            obtain ⟨m', expected, target', rfl⟩ := hspec.2 e rfl
            exact .skipped task m hstore hdeciding
        | answered q hspec => exact goes_of_ok hl hown hat hfine (hstore ▸ hspec.1)

theorem goes_of_step (hconsistent : Consistent (service config) (fun _ => True) (fun _ _ => True)
      (workSpec config) w)
    (hl : Benign config i w l) (hstep : (service config).step w l = some w')
    (ha : w.actors[i]? = some a) (hcontrol : a.control = .dispatch state)
    (hworking : Working config a state) :
    ∃ a', w'.actors[i]? = some a' ∧ Goes config i w a state l w' a' := by
  have hat : At i state w := by rw [At, abs_control ha, hcontrol]
  obtain ⟨a', ha', hturn⟩ := (moves_of_step hstep).turn ha
  refine ⟨a', ha', ?_⟩
  cases hturn with
  | stays hown => exact .stays hown
  | statement hcode hrest hsupply hstore =>
      exact goes_of_statement hconsistent hl ha hcontrol hworking hcode hrest hsupply hstore
  | act hcode hact hstore =>
      have hacts := acts_of_code (show code config a.control = _ from hcode) hact
      rw [hcontrol] at hacts
      obtain ⟨state', rfl, hfine⟩ := fine_of_acts hacts (serves_of_benign hl hat) hworking.1
      exact .acted state' hstore hacts hfine
  | commit hcode hrest hpending hstore =>
      have hspec := spec_of_commit hconsistent ha hcode hrest hpending
      rw [hcontrol, ← hstore] at hspec
      exact goes_of_ok hl (Or.inl rfl) hat hworking.1 hspec
  | failed hlabel _ =>
      have hhealthy := hl.healthy
      rcases hlabel with rfl | rfl <;> simp [healthy] at hhealthy
  | crashed => simpa [healthy] using hl.healthy

theorem Goes.working (h : Goes config i w a state l w' a') (hcontrol : a.control = .dispatch state)
    (hworking : Working config a state) :
    ∃ state', a'.control = .dispatch state' ∧ Working config a' state' := by
  cases h with
  | stays _ => exact ⟨state, hcontrol, hworking⟩
  | within _ hcontrol' hworking' => exact ⟨state, hcontrol', hworking'⟩
  | skipped task m _ _ => exact ⟨_, enter_control _, working_enter trivial⟩
  | answered state' _ _ hfine => exact ⟨state', enter_control _, working_enter hfine⟩
  | acted state' _ _ hfine => exact ⟨state', enter_control _, working_enter hfine⟩

theorem family_of_workSpec {q q' : Control} {s s' : Database}
    (h : workSpec config q s (.ok q') s') : family q' = family q := by
  cases q with
  | dispatch state =>
      have hspec : controlSpec config (.dispatch state) s (.ok q') s' := h
      exact (family_of_ok hspec).1
  | _ => exact h q' rfl

theorem family_of_turn (hconsistent : Consistent (service config) (fun _ => True)
      (fun _ _ => True) (workSpec config) w)
    (hl : Benign config i w l) (ha : w.actors[i]? = some a)
    (hturn : Turn (service config) w i a l w' a') :
    family a'.control = family a.control := by
  cases hturn with
  | stays _ => rfl
  | @statement _ _ _ onError _ _ hcode hrest hsupply _ =>
      obtain ⟨hcurrent, hunder⟩ := hconsistent.underway i a ha
      obtain ⟨rest, hsome, s₀, _, htakes⟩ := hunder _ onError hcode
      obtain rfl := Option.some.inj (hrest.symm.trans hsome)
      have hsettles := settles_of_statement htakes hsupply trivial hcurrent a.control onError
      generalize (service config).settle _ _ _ _ = b at hsettles ⊢
      cases hsettles with
      | under _ => rfl
      | failed e _ =>
          rw [enter_control]
          exact (family_of_error hcode e).1
      | answered q hspec =>
          rw [enter_control]
          exact family_of_workSpec hspec
  | act hcode hact _ =>
      rw [enter_control]
      exact (acts_of_code hcode hact).family.1
  | commit hcode hrest hpending hstore =>
      rw [enter_control]
      exact family_of_workSpec (spec_of_commit hconsistent ha hcode hrest hpending)
  | failed hlabel _ =>
      have hhealthy := hl.healthy
      rcases hlabel with rfl | rfl <;> simp [healthy] at hhealthy
  | crashed => simpa [healthy] using hl.healthy

/-- In a benign run the worker is at its work. -/
theorem working_of_benignly (h : Benignly config i w) :
    Consistent (service config) (fun _ => True) (fun _ _ => True) (workSpec config) w ∧
      ∀ a state, w.actors[i]? = some a → a.control = .dispatch state → Working config a state := by
  induction h with
  | @start w h0 =>
      refine ⟨?_, fun a state ha _ => by simp [h0] at ha⟩
      constructor <;> simp [h0]
  | @next w w' l _ hl hstep hinv =>
      obtain ⟨hconsistent, hworking⟩ := hinv
      refine ⟨(simulates (sound_work config) hconsistent (fun _ _ => trivial) hstep).1, ?_⟩
      intro a' state' ha' hcontrol'
      obtain ⟨a, ha⟩ | ⟨q, rfl, rfl⟩ := (moves_of_step hstep).before ha'
      · obtain ⟨b, hb, hturn⟩ := (moves_of_step hstep).turn ha
        obtain rfl := Option.some.inj (hb.symm.trans ha')
        have hfamily := family_of_turn hconsistent hl ha hturn
        rw [hcontrol'] at hfamily
        cases hcontrol : a.control with
        | dispatch state =>
            obtain ⟨b, hb, hgoes⟩ :=
              goes_of_step hconsistent hl hstep ha hcontrol (hworking a state ha hcontrol)
            obtain rfl := Option.some.inj (hb.symm.trans ha')
            obtain ⟨state₁, hcontrol₁, hworking₁⟩ :=
              hgoes.working hcontrol (hworking a state ha hcontrol)
            obtain rfl := Control.dispatch.inj (hcontrol₁.symm.trans hcontrol')
            exact hworking₁
        | _ => simp [hcontrol, family] at hfamily
      · rw [enter_control] at hcontrol'
        subst hcontrol'
        have hentry : isEntry (.dispatch state') := hl.healthy
        cases state' with
        | idle => exact working_enter trivial
        | beginning task => exact working_enter trivial
        | _ => simp [isEntry] at hentry

/-- The worker still expects what its message has left, or its pass is skipped. -/
def Lost (i : Nat) (m : String) (status : SmsStatus) (w : ServiceWorld) : Prop :=
  ∃ state, At i state w ∧ ((expected? state = some (m, status) ∧
    (aggregate w.store m).status ≠ some status) ∨ skips state)

theorem Goes.lost {m : String} {status : SmsStatus} (h : Goes config i w a state l w' a')
    (hl : Benign config i w l) (hat : At i state w) (hcontrol : a.control = .dispatch state)
    (hfine : Fine state) (hlost : (expected? state = some (m, status) ∧
      (aggregate w.store m).status ≠ some status) ∨ skips state) :
    (Own i l → w'.store = w.store) ∧ ∃ state', a'.control = .dispatch state' ∧
      ((expected? state = some (m, status) ∧ expected? state' = some (m, status)) ∨
        skips state') := by
  have hsame : (expected? state = some (m, status) ∧ expected? state = some (m, status)) ∨
      skips state := hlost.imp_left fun h => ⟨h.1, h.1⟩
  cases h with
  | stays hown => exact ⟨fun h => absurd h hown, state, hcontrol, hsame⟩
  | within hstore hcontrol' _ => exact ⟨fun _ => hstore, state, hcontrol', hsame⟩
  | skipped task _ hstore _ => exact ⟨fun _ => hstore, _, enter_control _, Or.inr rfl⟩
  | answered state' hown hspec _ =>
      rcases hlost with ⟨hexpected, hmoved⟩ | hskips
      · have hfinal : ∀ hold input, state ≠ .finalizing hold input := by
          rintro hold input rfl
          obtain ⟨rfl, rfl⟩ := Prod.mk.inj (Option.some.inj hexpected)
          exact hmoved (hl.finalized hold input hown hat).1
        obtain ⟨hstore, state₁, hstate₁, hnext⟩ := lost_of_ok hspec hfine hexpected hmoved hfinal
          fun task begin hstate => hl.loaded task begin hown (hstate ▸ hat)
        obtain rfl := Control.dispatch.inj hstate₁
        exact ⟨fun _ => hstore, state', enter_control _,
          hnext.imp_left fun hstate' => ⟨hexpected, hstate'⟩⟩
      · cases state with
        | finishing task outcome => exact hspec.elim
        | finished outcome => exact hspec.elim
        | _ => simp [skips] at hskips
  | acted state' hstore hacts hfine' =>
      obtain ⟨hexpected, hskips⟩ := expected_of_acts hacts hfine'
      exact ⟨fun _ => hstore, state', enter_control _, by rw [hexpected, hskips]; exact hsame⟩

/-- The race is lost for good. -/
theorem lost_of_later {m : String} {status : SmsStatus} (h : Benignly config i w)
    (hlost : Lost i m status w) (hlater : Reachable
      (fun w l w' => (service config).step w l = some w') (Benign config i) (· = w) w') :
    Benignly config i w' ∧ Lost i m status w' := by
  induction hlater with
  | start h0 => exact h0 ▸ ⟨h, hlost⟩
  | @next w₁ w₂ l _ hl hstep ih =>
      obtain ⟨hreach, state, hat, hlost⟩ := ih
      refine ⟨Reachable.next l hreach hl hstep, ?_⟩
      obtain ⟨a, ha, hcontrol⟩ := exists_actor_of_abs hat
      obtain ⟨hconsistent, hworking⟩ := working_of_benignly hreach
      have hwork := hworking a state ha hcontrol
      obtain ⟨a', ha', hgoes⟩ := goes_of_step hconsistent hl hstep ha hcontrol hwork
      obtain ⟨_, state', hcontrol', hnext⟩ := hgoes.lost hl hat hcontrol hwork.1 hlost
      refine ⟨state', by rw [At, abs_control ha', hcontrol'], ?_⟩
      refine hnext.imp_left fun hexpected => ⟨hexpected.2, fun hstatus => ?_⟩
      have hbefore := hl.kept state m status hat hexpected.1 _ hstep hstatus
      rcases hlost with ⟨_, hmoved⟩ | hskips
      · exact hmoved hbefore
      · cases state <;> simp [expected?, skips] at hexpected hskips

theorem Goes.notStartable {task : Task} (h : Goes config i w a (.beginning task) l w' a')
    (hown : Own i l)
    (hnot : ∀ status, (aggregate w.store task.messageId).status = some status →
      beginProcessingFrom.contains status = false) :
    w'.store = w.store ∧ (a'.control = .dispatch (.beginning task) ∨
      a'.control = .dispatch (.finishing task .skipped)) := by
  cases h with
  | stays hnone => exact absurd hown hnone
  | within hstore hcontrol' _ => exact ⟨hstore, Or.inl hcontrol'⟩
  | skipped _ _ _ hdeciding => simp [deciding?, decided?] at hdeciding
  | answered state' _ hspec _ =>
      obtain ⟨begin, hstate, hbegin⟩ := hspec
      cases begin with
      | notStartable => exact ⟨hbegin.1, Or.inr (by rw [enter_control, hstate]; rfl)⟩
      | started message =>
          obtain ⟨⟨A', ⟨row, now, events', hrow, hsource, _⟩, _⟩, _⟩ := hbegin
          have hstartable := hnot row.status (by rw [Aggregate.status, hrow, Option.map_some])
          rw [hstartable] at hsource
          cases hsource
  | acted state' _ hacts _ =>
      generalize w.ext = o, w'.ext = o' at hacts
      cases hacts

theorem left_of_benignly (h : Benignly config i w) : ∀ a state, w.actors[i]? = some a →
    a.control = .dispatch state →
      Left (service config) (fun q => family q = .dispatch) (workerRank config) 4 a
        (awaitsLeft config.processor state * 5) := by
  induction h with
  | @start w h0 =>
      intro a state ha _
      simp [show w.actors = [] from h0] at ha
  | @next w w' l hprev hl hstep ih =>
      intro a' state' ha' hcontrol'
      have hleft : ∃ n, Left (service config) (fun q => family q = .dispatch)
          (workerRank config) 4 a' n := by
        obtain ⟨a, ha⟩ | ⟨q, rfl, rfl⟩ := (moves_of_step hstep).before ha'
        · obtain ⟨b, hb, hturn⟩ := (moves_of_step hstep).turn ha
          obtain rfl := Option.some.inj (hb.symm.trans ha')
          have hfamily := family_of_turn (working_of_benignly hprev).1 hl ha hturn
          rw [hcontrol'] at hfamily
          cases hcontrol : a.control with
          | dispatch state =>
              obtain ⟨hother, hown⟩ :=
                left_of_turn (ranked_dispatch config) (ih a state ha hcontrol) hturn
              by_cases hl' : Own i l
              · obtain ⟨n, _, hn⟩ := hown hl'
                exact ⟨n, hn⟩
              · exact ⟨_, hother hl'⟩
          | _ => simp [hcontrol, family] at hfamily
        · rw [enter_control] at hcontrol'
          exact ⟨_, left_enter (ranked_dispatch config) (by rw [hcontrol']; rfl)⟩
      obtain ⟨n, hn⟩ := hleft
      have hrank := hn.of_rank
      rwa [hcontrol'] at hrank

/-- Lost races are acknowledged in benign runs: a pass never rejects. One that cannot
begin its message, or whose message another actor has moved out of the status that the
pass expects, writes nothing any more and ends as skipped. The pass takes five steps
at most for each await before it, and only a job, a provider or the uncommitted writes
of another transaction keep it from the next one. -/
theorem lost_races_acknowledged (h : Benignly config i w) (hat : At i state w) :
    rejects state = false ∧
    (∀ task, state = .beginning task →
      (∀ status, (aggregate w.store task.messageId).status = some status →
        beginProcessingFrom.contains status = false) →
      ∀ l w', Benign config i w l → Own i l → (service config).step w l = some w' →
        w'.store = w.store ∧ (At i state w' ∨ At i (.finishing task .skipped) w')) ∧
    (∀ m status, expected? state = some (m, status) →
      (aggregate w.store m).status ≠ some status →
      ∀ w', Reachable (fun w l w' => (service config).step w l = some w') (Benign config i)
          (· = w) w' →
        Lost i m status w' ∧ ∀ l w'', Benign config i w' l → Own i l →
          (service config).step w' l = some w'' → w''.store = w'.store) ∧
    (∀ k w', Counted (fun w l w' => (service config).step w l = some w') (fun _ _ => True)
      (Own i) w k w' → k ≤ awaitsLeft config.processor state * 5) ∧
    (isEnded state = false → isWaiting state = false →
      (∀ (j : Nat) b, w.actors[j]? = some b → j ≠ i → b.pending = []) →
      ∃ l, Own i l ∧ ((service config).step w l).isSome) := by
  obtain ⟨a, ha, hcontrol⟩ := exists_actor_of_abs hat
  obtain ⟨hconsistent, hworking⟩ := working_of_benignly h
  have hwork := hworking a state ha hcontrol
  have hleft := left_of_benignly h a state ha hcontrol
  refine ⟨?_, ?_, ?_, fun k w' hrun => ?_, exists_own_step hleft ha hcontrol⟩
  · have hfine := hwork.1
    cases state <;> first | rfl | exact hfine.elim
  · rintro task rfl hnot l w' hl hown hstep
    obtain ⟨a', ha', hgoes⟩ := goes_of_step hconsistent hl hstep ha hcontrol hwork
    obtain ⟨hstore, hcontrol'⟩ := hgoes.notStartable hown hnot
    exact ⟨hstore, by rw [At, At, abs_control ha']; simpa using hcontrol'⟩
  · intro m status hexpected hmoved w' hlater
    obtain ⟨hreach, hlost⟩ := lost_of_later h ⟨state, hat, Or.inl ⟨hexpected, hmoved⟩⟩ hlater
    refine ⟨hlost, fun l w'' hl hown hstep => ?_⟩
    obtain ⟨state', hat', hlost'⟩ := hlost
    obtain ⟨b, hb, hcontrol'⟩ := exists_actor_of_abs hat'
    obtain ⟨hconsistent', hworking'⟩ := working_of_benignly hreach
    have hwork' := hworking' b state' hb hcontrol'
    obtain ⟨b', hb', hgoes⟩ := goes_of_step hconsistent' hl hstep hb hcontrol' hwork'
    exact (hgoes.lost hl hat' hcontrol' hwork'.1 hlost').1 hown
  · obtain ⟨_, n', hle, _⟩ := counted_le (ranked_dispatch config) ha hleft hrun
    exact Nat.le_trans (Nat.le_add_right k n') hle

end Steps

/-- What a pass expects, told from the control state of an actor. -/
def expects? : Control → Option (String × SmsStatus)
  | .dispatch state => expected? state
  | _ => none

/-- The worker is about to end its pass as skipped. -/
def isSkipping : Control → Bool
  | .dispatch (.finishing _ .skipped) => true
  | _ => false

/-- The worker looks at its message where it expects it. -/
def looksAt (config : Config) (w : ServiceWorld) : Control → Bool
  | .dispatch (.loading task _) => (smsMessage.find w.store task.messageId).any fun row =>
      (config.processor.decrypt row.encryptedMessage).isSome
  | .dispatch (.finalizing _ _) => false
  | .dispatch state => (deciding? state).all fun m =>
      (aggregate w.store m).status = some .processing
  | _ => true

/-- Steps that are benign at a glance: no finalization is among them. -/
def isBenign (config : Config) (i : Nat) (w : ServiceWorld) (l : ServiceLabel) : Bool :=
  healthy i w.abs l &&
    w.abs.controls[i]?.all fun q => looksAt config w q &&
      (expects? q).all fun expected => ((service config).step w l).all fun w' =>
        (aggregate w'.store expected.1).status ≠ some expected.2 ||
          (aggregate w.store expected.1).status = some expected.2

theorem benign_of_isBenign {config : Config} {i : Nat} {w : ServiceWorld} {l : ServiceLabel}
    (h : isBenign config i w l) : Benign config i w l := by
  simp only [isBenign, Bool.and_eq_true] at h
  obtain ⟨hhealthy, hall⟩ := h
  have hlooks : ∀ state, At i state w → looksAt config w (.dispatch state) := by
    intro state hat
    rw [hat, Option.all_some, Bool.and_eq_true] at hall
    exact hall.1
  constructor
  · exact hhealthy
  · intro task begin _ hat
    obtain ⟨row, hrow, hbody⟩ := (Option.any_eq_true _ _).mp (hlooks _ hat)
    exact ⟨row, hrow, hbody⟩
  · intro hold input _ hat
    have hfalse := hlooks _ hat
    simp [looksAt] at hfalse
  · intro state m _ hat hdeciding _
    have hstatus := hlooks _ hat
    cases state with
    | schedulingRetry pass opts =>
        obtain rfl := Option.some.inj hdeciding
        simpa [looksAt, deciding?, decided?] using hstatus
    | markingFatal pass lastError reason =>
        obtain rfl := Option.some.inj hdeciding
        simpa [looksAt, deciding?, decided?] using hstatus
    | _ => simp [deciding?, decided?] at hdeciding
  · intro state m status hat hexpected w' hstep hstatus
    rw [hat, Option.all_some, Bool.and_eq_true, expects?, hexpected, Option.all_some, hstep,
      Option.all_some] at hall
    simpa [hstatus] using hall.2

/-- A worker has loaded the message `m`, and a sweep has taken it back. -/
def takenBack : List ServiceLabel :=
  creation ++ .spawn (.dispatch (.beginning ⟨sampleJob, "m"⟩)) ::
    statements 1 2 (sampleChoice "" 1) ++ .commit 1 :: statements 1 1 (sampleChoice "" 1) ++
    .spawn (.sweep (.selecting 2 100)) :: statements 2 3 (sampleChoice "r" 300002) ++ [.commit 2]

/-- The worker does not reserve an attempt of the message, and ends its pass as skipped. -/
theorem lost_races_acknowledged_skipped :
    ∃ w w' state, Benignly sampleConfig 1 w ∧ At 1 state w ∧
      expected? state = some ("m", .processing) ∧
      (aggregate w.store "m").status = some .retryScheduled ∧
      (service sampleConfig).step w (.run 1 (sampleChoice "a" 300003)) = some w' ∧
      w'.abs.controls[1]?.any isSkipping ∧ rejects state = false ∧ w'.store = w.store := by
  have hwitness : ((exec (service sampleConfig).step (fun w l => isBenign sampleConfig 1 w l)
      initial takenBack).any fun w => w.abs.controls[1]?.bind expects? = some ("m", .processing) ∧
        (aggregate w.store "m").status = some .retryScheduled ∧
        isBenign sampleConfig 1 w (.run 1 (sampleChoice "a" 300003)) ∧
        ((service sampleConfig).step w (.run 1 (sampleChoice "a" 300003))).any fun w' =>
          w'.abs.controls[1]?.any isSkipping) = true := by
    decide +kernel
  obtain ⟨w, hw, hrest⟩ := (Option.any_eq_true _ _).mp hwitness
  obtain ⟨hexpects, hstatus, hbenign, hrest⟩ := of_decide_eq_true hrest
  obtain ⟨w', hstep, hskipping⟩ := (Option.any_eq_true _ _).mp hrest
  have hinitial : Reachable (fun w l w' => (service sampleConfig).step w l = some w')
      (fun w l => isBenign sampleConfig 1 w l) (fun w => w.actors = []) initial :=
    Reachable.start rfl
  have hreach : Benignly sampleConfig 1 w :=
    (reachable_of_exec hinitial hw).mono fun _ _ => benign_of_isBenign
  obtain ⟨q, hq, hexpected⟩ := Option.bind_eq_some_iff.mp hexpects
  cases q with
  | dispatch state =>
      obtain ⟨hrejects, _, hlost, _⟩ := lost_races_acknowledged hreach hq
      have hstore := (hlost "m" .processing hexpected (by simp [hstatus]) w
        (Reachable.start rfl)).2 _ w' (benign_of_isBenign hbenign) (Or.inr ⟨_, rfl⟩) hstep
      exact ⟨w, w', state, hreach, hq, hexpected, hstatus, hstep, hskipping, hrejects, hstore⟩
  | _ => simp [expects?] at hexpected

/-- An operator decides on the attempt of a worker that waits for its provider. -/
def decidedMeanwhile : List ServiceLabel :=
  creation ++ callingPass ++
    .spawn (.calling (.resolveTwilioAttempt "m" "a" (.undelivered .twilioUndeliveredConfirmed))) ::
    statements 2 7 (sampleChoice "r" 2) ++ .commit 2 ::
    statements 1 1 { sampleChoice "" 3 with reply := some ⟨true, some "X", none, false, none⟩ } ++
    statements 1 3 (sampleChoice "" 3)

/-- The pass of a worker has thrown. -/
def isRejected : Control → Bool
  | .dispatch state => rejects state
  | _ => false

/-- The finalization after the decision rejects, and so does the pass. -/
theorem lost_race_rejected :
    ∃ w, Reaches sampleConfig (fun a l => healthy 1 a l) Initial w ∧
      w.abs.controls[1]?.any isRejected ∧
      (aggregate w.store "m").status = some .undelivered :=
  exists_reaches_of_exec sampleConfig (fun a l => healthy 1 a l) decidedMeanwhile
    (fun w => w.abs.controls[1]?.any isRejected ∧
      (aggregate w.store "m").status = some .undelivered) (by decide +kernel)

end SmsNotification.LostRaces

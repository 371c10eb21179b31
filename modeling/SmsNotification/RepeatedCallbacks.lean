import SmsNotification.OperationFrames
import SmsNotification.ProviderIsolation

namespace SmsNotification.RepeatedCallbacks

open SmsNotification.ActorSystem
open SmsNotification.KeyedStore
open SmsNotification.LabelledRuns
open SmsNotification.LifecycleEffects
open SmsNotification.OperationFrames
open SmsNotification.ProviderIsolation
open SmsNotification.ReadCommitted
open SmsNotification.Schema
open SmsNotification.Service
open SmsNotification.ServiceRuns
open SmsNotification.SmsLifecycleRepository
open SmsNotification.SmsStateMachine
open SmsNotification.Surroundings
open SmsNotification.Webhooks

/-- The message `row` is the one under `m` and the only one that holds the id. -/
structure Sole (m providerMessageId : String) (s : Database) (row : SmsMessage) : Prop where
  found : smsMessage.find s m = some row
  holds : row.providerMessageId = some providerMessageId
  only : ∀ m' row', smsMessage.find s m' = some row' →
    row'.providerMessageId = some providerMessageId → m' = m

section Programs

variable {m providerMessageId : String} {s : Database} {row : SmsMessage}
  {status : DeliveryTerminalStatus}

theorem firstMessage_of_sole (h : Sole m providerMessageId s row) (c : Choice) :
    firstMessage (· = some providerMessageId) c s = some row := by
  cases hfound : firstMessage (· = some providerMessageId) c s with
  | none =>
      have hempty := List.head?_eq_none_iff.mp hfound
      have hmem : row ∈ smsMessage.rows s fun row =>
          decide (row.providerMessageId = some providerMessageId) := by
        refine Table.mem_rows_iff.mpr ⟨?_, by simp [h.holds]⟩
        rw [Table.idOf_of_find h.found]
        exact h.found
      have hsorted := (List.mem_insertionSort fun a b : SmsMessage =>
        c.scan a.id ≤ c.scan b.id).mpr hmem
      simp only [unordered] at hempty
      rw [hempty] at hsorted
      simp at hsorted
  | some current =>
      obtain ⟨hfind, hid⟩ := find_of_firstMessage hfound
      rw [h.only _ current hfind (by simpa using hid), h.found] at hfind
      exact hfind.symm

theorem reportOn_sent (h : row.status = .sent) :
    reportOn row status =
      (smsMessage.updateMany row.id (fun current => current.status = row.status)
        (fun c current => reported current status c) >>= fun updated =>
          if updated = 0 then .done (.invalidTransition row.status)
          else readLifecycle row.id >>= fun message => .done (.applied message)) := by
  unfold reportOn
  cases status <;> simp [h, isSameState, isValidTransition, transitionTable,
    DeliveryTerminalStatus.status, reported]

theorem reportOn_same (h : row.status = status.status) :
    reportOn row status = readLifecycle row.id >>= fun message => .done (.duplicate message) := by
  simp [reportOn, h, isSameState]

end Programs

/-- The call of the repository for a report. -/
def report (providerMessageId : String) (status : DeliveryTerminalStatus) : Operation :=
  .applyDeliveryReport ⟨providerMessageId, status⟩

/-- What is left of the transaction of a report. -/
def remaining (providerMessageId : String) (status : DeliveryTerminalStatus)
    (t : Sql ApplyDeliveryReportResult) : Sql Control :=
  (t.map .report).map (.returned (report providerMessageId status))

/-- What a report does with the message that it has looked up. -/
def lookedUp (status : DeliveryTerminalStatus) : Option SmsMessage → Sql ApplyDeliveryReportResult
  | none => .done .notFound
  | some current => reportOn current status

/-- What `readLifecycle` makes of the row that it has looked up. -/
def reread (m : String) : Option SmsMessage → Sql LifecycleSmsMessage
  | none => .abort (.messageNotFound m)
  | some row => .done (lifecycleSelect row)

/-- A report while the message is still `SENT`: it has not looked the message up, has
found it, or has updated it. -/
inductive Waiting (m providerMessageId : String) (status : DeliveryTerminalStatus)
    (row : SmsMessage) : ServiceActor → Prop where
  | fresh : Waiting m providerMessageId status row
      ⟨.calling (report providerMessageId status),
        some (remaining providerMessageId status
          (applyDeliveryReport ⟨providerMessageId, status⟩)), []⟩
  | found : Waiting m providerMessageId status row
      ⟨.calling (report providerMessageId status),
        some (remaining providerMessageId status (reportOn row status)), []⟩
  | updated (c : Choice) : Waiting m providerMessageId status row
      ⟨.calling (report providerMessageId status),
        some (remaining providerMessageId status
          (readLifecycle m >>= fun message => .done (.applied message))),
        [⟨.put (smsMessage.wrap (reported row status c)), some (smsMessage.wrap row)⟩]⟩
  | applying (c : Choice) (message : LifecycleSmsMessage) : Waiting m providerMessageId status row
      ⟨.calling (report providerMessageId status),
        some (remaining providerMessageId status (.done (.applied message))),
        [⟨.put (smsMessage.wrap (reported row status c)), some (smsMessage.wrap row)⟩]⟩

/-- A report once one has been applied. -/
inductive Settled (m providerMessageId : String) (status : DeliveryTerminalStatus) :
    ServiceActor → Prop where
  | fresh : Settled m providerMessageId status
      ⟨.calling (report providerMessageId status),
        some (remaining providerMessageId status
          (applyDeliveryReport ⟨providerMessageId, status⟩)), []⟩
  | repeating : Settled m providerMessageId status
      ⟨.calling (report providerMessageId status),
        some (remaining providerMessageId status
          (readLifecycle m >>= fun message => .done (.duplicate message))), []⟩
  | applied (message : LifecycleSmsMessage) : Settled m providerMessageId status
      ⟨.returned (report providerMessageId status) (.report (.applied message)), none, []⟩
  | duplicate (message : LifecycleSmsMessage) : Settled m providerMessageId status
      ⟨.returned (report providerMessageId status) (.report (.duplicate message)), none, []⟩

/-- The actor has returned that its report is applied. -/
def isApplied (a : ServiceActor) : Bool :=
  match a.control with
  | .returned _ (.report (.applied _)) => true
  | _ => false

/-- How far the reports have come together. -/
inductive Progress (m providerMessageId : String) (status : DeliveryTerminalStatus)
    (w : ServiceWorld) : Prop where
  | sent (row : SmsMessage) : Sole m providerMessageId w.store row → row.status = .sent →
      (∀ (i : Nat) a, w.actors[i]? = some a → Waiting m providerMessageId status row a) →
      Progress m providerMessageId status w
  | settled (row : SmsMessage) : Sole m providerMessageId w.store row →
      row.status = status.status →
      (∀ (i : Nat) a, w.actors[i]? = some a → Settled m providerMessageId status a) →
      w.actors.countP isApplied = 1 → Progress m providerMessageId status w

/-- A report commits while another one has found the message and has not updated it. -/
def Overtakes (providerMessageId : String) (status : DeliveryTerminalStatus) (w : ServiceWorld)
    (l : ServiceLabel) : Prop :=
  ∃ (i j : Nat) (a : ServiceActor) (row : SmsMessage), w.actors[i]? = some a ∧ i ≠ j ∧
    l = .commit j ∧ row.status = .sent ∧
    a.rest = some (remaining providerMessageId status (reportOn row status))

/-- The steps of concurrent reports with one id and one status, none of which fails. -/
def reports (providerMessageId : String) (status : DeliveryTerminalStatus) : ServiceLabel → Bool
  | .spawn (.calling (.applyDeliveryReport input)) =>
      input.providerMessageId = providerMessageId && input.terminalStatus = status
  | .run _ _ => true
  | .commit _ => true
  | _ => false

/-- A step of the reports that does not overtake one of them. -/
def Orderly (providerMessageId : String) (status : DeliveryTerminalStatus) (w : ServiceWorld)
    (l : ServiceLabel) : Prop :=
  reports providerMessageId status l ∧ ¬Overtakes providerMessageId status w l

section Steps

variable {config : Config} {m providerMessageId : String} {status : DeliveryTerminalStatus}
  {w w' : ServiceWorld} {l : ServiceLabel} {row : SmsMessage} {s : Database} {c : Choice}
  {onError : Failure → Control} {a : ServiceActor}
  {writes : Choice → Database → List (Write Row.key)} {next : Choice → Database → Sql Control}

theorem eq_report_of_reports {q : Control} (h : reports providerMessageId status (.spawn q)) :
    q = .calling (report providerMessageId status) := by
  cases q with
  | calling op =>
      cases op with
      | applyDeliveryReport input =>
          obtain ⟨providerMessageId', status'⟩ := input
          simp only [reports, Bool.and_eq_true, decide_eq_true_eq] at h
          rw [h.1, h.2]
          rfl
      | _ => simp [reports] at h
  | _ => simp [reports] at h

theorem enter_report : (service config).enter (.calling (report providerMessageId status)) =
    ⟨.calling (report providerMessageId status),
      some (remaining providerMessageId status
        (applyDeliveryReport ⟨providerMessageId, status⟩)), []⟩ :=
  rfl

theorem Waiting.settle (h : Waiting m providerMessageId status row a)
    (hsole : Sole m providerMessageId s row) (hsent : row.status = .sent)
    (hrest : a.rest = some (.stmt writes next)) :
    Waiting m providerMessageId status row
      ((service config).settle a.control onError (next c (view s a.pending))
        (a.pending ++ record (view s a.pending) (writes c (view s a.pending)))) := by
  have hid : row.id = m := Table.idOf_of_find hsole.found
  have hfind : s.find (.message row.id) = some (.message row) := by
    rw [hid]
    exact Table.find_eq_some_iff.mp hsole.found
  cases h with
  | fresh =>
      obtain ⟨rfl, rfl⟩ := Tx.stmt.inj (Option.some.inj hrest)
      change Waiting _ _ _ _ ((service config).settle _ onError (remaining providerMessageId status
        (lookedUp status (firstMessage (· = some providerMessageId) c s))) [])
      have hstays : ∀ q, (service config).settle q onError
          (remaining providerMessageId status (reportOn row status)) [] =
            ⟨q, some (remaining providerMessageId status (reportOn row status)), []⟩ := by
        rw [reportOn_sent hsent]
        exact fun _ => rfl
      rw [firstMessage_of_sole hsole, lookedUp, hstays]
      exact .found
  | found =>
      simp only [reportOn_sent hsent, Table.updateMany_bind] at hrest
      obtain ⟨rfl, rfl⟩ := Tx.stmt.inj (Option.some.inj hrest)
      have hrow : smsMessage.find s row.id = some row := by rw [hid]; exact hsole.found
      simp only [view_nil, hrow, Option.filter_some, decide_true, if_true, Option.toList_some,
        List.map_cons, List.map_nil, record_cons, record_nil, List.nil_append]
      change Waiting _ _ _ _ ((service config).settle _ onError (remaining providerMessageId status
        (readLifecycle row.id >>= fun message => .done (.applied message)))
        [⟨.put (smsMessage.wrap (reported row status c)), s.find (.message row.id)⟩])
      rw [hfind, hid]
      exact .updated c
  | updated c' =>
      obtain ⟨rfl, rfl⟩ := Tx.stmt.inj (Option.some.inj hrest)
      have hown : smsMessage.find (view s
          [⟨.put (smsMessage.wrap (reported row status c')), some (smsMessage.wrap row)⟩]) m =
            some (reported row status c') :=
        own_message (show (reported row status c').id = m from hid) s
      change Waiting _ _ _ _ ((service config).settle _ onError (remaining providerMessageId status
        (reread m (smsMessage.find (view s
            [⟨.put (smsMessage.wrap (reported row status c')), some (smsMessage.wrap row)⟩]) m) >>=
          fun message => .done (.applied message))) _)
      rw [hown]
      exact .applying c' _
  | applying c' message =>
      have hdone := Option.some.inj hrest
      cases hdone

theorem Settled.settle (h : Settled m providerMessageId status a)
    (hsole : Sole m providerMessageId s row) (hsame : row.status = status.status)
    (hrest : a.rest = some (.stmt writes next)) {a' : ServiceActor}
    (ha' : a' = (service config).settle a.control onError (next c (view s a.pending))
      (a.pending ++ record (view s a.pending) (writes c (view s a.pending)))) :
    Settled m providerMessageId status a' ∧ isApplied a' = false := by
  have hid : row.id = m := Table.idOf_of_find hsole.found
  cases h with
  | fresh =>
      obtain ⟨rfl, rfl⟩ := Tx.stmt.inj (Option.some.inj hrest)
      change a' = (service config).settle _ onError (remaining providerMessageId status
        (lookedUp status (firstMessage (· = some providerMessageId) c s))) [] at ha'
      rw [firstMessage_of_sole hsole, lookedUp, reportOn_same hsame, hid] at ha'
      subst ha'
      exact ⟨.repeating, rfl⟩
  | repeating =>
      obtain ⟨rfl, rfl⟩ := Tx.stmt.inj (Option.some.inj hrest)
      change a' = (service config).settle _ onError (remaining providerMessageId status
        (reread m (smsMessage.find s m) >>= fun message => .done (.duplicate message))) [] at ha'
      rw [hsole.found] at ha'
      subst ha'
      exact ⟨.duplicate _, rfl⟩
  | applied message => simp at hrest
  | duplicate message => simp at hrest

theorem Waiting.pending (h : Waiting m providerMessageId status row a) :
    a.pending = [] ∨ ∃ c, a.pending =
      [⟨.put (smsMessage.wrap (reported row status c)), some (smsMessage.wrap row)⟩] := by
  cases h with
  | fresh | found => exact Or.inl rfl
  | updated c | applying c _ => exact Or.inr ⟨c, rfl⟩

theorem Waiting.isApplied (h : Waiting m providerMessageId status row a) :
    isApplied a = false := by
  cases h <;> rfl

theorem Waiting.not_act (h : Waiting m providerMessageId status row a)
    {act : Choice → Outside → Option (Outside × Control)} :
    (service config).code a.control ≠ .ext act := by
  cases h <;> simp [service, code]

theorem Settled.not_act (h : Settled m providerMessageId status a)
    {act : Choice → Outside → Option (Outside × Control)} :
    (service config).code a.control ≠ .ext act := by
  cases h <;> simp [service, code]

theorem Settled.pending (h : Settled m providerMessageId status a) : a.pending = [] := by
  cases h <;> rfl

theorem Settled.isApplied_of_rest (h : Settled m providerMessageId status a)
    (hrest : a.rest = some (.stmt writes next)) : isApplied a = false := by
  cases h with
  | fresh | repeating => rfl
  | applied message | duplicate message => simp at hrest

theorem Sole.report (h : Sole m providerMessageId s row) (c : Choice) {s' : Database}
    (hs' : s' = view s
      [⟨.put (smsMessage.wrap (reported row status c)), some (smsMessage.wrap row)⟩]) :
    Sole m providerMessageId s' (reported row status c) := by
  have hid : (reported row status c).id = m := Table.idOf_of_find h.found
  subst hs'
  refine ⟨own_message hid s, h.holds, fun m' row' hrow' hholds => ?_⟩
  by_contra hne
  have hother : smsMessage.idOf (reported row status c) ≠ m' := hid.trans_ne (Ne.symm hne)
  rw [view_cons, view_nil, Table.find_put, if_neg hother] at hrow'
  exact hne (h.only m' row' hrow' hholds)

theorem countP_isApplied_set {actors : List ServiceActor} {i : Nat} {a' : ServiceActor}
    (ha : actors[i]? = some a) (hbefore : isApplied a = false) :
    (actors.set i a').countP isApplied =
      actors.countP isApplied + if isApplied a' then 1 else 0 := by
  obtain ⟨hi, rfl⟩ := List.getElem?_eq_some_iff.mp ha
  rw [List.countP_set hi]
  simp [hbefore]

theorem Progress.commit (hreach : Anywhere config w) (hsole : Sole m providerMessageId w.store row)
    (hsent : row.status = .sent)
    (hwaiting : ∀ (i : Nat) a, w.actors[i]? = some a → Waiting m providerMessageId status row a)
    {i : Nat} (hok : ¬Overtakes providerMessageId status w (.commit i))
    (ha : w.actors[i]? = some a) {q : Control} (hrest : a.rest = some (.done q))
    (hpending : a.pending ≠ []) {x : Outside} :
    Progress m providerMessageId status
      ⟨view w.store a.pending, w.actors.set i ((service config).enter q), x⟩ := by
  have hid : row.id = m := Table.idOf_of_find hsole.found
  have happlying := hwaiting i a ha
  have hothers : ∀ (j : Nat) b, i ≠ j → w.actors[j]? = some b →
      Settled m providerMessageId status b := by
    intro j b hij hb
    have hfree : b.pending = [] := by
      obtain hfree | ⟨c, hheld⟩ := (hwaiting j b hb).pending
      · exact hfree
      obtain hnone | ⟨c', hheld'⟩ := happlying.pending
      · exact absurd hnone hpending
      have hlocked := (consistent_of_reaches hreach).locked i j a b ha hb hij
      rw [hheld, hheld'] at hlocked
      have htargets := target_ne_of_conflict
        (hlocked _ (List.mem_singleton_self _) _ (List.mem_singleton_self _))
      exact absurd rfl htargets
    cases hwaiting j b hb with
    | fresh => exact .fresh
    | found => exact absurd ⟨j, i, _, row, hb, hij.symm, rfl, hsent, rfl⟩ hok
    | updated c | applying c message => simp at hfree
  have hnone : w.actors.countP isApplied = 0 := by
    refine List.countP_eq_zero.mpr fun b hb => ?_
    obtain ⟨j, hj⟩ := List.mem_iff_getElem?.mp hb
    simp [(hwaiting j b hj).isApplied]
  cases happlying with
  | fresh | found => exact absurd rfl hpending
  | updated c =>
      have hdone := Option.some.inj hrest
      cases hdone
  | applying c message =>
      obtain rfl := Tx.done.inj (Option.some.inj hrest)
      refine .settled _ (hsole.report c rfl) rfl (fun j b hb => ?_) ?_
      · rcases getElem?_set_eq_some hb with ⟨_, rfl⟩ | ⟨hij, hb⟩
        · exact .applied message
        · exact hothers j b hij hb
      · rw [countP_isApplied_set ha rfl, hnone]
        rfl

/-- What one step of the reports does. -/
theorem Progress.step (hreach : Anywhere config w)
    (h : Progress m providerMessageId status w) (hok : Orderly providerMessageId status w l)
    (hstep : (service config).step w l = some w') : Progress m providerMessageId status w' := by
  cases moves_of_step hstep with
  | spawn q =>
      obtain rfl := eq_report_of_reports hok.1
      rw [enter_report]
      cases h with
      | sent row hsole hsent hwaiting =>
          refine .sent row hsole hsent fun i a ha => ?_
          rcases getElem?_concat_eq_some ha with ha | rfl
          · exact hwaiting i a ha
          · exact .fresh
      | settled row hsole hsame hsettled hcount =>
          refine .settled row hsole hsame (fun i a ha => ?_) ?_
          · rcases getElem?_concat_eq_some ha with ha | rfl
            · exact hsettled i a ha
            · exact .fresh
          · rw [List.countP_append, hcount]
            rfl
  | @statement i c a _ onError writes next ha hcode hrest _ _ =>
      cases h with
      | sent row hsole hsent hwaiting =>
          refine .sent row hsole hsent fun j b hb => ?_
          rcases getElem?_set_eq_some hb with ⟨_, rfl⟩ | ⟨_, hb⟩
          · exact (hwaiting i a ha).settle hsole hsent hrest
          · exact hwaiting j b hb
      | settled row hsole hsame hsettled hcount =>
          have hkept : ∀ a' : ServiceActor, a' = (service config).settle a.control onError
              (next c (view w.store a.pending))
              (a.pending ++ record (view w.store a.pending) (writes c (view w.store a.pending))) →
              Settled m providerMessageId status a' ∧ isApplied a' = false :=
            fun a' ha' => (hsettled i a ha).settle hsole hsame hrest ha'
          obtain ⟨hnext, hnot⟩ := hkept _ rfl
          refine .settled row hsole hsame (fun j b hb => ?_) ?_
          · rcases getElem?_set_eq_some hb with ⟨_, rfl⟩ | ⟨_, hb⟩
            · exact hnext
            · exact hsettled j b hb
          · rw [countP_isApplied_set ha ((hsettled i a ha).isApplied_of_rest hrest), hcount, hnot]
            rfl
  | @act i c a act _ _ ha hcode _ =>
      cases h with
      | sent row _ _ hwaiting => exact absurd hcode (hwaiting i a ha).not_act
      | settled row _ _ hsettled _ => exact absurd hcode (hsettled i a ha).not_act
  | @commit i a _ _ q ha hcode hrest hpending =>
      cases h with
      | sent row hsole hsent hwaiting =>
          exact .commit hreach hsole hsent hwaiting hok.2 ha hrest hpending
      | settled row _ _ hsettled _ => exact absurd (hsettled i a ha).pending hpending
  | lost _ _ _ _ | fault _ _ | crash _ _ | env _ => simp [Orderly, reports] at hok

end Steps

section Runs

variable {config : Config} {m providerMessageId : String} {status : DeliveryTerminalStatus}
  {w : ServiceWorld}

/-- The worlds that concurrent reports for a `SENT` message reach. -/
def Reporting (config : Config) (m providerMessageId : String) (status : DeliveryTerminalStatus) :
    ServiceWorld → Prop :=
  Reachable (fun w l w' => (service config).step w l = some w') (Orderly providerMessageId status)
    fun w => w.actors = [] ∧
      ∃ row, Sole m providerMessageId w.store row ∧ row.status = .sent

theorem anywhere_of_reporting (h : Reporting config m providerMessageId status w) :
    Anywhere config w :=
  Reachable.weaken (fun _ hinit => ⟨hinit.1, trivial⟩) (h.mono fun _ _ _ => trivial)

theorem progress_of_reporting (h : Reporting config m providerMessageId status w) :
    Progress m providerMessageId status w := by
  refine Reachable.invariant (fun w hinit => ?_)
    (fun w l w' hreach hinv hl hstep => hinv.step (anywhere_of_reporting hreach) hl hstep) h
  obtain ⟨hactors, row, hsole, hsent⟩ := hinit
  exact .sent row hsole hsent (by simp [hactors])

/-- Identical reports for a `SENT` message, where none commits while another one has
found the message and not updated it: each one that has returned is acknowledged,
one at most is applied, and once all have returned exactly one is and the message
has the reported status. -/
theorem repeated_reports (h : Reporting config m providerMessageId status w) :
    (∀ endpoints provider, recordDeliveryReport endpoints
        ⟨provider, .str providerMessageId, some (.terminal status)⟩ =
          (applyDeliveryReport ⟨providerMessageId, status⟩).map acknowledge) ∧
    (∀ (i : Nat) q, w.abs.controls[i]? = some q → q = .calling (report providerMessageId status) ∨
      ∃ result, q = .returned (report providerMessageId status) (.report result) ∧
        acknowledge result = .ok .ok) ∧
    w.actors.countP isApplied ≤ 1 ∧
    (w.actors ≠ [] → (∀ (i : Nat) q, w.abs.controls[i]? = some q →
        q ≠ .calling (report providerMessageId status)) →
      w.actors.countP isApplied = 1 ∧
        (smsMessage.find w.store m).map (·.status) = some status.status) := by
  refine ⟨fun _ _ => congrArg (·.map acknowledge) (applyDeliveryReportWhere_eq _ _), ?_⟩
  cases progress_of_reporting h with
  | sent row _ _ hwaiting =>
      have hcalling : ∀ (i : Nat) q, w.abs.controls[i]? = some q →
          q = .calling (report providerMessageId status) := by
        intro i q hq
        obtain ⟨a, ha, rfl⟩ := exists_actor_of_abs hq
        cases hwaiting i a ha <;> rfl
      refine ⟨fun i q hq => Or.inl (hcalling i q hq), ?_, fun hsome hreturned => ?_⟩
      · refine (List.countP_eq_zero.mpr fun a ha => ?_).trans_le (Nat.zero_le 1)
        obtain ⟨i, hi⟩ := List.mem_iff_getElem?.mp ha
        simp [(hwaiting i a hi).isApplied]
      · obtain ⟨a, ha⟩ := List.exists_mem_of_ne_nil _ hsome
        obtain ⟨i, hi⟩ := List.mem_iff_getElem?.mp ha
        exact absurd (hcalling i _ (abs_control hi)) (hreturned i _ (abs_control hi))
  | settled row hsole hsame hsettled hcount =>
      refine ⟨fun i q hq => ?_, hcount.le, fun _ _ => ⟨hcount, ?_⟩⟩
      · obtain ⟨a, ha, rfl⟩ := exists_actor_of_abs hq
        cases hsettled i a ha with
        | fresh | repeating => exact Or.inl rfl
        | applied message | duplicate message => exact Or.inr ⟨_, rfl, rfl⟩
      · rw [hsole.found, ← hsame]
        rfl

end Runs

section Replay

/-- The message `m`, `SENT` with the id `X`. -/
def sent : Database :=
  holding (sentMessage "m" "twilio" "X")

theorem sole_sent : Sole "m" "X" sent (sentMessage "m" "twilio" "X") where
  found := rfl
  holds := rfl
  only m row hrow _ := by
    obtain rfl := eq_of_find_holding hrow
    exact (Table.idOf_of_find hrow).symm

/-- The answer to a report that has returned. -/
def acknowledged? : Control → Option (Except HttpException WebhookAck)
  | .returned _ (.report result) => some (acknowledge result)
  | _ => none

/-- A conflict, which no duplicate is answered with. -/
def isConflict : Except HttpException WebhookAck → Bool
  | .error (.conflict _) => true
  | _ => false

/-- Two reports find the message before either updates it. -/
theorem repeated_reports_conflict :
    Sole "m" "X" sent (sentMessage "m" "twilio" "X") ∧
    (sentMessage "m" "twilio" "X").status = .sent ∧
    ∃ w, Reaches sampleConfig (fun _ l => reports "X" .delivered l) (fun a => a.store = sent) w ∧
      w.actors.length = 2 ∧
      ((w.abs.controls[0]?.bind acknowledged?).any fun answer => !isConflict answer) ∧
      (w.abs.controls[1]?.bind acknowledged?).any isConflict := by
  refine ⟨sole_sent, rfl, exists_reaches_on sampleConfig (fun _ l => reports "X" .delivered l)
    (fun a => a.store = sent) sent rfl
    (.spawn (.calling (report "X" .delivered)) :: .spawn (.calling (report "X" .delivered)) ::
      statements 0 1 (sampleChoice "" 1) ++ statements 1 1 (sampleChoice "" 1) ++
      statements 0 2 (sampleChoice "" 1) ++ .commit 0 :: statements 1 1 (sampleChoice "" 1)) _ ?_⟩
  decide +kernel

/-- Only the first report commits, and no other one is there then. -/
def Singly (a : ServiceSnapshot) (l : ServiceLabel) : Prop :=
  reports "X" .delivered l ∧ ∀ i, l = .commit i → i = 0 ∧ a.controls.length ≤ 1

instance Singly.decidable (a : ServiceSnapshot) : (l : ServiceLabel) → Decidable (Singly a l)
  | .commit i => decidable_of_iff (i = 0 ∧ a.controls.length ≤ 1) (by simp [Singly, reports])
  | .spawn q => decidable_of_iff (reports "X" .delivered (.spawn q)) (by simp [Singly])
  | .run i c => isTrue ⟨rfl, by simp⟩
  | .lost i | .fault i | .crash i | .env c => isFalse (by simp [Singly, reports])

theorem orderly_of_singly {w : ServiceWorld} {l : ServiceLabel} (h : Singly w.abs l) :
    Orderly "X" .delivered w l := by
  refine ⟨h.1, ?_⟩
  rintro ⟨i, j, a, row, ha, hij, rfl, _, _⟩
  obtain ⟨rfl, hlength⟩ := h.2 j rfl
  have hi := (List.getElem?_eq_some_iff.mp (abs_control ha)).1
  omega

/-- The second report comes after the commit of the first one. -/
theorem repeated_reports_duplicate :
    ∃ w, Reporting sampleConfig "m" "X" .delivered w ∧ w.actors.length = 2 ∧
      w.actors.countP isApplied = 1 ∧
      (smsMessage.find w.store "m").map (·.status) = some .delivered := by
  obtain ⟨w, hw, hlength, hreturned⟩ := exists_reaches_on sampleConfig Singly
    (fun a => a.store = sent) sent rfl
    (.spawn (.calling (report "X" .delivered)) :: statements 0 3 (sampleChoice "" 1) ++
      .commit 0 :: .spawn (.calling (report "X" .delivered)) :: statements 1 2 (sampleChoice "" 1))
    (fun w => w.actors.length = 2 ∧ ∀ q ∈ w.abs.controls, (acknowledged? q).isSome)
    (by decide +kernel)
  have hreporting : Reporting sampleConfig "m" "X" .delivered w := by
    refine Reachable.mono (fun _ _ hl => orderly_of_singly hl)
      (Reachable.weaken (fun w hinit => ?_) hw)
    exact ⟨hinit.1, _, (show w.store = sent from hinit.2) ▸ sole_sent, rfl⟩
  refine ⟨w, hreporting, hlength, (repeated_reports hreporting).2.2.2 ?_ fun i q hq => ?_⟩
  · exact List.ne_nil_of_length_pos (by omega)
  · rintro rfl
    simpa [acknowledged?] using hreturned _ (List.mem_of_getElem? hq)

end Replay

end SmsNotification.RepeatedCallbacks

import SmsNotification.ProviderIsolation
import SmsNotification.PurgeTransaction

/-!
The retention purge beside requeues of the messages that it deletes. A purge selects
messages by their status and deletes them by their ids; a requeue that commits before
the purge has looked up the outbox rows goes unnoticed, and one that commits later
leaves a row that refers to the message and fails the purge.
-/

namespace SmsNotification.RetentionRace

open SmsNotification.ActorSystem
open SmsNotification.KeyedStore
open SmsNotification.LabelledRuns
open SmsNotification.LifecycleEffects
open SmsNotification.MessageAggregate
open SmsNotification.ProviderIsolation
open SmsNotification.PurgeTransaction
open SmsNotification.ReadCommitted
open SmsNotification.RetentionService
open SmsNotification.Schema
open SmsNotification.Service
open SmsNotification.ServiceEffects
open SmsNotification.ServiceRuns
open SmsNotification.SmsLifecycleRepository
open SmsNotification.SmsStateMachine
open SmsNotification.Surroundings

/-- The message is in a terminal status, if it is there. -/
def Terminal (s : Database) (m : String) : Prop :=
  ∀ row, smsMessage.find s m = some row → terminalStatuses.contains row.status

/-- What a requeue of `m` does: the message leaves `FATAL_FAILURE`, and a new outbox
row records the intent. -/
structure Requeues (m : String) (s s' : Database) : Prop where
  fatal : ∃ row, smsMessage.find s m = some row ∧ row.status = .fatalFailure
  scheduled : ∃ row, smsMessage.find s' m = some row ∧ row.status = .retryScheduled
  message : ∀ m', m' ≠ m → smsMessage.find s' m' = smsMessage.find s m'
  intent : ∃ event, outboxEvent.find s event.id = none ∧ outboxEvent.find s' event.id = some event ∧
    event.aggregateId = m ∧ event.eventType = "SMS_REQUEUED"
  outbox : ∀ event, outboxEvent.find s event.id = some event →
    outboxEvent.find s' event.id = some event

/-- The uncommitted removals of a purge over the committed rows: the messages are in
a terminal status, and an outbox row goes only with its message. -/
structure Deleting (s : Database) (ps : List (Pending Row.key)) : Prop where
  removes : ∀ p ∈ ps, p.write.after = none
  terminal : ∀ p ∈ ps, ∀ m, p.write.target = .message m → Terminal s m
  outbox : ∀ p ∈ ps, ∀ event, outboxEvent.find s event.id = some event →
    p.write.target = .outbox event.id → smsMessage.find (view s ps) event.aggregateId = none

section Effects

variable {m : String} {s s' : Database} {ps : List (Pending Row.key)}

theorem find_of_mem_outbox {event : OutboxEvent} (h : event ∈ (aggregate s m).outbox) :
    outboxEvent.find s event.id = some event :=
  (mem_outbox_iff.mp h).1

theorem requeues_of_changes (h : Changes m (Requeued m) s s') : Requeues m s s' := by
  obtain ⟨A', ⟨row, now, events', hrow, hsource, ⟨c, _, hfresh, rfl⟩, rfl⟩, hupdate⟩ := h
  have hmessage : ∀ s m, smsMessage.find s m = (aggregate s m).message := fun _ _ => rfl
  have hother : ∀ m', m' ≠ m → aggregate s' m' = aggregate s m' := fun m' hm' => by
    rw [hupdate, Function.update_of_ne hm']
  have hown := congrFun hupdate m
  rw [Function.update_self] at hown
  have hnew : (requeued m).row m c ∈ (aggregate s' m).outbox := by
    rw [hown]
    simp
  have hkept : ∀ event, outboxEvent.find s event.id = some event →
      outboxEvent.find s' event.id = some event := by
    intro event hevent
    have hmem : event ∈ (aggregate s event.aggregateId).outbox := mem_outbox_iff.mpr ⟨hevent, rfl⟩
    by_cases hm : event.aggregateId = m
    · rw [hm] at hmem
      refine find_of_mem_outbox (m := m) ?_
      rw [hown]
      exact List.mem_append_left _ hmem
    · rw [← hother _ hm] at hmem
      exact find_of_mem_outbox hmem
  refine ⟨⟨row, hrow, by simpa using hsource⟩, ⟨_, by rw [hmessage, hown], rfl⟩, fun m' hm' => ?_,
    ⟨(requeued m).row m c, ?_, find_of_mem_outbox hnew, rfl, rfl⟩, hkept⟩
  · rw [hmessage, hmessage, hother m' hm']
  · -- a row under the id would still be there
    cases hold : outboxEvent.find s ((requeued m).row m c).id with
    | none => rfl
    | some event =>
        have hid : event.id = ((requeued m).row m c).id := Table.idOf_of_find hold
        have hfound := hkept event (by rw [hid]; exact hold)
        rw [hid, find_of_mem_outbox hnew] at hfound
        obtain rfl := Option.some.inj hfound
        exact absurd rfl (hfresh _ (mem_outbox_iff.mpr ⟨hold, rfl⟩))

theorem find_view_kept {α : Type} (t : Table α) {id : String}
    (h : ∀ p ∈ ps, p.write.target ≠ t.keyOf id) : t.find (view s ps) id = t.find s id := by
  rw [Table.find, find_view_of_untouched h, Table.find]

theorem find_view (hps : ∀ p ∈ ps, p.write.after = none) {α : Type} (t : Table α) (id : String) :
    t.find (view s ps) id = t.find s id ∨
      (t.find (view s ps) id = none ∧ ∃ p ∈ ps, p.write.target = t.keyOf id) := by
  by_cases htouched : ∃ p ∈ ps, p.write.target = t.keyOf id
  · refine Or.inr ⟨?_, htouched⟩
    rw [Table.find, find_view_of_removed hps htouched]
    rfl
  · exact Or.inl (find_view_kept t fun p hp heq => htouched ⟨p, hp, heq⟩)

theorem Terminal.removed (h : Terminal s m) (hps : ∀ p ∈ ps, p.write.after = none) :
    Terminal (view s ps) m := by
  intro row hrow
  obtain hsame | ⟨hgone, _⟩ := find_view hps smsMessage m (s := s)
  · exact h row (hsame ▸ hrow)
  · rw [hgone] at hrow
    simp at hrow

theorem Deleting.outbox_view (h : Deleting s ps) {event : OutboxEvent}
    (hevent : outboxEvent.find s event.id = some event) :
    outboxEvent.find (view s ps) event.id = some event ∨
      smsMessage.find (view s ps) event.aggregateId = none := by
  obtain hsame | ⟨_, p, hp, htarget⟩ := find_view h.removes outboxEvent event.id (s := s)
  · exact Or.inl (hsame.trans hevent)
  · exact Or.inr (h.outbox p hp event hevent htarget)

end Effects

/-- The row is one of the outbox rows that the purge has looked up. -/
def isFound (found : List OutboxEvent) (event : OutboxEvent) : Bool :=
  found.any fun old => old.id = event.id && old.aggregateId = event.aggregateId

/-- The removals of the outbox rows that the purge has looked up and that are there. -/
def outboxRemovals (found : List OutboxEvent) (s : Database) : List (Write Row.key) :=
  ((found.map fun event => RowKey.outbox event.id).filter fun k =>
    (s.find k).any fun row => (outboxEvent.unwrap row).any (isFound found)).map .delete

/-- The purge once it has looked up the outbox rows. -/
def fromFound (found : List OutboxEvent) (ids : List String) : Sql Control :=
  .stmt (fun _ s => outboxRemovals found s) fun _ _ => fromMessages ids

theorem fromOutbox_eq (ids : List String) :
    fromOutbox ids = .stmt (fun _ _ => []) fun _ s =>
      fromFound (outboxEvent.rows s fun event => ids.contains event.aggregateId) ids :=
  rfl

/-- The selected message is in a terminal status, or an outbox row that the purge
does not remove refers to it. -/
def Guarded (s : Database) (kept : OutboxEvent → Prop) (m : String) : Prop :=
  Terminal s m ∨
    ∃ event, outboxEvent.find s event.id = some event ∧ event.aggregateId = m ∧ kept event

/-- How far a purge has come. -/
inductive Phase (s : Database) : ServiceActor → Prop where
  | selecting (now : Int) (batchSize : Nat) : Phase s
      ⟨.purging now batchSize, some ((purgeExpired now batchSize).map .purged), []⟩
  | selected (now : Int) (batchSize : Nat) {ids : List String} {rest : Sql Control}
      {ps : List (Pending Row.key)} :
      Until (RemovesFrom attemptTables) (fromOutbox ids) rest →
      (∀ p ∈ ps, RemovesFrom attemptTables p.write) → (∀ m ∈ ids, Terminal s m) →
      Phase s ⟨.purging now batchSize, some rest, ps⟩
  | found (now : Int) (batchSize : Nat) {ids : List String} {found : List OutboxEvent}
      {ps : List (Pending Row.key)} :
      (∀ p ∈ ps, RemovesFrom attemptTables p.write) →
      (∀ event ∈ found, event.aggregateId ∈ ids ∧ (outboxEvent.find s event.id = some event ∨
        smsMessage.find s event.aggregateId = none)) →
      (∀ m ∈ ids, Guarded s (isFound found · = false) m) →
      Phase s ⟨.purging now batchSize, some (fromFound found ids), ps⟩
  | cleared (now : Int) (batchSize : Nat) {ids : List String} {ps : List (Pending Row.key)} :
      (∀ p ∈ ps, RemovesFrom childTables p.write) →
      (∀ p ∈ ps, ∀ event, outboxEvent.find s event.id = some event →
        p.write.target = .outbox event.id → event.aggregateId ∈ ids) →
      (∀ m ∈ ids, Guarded s (fun event => ∀ p ∈ ps, p.write.target ≠ .outbox event.id) m) →
      Phase s ⟨.purging now batchSize, some (fromMessages ids), ps⟩
  | deleting (now : Int) (batchSize : Nat) {q : Control} {ps : List (Pending Row.key)} :
      Deleting s ps → Phase s ⟨.purging now batchSize, some (.done q), ps⟩

section Phases

variable {config : Config} {s s' : Database} {a : ServiceActor} {ids : List String}
  {ps : List (Pending Row.key)} {found : List OutboxEvent}

theorem mem_outboxRemovals {w : Write Row.key} (h : w ∈ outboxRemovals found s) :
    ∃ event, outboxEvent.find s event.id = some event ∧ isFound found event ∧
      w = .delete (.outbox event.id) := by
  obtain ⟨k, hk, rfl⟩ := List.mem_map.mp h
  obtain ⟨hk, hany⟩ := List.mem_filter.mp hk
  obtain ⟨old, _, rfl⟩ := List.mem_map.mp hk
  obtain ⟨row, hrow, hfound⟩ := (Option.any_eq_true _ _).mp hany
  obtain ⟨event, hevent, hfound⟩ := (Option.any_eq_true _ _).mp hfound
  obtain rfl := (outboxEvent.unwrap_eq_some_iff _ _).mp hevent
  have hfind : outboxEvent.find s old.id = some event := Table.find_eq_some_iff.mpr hrow
  have hid : event.id = old.id := Table.idOf_of_find hfind
  rw [← hid] at hfind ⊢
  exact ⟨event, hfind, hfound, rfl⟩

theorem removesFrom_outboxRemovals {w : Write Row.key} (h : w ∈ outboxRemovals found s) :
    RemovesFrom childTables w := by
  obtain ⟨event, _, _, rfl⟩ := mem_outboxRemovals h
  exact ⟨rfl, by simp [Write.target, RowKey.table]⟩

theorem removesFrom_children {w : Write Row.key} (h : RemovesFrom attemptTables w) :
    RemovesFrom childTables w :=
  ⟨h.1, by have := h.2; simp at this ⊢; tauto⟩

theorem find_view_other {tables : List TableName} (hps : ∀ p ∈ ps, RemovesFrom tables p.write)
    {α : Type} (t : Table α) (ht : t.name ∉ tables) (id : String) :
    t.find (view s ps) id = t.find s id := by
  rw [Table.find, find_view_of_removesFrom hps (by rw [t.table_keyOf]; exact ht), Table.find]

theorem deleting_of_removals (hps : ∀ p ∈ ps, RemovesFrom childTables p.write)
    (houtbox : ∀ p ∈ ps, ∀ event, outboxEvent.find s event.id = some event →
      p.write.target = .outbox event.id → event.aggregateId ∈ ids)
    (hids : ∀ m ∈ ids, Guarded s (fun event => ∀ p ∈ ps, p.write.target ≠ .outbox event.id) m)
    (hunreferenced : (present (view s ps) ids).any (isReferenced (view s ps)) = false) :
    Deleting s (ps ++ record (view s ps) (removals ids (view s ps))) := by
  have hmessage : ∀ m, smsMessage.find (view s ps) m = smsMessage.find s m :=
    find_view_other hps smsMessage (by decide)
  have hremoves : ∀ p ∈ ps ++ record (view s ps) (removals ids (view s ps)),
      p.write.after = none := by
    intro p hp
    rcases List.mem_append.mp hp with hp | hp
    · exact (hps p hp).1
    · exact after_of_mem_removals (write_mem_of_record hp)
  refine ⟨hremoves, fun p hp m htarget => ?_, fun p hp event hevent htarget => ?_⟩
  · rcases List.mem_append.mp hp with hp | hp
    · have htable := (hps p hp).2
      rw [htarget] at htable
      simp [RowKey.table] at htable
    · obtain ⟨id, hid, hwrite⟩ | ⟨owner, _, _, hwrite⟩ := mem_removals.mp (write_mem_of_record hp)
      · obtain rfl : id = m := by simpa [hwrite, Write.target] using htarget
        obtain hterminal | ⟨event, hevent, hrefers, hkept⟩ := hids id (mem_present.mp hid).1
        · exact hterminal
        · -- the outbox row that is left fails the statement
          have hleft : outboxEvent.find (view s ps) event.id = some event :=
            (find_view_kept outboxEvent hkept).trans hevent
          have hrow : event ∈ outboxEvent.rows (view s ps) fun row => row.aggregateId = id :=
            Table.mem_rows_iff.mpr ⟨hleft, by simp [hrefers]⟩
          have hnot := List.any_eq_false.mp hunreferenced id hid
          simp [isReferenced, List.ne_nil_of_mem hrow] at hnot
      · simp [hwrite, Write.target] at htarget
  · rcases List.mem_append.mp hp with hp | hp
    · have hmem := houtbox p hp event hevent htarget
      by_contra hsome
      have hthere : (smsMessage.find (view s ps) event.aggregateId).isSome := by
        obtain hsame | ⟨hgone, _⟩ := find_view hremoves smsMessage event.aggregateId (s := s)
        · rw [hmessage, ← hsame]
          exact Option.isSome_iff_ne_none.mpr hsome
        · exact absurd hgone hsome
      have hremoval : Write.delete (.message event.aggregateId) ∈ removals ids (view s ps) :=
        mem_removals.mpr (Or.inl ⟨_, mem_present.mpr ⟨hmem, hthere⟩, rfl⟩)
      obtain ⟨p', hp', hwrite⟩ := exists_mem_record (view s ps) hremoval
      refine hsome ?_
      rw [Table.find, find_view_of_removed hremoves ⟨p', List.mem_append_right _ hp', ?_⟩]
      · rfl
      · rw [hwrite]
        rfl
    · obtain ⟨id, _, hwrite⟩ | ⟨owner, _, _, hwrite⟩ := mem_removals.mp (write_mem_of_record hp)
      · simp [hwrite, Write.target] at htarget
      · simp [hwrite, Write.target] at htarget

theorem Phase.settle (h : Phase s a) {c : Choice}
    {writes : Choice → Database → List (Write Row.key)} {next : Choice → Database → Sql Control}
    (hrest : a.rest = some (.stmt writes next)) {a' : ServiceActor}
    (ha' : a' = (service config).settle a.control (fun _ => .purgeFailed)
      (next c (view s a.pending))
      (a.pending ++ record (view s a.pending) (writes c (view s a.pending)))) :
    (∃ q, a' = (service config).enter q ∧ ∀ now batchSize, q ≠ .purging now batchSize) ∨
      Phase s a' := by
  cases h with
  | selecting now batchSize =>
      obtain hended | hselected := settle_of_selection (Option.some.inj hrest) ha'
      · exact Or.inl ⟨.purged 0, hended, by simp⟩
      · have huntil := until_fromOutbox (selection now batchSize c s)
        obtain ⟨_, herror⟩ | hgoes := settle_of_until huntil ⟨_, _, fromOutbox_eq _⟩ hselected
        · exact Or.inl ⟨.purgeFailed, herror, by simp⟩
        · refine Or.inr (hgoes ▸ .selected now batchSize huntil (by simp) fun m hm row' hrow' => ?_)
          obtain ⟨row, hrow, _, hterminal⟩ := of_mem_selection hm
          rw [hrow] at hrow'
          exact Option.some.inj hrow' ▸ hterminal
  | @selected now batchSize ids rest ps huntil hps hids =>
      obtain rfl := Option.some.inj hrest
      obtain hlast | ⟨hwrites, hnext⟩ := huntil.stmt_cases
      · rw [fromOutbox_eq] at hlast
        obtain ⟨rfl, rfl⟩ := Tx.stmt.inj hlast
        change a' = ⟨.purging now batchSize, some (fromFound _ ids), ps ++ []⟩ at ha'
        rw [List.append_nil] at ha'
        refine Or.inr (ha' ▸ .found now batchSize hps (fun event hevent => ?_) fun m hm =>
          Or.inl (hids m hm))
        obtain ⟨hfind, hmem⟩ := Table.mem_rows_iff.mp hevent
        rw [find_view_other hps outboxEvent (by decide)] at hfind
        exact ⟨by simpa using hmem, Or.inl hfind⟩
      · obtain ⟨_, herror⟩ | hgoes := settle_of_until (hnext _ _) ⟨_, _, fromOutbox_eq _⟩ ha'
        · exact Or.inl ⟨.purgeFailed, herror, by simp⟩
        · exact Or.inr (hgoes ▸ .selected now batchSize (hnext _ _)
          (removesFrom_append hps (hwrites _ _)) hids)
  | @found now batchSize ids found ps hps hfound hids =>
      obtain ⟨rfl, rfl⟩ := Tx.stmt.inj (Option.some.inj hrest)
      change a' = ⟨.purging now batchSize, some (fromMessages ids), _⟩ at ha'
      have hview : ∀ id, outboxEvent.find (view s ps) id = outboxEvent.find s id :=
        find_view_other hps outboxEvent (by decide)
      have htarget : ∀ p ∈ ps ++ record (view s ps) (outboxRemovals found (view s ps)), ∀ event,
          outboxEvent.find s event.id = some event → p.write.target = .outbox event.id →
          isFound found event := by
        intro p hp event hevent htarget
        rcases List.mem_append.mp hp with hp | hp
        · have htable := (hps p hp).2
          rw [htarget] at htable
          simp [RowKey.table] at htable
        · obtain ⟨removed, hremoved, hmatch, hwrite⟩ := mem_outboxRemovals (write_mem_of_record hp)
          obtain hid : removed.id = event.id := by simpa [hwrite, Write.target] using htarget
          rw [hview, hid, hevent] at hremoved
          exact Option.some.inj hremoved ▸ hmatch
      refine Or.inr (ha' ▸ .cleared now batchSize (removesFrom_append
        (fun p hp => removesFrom_children (hps p hp)) fun w => removesFrom_outboxRemovals) ?_ ?_)
      · intro p hp event hevent hwrite
        obtain ⟨old, hold, hmatch⟩ := List.any_eq_true.mp (htarget p hp event hevent hwrite)
        simp only [Bool.and_eq_true, decide_eq_true_eq] at hmatch
        exact hmatch.2 ▸ (hfound old hold).1
      · intro m hm
        refine (hids m hm).imp_right ?_
        rintro ⟨event, hevent, hmessage, hkept⟩
        refine ⟨event, hevent, hmessage, fun p hp hwrite => ?_⟩
        rw [htarget p hp event hevent hwrite] at hkept
        simp at hkept
  | @cleared now batchSize ids ps hps houtbox hids =>
      obtain ⟨q, hended, hq⟩ | ⟨hunreferenced, q, hremoved⟩ :=
        settle_of_removals (Option.some.inj hrest) ha'
      · exact Or.inl ⟨q, hended, by rintro now batchSize rfl; cases hq⟩
      · exact Or.inr (hremoved ▸ .deleting now batchSize
          (deleting_of_removals hps houtbox hids hunreferenced))
  | deleting now batchSize h => simp at hrest

theorem Phase.deleting_of_done (h : Phase s a) {q : Control} (hrest : a.rest = some (.done q)) :
    Deleting s a.pending := by
  cases h with
  | selecting now batchSize => simp [purge_eq] at hrest
  | @selected now batchSize ids rest ps huntil _ _ =>
      obtain rfl := Option.some.inj hrest
      generalize hdone : Tx.done q = rest at huntil
      cases huntil with
      | last => simp [fromOutbox_eq] at hdone
      | abort _ => cases hdone
      | stmt _ _ => cases hdone
  | found now batchSize _ _ _ => simp [fromFound] at hrest
  | cleared now batchSize _ _ _ => simp [fromMessages_eq] at hrest
  | deleting now batchSize hdeleting => exact hdeleting

theorem Guarded.purged {kept : OutboxEvent → Prop} {m : String} (h : Guarded s kept m)
    (hdeleting : Deleting s ps) : Guarded (view s ps) kept m := by
  rcases h with hterminal | ⟨event, hevent, rfl, hkept⟩
  · exact Or.inl (hterminal.removed hdeleting.removes)
  · obtain hleft | hgone := hdeleting.outbox_view hevent
    · exact Or.inr ⟨event, hleft, rfl, hkept⟩
    · exact Or.inl fun row hrow => by simp [hgone] at hrow

theorem find_of_kept {α : Type} {t : Table α} {id : String} {p : Pending Row.key}
    (hkept : s'.find p.write.target = s.find p.write.target)
    (htarget : p.write.target = t.keyOf id) :
    t.find s' id = t.find s id := by
  rw [Table.find, Table.find, ← htarget, hkept]

theorem find_none_of_view {m : String} (hps : ∀ p ∈ ps, p.write.after = none)
    (h : smsMessage.find (view s ps) m = none)
    (hgone : smsMessage.find s m = none → smsMessage.find s' m = none) :
    smsMessage.find (view s' ps) m = none := by
  obtain hsame | ⟨hnone, _⟩ := find_view hps smsMessage m (s := s')
  · obtain hsame' | ⟨_, p, hp, htarget⟩ := find_view hps smsMessage m (s := s)
    · exact hsame.trans (hgone (hsame'.symm.trans h))
    · rw [Table.find, find_view_of_removed hps ⟨p, hp, htarget⟩]
      rfl
  · exact hnone

theorem find_none_of_purged {m : String} (hdeleting : Deleting s ps)
    (h : smsMessage.find s m = none) : smsMessage.find (view s ps) m = none := by
  obtain hsame | ⟨hgone, _⟩ := find_view hdeleting.removes smsMessage m (s := s)
  · exact hsame.trans h
  · exact hgone

theorem Phase.purged (h : Phase s a) {qs : List (Pending Row.key)} (hdeleting : Deleting s qs)
    (hkept : ∀ p ∈ a.pending, (view s qs).find p.write.target = s.find p.write.target) :
    Phase (view s qs) a := by
  cases h with
  | selecting now batchSize => exact .selecting now batchSize
  | selected now batchSize huntil hps hids =>
      exact .selected now batchSize huntil hps fun m hm => (hids m hm).removed hdeleting.removes
  | found now batchSize hps hfound hids =>
      refine .found now batchSize hps (fun event hevent => ⟨(hfound event hevent).1, ?_⟩)
        fun m hm => (hids m hm).purged hdeleting
      obtain hthere | hgone := (hfound event hevent).2
      · exact hdeleting.outbox_view hthere
      · exact Or.inr (find_none_of_purged hdeleting hgone)
  | cleared now batchSize hps houtbox hids =>
      refine .cleared now batchSize hps (fun p hp event hevent htarget => ?_)
        fun m hm => (hids m hm).purged hdeleting
      exact houtbox p hp event ((find_of_kept (hkept p hp) htarget).symm.trans hevent) htarget
  | deleting now batchSize h =>
      refine .deleting now batchSize ⟨h.removes, fun p hp m htarget => ?_,
        fun p hp event hevent htarget => ?_⟩
      · exact (h.terminal p hp m htarget).removed hdeleting.removes
      · have hbefore := (find_of_kept (hkept p hp) htarget).symm.trans hevent
        exact find_none_of_view h.removes (h.outbox p hp event hbefore htarget)
          (find_none_of_purged hdeleting)

theorem Guarded.requeued {kept : OutboxEvent → Prop} {m m' : String} (h : Guarded s kept m')
    (hrequeues : Requeues m s s')
    (hnew : ∀ event, outboxEvent.find s event.id = none →
      outboxEvent.find s' event.id = some event → event.aggregateId = m → kept event) :
    Guarded s' kept m' := by
  by_cases hm : m' = m
  · obtain ⟨event, hbefore, hafter, hmessage, _⟩ := hrequeues.intent
    exact Or.inr ⟨event, hafter, hmessage.trans hm.symm, hnew event hbefore hafter hmessage⟩
  · refine h.imp (fun hterminal row hrow => ?_) ?_
    · exact hterminal row (hrequeues.message m' hm ▸ hrow)
    · rintro ⟨event, hevent, hmessage, hkept⟩
      exact ⟨event, hrequeues.outbox event hevent, hmessage, hkept⟩

theorem find_none_of_requeued {m m' : String} (hrequeues : Requeues m s s')
    (h : smsMessage.find s m' = none) : smsMessage.find s' m' = none := by
  by_cases hm : m' = m
  · obtain ⟨row, hrow, _⟩ := hrequeues.fatal
    rw [hm, hrow] at h
    simp at h
  · exact (hrequeues.message m' hm).trans h

theorem Phase.requeued {m : String} (h : Phase s a) (hrequeues : Requeues m s s')
    (hkept : ∀ p ∈ a.pending, s'.find p.write.target = s.find p.write.target)
    (hnoticed : ∀ ids, Selected attemptTables (fromOutbox ids) a → m ∉ ids) : Phase s' a := by
  cases h with
  | selecting now batchSize => exact .selecting now batchSize
  | @selected now batchSize ids rest ps huntil hps hids =>
      refine .selected now batchSize huntil hps fun m' hm' row hrow => hids m' hm' row ?_
      have hne : m' ≠ m := fun heq =>
        hnoticed ids ⟨now, batchSize, rest, rfl, rfl, huntil⟩ (heq ▸ hm')
      rwa [hrequeues.message m' hne] at hrow
  | @found now batchSize ids found ps hps hfound hids =>
      refine .found now batchSize hps (fun event hevent => ?_) fun m' hm' =>
        (hids m' hm').requeued hrequeues fun event hbefore _ hmessage => ?_
      · exact (hfound event hevent).imp_right fun h =>
          h.imp (hrequeues.outbox event) (find_none_of_requeued hrequeues)
      · -- the rows that have been looked up are there, or their messages have gone
        rw [isFound, List.any_eq_false]
        intro old hold hmatch
        simp only [Bool.and_eq_true, decide_eq_true_eq] at hmatch
        obtain hthere | hgone := (hfound old hold).2
        · rw [hmatch.1, hbefore] at hthere
          simp at hthere
        · obtain ⟨row, hrow, _⟩ := hrequeues.fatal
          rw [hmatch.2, hmessage, hrow] at hgone
          simp at hgone
  | @cleared now batchSize ids ps hps houtbox hids =>
      refine .cleared now batchSize hps (fun p hp event hevent htarget => ?_) fun m' hm' =>
        (hids m' hm').requeued hrequeues fun event hbefore hafter _ p hp htarget => ?_
      · exact houtbox p hp event ((find_of_kept (hkept p hp) htarget).symm.trans hevent) htarget
      · have hsame := find_of_kept (t := outboxEvent) (hkept p hp) htarget
        rw [hbefore, hafter] at hsame
        simp at hsame
  | deleting now batchSize h =>
      refine .deleting now batchSize ⟨h.removes, fun p hp m' htarget row hrow => ?_,
        fun p hp event hevent htarget => ?_⟩
      · have hsame := find_of_kept (t := smsMessage) (hkept p hp) htarget
        exact h.terminal p hp m' htarget row (hsame ▸ hrow)
      · have hbefore := (find_of_kept (hkept p hp) htarget).symm.trans hevent
        exact find_none_of_view h.removes (h.outbox p hp event hbefore htarget)
          (find_none_of_requeued hrequeues)

end Phases

/-- The control states of purges and requeues. -/
def Housekeeping : Control → Prop
  | .calling (.resetForRequeue _) => True
  | .returned (.resetForRequeue _) _ => True
  | .rejected (.resetForRequeue _) _ => True
  | .purging _ _ => True
  | .purged _ => True
  | .purgeFailed => True
  | .crashed => True
  | _ => False

/-- A purge or a requeue that starts. -/
def starts : Control → Bool
  | .calling (.resetForRequeue _) => true
  | .purging _ _ => true
  | _ => false

/-- What the transaction of a requeue does; nothing is said of the purge. -/
def housekeepingSpec (q : Control) (s : Database) (r : Except Failure Control) (s' : Database) :
    Prop :=
  (∀ q', r = .ok q' → Housekeeping q') ∧
    match q with
    | .calling (.resetForRequeue m) =>
        Maps (.returned (.resetForRequeue m)) (Maps .requeue (resetForRequeueSpec m)) s r s'
    | _ => ∀ q', r = .ok q' → ∀ op answer, q' ≠ .returned op answer

section Controls

variable {config : Config} {q q' : Control} {t : Sql Control} {onError : Failure → Control}

theorem housekeeping_of_starts (h : starts q) : Housekeeping q := by
  cases q with
  | calling op => cases op <;> trivial
  | purging now batchSize => trivial
  | _ => simp [starts] at h

theorem transaction_of_housekeeping (hq : Housekeeping q) (hcode : code config q = .tx t onError) :
    (∃ m, q = .calling (.resetForRequeue m)) ∨ ∃ now batchSize, q = .purging now batchSize := by
  cases q with
  | calling op => cases op <;> first | exact Or.inl ⟨_, rfl⟩ | exact hq.elim
  | purging now batchSize => exact Or.inr ⟨now, batchSize, rfl⟩
  | returned _ _ | rejected _ _ | purged _ | purgeFailed | crashed => simp [code] at hcode
  | _ => exact hq.elim

theorem not_act_of_housekeeping (hq : Housekeeping q)
    {act : Choice → Outside → Option (Outside × Control)} : code config q ≠ .ext act := by
  cases q with
  | calling _ | purging _ _ => simp [code]
  | returned _ _ | rejected _ _ | purged _ | purgeFailed | crashed => simp [code]
  | _ => exact hq.elim

theorem takesEffect_housekeeping (hq : Housekeeping q) (hcode : code config q = .tx t onError)
    (s : Database) :
    TakesEffect Choice.supplied (fun _ _ => True) (housekeepingSpec q) t s [] := by
  obtain ⟨m, rfl⟩ | ⟨now, batchSize, rfl⟩ := transaction_of_housekeeping hq hcode
  · obtain ⟨rfl, _⟩ := Code.tx.inj hcode
    exact (CommitsAs.values fun _ => trivial).answers.and
      (((takesEffect_resetForRequeue m).map _).map _)
  · obtain ⟨rfl, _⟩ := Code.tx.inj hcode
    exact (CommitsAs.values fun _ => trivial).answers.and
      (CommitsAs.values fun _ => by simp).answers

theorem sound_housekeeping (config : Config) :
    Sound (service config) Housekeeping (fun _ _ => True) housekeepingSpec where
  refl _ := trivial
  trans _ _ _ _ _ := trivial
  guarantee _ _ _ _ _ _ := trivial
  takesEffect _ _ _ hq hcode s := takesEffect_housekeeping hq hcode s
  live_ok _ _ _ _ q' _ _ _ h := h.1 q' rfl
  live_error _ _ _ e hq hcode := by
    obtain ⟨m, rfl⟩ | ⟨now, batchSize, rfl⟩ := transaction_of_housekeeping hq hcode
    · obtain ⟨_, rfl⟩ := Code.tx.inj hcode
      trivial
    · obtain ⟨_, rfl⟩ := Code.tx.inj hcode
      trivial
  live_act _ _ _ _ _ _ hq hcode _ := absurd hcode (not_act_of_housekeeping hq)
  live_crashed q hq := by cases q <;> trivial

end Controls

/-- A requeue of a message commits while a purge has selected the message and has not
looked up the outbox rows. -/
def Unnoticed (w : ServiceWorld) (l : ServiceLabel) : Prop :=
  ∃ (i j : Nat) (a b : ServiceActor) (ids : List String) (m : String),
    w.actors[i]? = some a ∧ w.actors[j]? = some b ∧ (l = .commit j ∨ l = .lost j) ∧
      b.control = .calling (.resetForRequeue m) ∧
      Selected attemptTables (fromOutbox ids) a ∧ m ∈ ids

/-- A step of purges and requeues in which no requeue goes unnoticed. -/
def Noticed (w : ServiceWorld) (l : ServiceLabel) : Prop :=
  (∀ q, l = .spawn q → starts q) ∧ ¬Unnoticed w l

/-- The worlds that purges and requeues reach from any database. -/
def Housekept (config : Config) : ServiceWorld → Prop :=
  Reachable (fun w l w' => (service config).step w l = some w') Noticed fun w => w.actors = []

/-- The message has been requeued, and nothing has come after. -/
def IsRequeued (s : Database) (m : String) : Prop :=
  (∃ row, smsMessage.find s m = some row ∧ row.status = .retryScheduled) ∧
    ∃ event, outboxEvent.find s event.id = some event ∧ event.aggregateId = m ∧
      event.eventType = "SMS_REQUEUED"

/-- The invariant of purges and requeues. -/
structure Kept (w : ServiceWorld) : Prop where
  phases : ∀ (i : Nat) a now batchSize, w.actors[i]? = some a →
    a.control = .purging now batchSize → Phase w.store a
  requeued : ∀ (i : Nat) m message, w.abs.controls[i]? =
    some (.returned (.resetForRequeue m) (.requeue (.requeued message))) → IsRequeued w.store m

section Steps

variable {config : Config} {w w' : ServiceWorld} {l : ServiceLabel} {m : String} {s s' : Database}
  {ps : List (Pending Row.key)}

abbrev Housed (config : Config) (w : ServiceWorld) : Prop :=
  Consistent (service config) Housekeeping (fun _ _ => True) housekeepingSpec w

theorem requeues_of_spec {result : ResetForRequeueResult} {message : LifecycleSmsMessage}
    (h : resetForRequeueSpec m s (.ok result) s') (hresult : result = .requeued message) :
    Requeues m s s' := by
  subst hresult
  exact requeues_of_changes h.1

theorem IsRequeued.purged (h : IsRequeued s m) (hdeleting : Deleting s ps) :
    IsRequeued (view s ps) m := by
  obtain ⟨⟨row, hrow, hstatus⟩, event, hevent, rfl, htype⟩ := h
  have hfound : smsMessage.find (view s ps) event.aggregateId = some row := by
    obtain hsame | ⟨_, p, hp, htarget⟩ :=
      find_view hdeleting.removes smsMessage event.aggregateId (s := s)
    · exact hsame.trans hrow
    · have hterminal := hdeleting.terminal p hp event.aggregateId htarget row hrow
      rw [hstatus] at hterminal
      exact absurd hterminal (by decide)
  refine ⟨⟨row, hfound, hstatus⟩, event, ?_, rfl, htype⟩
  obtain hleft | hgone := hdeleting.outbox_view hevent
  · exact hleft
  · rw [hfound] at hgone
    simp at hgone

theorem IsRequeued.requeued {m' : String} (h : IsRequeued s m) (hrequeues : Requeues m' s s') :
    IsRequeued s' m := by
  obtain ⟨⟨row, hrow, hstatus⟩, event, hevent, rfl, htype⟩ := h
  refine ⟨⟨row, ?_, hstatus⟩, event, hrequeues.outbox event hevent, rfl, htype⟩
  rw [hrequeues.message _ ?_, hrow]
  intro heq
  obtain ⟨row', hrow', hfatal⟩ := hrequeues.fatal
  rw [← heq, hrow] at hrow'
  rw [Option.some.inj hrow', hfatal] at hstatus
  simp at hstatus

theorem isRequeued_of_requeues (h : Requeues m s s') : IsRequeued s' m := by
  obtain ⟨event, _, hevent, hmessage, htype⟩ := h.intent
  exact ⟨h.scheduled, event, hevent, hmessage, htype⟩

theorem effect_of_commit (hhoused : Housed config w) (h : Kept w) {i : Nat} {a : ServiceActor}
    {t : Sql Control} {onError : Failure → Control} {q : Control} (ha : w.actors[i]? = some a)
    (hcode : code config a.control = .tx t onError) (hrest : a.rest = some (.done q))
    (hpending : a.pending ≠ []) :
    (∃ m, a.control = .calling (.resetForRequeue m) ∧
      Requeues m w.store (view w.store a.pending)) ∨
    view w.store a.pending = w.store ∨ Deleting w.store a.pending := by
  have hspec := (spec_of_commit hhoused ha hcode hrest hpending).2
  obtain ⟨m, hcontrol⟩ | ⟨now, batchSize, hcontrol⟩ :=
    transaction_of_housekeeping (hhoused.live i a ha) hcode
  · rw [hcontrol] at hspec
    obtain ⟨answer, _, result, _, hspec⟩ := hspec
    cases result with
    | requeued message => exact Or.inl ⟨m, hcontrol, requeues_of_spec hspec rfl⟩
    | notFound | notFatal status => exact Or.inr (Or.inl hspec)
  · exact Or.inr (Or.inr ((h.phases i a now batchSize ha hcontrol).deleting_of_done hrest))

theorem requeued_of_step {a a' : ServiceSnapshot} (hlive : ∀ (i : Nat) q, a.controls[i]? = some q →
      Housekeeping q) (hspawn : ∀ q, l = .spawn q → starts q)
    (hstep : Atomic (service config) housekeepingSpec a l a') {i : Nat}
    {message : LifecycleSmsMessage} (hi : a'.controls[i]? =
      some (.returned (.resetForRequeue m) (.requeue (.requeued message)))) :
    a.controls[i]? = some (.returned (.resetForRequeue m) (.requeue (.requeued message))) ∨
      Requeues m a.store a'.store := by
  have hset : ∀ {j : Nat} {q' : Control}, (a.controls.set j q')[i]? =
        some (.returned (.resetForRequeue m) (.requeue (.requeued message))) →
      a.controls[i]? = some (.returned (.resetForRequeue m) (.requeue (.requeued message))) ∨
        q' = .returned (.resetForRequeue m) (.requeue (.requeued message)) := by
    intro j q' hset
    rcases getElem?_set_eq_some hset with ⟨_, hq'⟩ | ⟨_, hset⟩
    · exact Or.inr hq'.symm
    · exact Or.inl hset
  have hok : ∀ {j : Nat} {q : Control} {t : Sql Control} {onError : Failure → Control}
      {s' : Database}, a.controls[j]? = some q → code config q = .tx t onError →
      housekeepingSpec q a.store
        (.ok (.returned (.resetForRequeue m) (.requeue (.requeued message)))) s' →
      Requeues m a.store s' := by
    intro j q t onError s' hq hcode hspec
    obtain ⟨m', rfl⟩ | ⟨now, batchSize, rfl⟩ :=
      transaction_of_housekeeping (hlive j q hq) hcode
    · obtain ⟨answer, hanswer, result, hresult, hspec⟩ := hspec.2
      obtain ⟨hm, rfl⟩ := Control.returned.inj hanswer
      obtain rfl := Operation.resetForRequeue.inj hm
      exact requeues_of_spec hspec (Answer.requeue.inj hresult).symm
    · exact absurd rfl (hspec.2 _ rfl _ _)
  have herror : ∀ {j : Nat} {q : Control} {t : Sql Control} {onError : Failure → Control}
      (e : Failure), a.controls[j]? = some q → code config q = .tx t onError →
      onError e ≠ .returned (.resetForRequeue m) (.requeue (.requeued message)) := by
    intro j q t onError e hq hcode
    exact not_returned_of_error hcode e _ _
  cases hstep with
  | spawn q =>
      rcases getElem?_concat_eq_some hi with hi | rfl
      · exact Or.inl hi
      · simpa [starts] using hspawn _ rfl
  | answer hq hcode hspec | commit hq hcode hspec =>
      obtain hsame | rfl := hset hi
      · exact Or.inl hsame
      · exact Or.inr (hok hq hcode hspec)
  | error hq hcode _ | lost hq hcode _ | fault hq hcode =>
      exact Or.inl ((hset hi).resolve_right (herror _ hq hcode))
  | act hq hcode _ => exact absurd hcode (not_act_of_housekeeping (hlive _ _ hq))
  | @crash j q hq _ =>
      refine Or.inl ((hset hi).resolve_right ?_)
      cases q <;> simp [service, crash]
  | env _ => exact Or.inl hi

theorem phase_of_enter {q : Control} {now : Int} {batchSize : Nat} (s : Database)
    (h : ((service config).enter q).control = .purging now batchSize) :
    Phase s ((service config).enter q) := by
  rw [enter_control] at h
  subst h
  exact .selecting now batchSize

theorem Kept.phase_commit (hhoused : Housed config w) (h : Kept w) {i : Nat}
    (hl : l = .commit i ∨ l = .lost i) (hok : Noticed w l) {a : ServiceActor}
    {t : Sql Control} {onError : Failure → Control} {q q' : Control} (ha : w.actors[i]? = some a)
    (hcode : code config a.control = .tx t onError) (hrest : a.rest = some (.done q))
    (hpending : a.pending ≠ []) {j : Nat} {b : ServiceActor} {now : Int} {batchSize : Nat}
    (hb : (w.actors.set i ((service config).enter q'))[j]? = some b)
    (hcontrol : b.control = .purging now batchSize) : Phase (view w.store a.pending) b := by
  rcases getElem?_set_eq_some hb with ⟨_, rfl⟩ | ⟨hij, hb⟩
  · exact phase_of_enter _ hcontrol
  have hphase := h.phases j b now batchSize hb hcontrol
  have hkept : ∀ p ∈ b.pending,
      (view w.store a.pending).find p.write.target = w.store.find p.write.target := by
    intro p hp
    refine find_view_of_untouched fun p' hp' => ?_
    exact target_ne_of_conflict (hhoused.locked i j a b ha hb hij p' hp' p hp)
  obtain ⟨m, hrequeue, hrequeues⟩ | hsame | hdeleting :=
    effect_of_commit hhoused h ha hcode hrest hpending
  · exact hphase.requeued hrequeues hkept fun ids hids hm =>
      hok.2 ⟨j, i, b, a, ids, m, hb, ha, hl, hrequeue, hids, hm⟩
  · rw [hsame]
    exact hphase
  · exact hphase.purged hdeleting hkept

theorem Kept.phase_step (hhoused : Housed config w) (h : Kept w) (hok : Noticed w l)
    (hstep : (service config).step w l = some w') {j : Nat} {b : ServiceActor} {now : Int}
    {batchSize : Nat} (hb : w'.actors[j]? = some b)
    (hcontrol : b.control = .purging now batchSize) :
    Phase w'.store b := by
  have hset : ∀ {i : Nat} {q : Control}, (w.actors.set i ((service config).enter q))[j]? = some b →
      Phase w.store b := by
    intro i q hb
    rcases getElem?_set_eq_some hb with ⟨_, rfl⟩ | ⟨_, hb⟩
    · exact phase_of_enter _ hcontrol
    · exact h.phases j b now batchSize hb hcontrol
  cases moves_of_step hstep with
  | spawn q =>
      rcases getElem?_concat_eq_some hb with hb | rfl
      · exact h.phases j b now batchSize hb hcontrol
      · exact phase_of_enter _ hcontrol
  | @statement i c a t onError writes next ha hcode hrest _ _ =>
      rcases getElem?_set_eq_some hb with ⟨_, rfl⟩ | ⟨_, hb⟩
      · obtain ⟨q, hentered⟩ | hkept := settle_cases (P := service config) a.control onError
          (next c (view w.store a.pending))
          (a.pending ++ record (view w.store a.pending) (writes c (view w.store a.pending)))
        · rw [hentered] at hcontrol ⊢
          exact phase_of_enter _ hcontrol
        · rw [hkept] at hcontrol
          have honError : onError = fun _ => .purgeFailed := by
            rw [hcontrol] at hcode
            exact (Code.tx.inj hcode).2.symm
          subst honError
          obtain ⟨q, hentered, hq⟩ | hphase :=
            (h.phases i a now batchSize ha hcontrol).settle hrest rfl
          · rw [hentered, enter_control] at hkept
            exact absurd (hkept.trans hcontrol) (hq now batchSize)
          · exact hphase
      · exact h.phases j b now batchSize hb hcontrol
  | act _ _ _ | fault _ _ | crash _ _ => exact hset hb
  | commit ha hcode hrest hpending =>
      exact h.phase_commit hhoused (Or.inl rfl) hok ha hcode hrest hpending hb hcontrol
  | lost ha hcode hrest hpending =>
      exact h.phase_commit hhoused (Or.inr rfl) hok ha hcode hrest hpending hb hcontrol
  | env _ => exact h.phases j b now batchSize hb hcontrol

theorem effect_of_step (hhoused : Housed config w) (h : Kept w)
    (hstep : (service config).step w l = some w') : w'.store = w.store ∨
      (∃ m, Requeues m w.store w'.store) ∨
        ∃ ps, Deleting w.store ps ∧ w'.store = view w.store ps := by
  have hcommit : ∀ {i : Nat} {a : ServiceActor} {t : Sql Control} {onError : Failure → Control}
      {q : Control}, w.actors[i]? = some a → code config a.control = .tx t onError →
      a.rest = some (.done q) → a.pending ≠ [] → view w.store a.pending = w.store ∨
        (∃ m, Requeues m w.store (view w.store a.pending)) ∨
          ∃ ps, Deleting w.store ps ∧ view w.store a.pending = view w.store ps := by
    intro i a t onError q ha hcode hrest hpending
    obtain ⟨m, _, hrequeues⟩ | hsame | hdeleting :=
      effect_of_commit hhoused h ha hcode hrest hpending
    · exact Or.inr (Or.inl ⟨m, hrequeues⟩)
    · exact Or.inl hsame
    · exact Or.inr (Or.inr ⟨_, hdeleting, rfl⟩)
  cases moves_of_step hstep with
  | commit ha hcode hrest hpending | lost ha hcode hrest hpending =>
      exact hcommit ha hcode hrest hpending
  | _ => exact Or.inl rfl

theorem Kept.step (hhoused : Housed config w) (h : Kept w) (hok : Noticed w l)
    (hstep : (service config).step w l = some w') : Kept w' := by
  refine ⟨fun j b now batchSize hb hcontrol => h.phase_step hhoused hok hstep hb hcontrol,
    fun i m message hi => ?_⟩
  have hspawn : ∀ q, l = .spawn q → Housekeeping q :=
    fun q hq => housekeeping_of_starts (hok.1 q hq)
  have hbefore : w.abs.controls[i]? =
        some (.returned (.resetForRequeue m) (.requeue (.requeued message))) ∨
      Requeues m w.store w'.store := by
    obtain habs | hatomic := (simulates (sound_housekeeping config) hhoused hspawn hstep).2
    · exact Or.inl (habs ▸ hi)
    · refine requeued_of_step (fun j q hq => ?_) hok.1 hatomic hi
      obtain ⟨a, ha, rfl⟩ := exists_actor_of_abs hq
      exact hhoused.live j a ha
  rcases hbefore with hbefore | hrequeues
  · have hrequeued := h.requeued i m message hbefore
    obtain hsame | ⟨m', hrequeues⟩ | ⟨ps, hdeleting, hs'⟩ := effect_of_step hhoused h hstep
    · rw [hsame]
      exact hrequeued
    · exact hrequeued.requeued hrequeues
    · rw [hs']
      exact hrequeued.purged hdeleting
  · exact isRequeued_of_requeues hrequeues

end Steps

section Runs

variable {config : Config} {w w' : ServiceWorld} {l : ServiceLabel}

theorem housed_of_housekept (h : Housekept config w) : Housed config w := by
  refine Reachable.invariant (fun w hinit => ?_) (fun w l w' _ hinv hl hstep => ?_) h
  · exact ⟨by simp [hinit], by simp [hinit], by simp [hinit]⟩
  · exact (simulates (sound_housekeeping config) hinv
      (fun q hq => housekeeping_of_starts (hl.1 q hq)) hstep).1

theorem kept_of_housekept (h : Housekept config w) : Kept w := by
  refine Reachable.invariant (fun w hinit => ?_) (fun w l w' hreach hinv hl hstep =>
    hinv.step (housed_of_housekept hreach) hl hstep) h
  constructor
  · simp [hinit]
  · simp [World.abs, hinit]

/-- Where no requeue goes unnoticed, a message that a step removes is in a terminal
status, and a message whose requeue has been answered is there with its intent. -/
theorem purged_terminal (h : Housekept config w) :
    (∀ l w', Noticed w l → (service config).step w l = some w' → ∀ m row,
      smsMessage.find w.store m = some row → smsMessage.find w'.store m = none →
        terminalStatuses.contains row.status) ∧
    ∀ (i : Nat) m message, w.abs.controls[i]? =
        some (.returned (.resetForRequeue m) (.requeue (.requeued message))) →
      IsRequeued w.store m := by
  refine ⟨fun l w' _ hstep m row hrow hgone => ?_, (kept_of_housekept h).requeued⟩
  obtain hsame | ⟨m', hrequeues⟩ | ⟨ps, hdeleting, hs'⟩ :=
    effect_of_step (housed_of_housekept h) (kept_of_housekept h) hstep
  · rw [hsame, hrow] at hgone
    simp at hgone
  · by_cases hm : m = m'
    · obtain ⟨row', hrow', _⟩ := hrequeues.scheduled
      rw [hm, hrow'] at hgone
      simp at hgone
    · rw [hrequeues.message m hm, hrow] at hgone
      simp at hgone
  · rw [hs'] at hgone
    obtain hsame | ⟨_, p, hp, htarget⟩ := find_view hdeleting.removes smsMessage m (s := w.store)
    · rw [hsame, hrow] at hgone
      simp at hgone
    · exact hdeleting.terminal p hp m htarget row hrow

end Runs

section Replay

/-- The message `m`, failed for good, with its retention elapsed at 0. -/
def failed : Database :=
  holding { sentMessage "m" "twilio" "X" with status := .fatalFailure }

/-- The call has been answered `requeued`. -/
def isAnsweredRequeued : Control → Bool
  | .returned (.resetForRequeue m) (.requeue (.requeued _)) => m = "m"
  | _ => false

/-- A requeue commits between the first two statements of a purge: the purge removes
the message and the intent of the requeue. -/
theorem requeued_message_purged : ∃ w w', Reaches sampleConfig (Spawning (starts ·))
      (fun a => a.store = failed) w ∧
    (service sampleConfig).step w (.commit 0) = some w' ∧
    w.abs.controls[1]?.any isAnsweredRequeued ∧
    (smsMessage.find w.store "m").map (·.status) = some .retryScheduled ∧
    (outboxEvent.find w.store "x").map (·.eventType) = some "SMS_REQUEUED" ∧
    smsMessage.find w'.store "m" = none ∧ outboxEvent.find w'.store "x" = none := by
  obtain ⟨w, hw, hanswered, hstatus, htype, hstep⟩ := exists_reaches_on sampleConfig
    (Spawning (starts ·)) (fun a => a.store = failed) failed rfl
    (.spawn (.purging 0 10) :: statements 0 1 (sampleChoice "" 0) ++
      .spawn (.calling (.resetForRequeue "m")) :: statements 1 4 (sampleChoice "x" 0) ++
      .commit 1 :: statements 0 7 (sampleChoice "" 0))
    (fun w => w.abs.controls[1]?.any isAnsweredRequeued ∧
      (smsMessage.find w.store "m").map (·.status) = some .retryScheduled ∧
      (outboxEvent.find w.store "x").map (·.eventType) = some "SMS_REQUEUED" ∧
      ((service sampleConfig).step w (.commit 0)).any fun w' =>
        (smsMessage.find w'.store "m").isNone ∧ (outboxEvent.find w'.store "x").isNone)
    (by decide +kernel)
  obtain ⟨w', hstep, hgone⟩ := (Option.any_eq_true _ _).mp hstep
  obtain ⟨hmessage, hevent⟩ := of_decide_eq_true hgone
  exact ⟨w, w', hw, hstep, hanswered, hstatus, htype, Option.isNone_iff_eq_none.mp hmessage,
    Option.isNone_iff_eq_none.mp hevent⟩

def isRequeue : Control → Bool
  | .calling (.resetForRequeue _) => true
  | _ => false

/-- A step of purges and requeues in which no requeue commits beside a purge. -/
def calm (a : ServiceSnapshot) : ServiceLabel → Bool
  | .spawn q => starts q
  | .commit i => !a.controls[i]?.any isRequeue || a.controls.all fun q => !isPurging q
  | .lost _ => false
  | _ => true

theorem noticed_of_calm {w : ServiceWorld} {l : ServiceLabel} (h : calm w.abs l) : Noticed w l := by
  constructor
  · rintro q rfl
    exact h
  · rintro ⟨i, j, a, b, ids, m, ha, hb, rfl | rfl, hrequeue, ⟨now, batchSize, _, hpurging, _⟩, _⟩
    · have hcontrol := abs_control hb
      rw [hrequeue] at hcontrol
      have hnone : ∀ q ∈ w.abs.controls, isPurging q = false := by
        simpa [calm, hcontrol, isRequeue] using h
      have hpurge := hnone a.control (List.mem_of_getElem? (abs_control ha))
      simp [hpurging, isPurging] at hpurge
    · simp [calm] at h

/-- A purge removes a message that nobody requeues. -/
theorem purged_terminal_unclaimed : ∃ w w' row, Housekept sampleConfig w ∧
    (service sampleConfig).step w (.commit 0) = some w' ∧
    smsMessage.find w.store "m" = some row ∧ smsMessage.find w'.store "m" = none ∧
    terminalStatuses.contains row.status := by
  obtain ⟨w, hw, hcalm, hfound, hstep⟩ := exists_reaches_on sampleConfig (fun a l => calm a l)
    (fun _ => True) failed trivial
    (.spawn (.purging 0 10) :: statements 0 8 (sampleChoice "" 0))
    (fun w => calm w.abs (.commit 0) ∧ (smsMessage.find w.store "m").isSome ∧
      ((service sampleConfig).step w (.commit 0)).any fun w' =>
        (smsMessage.find w'.store "m").isNone) (by decide +kernel)
  obtain ⟨row, hrow⟩ := Option.isSome_iff_exists.mp hfound
  obtain ⟨w', hstep, hgone⟩ := (Option.any_eq_true _ _).mp hstep
  have hhousekept : Housekept sampleConfig w :=
    Reachable.weaken (fun _ hinit => hinit.1) (Reachable.mono (fun _ _ => noticed_of_calm) hw)
  have hnone := Option.isNone_iff_eq_none.mp hgone
  exact ⟨w, w', row, hhousekept, hstep, hrow, hnone,
    (purged_terminal hhousekept).1 _ w' (noticed_of_calm hcalm) hstep "m" row hrow hnone⟩

end Replay

end SmsNotification.RetentionRace

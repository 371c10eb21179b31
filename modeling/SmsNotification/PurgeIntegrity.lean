import SmsNotification.ReferentialIntegrity

namespace SmsNotification.PurgeIntegrity

open SmsNotification.IdempotentIngestion
open SmsNotification.KeyedStore
open SmsNotification.MessageAggregate
open SmsNotification.OperatorResolutions (decided)
open SmsNotification.PurgeTransaction
open SmsNotification.ReadCommitted
open SmsNotification.ReferentialIntegrity
open SmsNotification.RetentionService
open SmsNotification.Schema
open SmsNotification.Service
open SmsNotification.ServiceEffects
open SmsNotification.ServiceRuns

/-- The message that a row belongs to. -/
def messageOf : Row → String
  | .message row => row.id
  | .idempotencyKey row => row.smsMessageId
  | .attempt row => row.smsMessageId
  | .resolution row => row.smsMessageId
  | .outbox row => row.aggregateId

/-- The database without the rows that are gone. -/
def Without (gone : Row → Bool) (s s' : Database) : Prop :=
  ∀ k, s'.find k = (s.find k).filter fun row => !gone row

/-- The rows of a table that belong to one of the messages. -/
def childOf {α : Type} (t : Table α) (messageId : α → String) (ids : List String) (row : Row) :
    Bool :=
  (t.unwrap row).any fun x => ids.contains (messageId x)

section Removals

variable {s s₁ s₂ : Database} {gone gone' : Row → Bool} {cs : Nat → Choice} {ids : List String}
  {β : Type}

theorem Without.trans (h : Without gone s s₁) (h' : Without gone' s₁ s₂) :
    Without (fun row => gone row || gone' row) s s₂ := by
  intro k
  rw [h' k, h k, Option.filter_filter]
  congr 1
  funext row
  rw [Bool.not_or]

theorem without_deletes {ks : List RowKey}
    (h : ∀ row, s.find row.key = some row → (row.key ∈ ks ↔ gone row)) :
    Without gone s (s.applyAll (ks.map .delete)) := by
  intro k
  rw [Store.find_applyAll_delete]
  cases hfind : s.find k with
  | none => simp
  | some row =>
      have hkey := Store.key_of_find hfind
      subst hkey
      by_cases hgone : gone row
      · rw [if_pos ((h row hfind).mpr hgone)]
        simp only [Option.filter_some, hgone, Bool.not_true, Bool.false_eq_true, if_false]
      · rw [if_neg fun hmem => hgone ((h row hfind).mp hmem)]
        simp only [Option.filter_some, hgone, Bool.not_false, if_true]

section Children

variable {α : Type} {t : Table α} {messageId : α → String}

theorem find_of_mem_children {x : α}
    (h : x ∈ t.rows s fun row => ids.contains (messageId row)) :
    s.find (t.keyOf (t.idOf x)) = some (t.wrap x) ∧ ids.contains (messageId x) := by
  obtain ⟨hfind, hkeep⟩ := Table.mem_rows_iff.mp h
  exact ⟨Table.find_eq_some_iff.mp hfind, hkeep⟩

theorem mem_children_iff {row : Row} (hrow : s.find row.key = some row) :
    row.key ∈ (t.rows s fun row => ids.contains (messageId row)).map
      (fun x => t.keyOf (t.idOf x)) ↔ childOf t messageId ids row := by
  constructor
  · intro hmem
    obtain ⟨x, hx, hkey⟩ := List.mem_map.mp hmem
    obtain ⟨hfind, hid⟩ := find_of_mem_children hx
    rw [hkey, hrow] at hfind
    rw [childOf, Option.some.inj hfind, t.unwrap_wrap]
    exact hid
  · intro hchild
    obtain ⟨x, hx, hid⟩ := (Option.any_eq_true _ _).mp hchild
    obtain rfl := (t.unwrap_eq_some_iff _ _).mp hx
    refine List.mem_map.mpr ⟨x, Table.mem_rows_iff.mpr ⟨?_, hid⟩, (t.key_wrap x).symm⟩
    rw [t.key_wrap] at hrow
    exact Table.find_eq_some_iff.mpr hrow

theorem alone_deleteChildren (cs : Nat → Choice) (s : Database) (t : Table α)
    (messageId : α → String) (ids : List String) (next : Nat → Sql β) :
    ∃ n s', (deleteChildren t messageId ids >>= next).alone cs s =
      (next n).alone (fun k => cs (k + 2)) s' ∧ Without (childOf t messageId ids) s s' := by
  refine ⟨_, _, rfl, without_deletes fun row hrow => ?_⟩
  rw [← mem_children_iff hrow, List.mem_filter, and_iff_left_iff_imp]
  intro hmem
  obtain ⟨x, hx, hkey⟩ := List.mem_map.mp hmem
  obtain ⟨hfind, _⟩ := find_of_mem_children hx
  rw [hkey] at hfind
  have hfound : (t.rows s fun row => ids.contains (messageId row)).any
      (fun old => t.idOf old = t.idOf x && messageId old = messageId x) :=
    List.any_eq_true.mpr ⟨x, hx, by simp⟩
  change ((s.find row.key).any _) = true
  rw [hfind, Option.any_some, t.unwrap_wrap, Option.any_some]
  exact hfound

end Children

theorem alone_deleteAttempts (cs : Nat → Choice) (next : Nat → Sql β)
    (hunresolved : ∀ id a, smsAttempt.find s id = some a → a.smsMessageId ∈ ids →
      smsAttemptResolution.find s id = none) :
    ∃ n s', (deleteAttempts ids >>= next).alone cs s = (next n).alone (fun k => cs (k + 2)) s' ∧
      Without (childOf smsAttempt SmsAttempt.smsMessageId ids) s s' := by
  have hfound : ∀ a ∈ smsAttempt.rows s fun row => ids.contains row.smsMessageId,
      smsAttempt.find s a.id = some a ∧ a.smsMessageId ∈ ids := by
    intro a ha
    obtain ⟨hfind, hid⟩ := Table.mem_rows_iff.mp ha
    exact ⟨hfind, by simpa using hid⟩
  have hleft : attemptsLeft s (smsAttempt.rows s fun row => ids.contains row.smsMessageId) =
      smsAttempt.rows s fun row => ids.contains row.smsMessageId :=
    List.filter_eq_self.mpr fun a ha => by simp [(hfound a ha).1]
  have hrestricted : (smsAttempt.rows s fun row => ids.contains row.smsMessageId).any
      (isResolved s) = false :=
    List.any_eq_false.mpr fun a ha => by
      simp [isResolved, hunresolved a.id a (hfound a ha).1 (hfound a ha).2]
  refine ⟨(smsAttempt.rows s fun row => ids.contains row.smsMessageId).length,
    s.applyAll (((smsAttempt.rows s fun row => ids.contains row.smsMessageId).map
    fun a => smsAttempt.keyOf (smsAttempt.idOf a)).map .delete), ?_,
    without_deletes fun row hrow => mem_children_iff hrow⟩
  simp only [deleteAttempts, Tx.read, Tx.stmt_bind, Tx.done_bind, Tx.alone,
    Store.applyAll_nil, hleft, hrestricted, Bool.false_eq_true, if_false, List.map_map]
  rfl

theorem alone_deleteMessages (cs : Nat → Choice)
    (hpresent : ∀ m ∈ ids, (smsMessage.find s m).isSome)
    (hunreferenced : ∀ m ∈ ids, isReferenced s m = false) :
    ∃ s', (deleteMessages ids).alone cs s = .ok (ids.length, s') ∧
      Without (fun row => childOf smsMessage SmsMessage.id ids row ||
        childOf smsIdempotencyKey SmsIdempotencyKey.smsMessageId ids row) s s' := by
  have hall : present s ids = ids := List.filter_eq_self.mpr fun m hm => by simp [hpresent m hm]
  have hrestricted : ids.any (isReferenced s) = false :=
    List.any_eq_false.mpr fun m hm => by simp [hunreferenced m hm]
  refine ⟨s.applyAll ((ids.map RowKey.message ++
    (smsIdempotencyKey.rows s fun row => ids.contains row.smsMessageId).map
      fun owner => RowKey.idempotencyKey owner.key).map .delete), ?_,
    without_deletes fun row hrow => ?_⟩
  · simp only [deleteMessages, Tx.alone, hall, hrestricted, Bool.false_eq_true, if_false,
      List.map_append, List.map_map]
    rfl
  · rw [List.mem_append, Bool.or_eq_true, ← mem_children_iff hrow (t := smsIdempotencyKey)]
    refine or_congr_left ?_
    cases row <;> simp [childOf, Row.key, smsMessage]

theorem Without.table {α : Type} {t : Table α} {id : String} {x : α} (h : Without gone s s₁) :
    t.find s₁ id = some x ↔ t.find s id = some x ∧ gone (t.wrap x) = false := by
  rw [Table.find_eq_some_iff, Table.find_eq_some_iff, h]
  simp [Option.filter_eq_some_iff]

theorem length_rows_eq_zero {α : Type} (s : Database) (t : Table α) (messageId : α → String)
    (m : String) (h : ∀ id x, t.find s id = some x → messageId x ≠ m) :
    (t.rows s fun row => messageId row = m).length = 0 := by
  refine List.length_eq_zero_iff.mpr (List.eq_nil_iff_forall_not_mem.mpr fun x hx => ?_)
  obtain ⟨hfind, hid⟩ := Table.mem_rows_iff.mp hx
  exact h _ x hfind (of_decide_eq_true hid)

theorem unreferenced_of_cleared
    (h : Without (fun row => (childOf smsAttemptResolution SmsAttemptResolution.smsMessageId ids row
        || childOf smsAttempt SmsAttempt.smsMessageId ids row)
      || childOf outboxEvent OutboxEvent.aggregateId ids row) s s₁)
    (m : String) (hm : m ∈ ids) : isReferenced s₁ m = false := by
  have hresolutions := length_rows_eq_zero s₁ smsAttemptResolution
    SmsAttemptResolution.smsMessageId m
    fun id x hx heq => by simpa [childOf, heq, hm] using (h.table.mp hx).2
  have hattempts := length_rows_eq_zero s₁ smsAttempt SmsAttempt.smsMessageId m
    fun id x hx heq => by simpa [childOf, heq, hm] using (h.table.mp hx).2
  have houtbox := length_rows_eq_zero s₁ outboxEvent OutboxEvent.aggregateId m
    fun id x hx heq => by simpa [childOf, heq, hm] using (h.table.mp hx).2
  simp [isReferenced, hresolutions, hattempts, houtbox]

theorem unresolved_of_integral (h : Integral s)
    (hwithout : Without (childOf smsAttemptResolution SmsAttemptResolution.smsMessageId ids) s s₁)
    (id : String) (a : SmsAttempt) (ha : smsAttempt.find s₁ id = some a)
    (hid : a.smsMessageId ∈ ids) : smsAttemptResolution.find s₁ id = none := by
  refine Option.eq_none_iff_forall_ne_some.mpr fun r hr => ?_
  obtain ⟨ha, _⟩ := hwithout.table.mp ha
  obtain ⟨hr, hkept⟩ := hwithout.table.mp hr
  have hkey : r.smsAttemptId = id := Table.idOf_of_find hr
  obtain ⟨a', ha', hattempt, _⟩ := (h.coherent r.smsMessageId).attempted r
    (mem_resolutions_iff.mpr ⟨hkey.symm ▸ hr, rfl⟩)
  obtain ⟨hfind, hmessage⟩ := mem_attempts_iff.mp ha'
  rw [hattempt, hkey, ha] at hfind
  obtain rfl := Option.some.inj hfind
  simp [childOf, ← hmessage, hid] at hkept

end Removals

section Purge

variable {s s' : Database} {now : Int} {batchSize : Nat} {cs : Nat → Choice}

/-- The purge on its own removes the messages that it selects with all their rows. -/
theorem alone_purgeExpired (h : Integral s) (now : Int) (batchSize : Nat) (cs : Nat → Choice) :
    ∃ s', (purgeExpired now batchSize).alone cs s =
        .ok ((selection now batchSize (cs 0) s).length, s') ∧
      Without (fun row => (selection now batchSize (cs 0) s).contains (messageOf row)) s s' := by
  generalize hids : selection now batchSize (cs 0) s = ids
  have hrun : (purgeExpired now batchSize).alone cs s =
      (if ids.isEmpty then .done 0
        else deleteChildren smsAttemptResolution SmsAttemptResolution.smsMessageId ids >>= fun _ =>
          deleteAttempts ids >>= fun _ =>
            deleteChildren outboxEvent OutboxEvent.aggregateId ids >>= fun _ =>
              deleteMessages ids).alone (fun k => cs (k + 1)) s := by
    rw [← hids]
    change Tx.alone _ (if (selection now batchSize (cs 0) s).isEmpty then _ else _) _ = _
    rfl
  rw [hrun]
  by_cases hempty : ids.isEmpty
  · rw [if_pos hempty, List.isEmpty_iff.mp hempty]
    exact ⟨s, rfl, fun k => by cases s.find k <;> rfl⟩
  · rw [if_neg hempty]
    obtain ⟨_, s₁, hrun₁, h₁⟩ := alone_deleteChildren (fun k => cs (k + 1)) s
      smsAttemptResolution SmsAttemptResolution.smsMessageId ids fun _ =>
        deleteAttempts ids >>= fun _ =>
          deleteChildren outboxEvent OutboxEvent.aggregateId ids >>= fun _ => deleteMessages ids
    obtain ⟨_, s₂, hrun₂, h₂⟩ := alone_deleteAttempts (fun k => cs (k + 2 + 1))
      (fun _ => deleteChildren outboxEvent OutboxEvent.aggregateId ids >>= fun _ =>
        deleteMessages ids) (unresolved_of_integral h h₁)
    obtain ⟨_, s₃, hrun₃, h₃⟩ := alone_deleteChildren (fun k => cs (k + 2 + 2 + 1)) s₂ outboxEvent
      OutboxEvent.aggregateId ids fun _ => deleteMessages ids
    have hcleared := (h₁.trans h₂).trans h₃
    have hpresent : ∀ m ∈ ids, (smsMessage.find s₃ m).isSome := by
      intro m hm
      obtain ⟨row, hrow, _⟩ := of_mem_selection (hids.symm ▸ hm)
      rw [hcleared.table.mpr ⟨hrow, by simp [childOf, smsMessage, smsAttempt,
        smsAttemptResolution, outboxEvent]⟩]
      rfl
    obtain ⟨s', hrun₄, h₄⟩ := alone_deleteMessages (fun k => cs (k + 2 + 2 + 2 + 1)) hpresent
      (unreferenced_of_cleared hcleared)
    refine ⟨s', by rw [hrun₁, hrun₂, hrun₃, hrun₄], fun k => ?_⟩
    rw [hcleared.trans h₄]
    congr 1
    funext row
    cases row <;> simp [childOf, messageOf, smsMessage, smsIdempotencyKey, smsAttempt,
      smsAttemptResolution, outboxEvent]

/-- A message that the purge may remove. -/
def Expired (s : Database) (now : Int) (m : String) : Prop :=
  ∃ row, smsMessage.find s m = some row ∧ row.retentionExpiresAt ≤ now ∧
    terminalStatuses.contains row.status

/-- The ids of all messages that the purge may remove. -/
def expiredIdsOf (now : Int) (s : Database) : List String :=
  (smsMessage.rows s fun row =>
    row.retentionExpiresAt ≤ now && terminalStatuses.contains row.status).map SmsMessage.id

theorem mem_expiredIdsOf {m : String} : m ∈ expiredIdsOf now s ↔ Expired s now m := by
  constructor
  · intro hm
    obtain ⟨row, hrow, rfl⟩ := List.mem_map.mp hm
    obtain ⟨hfind, hkeep⟩ := Table.mem_rows_iff.mp hrow
    simp only [Bool.and_eq_true, decide_eq_true_eq] at hkeep
    exact ⟨row, hfind, hkeep⟩
  · rintro ⟨row, hfind, hkeep⟩
    obtain rfl : row.id = m := Table.idOf_of_find hfind
    exact List.mem_map_of_mem (Table.mem_rows_iff.mpr ⟨hfind, by simpa using hkeep⟩)

theorem nodup_expiredIdsOf : (expiredIdsOf now s).Nodup :=
  smsMessage.rows_nodup s _

theorem exists_perm_selection (now : Int) (batchSize : Nat) (c : Choice) (s : Database) :
    ∃ ids : List String, ids.Perm (expiredIdsOf now s) ∧
      selection now batchSize c s = ids.take batchSize := by
  refine ⟨_, (List.perm_insertionSort (fun a b : SmsMessage => c.scan a.id ≤ c.scan b.id) _).map
    SmsMessage.id, ?_⟩
  rw [selection, unordered, List.map_take]

theorem selection_spec (now : Int) (batchSize : Nat) (c : Choice) (s : Database) :
    (selection now batchSize c s).Nodup ∧ (selection now batchSize c s).length ≤ batchSize ∧
      (∀ m ∈ selection now batchSize c s, Expired s now m) ∧
      ((selection now batchSize c s).length = batchSize ∨
        ∀ m, Expired s now m → m ∈ selection now batchSize c s) := by
  obtain ⟨ids, hperm, hselection⟩ := exists_perm_selection now batchSize c s
  rw [hselection]
  refine ⟨(hperm.nodup_iff.mpr nodup_expiredIdsOf).sublist (List.take_sublist _ _),
    List.length_take_le _ _, fun m hm => ?_, ?_⟩
  · exact mem_expiredIdsOf.mp (hperm.mem_iff.mp (List.mem_of_mem_take hm))
  · obtain hle | hlt := Nat.le_total batchSize ids.length
    · exact Or.inl (List.length_take_of_le hle)
    · refine Or.inr fun m hm => ?_
      rw [List.take_of_length_le hlt]
      exact hperm.mem_iff.mpr (mem_expiredIdsOf.mpr hm)

theorem integral_of_without {ids : List String} (h : Integral s)
    (hwithout : Without (fun row => ids.contains (messageOf row)) s s') : Integral s' := by
  have hmessage : ∀ m, m ∉ ids → smsMessage.find s' m = smsMessage.find s m := by
    intro m hm
    ext row
    rw [hwithout.table, and_iff_left_iff_imp]
    intro hrow
    obtain rfl : row.id = m := Table.idOf_of_find hrow
    simpa [messageOf, smsMessage] using hm
  have hattempt : ∀ {m a}, a ∈ (aggregate s' m).attempts ↔
      a ∈ (aggregate s m).attempts ∧ m ∉ ids := by
    intro m a
    rw [mem_attempts_iff, mem_attempts_iff, hwithout.table]
    simp only [messageOf, smsAttempt, List.contains_eq_mem, decide_eq_false_iff_not]
    grind
  have hresolution : ∀ {m r}, r ∈ (aggregate s' m).resolutions ↔
      r ∈ (aggregate s m).resolutions ∧ m ∉ ids := by
    intro m r
    rw [mem_resolutions_iff, mem_resolutions_iff, hwithout.table]
    simp only [messageOf, smsAttemptResolution, List.contains_eq_mem, decide_eq_false_iff_not]
    grind
  have hevent : ∀ {m e}, e ∈ (aggregate s' m).outbox ↔
      e ∈ (aggregate s m).outbox ∧ m ∉ ids := by
    intro m e
    rw [mem_outbox_iff, mem_outbox_iff, hwithout.table]
    simp only [messageOf, outboxEvent, List.contains_eq_mem, decide_eq_false_iff_not]
    grind
  refine ⟨fun m => ⟨fun hnone => ?_, fun r hr => ?_, fun r hr row hrow => ?_⟩,
    fun k owner howner => ?_⟩
  · have hold : m ∉ ids → (aggregate s m).attempts = [] ∧ (aggregate s m).resolutions = [] ∧
        (aggregate s m).outbox = [] :=
      fun hm => (h.coherent m).owned ((hmessage m hm).symm.trans hnone)
    simp only [List.eq_nil_iff_forall_not_mem, hattempt, hresolution, hevent] at hold ⊢
    grind
  · obtain ⟨hr, hm⟩ := hresolution.mp hr
    obtain ⟨a, ha, hid⟩ := (h.coherent m).attempted r hr
    exact ⟨a, hattempt.mpr ⟨ha, hm⟩, hid⟩
  · obtain ⟨hr, hm⟩ := hresolution.mp hr
    exact (h.coherent m).decided r hr row ((hmessage m hm).symm.trans hrow)
  · obtain ⟨howner, hkept⟩ := hwithout.table.mp howner
    have hm : owner.smsMessageId ∉ ids := by simpa [messageOf, smsIdempotencyKey] using hkept
    rw [hmessage _ hm]
    exact h.owned k owner howner

theorem length_expired_add_length {ids : List String} (hnodup : ids.Nodup)
    (hids : ∀ m ∈ ids, Expired s now m)
    (hwithout : Without (fun row => ids.contains (messageOf row)) s s') :
    (expiredIdsOf now s').length + ids.length ≤ (expiredIdsOf now s).length := by
  have hleft : ∀ m, Expired s' now m → Expired s now m ∧ m ∉ ids := by
    rintro m ⟨row, hrow, hexpired⟩
    obtain ⟨hrow, hkept⟩ := hwithout.table.mp hrow
    obtain rfl : row.id = m := Table.idOf_of_find hrow
    exact ⟨⟨row, hrow, hexpired⟩, by simpa [messageOf, smsMessage] using hkept⟩
  rw [← List.length_append]
  refine (List.subperm_of_subset ?_ fun m hm => ?_).length_le
  · refine nodup_expiredIdsOf.append hnodup fun m hm hm' => ?_
    exact (hleft m (mem_expiredIdsOf.mp hm)).2 hm'
  · rcases List.mem_append.mp hm with hm | hm
    · exact mem_expiredIdsOf.mpr (hleft m (mem_expiredIdsOf.mp hm)).1
    · exact mem_expiredIdsOf.mpr (hids m hm)

/-- Runs of the purge, one after the other. -/
def purgeRepeatedly (now : Int) (batchSize : Nat) (css : Nat → Nat → Choice) :
    Nat → Database → Except Failure Database
  | 0, s => .ok s
  | n + 1, s =>
      ((purgeExpired now batchSize).alone (css n) s).bind fun answer =>
        purgeRepeatedly now batchSize css n answer.2

theorem purgeRepeatedly_spec (h : Integral s) (hb : 1 ≤ batchSize) (css : Nat → Nat → Choice)
    {n : Nat} (hn : (expiredIdsOf now s).length ≤ n) :
    ∃ s', purgeRepeatedly now batchSize css n s = .ok s' ∧ ∀ m, ¬Expired s' now m := by
  induction n generalizing s with
  | zero =>
      refine ⟨s, rfl, fun m hm => ?_⟩
      have hpos := List.length_pos_of_mem (mem_expiredIdsOf.mpr hm)
      omega
  | succ n ih =>
      obtain ⟨s', hrun, hwithout⟩ := alone_purgeExpired h now batchSize (css n)
      obtain ⟨hnodup, _, hids, hbatch⟩ := selection_spec now batchSize (css n 0) s
      have hlength := length_expired_add_length hnodup hids hwithout
      have hfewer : (expiredIdsOf now s').length ≤ n := by
        rcases hbatch with hfull | hall
        · omega
        · have hsubset : expiredIdsOf now s ⊆ selection now batchSize (css n 0) s :=
            fun m hm => hall m (mem_expiredIdsOf.mp hm)
          have hle := (List.subperm_of_subset nodup_expiredIdsOf hsubset).length_le
          omega
      obtain ⟨s'', hrest, hnone⟩ := ih (integral_of_without h hwithout) hfewer
      refine ⟨s'', ?_, hnone⟩
      rw [purgeRepeatedly, hrun]
      exact hrest

end Purge

/-- The databases that calls of the repositories reach from the empty one, whatever the
order of their statements, with runs of the purge in between. -/
inductive Reached (config : Config) : Database → Prop where
  | empty : Reached config (Store.empty Row.key)
  | calls {s : Database} {w : ServiceWorld} : Reached config s →
      Reaches config (Spawning Lifecycle) (fun a => a.store = s) w → Reached config w.store
  | purged {s s' : Database} (now : Int) (batchSize : Nat) (cs : Nat → Choice) {n : Nat} :
      Reached config s → (purgeExpired now batchSize).alone cs s = .ok (n, s') → Reached config s'

/-- Every reference of a row is to a row that is there. -/
def Intact (s : Database) : Prop :=
  ∀ k row, s.find k = some row → ∀ parent ∈ row.parents, (s.find parent).isSome

section Reached

variable {config : Config} {s : Database}

theorem integral_of_reached (h : Reached config s) : Integral s := by
  induction h with
  | empty => exact Integral.empty
  | calls _ hreaches ih =>
      refine integral_of_reaches (fun _ _ hl => hl _ rfl) (fun a ha => ?_) hreaches
      rw [ha]
      exact ih
  | purged now batchSize cs _ hrun ih =>
      obtain ⟨s'', hrun', hwithout⟩ := alone_purgeExpired ih now batchSize cs
      obtain ⟨_, rfl⟩ := Prod.mk.inj (Except.ok.inj (hrun.symm.trans hrun'))
      exact integral_of_without ih hwithout

theorem isSome_message_of_integral (h : Integral s) {m : String}
    (hm : (aggregate s m).attempts ≠ [] ∨ (aggregate s m).resolutions ≠ [] ∨
      (aggregate s m).outbox ≠ []) : (s.find (.message m)).isSome := by
  by_contra hnone
  have hmessage : (aggregate s m).message = none :=
    Table.find_eq_none_iff.mpr (Option.not_isSome_iff_eq_none.mp hnone)
  simp [(h.coherent m).owned hmessage] at hm

theorem intact_of_integral (h : Integral s) : Intact s := by
  intro k row hrow parent hparent
  have hkey := Store.key_of_find hrow
  subst hkey
  cases row with
  | message row => simp [Row.parents] at hparent
  | idempotencyKey owner =>
      obtain rfl := List.mem_singleton.mp hparent
      exact Table.isSome_find.symm.trans
        (h.owned owner.key owner (Table.find_eq_some_iff.mpr hrow))
  | attempt a =>
      obtain rfl := List.mem_singleton.mp hparent
      refine isSome_message_of_integral h (Or.inl (List.ne_nil_of_mem (a := a) ?_))
      exact mem_attempts_iff.mpr ⟨Table.find_eq_some_iff.mpr hrow, rfl⟩
  | resolution r =>
      have hmem : r ∈ (aggregate s r.smsMessageId).resolutions :=
        mem_resolutions_iff.mpr ⟨Table.find_eq_some_iff.mpr hrow, rfl⟩
      rcases List.mem_cons.mp hparent with rfl | hparent
      · exact isSome_message_of_integral h (Or.inr (Or.inl (List.ne_nil_of_mem hmem)))
      · obtain rfl := List.mem_singleton.mp hparent
        obtain ⟨a, ha, hid, _⟩ := (h.coherent _).attempted r hmem
        refine Table.isSome_find.symm.trans (?_ : (smsAttempt.find s _).isSome)
        rw [← hid, (mem_attempts_iff.mp ha).1]
        rfl
  | outbox e =>
      obtain rfl := List.mem_singleton.mp hparent
      refine isSome_message_of_integral h (Or.inr (Or.inr (List.ne_nil_of_mem (a := e) ?_)))
      exact mem_outbox_iff.mpr ⟨Table.find_eq_some_iff.mpr hrow, rfl⟩

end Reached

/-- A purge without other actors meets no foreign key that restricts it: it removes a
batch of the expired messages with all their rows and nothing else, it leaves no
reference without its row, and further runs leave no expired message. -/
theorem purge_integrity {config : Config} {s : Database} (h : Reached config s) (now : Int)
    {batchSize : Nat} (hb : 1 ≤ batchSize) (cs : Nat → Choice) :
    (∃ (ids : List String) (s' : Database),
      (purgeExpired now batchSize).alone cs s = .ok (ids.length, s') ∧
      ids.Nodup ∧ ids.length ≤ batchSize ∧ (∀ m ∈ ids, Expired s now m) ∧
      (ids.length = batchSize ∨ ∀ m, Expired s now m → m ∈ ids) ∧
      Without (fun row => ids.contains (messageOf row)) s s' ∧ Intact s') ∧
    ∀ css : Nat → Nat → Choice, ∀ n, (expiredIdsOf now s).length ≤ n →
      ∃ s', purgeRepeatedly now batchSize css n s = .ok s' ∧ ∀ m, ¬Expired s' now m := by
  have hintegral := integral_of_reached h
  obtain ⟨s', hrun, hwithout⟩ := alone_purgeExpired hintegral now batchSize cs
  obtain ⟨hnodup, hlength, hids, hbatch⟩ := selection_spec now batchSize (cs 0) s
  exact ⟨⟨_, s', hrun, hnodup, hlength, hids, hbatch, hwithout,
      intact_of_integral (integral_of_without hintegral hwithout)⟩,
    fun css n hn => purgeRepeatedly_spec hintegral hb css hn⟩

theorem eq_singleton_of_expired {s : Database} {now : Int} {m : String} {ids : List String}
    (hexpired : expiredIdsOf now s = [m]) (hnodup : ids.Nodup) (hids : ∀ m ∈ ids, Expired s now m)
    (hbatch : ids.length = 1 ∨ ∀ m, Expired s now m → m ∈ ids) : ids = [m] := by
  have hsubset : ids ⊆ [m] := fun m' hm' => hexpired ▸ mem_expiredIdsOf.mpr (hids m' hm')
  refine List.perm_singleton.mp ((List.subperm_of_subset hnodup hsubset).perm_of_length_le ?_)
  rcases hbatch with hlength | hall
  · exact hlength.ge
  · exact List.length_pos_of_mem (hall m (mem_expiredIdsOf.mp (by simp [hexpired])))

/-- The attempt of the message `m` is decided, and then a message `n` is created. -/
def decidedBeside : List ServiceLabel :=
  decided ++
    .spawn (.creating (sampleCall "l" 5) false) :: statements 5 4 (sampleChoice "n" 5) ++
      [.commit 5]

/-- A purge with a batch of one message takes the message whose attempt is decided, with the
attempt and its resolution, and leaves the other one, which is not over. -/
theorem purge_integrity_decided :
    ∃ s s', Reached sampleConfig s ∧ (aggregate s "m").attempts.length = 1 ∧
      (aggregate s "m").resolutions.length = 1 ∧ (smsMessage.find s "n").isSome ∧
      (purgeExpired 7776000005 1).alone (fun _ => sampleChoice "" 0) s = .ok (1, s') ∧
      Without (fun row => messageOf row = "m") s s' ∧ Intact s' ∧
      ∃ s'', purgeRepeatedly 7776000005 1 (fun _ _ => sampleChoice "" 0) 1 s = .ok s'' ∧
        ∀ m, ¬Expired s'' 7776000005 m := by
  obtain ⟨w, hw, hexpired, hattempts, hresolutions, hother⟩ :=
    exists_reaches_on sampleConfig (Spawning Lifecycle)
    (fun a => a.store = Store.empty Row.key) (Store.empty Row.key) rfl decidedBeside
    (fun w => expiredIdsOf 7776000005 w.store = ["m"] ∧
      (aggregate w.store "m").attempts.length = 1 ∧
      (aggregate w.store "m").resolutions.length = 1 ∧ (smsMessage.find w.store "n").isSome)
    (by decide +kernel)
  have hreached : Reached sampleConfig w.store := .calls .empty hw
  obtain ⟨⟨ids, s', hrun, hnodup, -, hids, hbatch, hwithout, hintact⟩, hrepeatedly⟩ :=
    purge_integrity hreached 7776000005 (le_refl 1) fun _ => sampleChoice "" 0
  obtain rfl := eq_singleton_of_expired hexpired hnodup hids hbatch
  refine ⟨w.store, s', hreached, hattempts, hresolutions, hother, hrun, ?_, hintact,
    hrepeatedly _ 1 (by simp [hexpired])⟩
  simpa [List.contains_eq_mem] using hwithout

end SmsNotification.PurgeIntegrity

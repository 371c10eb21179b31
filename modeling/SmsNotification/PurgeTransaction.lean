import SmsNotification.OperationFrames

namespace SmsNotification.PurgeTransaction

open SmsNotification.ActorSystem
open SmsNotification.KeyedStore
open SmsNotification.ReadCommitted
open SmsNotification.RetentionService
open SmsNotification.Schema
open SmsNotification.Service
open SmsNotification.ServiceRuns

/-- The tables that a purge clears before the outbox. -/
abbrev attemptTables : List TableName :=
  [.smsAttemptResolutions, .smsAttempts]

/-- The tables that a purge clears before it removes messages. -/
abbrev childTables : List TableName :=
  [.smsAttemptResolutions, .smsAttempts, .outboxEvents]

def isPurging : Control → Bool
  | .purging _ _ => true
  | _ => false

section Removals

variable {good : Option Row → Write Row.key → Prop}

theorem writes_deleteChildren (hdelete : ∀ before k, good before (.delete k)) {α : Type}
    (t : Table α) (messageId : α → String) (ids : List String) :
    Writes good (deleteChildren t messageId ids) :=
  .bind (.read _) fun _ => .deleteMany fun _ _ => ⟨hdelete _ _, fun _ _ _ => hdelete _ _⟩

theorem writes_deleteAttempts (hdelete : ∀ before k, good before (.delete k))
    (ids : List String) : Writes good (deleteAttempts ids) := by
  refine .bind (.read _) fun found => .stmt (fun c s p hp => ?_) fun c s => ?_
  · have hwrite := write_mem_of_record hp
    split at hwrite
    · simp at hwrite
    · obtain ⟨_, _, heq⟩ := List.mem_map.mp hwrite
      exact heq ▸ hdelete _ _
  · split
    · exact .abort _
    · exact .done _

theorem writes_deleteMessages (hdelete : ∀ before k, good before (.delete k))
    (ids : List String) : Writes good (deleteMessages ids) := by
  refine .stmt (fun c s p hp => ?_) fun c s => ?_
  · have hwrite := write_mem_of_record hp
    split at hwrite
    · simp at hwrite
    · rcases List.mem_append.mp hwrite with hwrite | hwrite
      · obtain ⟨_, _, heq⟩ := List.mem_map.mp hwrite
        exact heq ▸ hdelete _ _
      · obtain ⟨_, _, heq⟩ := List.mem_map.mp hwrite
        exact heq ▸ hdelete _ _
  · split
    · exact .abort _
    · exact .done _

theorem writes_purgeExpired (hdelete : ∀ before k, good before (.delete k)) (now : Int)
    (batchSize : Nat) : Writes good (purgeExpired now batchSize) := by
  refine .bind (.read _) fun ids => ?_
  split
  · exact .done _
  · exact .bind (writes_deleteChildren hdelete _ _ _) fun _ =>
      .bind (writes_deleteAttempts hdelete _) fun _ =>
        .bind (writes_deleteChildren hdelete _ _ _) fun _ => writes_deleteMessages hdelete _

end Removals

/-- A removal of a row of one of the tables. -/
def RemovesFrom (tables : List TableName) (w : Write Row.key) : Prop :=
  w.after = none ∧ w.target.table ∈ tables

/-- The purge from its lookup of the outbox rows on. -/
def fromOutbox (ids : List String) : Sql Control :=
  (deleteChildren outboxEvent OutboxEvent.aggregateId ids >>= fun _ => deleteMessages ids).map
    .purged

/-- The last statement of the purge. -/
def fromMessages (ids : List String) : Sql Control :=
  (deleteMessages ids).map .purged

/-- The purge after its selection. -/
def fromSelection (ids : List String) : Sql Control :=
  (deleteChildren smsAttemptResolution SmsAttemptResolution.smsMessageId ids >>= fun _ =>
    deleteAttempts ids >>= fun _ =>
      deleteChildren outboxEvent OutboxEvent.aggregateId ids >>= fun _ => deleteMessages ids).map
    .purged

/-- The ids that the purge selects. -/
def selection (now : Int) (batchSize : Nat) (c : Choice) (s : Database) : List String :=
  ((unordered c SmsMessage.id (smsMessage.rows s fun row =>
    row.retentionExpiresAt ≤ now && terminalStatuses.contains row.status)).take batchSize).map
    SmsMessage.id

theorem purge_eq (now : Int) (batchSize : Nat) :
    (purgeExpired now batchSize).map Control.purged =
      .stmt (fun _ _ => []) fun c s =>
        if (selection now batchSize c s).isEmpty then .done (.purged 0)
        else fromSelection (selection now batchSize c s) := by
  refine congrArg (Tx.stmt _) (funext fun c => funext fun s => ?_)
  change Tx.map Control.purged (if (selection now batchSize c s).isEmpty then _ else _) = _
  split <;> rfl

theorem of_mem_selection {now : Int} {batchSize : Nat} {c : Choice} {s : Database} {id : String}
    (h : id ∈ selection now batchSize c s) :
    ∃ row, smsMessage.find s id = some row ∧ row.retentionExpiresAt ≤ now ∧
      terminalStatuses.contains row.status := by
  obtain ⟨row, hrow, rfl⟩ := List.mem_map.mp h
  have hrow := (List.mem_insertionSort _).mp (List.mem_of_mem_take hrow)
  obtain ⟨hfind, hkeep⟩ := Table.mem_rows_iff.mp hrow
  simp only [Bool.and_eq_true, decide_eq_true_eq] at hkeep
  exact ⟨row, hfind, hkeep.1, hkeep.2⟩

theorem mem_present {s : Database} {ids : List String} {id : String} :
    id ∈ present s ids ↔ id ∈ ids ∧ (smsMessage.find s id).isSome := by
  simp [present]

section Removals

variable {config : Config} {tables : List TableName} {s : Database} {ps : List (Pending Row.key)}

theorem find_view_of_removesFrom (hps : ∀ p ∈ ps, RemovesFrom tables p.write) {k : RowKey}
    (hk : k.table ∉ tables) : (view s ps).find k = s.find k :=
  find_view_of_untouched fun p hp heq => hk (heq ▸ (hps p hp).2)

theorem removesFrom_append (hps : ∀ p ∈ ps, RemovesFrom tables p.write) {ws : List (Write Row.key)}
    (hws : ∀ w ∈ ws, RemovesFrom tables w) :
    ∀ p ∈ ps ++ record s ws, RemovesFrom tables p.write := by
  intro p hp
  rcases List.mem_append.mp hp with hp | hp
  · exact hps p hp
  · exact hws _ (write_mem_of_record hp)

theorem settle_of_until {rest last : Sql Control} (h : Until (RemovesFrom tables) last rest)
    (hlast : ∃ writes next, last = .stmt writes next) {q : Control} {onError : Failure → Control}
    {a : ServiceActor}
    (ha : a = (service config).settle q onError rest ps) :
    (∃ e, a = (service config).enter (onError e)) ∨ a = ⟨q, some rest, ps⟩ := by
  cases h with
  | last =>
      obtain ⟨_, _, rfl⟩ := hlast
      exact Or.inr ha
  | abort e => exact Or.inl ⟨e, ha⟩
  | stmt _ _ => exact Or.inr ha

end Removals

section Children

variable {α β : Type} {t : Table α} {messageId : α → String} {tables : List TableName}
  {ids : List String} {last : Sql β} {next : Nat → Sql β}

theorem until_deleteMany {ks : List RowKey} {guard : Row → Bool}
    (hks : ∀ k ∈ ks, k.table ∈ tables) (h : ∀ n, Until (RemovesFrom tables) last (next n)) :
    Until (RemovesFrom tables) last (Tx.deleteMany ks guard >>= next) := by
  refine .stmt (fun c s w hw => ?_) fun c s => h _
  obtain ⟨k, hk, rfl⟩ := List.mem_map.mp hw
  exact ⟨rfl, hks k (List.mem_filter.mp hk).1⟩

theorem until_deleteChildren (ht : t.name ∈ tables)
    (h : ∀ n, Until (RemovesFrom tables) last (next n)) :
    Until (RemovesFrom tables) last (deleteChildren t messageId ids >>= next) := by
  rw [deleteChildren, Tx.bind_assoc]
  refine .stmt (by simp) fun c s => until_deleteMany (fun k hk => ?_) h
  obtain ⟨row, _, rfl⟩ := List.mem_map.mp hk
  rw [t.table_keyOf]
  exact ht

theorem until_deleteAttempts {last : Sql β} {next : Nat → Sql β}
    (htables : .smsAttempts ∈ tables) (h : ∀ n, Until (RemovesFrom tables) last (next n)) :
    Until (RemovesFrom tables) last (deleteAttempts ids >>= next) := by
  rw [deleteAttempts, Tx.bind_assoc]
  refine .stmt (by simp) fun c₀ s₀ => .stmt (fun c s w hw => ?_) fun c s => ?_
  · split at hw
    · simp at hw
    · obtain ⟨row, _, rfl⟩ := List.mem_map.mp hw
      exact ⟨rfl, htables⟩
  · by_cases hresolved : (attemptsLeft s (smsAttempt.rows s₀ fun row =>
        ids.contains row.smsMessageId)).any (isResolved s)
    · simp only [hresolved, if_true]
      exact .abort _
    · simp only [hresolved]
      exact h _

end Children

theorem until_fromOutbox (ids : List String) :
    Until (RemovesFrom attemptTables) (fromOutbox ids)
      (fromSelection ids) := by
  rw [fromSelection, Tx.map, Tx.bind_assoc]
  refine until_deleteChildren (by decide) fun _ => ?_
  rw [Tx.bind_assoc]
  exact until_deleteAttempts (by decide) fun _ => .last

theorem until_fromMessages (ids : List String) :
    Until (RemovesFrom childTables) (fromMessages ids)
      (fromSelection ids) := by
  rw [fromSelection, Tx.map, Tx.bind_assoc]
  refine until_deleteChildren (by decide) fun _ => ?_
  rw [Tx.bind_assoc]
  refine until_deleteAttempts (by decide) fun _ => ?_
  rw [Tx.bind_assoc]
  exact until_deleteChildren (by decide) fun _ => .last

/-- The removals of the last statement: the messages that are still there, and the
idempotency keys by cascade. -/
def removals (ids : List String) (s : Database) : List (Write Row.key) :=
  (present s ids).map (fun id => .delete (.message id)) ++
    (smsIdempotencyKey.rows s fun row => (present s ids).contains row.smsMessageId).map
      fun row => .delete (.idempotencyKey row.key)

theorem fromMessages_eq (ids : List String) :
    fromMessages ids =
      .stmt (fun _ s => if (present s ids).any (isReferenced s) then [] else removals ids s)
        fun _ s => if (present s ids).any (isReferenced s) then .abort .foreignKeyViolation
          else .done (.purged (present s ids).length) := by
  refine congrArg (Tx.stmt _) (funext fun c => funext fun s => ?_)
  change Tx.map Control.purged (if (present s ids).any (isReferenced s) then _ else _) = _
  split <;> rfl

theorem mem_removals {ids : List String} {s : Database} {w : Write Row.key} :
    w ∈ removals ids s ↔ (∃ id ∈ present s ids, w = .delete (.message id)) ∨
      ∃ owner, smsIdempotencyKey.find s owner.key = some owner ∧
        owner.smsMessageId ∈ present s ids ∧ w = .delete (.idempotencyKey owner.key) := by
  simp only [removals, List.mem_append, List.mem_map, Table.mem_rows_iff, smsIdempotencyKey_idOf,
    List.contains_iff_mem]
  constructor
  · rintro (⟨id, hid, rfl⟩ | ⟨owner, ⟨howner, hid⟩, rfl⟩)
    · exact Or.inl ⟨id, hid, rfl⟩
    · exact Or.inr ⟨owner, howner, hid, rfl⟩
  · rintro (⟨id, hid, rfl⟩ | ⟨owner, howner, hid, rfl⟩)
    · exact Or.inl ⟨id, hid, rfl⟩
    · exact Or.inr ⟨owner, ⟨howner, hid⟩, rfl⟩

theorem after_of_mem_removals {ids : List String} {s : Database} {w : Write Row.key}
    (h : w ∈ removals ids s) : w.after = none := by
  rcases mem_removals.mp h with ⟨id, _, rfl⟩ | ⟨owner, _, _, rfl⟩ <;> rfl

/-- The purge has ended. -/
def isPurged : Control → Bool
  | .purged _ => true
  | .purgeFailed => true
  | _ => false

section Statements

variable {config : Config} {now : Int} {batchSize : Nat} {s : Database} {ids : List String}
  {ps : List (Pending Row.key)} {c : Choice} {writes : Choice → Database → List (Write Row.key)}
  {next : Choice → Database → Sql Control} {a : ServiceActor}

theorem settle_of_selection
    (hrest : (purgeExpired now batchSize).map Control.purged = .stmt writes next)
    (ha : a = (service config).settle (.purging now batchSize) (fun _ => .purgeFailed)
      (next c (view s [])) ([] ++ record (view s []) (writes c (view s [])))) :
    a = (service config).enter (.purged 0) ∨
      a = (service config).settle (.purging now batchSize) (fun _ => .purgeFailed)
        (fromSelection (selection now batchSize c s)) [] := by
  rw [purge_eq] at hrest
  obtain ⟨rfl, rfl⟩ := Tx.stmt.inj hrest
  change a = (service config).settle (.purging now batchSize) _
    (if (selection now batchSize c s).isEmpty then .done (.purged 0)
      else fromSelection (selection now batchSize c s)) [] at ha
  split at ha
  · exact Or.inl ha
  · exact Or.inr ha

theorem settle_of_removals (hrest : fromMessages ids = .stmt writes next)
    (ha : a = (service config).settle (.purging now batchSize) (fun _ => .purgeFailed)
      (next c (view s ps)) (ps ++ record (view s ps) (writes c (view s ps)))) :
    (∃ q, a = (service config).enter q ∧ isPurged q) ∨
      ((present (view s ps) ids).any (isReferenced (view s ps)) = false ∧
        ∃ q, a = ⟨.purging now batchSize, some (.done q),
          ps ++ record (view s ps) (removals ids (view s ps))⟩) := by
  rw [fromMessages_eq] at hrest
  obtain ⟨rfl, rfl⟩ := Tx.stmt.inj hrest
  cases hreferenced : (present (view s ps) ids).any (isReferenced (view s ps)) with
  | true =>
      simp only [hreferenced, if_true] at ha
      exact Or.inl ⟨.purgeFailed, ha, rfl⟩
  | false =>
      simp only [hreferenced, Bool.false_eq_true, if_false, Protocol.settle] at ha
      split at ha
      · exact Or.inl ⟨_, ha, rfl⟩
      · exact Or.inr ⟨rfl, _, ha⟩

end Statements

/-- A purge that has selected messages, and removes rows of the tables until it comes to its
last statements. -/
def Selected (tables : List TableName) (last : Sql Control) (a : ServiceActor) : Prop :=
  ∃ now batchSize rest, a.control = .purging now batchSize ∧ a.rest = some rest ∧
    Until (RemovesFrom tables) last rest

end SmsNotification.PurgeTransaction

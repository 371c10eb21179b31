import Mathlib.Data.List.Sort
import SmsNotification.QueueConstants
import SmsNotification.ReadCommitted
import SmsNotification.SmsStateMachine

/-!
The tables of the database, the keys of their rows, and what a statement takes
from its surroundings: a clock, generated ids and the order in which an
unordered query meets the rows.
-/

namespace SmsNotification.Schema

open SmsNotification.KeyedStore
open SmsNotification.QueueConstants
open SmsNotification.ReadCommitted
open SmsNotification.SmsStateMachine

inductive Json where
  | null
  | bool (b : Bool)
  | num (q : ℚ)
  | str (s : String)
  | arr (items : List Json)
  | obj (fields : List (String × Json))

/-- Property lookup on an object. -/
def Json.field (name : String) : Json → Option Json
  | .obj fields => (fields.find? fun field => field.1 = name).map (·.2)
  | _ => none

structure SmsMessage where
  id : String
  idempotencyKey : String
  recipientPhone : String
  encryptedMessage : String
  metadata : Option Json
  status : SmsStatus
  selectedProvider : Option String
  providerMessageId : Option String
  lastError : Option String
  deliveryAttempts : Nat
  retryRounds : Nat
  retentionExpiresAt : Int
  createdAt : Int
  updatedAt : Int

structure SmsIdempotencyKey where
  key : String
  smsMessageId : String
  expiresAt : Int
  createdAt : Int

inductive SmsAttemptOutcome where
  | reserved
  | accepted
  | failed
  | timeout
  deriving DecidableEq, Repr

structure SmsAttempt where
  id : String
  smsMessageId : String
  provider : String
  providerMessageId : Option String
  outcome : SmsAttemptOutcome
  isRetryable : Bool
  isAmbiguous : Bool
  errorMessage : Option String
  createdAt : Int

inductive SmsAttemptResolutionType where
  | knownSid
  | undelivered
  deriving DecidableEq, Repr

inductive SmsUndeliveredEvidenceCode where
  | twilioUndeliveredConfirmed
  deriving DecidableEq, Repr

structure SmsAttemptResolution where
  id : String
  smsMessageId : String
  smsAttemptId : String
  resolution : SmsAttemptResolutionType
  providerMessageId : Option String
  evidenceCode : Option SmsUndeliveredEvidenceCode
  createdAt : Int

structure OutboxEvent where
  id : String
  aggregateType : String
  aggregateId : String
  eventType : String
  payload : Json
  publishedAt : Option Int
  retryCount : Nat
  lastError : Option String
  createdAt : Int
  updatedAt : Int

inductive Row where
  | message (row : SmsMessage)
  | idempotencyKey (row : SmsIdempotencyKey)
  | attempt (row : SmsAttempt)
  | resolution (row : SmsAttemptResolution)
  | outbox (row : OutboxEvent)

/-- The unique column that the rows of a table are kept apart by: the attempt
for a resolution, the primary key for the others. -/
inductive RowKey where
  | message (id : String)
  | idempotencyKey (key : String)
  | attempt (id : String)
  | resolution (smsAttemptId : String)
  | outbox (id : String)
  deriving DecidableEq, Repr

inductive TableName where
  | smsMessages
  | smsIdempotencyKeys
  | smsAttempts
  | smsAttemptResolutions
  | outboxEvents
  deriving DecidableEq, Repr

def RowKey.table : RowKey → TableName
  | .message _ => .smsMessages
  | .idempotencyKey _ => .smsIdempotencyKeys
  | .attempt _ => .smsAttempts
  | .resolution _ => .smsAttemptResolutions
  | .outbox _ => .outboxEvents

def Row.key : Row → RowKey
  | .message row => .message row.id
  | .idempotencyKey row => .idempotencyKey row.key
  | .attempt row => .attempt row.id
  | .resolution row => .resolution row.smsAttemptId
  | .outbox row => .outbox row.id

/-- The rows a row refers to by a foreign key. -/
def Row.parents : Row → List RowKey
  | .message _ => []
  | .idempotencyKey row => [.message row.smsMessageId]
  | .attempt row => [.message row.smsMessageId]
  | .resolution row => [.message row.smsMessageId, .attempt row.smsAttemptId]
  | .outbox row => [.message row.aggregateId]

abbrev Database := Store Row.key

/-- What `sendSms` resolves to. -/
structure SendSmsResult where
  success : Bool
  providerMessageId : Option String
  error : Option String
  isRetryable : Bool
  isAmbiguous : Option Bool

/-- Moves of the world outside: a provider accepts a call it has been sent, a
delayed job becomes due, time passes, a maintenance job is put on its queue. -/
inductive Move where
  | accept (call : Nat)
  | promote (jobId : String)
  | tick (ms : Nat)
  | schedule (job : Job)

/-- What one step takes from its surroundings. `scan` is the order in which an
unordered query meets the rows, `served` tells whether an external call succeeds
and `effective` whether a failing one has had its effect all the same; `reply` is
none when `sendSms` throws. -/
structure Choice where
  now : Int
  uuid : String
  scan : String → Nat
  served : Bool
  effective : Bool
  pick : Nat
  reply : Option SendSmsResult
  text : String
  move : Move

/-- Generated ids are new to their tables, and no id has a number sign. -/
def Choice.supplied (c : Choice) (s : Database) : Bool :=
  (s.find (.message c.uuid)).isNone && (s.find (.attempt c.uuid)).isNone &&
    (s.find (.outbox c.uuid)).isNone && !c.uuid.toList.contains '#'

/-- What a repository call rejects with. -/
inductive Failure where
  | messageNotFound (messageId : String)
  | invalidTransition (source target : SmsStatus)
  | concurrentModification (messageId : String) (expected target : SmsStatus)
  | invalidTwilioResolution
  | invalidExpiry
  | uniqueViolation
  | foreignKeyViolation
  | recordNotFound
  | invalidDate
  | unavailable
  deriving DecidableEq, Repr

def Failure.message : Failure → String
  | messageNotFound messageId => "SMS message " ++ messageId ++ " not found"
  | invalidTransition source target =>
      "Invalid SMS status transition from " ++ source.name ++ " to " ++ target.name
  | concurrentModification messageId expected target =>
      "SMS message " ++ messageId ++ " changed concurrently; expected " ++ expected.name ++
        " for transition to " ++ target.name
  | invalidTwilioResolution => "providerMessageId must be a valid Twilio SM SID"
  | invalidExpiry => "ambiguousOutcomeExpiryMs must be a positive integer"
  | uniqueViolation => "Unique constraint failed"
  | foreignKeyViolation => "Foreign key constraint violated"
  | recordNotFound => "An operation failed because it depends on a record that was not found"
  | invalidDate => "Provided Date object is invalid. Expected Date."
  | unavailable => "Can't reach database server"

abbrev Sql (α : Type) := Tx Choice Row.key Failure α

/-- One table: how its records sit among the rows and the column they are kept
apart by. -/
structure Table (α : Type) where
  name : TableName
  wrap : α → Row
  unwrap : Row → Option α
  keyOf : String → RowKey
  idOf : α → String
  unwrap_eq_some_iff : ∀ row x, unwrap row = some x ↔ row = wrap x
  key_wrap : ∀ x, (wrap x).key = keyOf (idOf x)
  keyOf_injective : ∀ id id', keyOf id = keyOf id' → id = id'
  table_keyOf : ∀ id, (keyOf id).table = name
  exists_wrap : ∀ row id, row.key = keyOf id → ∃ x, row = wrap x

def smsMessage : Table SmsMessage where
  name := .smsMessages
  wrap := .message
  unwrap
    | .message row => some row
    | _ => none
  keyOf := .message
  idOf := SmsMessage.id
  unwrap_eq_some_iff row x := by cases row <;> simp
  key_wrap _ := rfl
  keyOf_injective _ _ h := RowKey.message.inj h
  table_keyOf _ := rfl
  exists_wrap row _ h := by cases row <;> simp_all [Row.key]

def smsIdempotencyKey : Table SmsIdempotencyKey where
  name := .smsIdempotencyKeys
  wrap := .idempotencyKey
  unwrap
    | .idempotencyKey row => some row
    | _ => none
  keyOf := .idempotencyKey
  idOf := SmsIdempotencyKey.key
  unwrap_eq_some_iff row x := by cases row <;> simp
  key_wrap _ := rfl
  keyOf_injective _ _ h := RowKey.idempotencyKey.inj h
  table_keyOf _ := rfl
  exists_wrap row _ h := by cases row <;> simp_all [Row.key]

def smsAttempt : Table SmsAttempt where
  name := .smsAttempts
  wrap := .attempt
  unwrap
    | .attempt row => some row
    | _ => none
  keyOf := .attempt
  idOf := SmsAttempt.id
  unwrap_eq_some_iff row x := by cases row <;> simp
  key_wrap _ := rfl
  keyOf_injective _ _ h := RowKey.attempt.inj h
  table_keyOf _ := rfl
  exists_wrap row _ h := by cases row <;> simp_all [Row.key]

def smsAttemptResolution : Table SmsAttemptResolution where
  name := .smsAttemptResolutions
  wrap := .resolution
  unwrap
    | .resolution row => some row
    | _ => none
  keyOf := .resolution
  idOf := SmsAttemptResolution.smsAttemptId
  unwrap_eq_some_iff row x := by cases row <;> simp
  key_wrap _ := rfl
  keyOf_injective _ _ h := RowKey.resolution.inj h
  table_keyOf _ := rfl
  exists_wrap row _ h := by cases row <;> simp_all [Row.key]

def outboxEvent : Table OutboxEvent where
  name := .outboxEvents
  wrap := .outbox
  unwrap
    | .outbox row => some row
    | _ => none
  keyOf := .outbox
  idOf := OutboxEvent.id
  unwrap_eq_some_iff row x := by cases row <;> simp
  key_wrap _ := rfl
  keyOf_injective _ _ h := RowKey.outbox.inj h
  table_keyOf _ := rfl
  exists_wrap row _ h := by cases row <;> simp_all [Row.key]

@[simp] theorem smsMessage_idOf (row : SmsMessage) : smsMessage.idOf row = row.id :=
  rfl

@[simp] theorem smsIdempotencyKey_idOf (row : SmsIdempotencyKey) :
    smsIdempotencyKey.idOf row = row.key :=
  rfl

@[simp] theorem smsAttempt_idOf (row : SmsAttempt) : smsAttempt.idOf row = row.id :=
  rfl

@[simp] theorem smsAttemptResolution_idOf (row : SmsAttemptResolution) :
    smsAttemptResolution.idOf row = row.smsAttemptId :=
  rfl

@[simp] theorem outboxEvent_idOf (row : OutboxEvent) : outboxEvent.idOf row = row.id :=
  rfl

/-- The order in which a query without `orderBy` returns its rows. -/
def unordered {α : Type} (c : Choice) (id : α → String) (rows : List α) : List α :=
  rows.insertionSort fun a b => c.scan (id a) ≤ c.scan (id b)

namespace Table

variable {α β : Type} (t : Table α)

/-- `findUnique` by the column of the table's key. -/
def find (s : Database) (id : String) : Option α :=
  (Store.find s (t.keyOf id)).bind t.unwrap

/-- The records that pass a filter, in creation order. -/
def rows (s : Database) (keep : α → Bool) : List α :=
  s.select fun row => (t.unwrap row).filter keep

/-- `updateMany` on the record under `id`. -/
def updateMany (id : String) (guard : α → Bool) (data : Choice → α → α) : Sql Nat :=
  Tx.update (t.keyOf id) (fun row => (t.unwrap row).any guard) fun c row =>
    ((t.unwrap row).map fun x => t.wrap (data c x)).getD row

/-- `create`. -/
def create (data : Choice → α) : Sql α :=
  Tx.insert Row.parents t.wrap data .uniqueViolation .foreignKeyViolation

@[simp] theorem unwrap_wrap (x : α) : t.unwrap (t.wrap x) = some x :=
  (t.unwrap_eq_some_iff _ _).mpr rfl

theorem wrap_injective {x y : α} (h : t.wrap x = t.wrap y) : x = y := by
  have hx := t.unwrap_wrap x
  rw [h, t.unwrap_wrap] at hx
  exact (Option.some.inj hx).symm

variable {t}

theorem find_eq_some_iff {s : Database} {id : String} {x : α} :
    t.find s id = some x ↔ Store.find s (t.keyOf id) = some (t.wrap x) := by
  constructor
  · intro h
    obtain ⟨row, hrow, hx⟩ := Option.bind_eq_some_iff.mp h
    obtain ⟨y, rfl⟩ := t.exists_wrap row id (Store.key_of_find hrow)
    rw [t.unwrap_wrap] at hx
    rw [hrow, Option.some.inj hx]
  · intro h
    rw [find, h, Option.bind_some, t.unwrap_wrap]

theorem idOf_of_find {s : Database} {id : String} {x : α} (h : t.find s id = some x) :
    t.idOf x = id := by
  have hkey := Store.key_of_find (find_eq_some_iff.mp h)
  rw [t.key_wrap] at hkey
  exact t.keyOf_injective _ _ hkey

theorem isSome_find {s : Database} {id : String} :
    (t.find s id).isSome = (Store.find s (t.keyOf id)).isSome := by
  cases h : Store.find s (t.keyOf id) with
  | none => simp [find, h]
  | some row =>
      obtain ⟨x, rfl⟩ := t.exists_wrap row id (Store.key_of_find h)
      simp [find_eq_some_iff.mpr h]

theorem find_eq_none_iff {s : Database} {id : String} :
    t.find s id = none ↔ Store.find s (t.keyOf id) = none := by
  rw [← Option.not_isSome_iff_eq_none, ← Option.not_isSome_iff_eq_none, isSome_find]

theorem mem_rows_iff {s : Database} {keep : α → Bool} {x : α} :
    x ∈ t.rows s keep ↔ t.find s (t.idOf x) = some x ∧ keep x := by
  rw [rows, Store.mem_select, find_eq_some_iff, Store.find_eq_some_iff]
  constructor
  · rintro ⟨row, hrow, hx⟩
    obtain ⟨hunwrap, hkeep⟩ := Option.filter_eq_some_iff.mp hx
    obtain rfl := (t.unwrap_eq_some_iff _ _).mp hunwrap
    exact ⟨⟨hrow, t.key_wrap x⟩, hkeep⟩
  · rintro ⟨⟨hrow, _⟩, hkeep⟩
    exact ⟨t.wrap x, hrow, by simp [hkeep]⟩

theorem rows_congr {s : Database} {keep keep' : α → Bool}
    (h : ∀ x, t.find s (t.idOf x) = some x → keep x = keep' x) :
    t.rows s keep = t.rows s keep' := by
  refine List.filterMap_congr fun row hrow => ?_
  cases hx : t.unwrap row with
  | none => rfl
  | some x =>
      obtain rfl := (t.unwrap_eq_some_iff _ _).mp hx
      have hfind : t.find s (t.idOf x) = some x :=
        find_eq_some_iff.mpr (by rw [← t.key_wrap]; exact Store.find_of_mem hrow)
      simp [Option.filter_some, h x hfind]

theorem filter_rows (s : Database) (keep keep' : α → Bool) :
    (t.rows s keep).filter keep' = t.rows s fun x => keep x && keep' x := by
  rw [rows, rows, Store.select, Store.select, List.filter_filterMap]
  refine List.filterMap_congr fun row _ => ?_
  cases t.unwrap row with
  | none => rfl
  | some x => cases hx : keep x <;> cases hx' : keep' x <;> simp [Option.filter_some, hx, hx']

theorem find_put (s : Database) (x : α) (id : String) :
    t.find (s.apply (.put (t.wrap x))) id = if t.idOf x = id then some x else t.find s id := by
  rw [find, Store.find_apply, Write.target, t.key_wrap]
  by_cases hid : t.idOf x = id
  · simp [hid, Write.after]
  · have hkey : t.keyOf (t.idOf x) ≠ t.keyOf id := fun h => hid (t.keyOf_injective _ _ h)
    simp [hid, hkey, find]

variable (t) in
theorem find_other (s : Database) {w : Write Row.key} (h : w.target.table ≠ t.name)
    (id : String) : t.find (s.apply w) id = t.find s id := by
  have hne : w.target ≠ t.keyOf id := fun heq => h (heq ▸ t.table_keyOf id)
  rw [find, Store.find_apply, if_neg hne, find]

theorem find_delete (s : Database) (id id' : String) :
    t.find (s.apply (.delete (t.keyOf id))) id' = if id = id' then none else t.find s id' := by
  rw [find, Store.find_apply, Write.target]
  by_cases hid : id = id'
  · simp [hid, Write.after]
  · have hkey : t.keyOf id ≠ t.keyOf id' := fun h => hid (t.keyOf_injective _ _ h)
    simp [hid, hkey, find]

theorem rows_create {s : Database} {x : α} (keep : α → Bool)
    (h : t.find s (t.idOf x) = none) :
    t.rows (s.apply (.put (t.wrap x))) keep =
      t.rows s keep ++ if keep x then [x] else [] := by
  rw [find_eq_none_iff, ← t.key_wrap] at h
  rw [rows, Store.select_put_new _ h, rows]
  by_cases hx : keep x <;> simp [hx]

/-- The record in place of the one under its id. -/
def replace (t : Table α) (x : α) (xs : List α) : List α :=
  xs.map fun y => if t.idOf y = t.idOf x then x else y

theorem mem_replace_of_eq {x y : α} {xs : List α} (hy : y ∈ xs) (h : t.idOf y = t.idOf x) :
    x ∈ t.replace x xs :=
  List.mem_map.mpr ⟨y, hy, if_pos h⟩

theorem mem_replace_of_ne {x y : α} {xs : List α} (hy : y ∈ xs) (h : t.idOf y ≠ t.idOf x) :
    y ∈ t.replace x xs :=
  List.mem_map.mpr ⟨y, hy, if_neg h⟩

theorem mem_of_mem_replace {x y : α} {xs : List α} (hy : y ∈ t.replace x xs) :
    y = x ∨ (y ∈ xs ∧ t.idOf y ≠ t.idOf x) := by
  obtain ⟨z, hz, rfl⟩ := List.mem_map.mp hy
  by_cases hid : t.idOf z = t.idOf x
  · exact Or.inl (if_pos hid)
  · rw [if_neg hid]
    exact Or.inr ⟨hz, hid⟩

theorem replace_of_notMem {x : α} {xs : List α} (h : ∀ y ∈ xs, t.idOf y ≠ t.idOf x) :
    t.replace x xs = xs := by
  rw [replace, List.map_congr_left fun y hy => if_neg (h y hy), List.map_id']

theorem replace_append {x old : α} {xs ys : List α}
    (hnodup : ((xs ++ old :: ys).map t.idOf).Nodup) (hid : t.idOf x = t.idOf old) :
    t.replace x (xs ++ old :: ys) = xs ++ x :: ys := by
  rw [List.map_append, List.map_cons, List.nodup_middle, List.nodup_cons, List.mem_append,
    not_or] at hnodup
  have hxs : t.replace x xs = xs := replace_of_notMem fun y hy h =>
    hnodup.1.1 (List.mem_map.mpr ⟨y, hy, h.trans hid⟩)
  have hys : t.replace x ys = ys := replace_of_notMem fun y hy h =>
    hnodup.1.2 (List.mem_map.mpr ⟨y, hy, h.trans hid⟩)
  rw [replace] at hxs hys ⊢
  rw [List.map_append, List.map_cons, hxs, hys, if_pos hid.symm]

theorem dropLast_replace (x : α) (xs : List α) :
    (t.replace x xs).dropLast = t.replace x xs.dropLast :=
  List.map_dropLast.symm

theorem rows_update {s : Database} {x old : α} (keep : α → Bool)
    (h : t.find s (t.idOf x) = some old) (hkeep : keep x = keep old) :
    t.rows (s.apply (.put (t.wrap x))) keep = t.replace x (t.rows s keep) := by
  have hfind := find_eq_some_iff.mp h
  rw [← t.key_wrap] at hfind
  refine Store.select_put_map _ _ hfind fun other hmem => ?_
  by_cases hother : other.key = (t.wrap x).key
  · have hold : other = t.wrap old := by
      have hself := Store.find_of_mem hmem
      rw [hother, hfind] at hself
      exact (Option.some.inj hself).symm
    have hid := idOf_of_find h
    rw [if_pos hother, hold]
    by_cases hx : keep old <;> simp [Option.filter_some, hkeep, hid, hx]
  · rw [if_neg hother]
    cases hunwrap : t.unwrap other with
    | none => rfl
    | some y =>
        obtain rfl := (t.unwrap_eq_some_iff _ _).mp hunwrap
        have hid : t.idOf y ≠ t.idOf x := fun heq =>
          hother (by rw [t.key_wrap, t.key_wrap, heq])
        by_cases hy : keep y <;> simp [Option.filter_some, hy, hid]

theorem rows_update_dropped {s : Database} {x old : α} (keep : α → Bool)
    (h : t.find s (t.idOf x) = some old) (hx : keep x = false) (hold : keep old = false) :
    t.rows (s.apply (.put (t.wrap x))) keep = t.rows s keep := by
  have hfind := find_eq_some_iff.mp h
  rw [← t.key_wrap] at hfind
  exact Store.select_put_same _ hfind (by simp [Option.filter_some, hx, hold])

theorem unwrap_of_table {row : Row} (h : row.key.table ≠ t.name) : t.unwrap row = none := by
  cases hx : t.unwrap row with
  | none => rfl
  | some x =>
      obtain rfl := (t.unwrap_eq_some_iff _ _).mp hx
      exact absurd (by rw [t.key_wrap, t.table_keyOf]) h

theorem rows_other (s : Database) {w : Write Row.key} (h : w.target.table ≠ t.name)
    (keep : α → Bool) : t.rows (s.apply w) keep = t.rows s keep := by
  have hnone : ∀ row : Row, row.key = w.target → (t.unwrap row).filter keep = none := by
    intro row hrow
    simp [unwrap_of_table (hrow ▸ h)]
  cases w with
  | put row =>
      exact Store.select_put_of_none _ (hnone row rfl) fun old hold =>
        hnone old (Store.key_of_find hold)
  | delete k =>
      exact Store.select_delete_of_none _ fun old hold =>
        hnone old (Store.key_of_find hold)

theorem find_put_other (s : Database) {u : Table β} {y : β} (h : u.name ≠ t.name)
    (id : String) : t.find (s.apply (.put (u.wrap y))) id = t.find s id :=
  t.find_other s (by rw [Write.target, u.key_wrap, u.table_keyOf]; exact h) id

theorem rows_put_other (s : Database) {u : Table β} {y : β} (h : u.name ≠ t.name)
    (keep : α → Bool) : t.rows (s.apply (.put (u.wrap y))) keep = t.rows s keep :=
  rows_other s (by rw [Write.target, u.key_wrap, u.table_keyOf]; exact h) keep

theorem rows_nodup (s : Database) (keep : α → Bool) : ((t.rows s keep).map t.idOf).Nodup := by
  have hrows : (t.rows s keep).Nodup := by
    refine s.nodup.of_map.filterMap fun row row' x hx hx' => ?_
    obtain ⟨hrow, _⟩ := Option.filter_eq_some_iff.mp hx
    obtain ⟨hrow', _⟩ := Option.filter_eq_some_iff.mp hx'
    rw [(t.unwrap_eq_some_iff _ _).mp hrow, (t.unwrap_eq_some_iff _ _).mp hrow']
  refine hrows.map_on fun x hx y hy hxy => ?_
  have hfind := (mem_rows_iff.mp hx).1
  rw [hxy, (mem_rows_iff.mp hy).1] at hfind
  exact (Option.some.inj hfind).symm

theorem find_supplied_message {c : Choice} {s : Database} (h : c.supplied s) :
    smsMessage.find s c.uuid = none := by
  simp only [Choice.supplied, Bool.and_eq_true, Option.isNone_iff_eq_none] at h
  exact find_eq_none_iff.mpr h.1.1.1

theorem find_supplied_attempt {c : Choice} {s : Database} (h : c.supplied s) :
    smsAttempt.find s c.uuid = none := by
  simp only [Choice.supplied, Bool.and_eq_true, Option.isNone_iff_eq_none] at h
  exact find_eq_none_iff.mpr h.1.1.2

theorem find_supplied_outbox {c : Choice} {s : Database} (h : c.supplied s) :
    outboxEvent.find s c.uuid = none := by
  simp only [Choice.supplied, Bool.and_eq_true, Option.isNone_iff_eq_none] at h
  exact find_eq_none_iff.mpr h.1.2

theorem notMem_supplied {c : Choice} {s : Database} (h : c.supplied s) :
    '#' ∉ c.uuid.toList := by
  simp only [Choice.supplied, Bool.and_eq_true] at h
  simpa using h.2

theorem current_update {s : Database} {x old : α} {ps : List (Pending Row.key)} :
    Current s (⟨.put (t.wrap x), some (t.wrap old)⟩ :: ps) ↔
      t.find s (t.idOf x) = some old ∧ Current (s.apply (.put (t.wrap x))) ps := by
  simp only [Current, Write.target, t.key_wrap, find_eq_some_iff]

theorem current_create {s : Database} {x : α} {ps : List (Pending Row.key)} :
    Current s (⟨.put (t.wrap x), none⟩ :: ps) ↔
      t.find s (t.idOf x) = none ∧ Current (s.apply (.put (t.wrap x))) ps := by
  simp only [Current, Write.target, t.key_wrap, find_eq_none_iff]

section Writes

variable {good : Option Row → Write Row.key → Prop}

theorem writes_updateMany {id : String} {guard : α → Bool} {data : Choice → α → α}
    (h : ∀ c x, t.idOf x = id → guard x = true →
      t.idOf (data c x) = id ∧ good (some (t.wrap x)) (.put (t.wrap (data c x)))) :
    Writes good (t.updateMany id guard data) := by
  refine Writes.update fun c row hkey hguard => ?_
  obtain ⟨x, rfl⟩ := t.exists_wrap row id hkey
  have hid : t.idOf x = id := t.keyOf_injective _ _ ((t.key_wrap x).symm.trans hkey)
  obtain ⟨hdata, hgood⟩ := h c x hid (by simpa using hguard)
  simpa [t.key_wrap, hdata] using hgood

theorem writes_create {data : Choice → α} (h : ∀ c, good none (.put (t.wrap (data c)))) :
    Writes good (t.create data) :=
  Writes.insert h

theorem writesFrom_create {fair : Choice → Prop} {data : Choice → α}
    (h : ∀ c, fair c → good none (.put (t.wrap (data c)))) :
    WritesFrom fair good (t.create data) :=
  WritesFrom.insert h

end Writes

theorem updateMany_bind {γ : Type} {id : String} {guard : α → Bool} {data : Choice → α → α}
    {next : Nat → Sql γ} :
    (t.updateMany id guard data >>= next) =
      .stmt (fun c s => ((t.find s id).filter guard).toList.map fun x => .put (t.wrap (data c x)))
        fun _ s => next ((t.find s id).filter guard).toList.length := by
  refine congrArg₂ Tx.stmt (funext fun c => funext fun s => ?_) (funext fun c => funext fun s => ?_)
  · cases hrow : Store.find s (t.keyOf id) with
    | none => simp [find, hrow]
    | some row =>
        obtain ⟨x, rfl⟩ := t.exists_wrap row id (Store.key_of_find hrow)
        by_cases hguard : guard x = true <;> simp [find, hrow, Option.filter_some, hguard]
  · cases hrow : Store.find s (t.keyOf id) with
    | none => simp [find, hrow]
    | some row =>
        obtain ⟨x, rfl⟩ := t.exists_wrap row id (Store.key_of_find hrow)
        by_cases hguard : guard x = true <;> simp [find, hrow, Option.filter_some, hguard]

theorem alone_updateMany {γ : Type} {cs : Nat → Choice} {s : Database} {id : String}
    {guard : α → Bool} {data : Choice → α → α} {next : Nat → Sql γ} {x : α}
    (hx : t.find s id = some x) (hguard : guard x) :
    (t.updateMany id guard data >>= next).alone cs s =
      (next 1).alone (fun n => cs (n + 1)) (s.apply (.put (t.wrap (data (cs 0) x)))) := by
  simp [updateMany, Tx.update, Tx.alone, find_eq_some_iff.mp hx, Option.filter_some, hguard]

section Rules

variable {γ : Type} {supply : Choice → Database → Bool} {rely : Database → Database → Prop}
  {spec : Database → Except Failure γ → Database → Prop} {s : Database}
  {ps : List (Pending Row.key)}

theorem takesEffect_updateMany {id : String} {guard : α → Bool} {data : Choice → α → α}
    {next : Nat → Sql γ}
    (hnone : ∀ s', rely s s' → Current s' ps →
      (∀ x, t.find (view s' ps) id = some x → guard x = false) →
      TakesEffect supply rely spec (next 0) s' ps)
    (hsome : ∀ c s' x new, supply c s' → rely s s' → Current s' ps →
      t.find (view s' ps) id = some x → guard x = true → new = data c x → t.idOf new = id →
      TakesEffect supply rely spec (next 1) s'
        (ps ++ [⟨.put (t.wrap new), some (t.wrap x)⟩]))
    (hid : ∀ c x, t.idOf (data c x) = t.idOf x) :
    TakesEffect supply rely spec (t.updateMany id guard data >>= next) s ps := by
  refine takesEffect_update (fun s' hrely hcurrent hmiss => ?_)
    (fun c s' row hsupply hrely hcurrent hfind hguard => ?_)
  · refine hnone s' hrely hcurrent fun x hx => ?_
    simpa using hmiss _ (find_eq_some_iff.mp hx)
  · obtain ⟨x, rfl⟩ := t.exists_wrap row id (Store.key_of_find hfind)
    have hx := find_eq_some_iff.mpr hfind
    have hdata : t.idOf (data c x) = id := (hid c x).trans (idOf_of_find hx)
    have hnext := hsome c s' x _ hsupply hrely hcurrent hx (by simpa using hguard) rfl hdata
    simpa [t.key_wrap, hdata, hfind] using hnext

theorem takesEffect_create {data : Choice → α} {next : α → Sql γ}
    (hdup : ∀ c s', supply c s' → rely s s' → Current s' ps →
      (t.find (view s' ps) (t.idOf (data c))).isSome → spec s' (.error .uniqueViolation) s')
    (hmissing : ∀ c s', rely s s' → Current s' ps →
      (∃ k ∈ (t.wrap (data c)).parents, Store.find (view s' ps) k = none) →
      spec s' (.error .foreignKeyViolation) s')
    (hnext : ∀ c s' new, supply c s' → rely s s' → Current s' ps → new = data c →
      t.find (view s' ps) (t.idOf new) = none →
      TakesEffect supply rely spec (next new) s' (ps ++ [⟨.put (t.wrap new), none⟩])) :
    TakesEffect supply rely spec (t.create data >>= next) s ps := by
  refine takesEffect_insert (fun c s' hsupply hrely hcurrent htaken => ?_) hmissing
    (fun c s' hsupply hrely hcurrent hfree _ => ?_)
  · refine hdup c s' hsupply hrely hcurrent ?_
    rwa [isSome_find, ← t.key_wrap]
  · refine hnext c s' _ hsupply hrely hcurrent rfl ?_
    rwa [find_eq_none_iff, ← t.key_wrap]

end Rules

end Table

end SmsNotification.Schema

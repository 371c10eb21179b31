import Mathlib
import SmsNotification.IdempotentIngestion
import SmsNotification.PurgeTransaction

/-!
Idempotency keys and the retention purge. A key goes with its message, so it lives
as long as it should where its time to live is no longer than the retention of
messages; the purge removes a key that has not expired where it is longer.
-/

namespace SmsNotification.KeyRetention

open SmsNotification.ActorSystem
open SmsNotification.IdempotentIngestion
open SmsNotification.KeyedStore
open SmsNotification.LabelledRuns
open SmsNotification.LifecycleEffects
open SmsNotification.MessageAggregate
open SmsNotification.OperationFrames
open SmsNotification.PurgeTransaction
open SmsNotification.ReadCommitted
open SmsNotification.RetentionService
open SmsNotification.Schema
open SmsNotification.Service
open SmsNotification.ServiceEffects
open SmsNotification.ServiceRuns
open SmsNotification.SmsLifecycleRepository
open SmsNotification.SmsPersistenceRepository
open SmsNotification.Surroundings

/-- When the retention of a message elapses. -/
def retention? (s : Database) (m : String) : Option Int :=
  (smsMessage.find s m).map (·.retentionExpiresAt)

/-- What decides how long a row of one of the two tables is kept. -/
def lifetime : Row → Option (Int ⊕ SmsIdempotencyKey)
  | .message row => some (.inl row.retentionExpiresAt)
  | .idempotencyKey row => some (.inr row)
  | _ => none

/-- No message and no key comes, goes or gets another lifetime. -/
def KeepsLifetimes (s s' : Database) : Prop :=
  ∀ k, (s'.find k).bind lifetime = (s.find k).bind lifetime

/-- A write that leaves the lifetime of the row it finds. -/
def Keeps (before : Option Row) (w : Write Row.key) : Prop :=
  w.after.bind lifetime = before.bind lifetime

section Lifetimes

variable {s s' : Database} {m k : String}

theorem keepsLifetimes_apply (s : Database) (w : Write Row.key) (h : Keeps (s.find w.target) w) :
    KeepsLifetimes s (s.apply w) := by
  intro k
  rw [Store.find_apply]
  by_cases hk : w.target = k
  · subst hk
    rw [if_pos rfl]
    exact h
  · rw [if_neg hk]

theorem retention?_eq (s : Database) (m : String) :
    retention? s m = ((s.find (.message m)).bind lifetime).bind Sum.getLeft? := by
  cases hrow : s.find (smsMessage.keyOf m) with
  | none =>
      rw [retention?, Table.find_eq_none_iff.mpr hrow, show s.find (.message m) = none from hrow]
      rfl
  | some row =>
      obtain ⟨x, rfl⟩ := smsMessage.exists_wrap row m (Store.key_of_find hrow)
      rw [retention?, Table.find_eq_some_iff.mpr hrow, show s.find (.message m) = _ from hrow]
      rfl

theorem owner?_eq (s : Database) (k : String) :
    owner? s k = ((s.find (.idempotencyKey k)).bind lifetime).bind Sum.getRight? := by
  cases hrow : s.find (smsIdempotencyKey.keyOf k) with
  | none =>
      rw [owner?, Table.find_eq_none_iff.mpr hrow,
        show s.find (.idempotencyKey k) = none from hrow]
      rfl
  | some row =>
      obtain ⟨x, rfl⟩ := smsIdempotencyKey.exists_wrap row k (Store.key_of_find hrow)
      rw [owner?, Table.find_eq_some_iff.mpr hrow, show s.find (.idempotencyKey k) = _ from hrow]
      rfl

theorem KeepsLifetimes.retention? (h : KeepsLifetimes s s') : retention? s' m = retention? s m := by
  rw [retention?_eq, retention?_eq, h]

theorem KeepsLifetimes.owner? (h : KeepsLifetimes s s') : owner? s' k = owner? s k := by
  rw [owner?_eq, owner?_eq, h]

theorem lifetime_of_rowChange {before after : Option Row} (h : RowChange m before after) :
    after.bind lifetime = before.bind lifetime := by
  cases h with
  | same => rfl
  | message hold hnew => simp [lifetime, hnew.retentionExpiresAt]
  | _ => rfl

end Lifetimes

section Programs

variable {config : Config} {q : Control} {t : Sql Control} {onError : Failure → Control}
  {m : String}

theorem writes_recoverCandidate (cutoff : Int) :
    Writes (Concerns m) (recoverCandidate cutoff m) := by
  refine .bind (writes_updateMessage fun _ _ => by constructor <;> rfl) fun updated => ?_
  split
  · exact .done _
  · exact .bind (writes_createOutboxEvent _) fun _ => .done _

theorem writes_dispatch {processor : SmsProcessor.Config} {state : SmsProcessor.State}
    (hcode : dispatchCode processor state = .tx t onError) : ∃ m, Writes (Concerns m) t := by
  cases state with
  | beginning task =>
      obtain ⟨rfl, _⟩ := Code.tx.inj hcode
      exact ⟨_, writes_beginProcessing.map _⟩
  | loading task begin =>
      obtain ⟨rfl, _⟩ := Code.tx.inj hcode
      exact ⟨"", (Writes.read _).map _⟩
  | markingMissing task =>
      obtain ⟨rfl, _⟩ := Code.tx.inj hcode
      exact ⟨_, (writes_guardedTransition _ (fun _ => by constructor <;> rfl) _).map _⟩
  | reserving pass provider rest =>
      obtain ⟨rfl, _⟩ := Code.tx.inj hcode
      exact ⟨_, (writes_reserveProviderAttempt _).map _⟩
  | finalizing hold input =>
      obtain ⟨rfl, _⟩ := Code.tx.inj hcode
      exact ⟨_, (writes_finalizeProviderAttempt _ _).map _⟩
  | schedulingRetry pass opts =>
      obtain ⟨rfl, _⟩ := Code.tx.inj hcode
      exact ⟨_, (writes_guardedTransition _ (fun _ => by constructor <;> rfl) _).map _⟩
  | markingFatal pass lastError reason =>
      obtain ⟨rfl, _⟩ := Code.tx.inj hcode
      exact ⟨_, (writes_guardedTransition _ (fun _ => by constructor <;> rfl) _).map _⟩
  | _ => simp [dispatchCode] at hcode

theorem writes_sweep {state : Sweep} (hcode : sweepCode state = .tx t onError) :
    ∃ m, Writes (Concerns m) t := by
  cases state with
  | selecting cutoff limit =>
      obtain ⟨rfl, _⟩ := Code.tx.inj hcode
      exact ⟨"", (Writes.read _).map _⟩
  | recovering cutoff candidate rest recovered =>
      obtain ⟨rfl, _⟩ := Code.tx.inj hcode
      exact ⟨_, (writes_recoverCandidate cutoff).map _⟩
  | _ => simp [sweepCode] at hcode

theorem Writes.keep {α : Type} {t : Sql α} (h : Writes (Concerns m) t) : Writes Keeps t :=
  h.mono fun _ _ => lifetime_of_rowChange

theorem keeps_operation (op : Operation) : Writes Keeps (runOperation op) := by
  cases op with
  | beginProcessing m => exact Writes.keep (writes_beginProcessing.map _)
  | reserveProviderAttempt m providerName =>
      exact Writes.keep ((writes_reserveProviderAttempt providerName).map _)
  | finalizeProviderAttempt m attemptId input =>
      exact Writes.keep ((writes_finalizeProviderAttempt attemptId input).map _)
  | resolveTwilioAttempt m attemptId input =>
      exact Writes.keep ((writes_resolveTwilioAttempt attemptId input).map _)
  | scheduleRetry m opts =>
      exact Writes.keep ((writes_guardedTransition _ (fun _ => by constructor <;> rfl) _).map _)
  | markPermanentProviderFailure m status lastError =>
      exact Writes.keep ((writes_guardedTransition _ (fun _ => by constructor <;> rfl) _).map _)
  | markFatalFailure m lastError =>
      exact Writes.keep ((writes_guardedTransition _ (fun _ => by constructor <;> rfl) _).map _)
  | expireAmbiguousOutcome m => exact Writes.keep (writes_expireAmbiguousOutcome.map _)
  | resetForRequeue m => exact Writes.keep (writes_resetForRequeue.map _)
  | applyDeliveryReport input =>
      refine Writes.map _ ((Writes.read _).bind fun found => ?_)
      cases found with
      | none => exact .done _
      | some current => exact Writes.keep (writes_report current.status input.terminalStatus.status)

theorem keeps_updateOutboxEvent (id : String) {data : Choice → OutboxEvent → OutboxEvent}
    (hdata : ∀ c row, (data c row).id = row.id) : Writes Keeps (updateOutboxEvent id data) := by
  refine .bind (Table.writes_updateMany fun c row hid _ => ⟨(hdata c row).trans hid, rfl⟩)
    fun count => ?_
  split
  · exact .abort _
  · exact .done _

theorem keeps_relay {state : OutboxRelayService.State} (hcode : relayCode state = .tx t onError) :
    Writes Keeps t := by
  cases state with
  | fetching batchSize =>
      obtain ⟨rfl, _⟩ := Code.tx.inj hcode
      exact (Writes.read _).map _
  | marking event rest =>
      obtain ⟨rfl, _⟩ := Code.tx.inj hcode
      have hid : ∀ c row, (published c row).id = row.id := fun _ _ => rfl
      exact (keeps_updateOutboxEvent _ hid).map _
  | recording event description rest =>
      obtain ⟨rfl, _⟩ := Code.tx.inj hcode
      have hid : ∀ c row, (publishFailed description c row).id = row.id := fun _ _ => rfl
      exact (keeps_updateOutboxEvent _ hid).map _
  | _ => simp [relayCode] at hcode

/-- A control state that the service has here: not one of a maintenance worker, and a
call of `createOrGetMessage` has the one time to live. -/
def Admits (ttl : Int) : Control → Prop
  | .creating call _ => call.idempotencyTtlHours = ttl
  | .maintenance _ => False
  | _ => True

theorem commitsAs_admits {ttl : Int} (hq : Admits ttl q) (hcode : code config q = .tx t onError) :
    CommitsAs (Admits ttl) true t := by
  cases q with
  | creating call again =>
      obtain ⟨rfl, _⟩ := Code.tx.inj hcode
      exact .values fun _ => trivial
  | maintenance state => exact hq.elim
  | created _ _ | createFailed _ _ _ => simp [code] at hcode
  | _ =>
      refine (commitsAs_family hcode).mono fun q' hfamily => ?_
      cases q' <;> first | exact trivial | simp [family] at hfamily

theorem admits_of_error {ttl : Int} (hq : Admits ttl q) (hcode : code config q = .tx t onError)
    (e : Failure) : Admits ttl (onError e) := by
  cases q with
  | creating call again =>
      obtain ⟨_, rfl⟩ := Code.tx.inj hcode
      dsimp only
      split
      · exact hq
      · trivial
  | maintenance state => exact hq.elim
  | created _ _ | createFailed _ _ _ => simp [code] at hcode
  | _ =>
      have hfamily := (family_of_error hcode e).1
      generalize onError e = q' at hfamily
      cases q' <;> first | exact trivial | simp [family] at hfamily

theorem admits_of_act {ttl : Int} {q' : Control} {c : Choice} {o o' : Outside}
    (hq : Admits ttl q) (h : Acts config c o q o' q') : Admits ttl q' := by
  cases h with
  | tookMaintenance _ _ | completed _ _ | failedMaintenance _ => exact hq.elim
  | _ => trivial

theorem takesEffect_keepsLifetimes {α : Type} {t : Sql α} (h : Writes Keeps t)
    {rely : Database → Database → Prop} (s : Database) :
    TakesEffect Choice.supplied rely (fun s _ s' => KeepsLifetimes s s') t s [] :=
  h.takesEffect (fun _ _ => rfl) (fun _ _ _ h₁ h₂ k => (h₂ k).trans (h₁ k))
    keepsLifetimes_apply (by simp)

/-- What the transaction of a control state does to the lifetimes; nothing is said of
the purge. -/
def lifetimeSpec (ttl : Int) (q : Control) (s : Database) (r : Except Failure Control)
    (s' : Database) : Prop :=
  (∀ q', r = .ok q' → Admits ttl q') ∧
    match q with
    | .creating call _ => Maps (.created call) (createOrGetMessageSpec call) s r s'
    | .purging _ _ => True
    | _ => KeepsLifetimes s s'

theorem takesEffect_lifetime {ttl : Int} (hq : Admits ttl q)
    (hcode : code config q = .tx t onError) (s : Database) :
    TakesEffect Choice.supplied (fun _ _ => True) (lifetimeSpec ttl q) t s [] := by
  refine (commitsAs_admits hq hcode).answers.and ?_
  cases q with
  | creating call again =>
      obtain ⟨rfl, _⟩ := Code.tx.inj hcode
      exact (takesEffect_createOrGetMessageInTransaction call).map _
  | purging now batchSize => exact takesEffect_trivial t
  | calling op =>
      obtain ⟨rfl, _⟩ := Code.tx.inj hcode
      exact takesEffect_keepsLifetimes ((keeps_operation op).map _) s
  | dispatch state =>
      obtain ⟨m, hwrites⟩ := writes_dispatch hcode
      exact takesEffect_keepsLifetimes (Writes.keep hwrites) s
  | sweep state =>
      obtain ⟨m, hwrites⟩ := writes_sweep hcode
      exact takesEffect_keepsLifetimes (Writes.keep hwrites) s
  | relay state => exact takesEffect_keepsLifetimes (keeps_relay hcode) s
  | maintenance state => exact hq.elim
  | _ => simp [code] at hcode

theorem sound_lifetime (config : Config) (ttl : Int) :
    Sound (service config) (Admits ttl) (fun _ _ => True) (lifetimeSpec ttl) where
  refl _ := trivial
  trans _ _ _ _ _ := trivial
  guarantee _ _ _ _ _ _ := trivial
  takesEffect _ _ _ hq hcode s := takesEffect_lifetime hq hcode s
  live_ok _ _ _ _ q' _ _ _ h := h.1 q' rfl
  live_error _ _ _ e hq hcode := admits_of_error hq hcode e
  live_act _ _ _ _ _ _ hq hcode hact := admits_of_act hq (acts_of_code hcode hact)
  live_crashed q hq := by cases q <;> first | exact trivial | exact hq.elim

end Programs

/-- Every key has its message and expires no later than the retention of the message
elapses. -/
def Backed (s : Database) : Prop :=
  ∀ k owner, owner? s k = some owner →
    ∃ elapses, retention? s owner.smsMessageId = some elapses ∧ owner.expiresAt ≤ elapses

/-- The uncommitted removals of a purge over the committed rows: the keys have
expired, and the keys of a message go with it. -/
structure Deleting (now : Int) (s : Database) (ps : List (Pending Row.key)) : Prop where
  removes : ∀ p ∈ ps, p.write.after = none
  expired : ∀ p ∈ ps, ∀ owner, owner? s owner.key = some owner →
    p.write.target = .idempotencyKey owner.key → owner.expiresAt ≤ now
  cascades : ∀ p ∈ ps, ∀ owner, owner? s owner.key = some owner →
    p.write.target = .message owner.smsMessageId →
    ∃ p' ∈ ps, p'.write.target = .idempotencyKey owner.key
  present : ∀ p ∈ ps, ∀ m, p.write.target = .message m → (retention? s m).isSome

/-- What one commit does to the lifetimes. -/
inductive LifetimeStep (ttl : Int) (q : Control) (s s' : Database) : Prop where
  | kept : KeepsLifetimes s s' → LifetimeStep ttl q s s'
  | created (call : CreateOrGetMessage) (again : Bool) (message : SmsMessage) :
      q = .creating call again → call.idempotencyTtlHours = ttl →
      createOrGetMessageSpec call s (.ok ⟨true, message⟩) s' → LifetimeStep ttl q s s'
  | purged (now : Int) (batchSize : Nat) (ps : List (Pending Row.key)) :
      q = .purging now batchSize → Deleting now s ps → s' = view s ps → LifetimeStep ttl q s s'

section Lifetimes

variable {ttl now : Int} {q : Control} {s s' : Database} {ps : List (Pending Row.key)}
  {call : CreateOrGetMessage} {message : SmsMessage} {k m : String}

theorem retention?_of_created (h : createOrGetMessageSpec call s (.ok ⟨true, message⟩) s') :
    retention? s message.id = none ∧ ∀ m, retention? s' m =
      if m = message.id then some call.retentionExpiresAt
      else retention? s m := by
  obtain ⟨_, ⟨A', ⟨c, events', hnone, _, hmessage, _, rfl⟩, hupdate⟩, _⟩ := h
  have hfind : ∀ s m, smsMessage.find s m = (aggregate s m).message := fun _ _ => rfl
  refine ⟨by rw [retention?, hfind, hnone]; rfl, fun m => ?_⟩
  rw [retention?, retention?, hfind, hfind, hupdate]
  by_cases hm : m = message.id
  · rw [hm, Function.update_self, if_pos rfl]
    rfl
  · rw [Function.update_of_ne hm, if_neg hm]

theorem retention?_view (hps : ∀ p ∈ ps, p.write.after = none) :
    retention? (view s ps) m = retention? s m ∨
      (retention? (view s ps) m = none ∧ ∃ p ∈ ps, p.write.target = .message m) := by
  by_cases htouched : ∃ p ∈ ps, p.write.target = .message m
  · refine Or.inr ⟨?_, htouched⟩
    rw [retention?_eq, find_view_of_removed hps htouched]
    rfl
  · refine Or.inl ?_
    rw [retention?_eq, retention?_eq,
      find_view_of_untouched fun p hp heq => htouched ⟨p, hp, heq⟩]

theorem owner?_view (hps : ∀ p ∈ ps, p.write.after = none) :
    owner? (view s ps) k = owner? s k ∨
      (owner? (view s ps) k = none ∧ ∃ p ∈ ps, p.write.target = .idempotencyKey k) := by
  by_cases htouched : ∃ p ∈ ps, p.write.target = .idempotencyKey k
  · refine Or.inr ⟨?_, htouched⟩
    rw [owner?_eq, find_view_of_removed hps htouched]
    rfl
  · refine Or.inl ?_
    rw [owner?_eq, owner?_eq, find_view_of_untouched fun p hp heq => htouched ⟨p, hp, heq⟩]

theorem Deleting.expired_of_removed (h : Deleting now s ps) {owner : SmsIdempotencyKey}
    (howner : owner? s k = some owner) (hremoved : owner? (view s ps) k = none) :
    owner.expiresAt ≤ now := by
  obtain rfl : owner.key = k := Table.idOf_of_find howner
  obtain hsame | ⟨_, p, hp, htarget⟩ := owner?_view h.removes
  · rw [hsame, howner] at hremoved
    simp at hremoved
  · exact h.expired p hp owner howner htarget

/-- The time at which a call or a purge takes place. -/
def time? : Control → Option Int
  | .creating call _ => some call.now
  | .purging now _ => some now
  | _ => none

/-- A time to live that is no longer than the retention of messages, or so long that
the date at which a key would expire does not exist. -/
def OutlivesRetention (ttl : Int) : Prop :=
  ttl ≤ 2160 ∨ 2400000000 < ttl

theorem expiresAt_le (httl : OutlivesRetention call.idempotencyTtlHours) (hnow : 0 ≤ call.now)
    (htime : isTime call.expiresAt) : call.expiresAt ≤ call.retentionExpiresAt := by
  simp only [isTime, Bool.and_eq_true, decide_eq_true_eq] at htime
  unfold CreateOrGetMessage.expiresAt CreateOrGetMessage.retentionExpiresAt
    idempotencyLifetimeMilliseconds retentionLifetimeMilliseconds maxTime at *
  rcases httl with hshort | hlong <;> omega

theorem Backed.step (hbacked : Backed s) (httl : OutlivesRetention ttl)
    (hnow : ∀ now, time? q = some now → 0 ≤ now) (h : LifetimeStep ttl q s s') : Backed s' := by
  intro k owner howner
  cases h with
  | kept hkept =>
      rw [hkept.owner?] at howner
      rw [hkept.retention?]
      exact hbacked k owner howner
  | created call again message hq hcall hspec =>
      obtain ⟨hnone, hretention⟩ := retention?_of_created hspec
      obtain ⟨new, hmessage, hexpires, howners⟩ := owner_of_created hspec
      rw [howners] at howner
      split at howner
      · obtain rfl := Option.some.inj howner
        refine ⟨_, by rw [hretention, if_pos hmessage], ?_⟩
        rw [hexpires]
        exact expiresAt_le (hcall ▸ httl) (hnow _ (by rw [hq]; rfl))
          (Bool.and_eq_true _ _ ▸ hspec.1).2
      · obtain ⟨elapses, helapses, hle⟩ := hbacked k owner howner
        refine ⟨elapses, ?_, hle⟩
        rw [hretention, if_neg, helapses]
        intro heq
        rw [heq, hnone] at helapses
        simp at helapses
  | purged now batchSize ps _ hdeleting hs' =>
      subst hs'
      have hk : owner.key = k := Table.idOf_of_find howner
      obtain hsame | ⟨hgone, _⟩ := owner?_view hdeleting.removes (k := k)
      · rw [hsame] at howner
        obtain ⟨elapses, helapses, hle⟩ := hbacked k owner howner
        obtain hkept | ⟨_, p, hp, htarget⟩ :=
          retention?_view hdeleting.removes (m := owner.smsMessageId)
        · exact ⟨elapses, hkept.trans helapses, hle⟩
        · -- the key of a removed message is removed with it
          obtain ⟨p', hp', htarget'⟩ :=
            hdeleting.cascades p hp owner (by rw [hk]; exact howner) htarget
          rw [hk] at htarget'
          rw [← hsame, owner?_eq, find_view_of_removed hdeleting.removes ⟨p', hp', htarget'⟩]
            at howner
          simp at howner
      · rw [hgone] at howner
        simp at howner

theorem owner_of_lifetimeStep (h : LifetimeStep ttl q s s') {owner : SmsIdempotencyKey}
    (howner : owner? s k = some owner) :
    owner? s' k = some owner ∨ ∃ now, time? q = some now ∧ owner.expiresAt ≤ now := by
  cases h with
  | kept hkept => exact Or.inl (by rw [hkept.owner?, howner])
  | created call again message hq _ hspec =>
      obtain ⟨new, _, _, howners⟩ := owner_of_created hspec
      by_cases hk : k = call.input.idempotencyKey
      · exact Or.inr ⟨call.now, by rw [hq]; rfl, hspec.2.2.1 owner (hk ▸ howner)⟩
      · exact Or.inl (by rw [howners, if_neg hk, howner])
  | purged now batchSize ps hq hdeleting hs' =>
      subst hs'
      obtain hsame | ⟨hgone, _⟩ := owner?_view hdeleting.removes (k := k)
      · exact Or.inl (hsame.trans howner)
      · exact Or.inr ⟨now, by rw [hq]; rfl, hdeleting.expired_of_removed howner hgone⟩

end Lifetimes

/-- How far a purge has come: it has not selected yet, it has selected messages and
clears the tables that refer to them, or it has removed them. -/
inductive Stage (now : Int) (batchSize : Nat) (s : Database) : ServiceActor → Prop where
  | selecting : Stage now batchSize s
      ⟨.purging now batchSize, some ((purgeExpired now batchSize).map .purged), []⟩
  | clearing {ids : List String} {rest : Sql Control} {ps : List (Pending Row.key)} :
      Until (RemovesFrom childTables) (fromMessages ids) rest →
      (∀ p ∈ ps, RemovesFrom childTables p.write) →
      (∀ m ∈ ids, ∀ elapses, retention? s m = some elapses → elapses ≤ now) →
      Stage now batchSize s ⟨.purging now batchSize, some rest, ps⟩
  | deleting {q : Control} {ps : List (Pending Row.key)} : Deleting now s ps →
      Stage now batchSize s ⟨.purging now batchSize, some (.done q), ps⟩

section Stages

variable {config : Config} {ttl now : Int} {batchSize : Nat} {s s' : Database} {a : ServiceActor}
  {ids : List String} {ps : List (Pending Row.key)}

theorem deleting_of_removals (hbacked : Backed s)
    (hps : ∀ p ∈ ps, RemovesFrom childTables p.write)
    (hids : ∀ m ∈ ids, ∀ elapses, retention? s m = some elapses → elapses ≤ now) :
    Deleting now s (ps ++ record (view s ps) (removals ids (view s ps))) := by
  have howner : ∀ k, owner? (view s ps) k = owner? s k := by
    intro k
    rw [owner?_eq, owner?_eq, find_view_of_removesFrom hps (by simp [RowKey.table])]
  have hretention : ∀ m, retention? (view s ps) m = retention? s m := by
    intro m
    rw [retention?_eq, retention?_eq, find_view_of_removesFrom hps (by simp [RowKey.table])]
  have hwrite : ∀ p ∈ ps ++ record (view s ps) (removals ids (view s ps)),
      p.write.target.table ∉ childTables → p.write ∈ removals ids (view s ps) := by
    intro p hp htable
    rcases List.mem_append.mp hp with hp | hp
    · exact absurd (hps p hp).2 htable
    · exact write_mem_of_record hp
  constructor
  · intro p hp
    rcases List.mem_append.mp hp with hp | hp
    · exact (hps p hp).1
    · exact after_of_mem_removals (write_mem_of_record hp)
  · intro p hp owner hfind htarget
    obtain ⟨m, _, heq⟩ | ⟨removed, hremoved, hmem, heq⟩ :=
      mem_removals.mp (hwrite p hp (by simp [htarget, RowKey.table]))
    · simp [heq, Write.target] at htarget
    · obtain hkey : removed.key = owner.key := by simpa [heq, Write.target] using htarget
      have hsame : owner? s removed.key = some removed := (howner _).symm.trans hremoved
      rw [hkey, hfind] at hsame
      obtain rfl := Option.some.inj hsame
      obtain ⟨elapses, helapses, hle⟩ := hbacked _ owner hfind
      exact hle.trans (hids _ (mem_present.mp hmem).1 elapses helapses)
  · intro p hp owner hfind htarget
    obtain ⟨m, hm, heq⟩ | ⟨removed, _, _, heq⟩ :=
      mem_removals.mp (hwrite p hp (by simp [htarget, RowKey.table]))
    · obtain rfl : m = owner.smsMessageId := by simpa [heq, Write.target] using htarget
      have hremoval : Write.delete (.idempotencyKey owner.key) ∈ removals ids (view s ps) :=
        mem_removals.mpr (Or.inr ⟨owner, (howner _).trans hfind, hm, rfl⟩)
      obtain ⟨p', hp', hwrite'⟩ := exists_mem_record (view s ps) hremoval
      exact ⟨p', List.mem_append_right _ hp', by rw [hwrite']; rfl⟩
    · simp [heq, Write.target] at htarget
  · intro p hp m htarget
    obtain ⟨m', hm', heq⟩ | ⟨removed, _, _, heq⟩ :=
      mem_removals.mp (hwrite p hp (by simp [htarget, RowKey.table]))
    · obtain rfl : m' = m := by simpa [heq, Write.target] using htarget
      rw [← hretention, retention?, Option.isSome_map]
      exact (mem_present.mp hm').2
    · simp [heq, Write.target] at htarget

theorem Stage.settle (h : Stage now batchSize s a) (hbacked : Backed s) {c : Choice}
    {writes : Choice → Database → List (Write Row.key)} {next : Choice → Database → Sql Control}
    (hrest : a.rest = some (.stmt writes next)) {a' : ServiceActor}
    (ha' : a' = (service config).settle a.control (fun _ => .purgeFailed)
      (next c (view s a.pending))
      (a.pending ++ record (view s a.pending) (writes c (view s a.pending)))) :
    (∃ q, a' = (service config).enter q ∧ family q = .purge ∧ time? q = none) ∨
      Stage now batchSize s a' := by
  cases h with
  | selecting =>
      obtain hended | hselected := settle_of_selection (Option.some.inj hrest) ha'
      · exact Or.inl ⟨.purged 0, hended, rfl, rfl⟩
      · have huntil := until_fromMessages (selection now batchSize c s)
        obtain ⟨_, herror⟩ | hgoes := settle_of_until huntil ⟨_, _, fromMessages_eq _⟩ hselected
        · exact Or.inl ⟨.purgeFailed, herror, rfl, rfl⟩
        · refine Or.inr (hgoes ▸ .clearing huntil (by simp) fun m hm elapses helapses => ?_)
          obtain ⟨row, hrow, helapsed, _⟩ := of_mem_selection hm
          rw [retention?, hrow] at helapses
          exact Option.some.inj helapses ▸ helapsed
  | @clearing ids rest ps huntil hps hids =>
      obtain rfl := Option.some.inj hrest
      obtain hlast | ⟨hwrites, hnext⟩ := huntil.stmt_cases
      · obtain ⟨q, hended, hq⟩ | ⟨_, q, hremoved⟩ := settle_of_removals hlast ha'
        · exact Or.inl ⟨q, hended, by cases q <;> simp_all [isPurged, family, time?]⟩
        · exact Or.inr (hremoved ▸ .deleting (deleting_of_removals hbacked hps hids))
      · obtain ⟨_, herror⟩ | hgoes := settle_of_until (hnext _ _) ⟨_, _, fromMessages_eq _⟩ ha'
        · exact Or.inl ⟨.purgeFailed, herror, rfl, rfl⟩
        · exact Or.inr (hgoes ▸ .clearing (hnext _ _) (removesFrom_append hps (hwrites _ _)) hids)
  | deleting h => simp at hrest

theorem Deleting.other {q : Control} (h : Deleting now s ps) (hstep : LifetimeStep ttl q s s')
    (hkept : ∀ p ∈ ps, s'.find p.write.target = s.find p.write.target) : Deleting now s' ps := by
  have hretention : ∀ p ∈ ps, ∀ m, p.write.target = .message m →
      retention? s' m = retention? s m := by
    intro p hp m htarget
    rw [retention?_eq, retention?_eq, ← htarget, hkept p hp]
  refine ⟨h.removes, fun p hp owner howner htarget => ?_, fun p hp owner howner htarget => ?_,
    fun p hp m htarget => ?_⟩
  · refine h.expired p hp owner ?_ htarget
    rwa [owner?_eq, ← htarget, ← hkept p hp, htarget, ← owner?_eq]
  · refine h.cascades p hp owner ?_ htarget
    cases hstep with
    | kept hkept => rwa [hkept.owner?] at howner
    | created call again message _ _ hspec =>
        obtain ⟨hnone, _⟩ := retention?_of_created hspec
        obtain ⟨new, hmessage, _, howners⟩ := owner_of_created hspec
        rw [howners] at howner
        split at howner
        · obtain rfl := Option.some.inj howner
          have hpresent := h.present p hp _ htarget
          rw [hmessage, hnone] at hpresent
          simp at hpresent
        · exact howner
    | purged now' batchSize' ps' _ hdeleting hs' =>
        subst hs'
        obtain hsame | ⟨hgone, _⟩ := owner?_view hdeleting.removes (k := owner.key)
        · rwa [hsame] at howner
        · rw [hgone] at howner
          simp at howner
  · rw [hretention p hp m htarget]
    exact h.present p hp m htarget

theorem Stage.other {q : Control} (h : Stage now batchSize s a) (hstep : LifetimeStep ttl q s s')
    (hkept : ∀ p ∈ a.pending, s'.find p.write.target = s.find p.write.target)
    (hfresh : ∀ ids, Selected childTables (fromMessages ids) a → ∀ m ∈ ids,
      retention? s m = none → retention? s' m = none) :
    Stage now batchSize s' a := by
  cases h with
  | selecting => exact .selecting
  | @clearing ids rest ps huntil hps hids =>
      refine .clearing huntil hps fun m hm elapses helapses => hids m hm elapses ?_
      have hsome : retention? s m ≠ none := fun hnone => by
        rw [hfresh ids ⟨now, batchSize, rest, rfl, rfl, huntil⟩ m hm hnone] at helapses
        simp at helapses
      cases hstep with
      | kept hkept => rwa [hkept.retention?] at helapses
      | created call again message _ _ hspec =>
          obtain ⟨hnone, hretention⟩ := retention?_of_created hspec
          rwa [hretention, if_neg fun heq : m = message.id => hsome (heq ▸ hnone)] at helapses
      | purged now' batchSize' ps' _ hdeleting hs' =>
          subst hs'
          obtain hsame | ⟨hgone, _⟩ := retention?_view hdeleting.removes (m := m)
          · rwa [hsame] at helapses
          · rw [hgone] at helapses
            simp at helapses
  | deleting hdeleting => exact .deleting (hdeleting.other hstep hkept)

end Stages

/-- The id of a message that an actor commits is one that a purge under way has
selected. -/
def Reuses (w : ServiceWorld) (l : ServiceLabel) : Prop :=
  ∃ (i j : Nat) (a b : ServiceActor) (ids : List String) (p : Pending Row.key) (m : String),
    w.actors[i]? = some a ∧ w.actors[j]? = some b ∧ i ≠ j ∧ (l = .commit j ∨ l = .lost j) ∧
      Selected childTables (fromMessages ids) a ∧ m ∈ ids ∧ p ∈ b.pending ∧ p.before = none ∧
      p.write.target = .message m

/-- A step of a history: all calls have one time to live, calls and purges take effect
at the current time, and generated ids are not used again. -/
structure Steady (ttl : Int) (w : ServiceWorld) (l : ServiceLabel) : Prop where
  spawning : ∀ q, l = .spawn q → Admits ttl q
  timed : ∀ (i : Nat) q now, (l = .commit i ∨ l = .lost i) → w.abs.controls[i]? = some q →
    time? q = some now → now = w.ext.clock
  fresh : ¬Reuses w l

/-- The worlds of the histories with one time to live. -/
def Histories (config : Config) (ttl : Int) : ServiceWorld → Prop :=
  Reachable (fun w l w' => (service config).step w l = some w') (Steady ttl)
    fun w => w.actors = [] ∧ Initial w.abs

/-- The invariant of the histories. -/
structure Retained (w : ServiceWorld) : Prop where
  backed : Backed w.store
  stages : ∀ (i : Nat) a now batchSize, w.actors[i]? = some a →
    a.control = .purging now batchSize → Stage now batchSize w.store a

section Steps

variable {config : Config} {ttl : Int} {w w' : ServiceWorld} {l : ServiceLabel}

abbrev Admitted (config : Config) (ttl : Int) (w : ServiceWorld) : Prop :=
  Consistent (service config) (Admits ttl) (fun _ _ => True) (lifetimeSpec ttl) w

theorem lifetimeStep_of_commit (hadmitted : Admitted config ttl w) (h : Retained w) {i : Nat}
    {a : ServiceActor} {t : Sql Control} {onError : Failure → Control} {q : Control}
    (ha : w.actors[i]? = some a) (hcode : code config a.control = .tx t onError)
    (hrest : a.rest = some (.done q)) (hpending : a.pending ≠ []) :
    LifetimeStep ttl a.control w.store (view w.store a.pending) := by
  have hspec := (spec_of_commit hadmitted ha hcode hrest hpending).2
  have hadmits := hadmitted.live i a ha
  cases hcontrol : a.control with
  | creating call again =>
      rw [hcontrol] at hspec hadmits
      obtain ⟨⟨_ | _, message⟩, _, hspec⟩ := hspec
      · refine .kept fun k => ?_
        rw [hspec.1]
      · exact .created call again message rfl hadmits hspec
  | purging now batchSize =>
      have hstage := h.stages i a now batchSize ha hcontrol
      cases hstage with
      | selecting => exact absurd rfl hpending
      | clearing huntil _ _ =>
          obtain rfl := Option.some.inj hrest
          generalize hdone : Tx.done q = rest at huntil
          cases huntil with
          | last => simp [fromMessages_eq] at hdone
          | abort _ => cases hdone
          | stmt _ _ => cases hdone
      | deleting hdeleting => exact .purged now batchSize _ rfl hdeleting rfl
  | maintenance state =>
      rw [hcontrol] at hadmits
      exact hadmits.elim
  | _ =>
      rw [hcontrol] at hspec
      exact .kept hspec

theorem stage_of_enter {q : Control} {now : Int} {batchSize : Nat} (s : Database)
    (h : ((service config).enter q).control = .purging now batchSize) :
    Stage now batchSize s ((service config).enter q) := by
  rw [enter_control] at h
  subst h
  exact .selecting

theorem Retained.set (h : Retained w) {i : Nat} {a : ServiceActor} {x : Outside}
    (ha : ∀ now batchSize, a.control = .purging now batchSize → Stage now batchSize w.store a) :
    Retained { w with actors := w.actors.set i a, ext := x } := by
  refine ⟨h.backed, fun j b now batchSize hb hcontrol => ?_⟩
  rcases getElem?_set_eq_some hb with ⟨_, rfl⟩ | ⟨_, hb⟩
  · exact ha now batchSize hcontrol
  · exact h.stages j b now batchSize hb hcontrol

theorem Retained.commit (hadmitted : Admitted config ttl w) (httl : OutlivesRetention ttl)
    (hclock : 0 ≤ w.ext.clock) (h : Retained w) {i : Nat} (hl : l = .commit i ∨ l = .lost i)
    (hok : Steady ttl w l) {a : ServiceActor}
    (ha : w.actors[i]? = some a)
    (hstep : LifetimeStep ttl a.control w.store (view w.store a.pending)) {q : Control}
    {x : Outside} :
    Retained ⟨view w.store a.pending, w.actors.set i ((service config).enter q), x⟩ := by
  have hcurrent := (hadmitted.underway i a ha).1
  have hnow : ∀ now, time? a.control = some now → 0 ≤ now := by
    intro now htime
    rw [hok.timed i a.control now hl (abs_control ha) htime]
    exact hclock
  refine ⟨h.backed.step httl hnow hstep, fun j b now batchSize hb hcontrol => ?_⟩
  rcases getElem?_set_eq_some hb with ⟨_, rfl⟩ | ⟨hij, hb⟩
  · exact stage_of_enter _ hcontrol
  refine (h.stages j b now batchSize hb hcontrol).other hstep (fun p hp => ?_) ?_
  · refine find_view_of_untouched fun p' hp' => ?_
    exact target_ne_of_conflict (hadmitted.locked i j a b ha hb hij p' hp' p hp)
  · intro ids hids m hm hnone
    by_contra hsome
    have hbefore : w.store.find (.message m) = none :=
      Table.find_eq_none_iff.mp (Option.map_eq_none_iff.mp hnone)
    have htouched : ∃ p ∈ a.pending, p.write.target = .message m := by
      by_contra hnot
      refine hsome ?_
      rw [retention?_eq, find_view_of_untouched fun p hp heq => hnot ⟨p, hp, heq⟩,
        ← retention?_eq, hnone]
    obtain ⟨p, hp, htarget, hfound⟩ := exists_first_write hcurrent htouched
    exact hok.fresh
      ⟨j, i, b, a, ids, p, m, hb, ha, hij.symm, hl, hids, hm, hp, hfound.trans hbefore, htarget⟩

/-- What one step of a history does. -/
theorem Retained.step (hadmitted : Admitted config ttl w) (httl : OutlivesRetention ttl)
    (hclock : 0 ≤ w.ext.clock) (h : Retained w) (hok : Steady ttl w l)
    (hstep : (service config).step w l = some w') : Retained w' := by
  cases moves_of_step hstep with
  | spawn q =>
      refine ⟨h.backed, fun j b now batchSize hb hcontrol => ?_⟩
      rcases getElem?_concat_eq_some hb with hb | rfl
      · exact h.stages j b now batchSize hb hcontrol
      · exact stage_of_enter _ hcontrol
  | @statement i c a t onError writes next ha hcode hrest _ _ =>
      refine h.set (x := w.ext) fun now batchSize hcontrol => ?_
      obtain ⟨q, hentered⟩ | hkept := settle_cases (P := service config) a.control onError
        (next c (view w.store a.pending))
        (a.pending ++ record (view w.store a.pending) (writes c (view w.store a.pending)))
      · rw [hentered] at hcontrol ⊢
        exact stage_of_enter _ hcontrol
      · rw [hkept] at hcontrol
        have honError : onError = fun _ => .purgeFailed := by
          rw [hcontrol] at hcode
          exact (Code.tx.inj hcode).2.symm
        subst honError
        obtain ⟨q, hentered, _, htime⟩ | hstage :=
          (h.stages i a now batchSize ha hcontrol).settle h.backed hrest rfl
        · rw [hentered, enter_control] at hkept
          rw [hkept, hcontrol] at htime
          simp [time?] at htime
        · exact hstage
  | act _ _ _ => exact h.set fun _ _ => stage_of_enter _
  | commit ha hcode hrest hpending =>
      exact h.commit hadmitted httl hclock (Or.inl rfl) hok ha
        (lifetimeStep_of_commit hadmitted h ha hcode hrest hpending)
  | lost ha hcode hrest hpending =>
      exact h.commit hadmitted httl hclock (Or.inr rfl) hok ha
        (lifetimeStep_of_commit hadmitted h ha hcode hrest hpending)
  | fault _ _ => exact h.set (x := w.ext) fun _ _ => stage_of_enter _
  | crash _ _ => exact h.set (x := w.ext) fun _ _ => stage_of_enter _
  | env _ => exact ⟨h.backed, h.stages⟩

theorem eq_of_commits {i j : Nat} (hi : l = .commit i ∨ l = .lost i)
    (hj : l = .commit j ∨ l = .lost j) : i = j := by
  rcases hi with rfl | rfl <;> simpa using hj

theorem lifetimeStep_of_step (hadmitted : Admitted config ttl w) (h : Retained w)
    (hstep : (service config).step w l = some w') : w'.store = w.store ∨
      ∃ i q, w.abs.controls[i]? = some q ∧ (l = .commit i ∨ l = .lost i) ∧
        LifetimeStep ttl q w.store w'.store := by
  cases moves_of_step hstep with
  | commit ha hcode hrest hpending =>
      exact Or.inr ⟨_, _, abs_control ha, Or.inl rfl,
        lifetimeStep_of_commit hadmitted h ha hcode hrest hpending⟩
  | lost ha hcode hrest hpending =>
      exact Or.inr ⟨_, _, abs_control ha, Or.inr rfl,
        lifetimeStep_of_commit hadmitted h ha hcode hrest hpending⟩
  | _ => exact Or.inl rfl

theorem clock_of_step (hstep : (service config).step w l = some w') :
    w.ext.clock ≤ w'.ext.clock := by
  cases moves_of_step hstep with
  | act ha hcode hact => exact (acts_of_code hcode hact).clock.ge
  | env hmove => exact Outside.clock_of_move hmove
  | _ => exact le_rfl

end Steps

section Runs

variable {config : Config} {ttl : Int} {w w₁ w₂ : ServiceWorld} {l : ServiceLabel} {k : String}
  {owner : SmsIdempotencyKey}

/-- The worlds that a history gets to from `w`. -/
def LaterHistory (config : Config) (ttl : Int) (w : ServiceWorld) : ServiceWorld → Prop :=
  Reachable (fun w l w' => (service config).step w l = some w') (Steady ttl) (· = w)

theorem admitted_of_histories (h : Histories config ttl w) : Admitted config ttl w := by
  refine Reachable.invariant (fun w hinit => ?_) (fun w l w' _ hinv hl hstep => ?_) h
  · exact ⟨by simp [hinit.1], by simp [hinit.1], by simp [hinit.1]⟩
  · exact (simulates (sound_lifetime config ttl) hinv hl.spawning hstep).1

theorem clock_nonneg (h : Histories config ttl w) : 0 ≤ w.ext.clock := by
  induction h with
  | start hinit => exact (congrArg Outside.clock hinit.2.ext).ge
  | next l _ _ hstep ih => exact ih.trans (clock_of_step hstep)

theorem retained_of_histories (httl : OutlivesRetention ttl) (h : Histories config ttl w) :
    Retained w := by
  refine Reachable.invariant (fun w hinit => ?_)
    (fun w l w' hreach hinv hl hstep =>
      hinv.step (admitted_of_histories hreach) httl (clock_nonneg hreach) hl hstep) h
  constructor
  · intro k owner howner
    rw [show w.store = Store.empty Row.key from hinit.2.store] at howner
    simp [owner?, Table.find] at howner
  · simp [hinit.1]

theorem Histories.later (h : Histories config ttl w) (hlater : LaterHistory config ttl w w₁) :
    Histories config ttl w₁ := by
  induction hlater with
  | start h0 => exact h0 ▸ h
  | next l _ hl hstep ih => exact Reachable.next l ih hl hstep

theorem lifetimeStep_of_histories (httl : OutlivesRetention ttl) (h : Histories config ttl w)
    (hstep : (service config).step w l = some w₁) {i : Nat} {q : Control}
    (hl : l = .commit i ∨ l = .lost i) (hq : w.abs.controls[i]? = some q) :
    w₁.store = w.store ∨ LifetimeStep ttl q w.store w₁.store := by
  obtain hsame | ⟨j, q', hq', hlabel, hlifetime⟩ := lifetimeStep_of_step
    (admitted_of_histories h) (retained_of_histories httl h) hstep
  · exact Or.inl hsame
  · obtain rfl := eq_of_commits hl hlabel
    obtain rfl := Option.some.inj (hq.symm.trans hq')
    exact Or.inr hlifetime

theorem owner_of_later (httl : OutlivesRetention ttl) (h : Histories config ttl w)
    (howner : owner? w.store k = some owner) (hlater : LaterHistory config ttl w w₁) :
    owner? w₁.store k = some owner ∨ owner.expiresAt ≤ w₁.ext.clock := by
  induction hlater with
  | start h0 => exact Or.inl (h0 ▸ howner)
  | @next w₁ w₂ l hprev hl hstep ih =>
      have hreach := h.later hprev
      rcases ih with hfound | hexpired
      · obtain hsame | ⟨i, q, hq, hlabel, hlifetime⟩ := lifetimeStep_of_step
          (admitted_of_histories hreach) (retained_of_histories httl hreach) hstep
        · exact Or.inl (by rw [hsame, hfound])
        · obtain hkept | ⟨now, htime, hle⟩ := owner_of_lifetimeStep hlifetime hfound
          · exact Or.inl hkept
          · have hclock := hl.timed i q now hlabel hq htime
            exact Or.inr (hle.trans (hclock.le.trans (clock_of_step hstep)))
      · exact Or.inr (hexpired.trans (clock_of_step hstep))

/-- Idempotency outlives retention in a world: a purge that commits removes only keys
that have expired, and a further call with a key creates a message only once the key
has expired. -/
def Outlives (config : Config) (ttl : Int) (w : ServiceWorld) : Prop :=
  (∀ l w' i now batchSize k owner, Steady ttl w l → (service config).step w l = some w' →
    (l = .commit i ∨ l = .lost i) → w.abs.controls[i]? = some (.purging now batchSize) →
    owner? w.store k = some owner → owner? w'.store k = none → owner.expiresAt ≤ now) ∧
  ∀ k owner, owner? w.store k = some owner → ∀ w₁, LaterHistory config ttl w w₁ →
    ∀ l w₂ i call again m, Steady ttl w₁ l → (service config).step w₁ l = some w₂ →
      (l = .commit i ∨ l = .lost i) → w₁.abs.controls[i]? = some (.creating call again) →
      call.input.idempotencyKey = k → smsMessage.find w₁.store m = none →
      (smsMessage.find w₂.store m).isSome → owner.expiresAt ≤ call.now

theorem outlives_of_histories (httl : OutlivesRetention ttl) (h : Histories config ttl w) :
    Outlives config ttl w := by
  constructor
  · intro l w' i now batchSize k owner _ hstep hl hi howner hremoved
    obtain hsame | hlifetime := lifetimeStep_of_histories httl h hstep hl hi
    · rw [hsame, howner] at hremoved
      simp at hremoved
    · obtain hkept | ⟨now', htime, hle⟩ := owner_of_lifetimeStep hlifetime howner
      · rw [hkept] at hremoved
        simp at hremoved
      · obtain rfl := Option.some.inj htime
        exact hle
  · intro k owner howner w₁ hlater l w₂ i call again m hok hstep hl hi hkey hnone hsome
    obtain hsame | hlifetime := lifetimeStep_of_histories httl (h.later hlater) hstep hl hi
    · rw [hsame, hnone] at hsome
      simp at hsome
    · obtain hfound | hexpired := owner_of_later httl h howner hlater
      · cases hlifetime with
        | kept hkept =>
            have hretention := hkept.retention? (m := m)
            rw [retention?, retention?, hnone] at hretention
            rw [Option.map_eq_none_iff.mp hretention] at hsome
            simp at hsome
        | created call' again' message heq _ hspec =>
            obtain ⟨rfl, rfl⟩ := Control.creating.inj heq
            exact hspec.2.2.1 owner (hkey ▸ hfound)
        | purged _ _ _ heq _ _ => cases heq
      · exact hexpired.trans (hok.timed i _ _ hl hi rfl).ge

end Runs

section Replay

/-- A step of a history in which a purge commits beside no other one, and nothing
commits beside a purge. -/
def calm (ttl : Int) (a : ServiceSnapshot) : ServiceLabel → Bool
  | .spawn (.creating call _) => call.idempotencyTtlHours = ttl
  | .spawn (.maintenance _) => false
  | .commit i => ((a.controls[i]?).bind time?).all (· = a.ext.clock) &&
      (a.controls.eraseIdx i).all fun q => !isPurging q
  | .lost _ => false
  | _ => true

theorem steady_of_calm {ttl : Int} {w : ServiceWorld} {l : ServiceLabel}
    (h : calm ttl w.abs l) : Steady ttl w l := by
  have hcommit : ∀ {i : Nat}, (l = .commit i ∨ l = .lost i) →
      ((w.abs.controls[i]?).bind time?).all (· = w.ext.clock) ∧
        ∀ (j : Nat) q, w.abs.controls[j]? = some q → j ≠ i → isPurging q = false := by
    rintro i (rfl | rfl)
    · simp only [calm, Bool.and_eq_true, List.all_eq_true, Bool.not_eq_true'] at h
      exact ⟨h.1, fun j q hq hji => h.2 q (List.mem_eraseIdx_iff_getElem?.mpr ⟨j, hji, hq⟩)⟩
    · simp [calm] at h
  constructor
  · rintro q rfl
    cases q with
    | creating call again => simpa [calm, Admits] using h
    | maintenance state => simp [calm] at h
    | _ => trivial
  · intro i q now hl hq htime
    have htimed := (hcommit hl).1
    rw [hq, Option.bind_some, htime] at htimed
    simpa using htimed
  · rintro ⟨i, j, a, b, ids, p, m, ha, _, hij, hl, ⟨now, batchSize, _, hcontrol, _, _⟩, _⟩
    have hpurging := (hcommit hl).2 i a.control (abs_control ha) hij
    simp [hcontrol, isPurging] at hpurging

/-- A call with a key of the given lifetime. -/
def lasting (ttl : Int) : CreateOrGetMessage :=
  { sampleCall "k" 0 with idempotencyTtlHours := ttl }

/-- The call finds that its key has no owner. -/
def foundFree (ttl : Int) : List ServiceLabel :=
  .spawn (.creating (lasting ttl) false) :: statements 0 1 (sampleChoice "m" 0)

/-- The call where it goes on with `t` after that. -/
def begun (ttl : Int) (t : Sql CreateOrGetSmsMessageResult) : ServiceWorld :=
  ⟨Store.empty Row.key,
    [⟨.creating (lasting ttl) false, some (t.map (.created (lasting ttl))), []⟩], Outside.empty⟩

/-- The call creates its message, which fails for good and is purged as soon as its
retention has elapsed. -/
def failedAndPurged : List ServiceLabel :=
  statements 0 3 (sampleChoice "m" 0) ++ .commit 0 ::
    .spawn (.calling (.beginProcessing "m")) :: statements 1 2 (sampleChoice "" 0) ++ .commit 1 ::
    .spawn (.calling (.markFatalFailure "m" "")) :: statements 2 4 (sampleChoice "x" 0) ++
    .commit 2 :: .env { sampleChoice "" 0 with move := .tick 7776000000 } ::
    .spawn (.purging 7776000000 10) :: statements 3 8 (sampleChoice "" 7776000000)

/-- A message with a key of the given lifetime is purged. -/
def purgedAtOnce (ttl : Int) : List ServiceLabel :=
  foundFree ttl ++ failedAndPurged

/-- The purge is about to remove the key. -/
def removesKey (config : Config) (ttl : Int) (w : ServiceWorld) : Bool :=
  calm ttl w.abs (.commit 3) &&
    (w.abs.controls[3]?.bind time?).any (· = 7776000000) &&
    w.abs.controls[3]?.any isPurging &&
    ((service config).step w (.commit 3)).any fun w' => !(owner? w'.store "k").isSome

/-- The inserts of a call whose dates exist. -/
def inserts (call : CreateOrGetMessage) : Sql CreateOrGetSmsMessageResult := do
  let message ← smsMessage.create call.message
  let _ ← createOutboxEvent message.id (messageQueued message.id)
  let _ ← smsIdempotencyKey.create (call.owner message.id)
  return { created := true, message := message }

theorem createMessage_eq_inserts {call : CreateOrGetMessage}
    (hretention : isTime call.retentionExpiresAt) (hexpires : isTime call.expiresAt) :
    createMessage call = inserts call := by
  simp [createMessage, inserts, requireDate, Tx.require, hretention, hexpires]

theorem exec_purgedAtOnce {ttl : Int} (config : Config) (htime : isTime (lasting ttl).expiresAt) :
    exec (service config).step (fun w l => calm ttl w.abs l) initial (purgedAtOnce ttl) =
      exec (service config).step (fun w l => calm ttl w.abs l) (begun ttl (inserts (lasting ttl)))
        failedAndPurged := by
  have hretention : isTime (lasting ttl).retentionExpiresAt := rfl
  have hfound : exec (service config).step (fun w l => calm ttl w.abs l) initial (foundFree ttl) =
      some (begun ttl (createMessage (lasting ttl))) := by
    simp only [foundFree, exec]
    rw [if_pos (by simp [calm, lasting])]
    rfl
  rw [purgedAtOnce, exec_append, hfound, createMessage_eq_inserts hretention htime,
    Option.bind_some]

theorem removesKey_purgedAtOnce (config : Config) (ttl : Int) :
    (exec (service config).step (fun w l => calm ttl w.abs l) (begun ttl (inserts (lasting ttl)))
      failedAndPurged).any (removesKey config ttl) := by
  cbv

theorem expiresAt_purgedAtOnce (config : Config) (ttl : Int) :
    ((exec (service config).step (fun w l => calm ttl w.abs l)
      (begun ttl (inserts (lasting ttl))) failedAndPurged).bind
      fun w => (owner? w.store "k").map (·.expiresAt)) =
      some (0 + idempotencyLifetimeMilliseconds ttl) := by
  cbv

theorem exists_removal {ttl : Int} (config : Config) (htime : isTime (lasting ttl).expiresAt) :
    ∃ w w' batchSize owner, Histories config ttl w ∧ Steady ttl w (.commit 3) ∧
      (service config).step w (.commit 3) = some w' ∧
      w.abs.controls[3]? = some (.purging 7776000000 batchSize) ∧
      owner? w.store "k" = some owner ∧ owner? w'.store "k" = none ∧
      owner.expiresAt = 0 + idempotencyLifetimeMilliseconds ttl := by
  obtain ⟨w, hw, hremoves⟩ := (Option.any_eq_true _ _).mp (removesKey_purgedAtOnce config ttl)
  simp only [removesKey, Bool.and_eq_true] at hremoves
  obtain ⟨⟨⟨hcalm, hpurgeTime⟩, hpurging⟩, hstep⟩ := hremoves
  obtain ⟨q, hq, hpurging⟩ := (Option.any_eq_true _ _).mp hpurging
  obtain ⟨batchSize, rfl⟩ : ∃ batchSize, q = .purging 7776000000 batchSize := by
    rw [hq] at hpurgeTime
    cases q with
    | purging now batchSize => exact ⟨batchSize, by simpa [time?] using hpurgeTime⟩
    | _ => simp [isPurging] at hpurging
  obtain ⟨w', hstep, hgone⟩ := (Option.any_eq_true _ _).mp hstep
  have hexpires := expiresAt_purgedAtOnce config ttl
  rw [hw] at hexpires
  obtain ⟨owner, howner, hexpires⟩ := Option.map_eq_some_iff.mp hexpires
  refine ⟨w, w', batchSize, owner, ?_, steady_of_calm hcalm, hstep, hq, howner,
    by simpa using hgone, hexpires⟩
  rw [← exec_purgedAtOnce config htime] at hw
  exact Reachable.mono (fun _ _ => steady_of_calm)
    (reachable_of_exec (Reachable.start ⟨rfl, ⟨rfl, rfl, rfl⟩⟩) hw)

/-- Idempotency outlives retention in every history with a time to live exactly where
that is at most the retention of messages, 90 days, or where the date at which a key
would expire is past the last one, so that no key is ever written. -/
theorem keys_outlive_retention (config : Config) (ttl : Int) :
    (∀ w, Histories config ttl w → Outlives config ttl w) ↔ ttl ≤ 2160 ∨ 2400000000 < ttl := by
  refine ⟨fun h => ?_, fun httl w hw => outlives_of_histories httl hw⟩
  by_contra hnot
  have htime : isTime (lasting ttl).expiresAt := by
    unfold isTime maxTime
    refine Bool.and_eq_true_iff.mpr ⟨decide_eq_true ?_, decide_eq_true ?_⟩ <;>
    · simp only [CreateOrGetMessage.expiresAt, lasting, sampleCall,
        idempotencyLifetimeMilliseconds]
      omega
  obtain ⟨w, w', _, owner, hw, hsteady, hstep, hpurging, howner, hgone, hexpires⟩ :=
    exists_removal config htime
  have hexpired := (h w hw).1 _ w' 3 _ _ "k" owner hsteady hstep (Or.inl rfl) hpurging howner hgone
  rw [hexpires] at hexpired
  unfold idempotencyLifetimeMilliseconds at hexpired
  omega

/-- A further call with the key at that time. -/
def calledAgain (ttl : Int) : List ServiceLabel :=
  .commit 3 ::
    .spawn (.creating { sampleCall "k" 7776000000 with idempotencyTtlHours := ttl } false) ::
    statements 4 4 (sampleChoice "n" 7776000000)

theorem exists_history (ttl : Int) (labels labels' : List ServiceLabel)
    (p : ServiceWorld → ServiceWorld → Prop) [∀ w w', Decidable (p w w')]
    (h : (exec (service sampleConfig).step (fun w l => calm ttl w.abs l) initial labels).any
      fun w =>
      (exec (service sampleConfig).step (fun w l => calm ttl w.abs l) w labels').any (p w ·)) :
    ∃ w w', Histories sampleConfig ttl w ∧ LaterHistory sampleConfig ttl w w' ∧ p w w' := by
  obtain ⟨w, hw, h⟩ := (Option.any_eq_true _ _).mp h
  obtain ⟨w', hw', hp⟩ := (Option.any_eq_true _ _).mp h
  refine ⟨w, w', ?_, ?_, of_decide_eq_true hp⟩
  · exact Reachable.mono (fun _ _ => steady_of_calm)
      (reachable_of_exec (Reachable.start ⟨rfl, ⟨rfl, rfl, rfl⟩⟩) hw)
  · have hstart : Reachable (fun w l w' => (service sampleConfig).step w l = some w')
        (fun w l => calm ttl w.abs l) (· = w) w := Reachable.start rfl
    exact Reachable.mono (fun _ _ => steady_of_calm) (reachable_of_exec hstart hw')

/-- The call whose first run is under way. -/
def calling? : Control → Option CreateOrGetMessage
  | .creating call false => some call
  | _ => none

theorem eq_of_calling? {q : Control} {call : CreateOrGetMessage} (h : calling? q = some call) :
    q = .creating call false := by
  unfold calling? at h
  split at h
  · rw [Option.some.inj h]
  · simp at h

/-- With a time to live that is one hour longer than the retention of messages, a call
creates a second message although the key of the first has not expired. -/
theorem live_key_purged : ∃ w w₁ w₂ owner call,
    Histories sampleConfig 2161 w ∧ LaterHistory sampleConfig 2161 w w₁ ∧
      owner? w.store "k" = some owner ∧ owner? w₁.store "k" = none ∧
      Steady 2161 w₁ (.commit 4) ∧ (service sampleConfig).step w₁ (.commit 4) = some w₂ ∧
      w₁.abs.controls[4]? = some (.creating call false) ∧ call.input.idempotencyKey = "k" ∧
      smsMessage.find w₁.store "n" = none ∧ (smsMessage.find w₂.store "n").isSome ∧
      call.now < owner.expiresAt := by
  obtain ⟨w, w₁, hw, hw₁, hlive, hgone, hcalm, hcalling, hnone, hstep⟩ := exists_history 2161
    (purgedAtOnce 2161) (calledAgain 2161)
    (fun w w₁ => ((owner? w.store "k").any fun owner => 7776000000 < owner.expiresAt) ∧
      (owner? w₁.store "k").isNone ∧ calm 2161 w₁.abs (.commit 4) ∧
      ((w₁.abs.controls[4]?.bind calling?).any fun call =>
        call.input.idempotencyKey = "k" ∧ call.now = 7776000000) ∧
      (smsMessage.find w₁.store "n").isNone ∧
      ((service sampleConfig).step w₁ (.commit 4)).any fun w₂ =>
        (smsMessage.find w₂.store "n").isSome) (by decide +kernel)
  obtain ⟨owner, howner, hlate⟩ := (Option.any_eq_true _ _).mp hlive
  obtain ⟨call, hcall, hkey⟩ := (Option.any_eq_true _ _).mp hcalling
  obtain ⟨q, hq, hcalling⟩ := Option.bind_eq_some_iff.mp hcall
  obtain ⟨hkey, hnow⟩ := of_decide_eq_true hkey
  obtain ⟨w₂, hstep, hsome⟩ := (Option.any_eq_true _ _).mp hstep
  refine ⟨w, w₁, w₂, owner, call, hw, hw₁, howner, Option.isNone_iff_eq_none.mp hgone,
    steady_of_calm hcalm, hstep, eq_of_calling? hcalling ▸ hq, hkey,
    Option.isNone_iff_eq_none.mp hnone, hsome, ?_⟩
  rw [hnow]
  exact of_decide_eq_true hlate

end Replay

end SmsNotification.KeyRetention

import SmsNotification.OutboxConservation

namespace SmsNotification.IdempotentIngestion

open SmsNotification.ActorSystem
open SmsNotification.KeyedStore
open SmsNotification.LabelledRuns
open SmsNotification.LifecycleEffects
open SmsNotification.MessageAggregate
open SmsNotification.OutboxConservation
open SmsNotification.ReadCommitted
open SmsNotification.Schema
open SmsNotification.Service
open SmsNotification.ServiceEffects
open SmsNotification.ServiceRuns
open SmsNotification.SmsLifecycleRepository
open SmsNotification.SmsPersistenceRepository
open SmsNotification.Surroundings

/-- The owner of a key, expired or not. -/
def owner? (s : Database) (idempotencyKey : String) : Option SmsIdempotencyKey :=
  smsIdempotencyKey.find s idempotencyKey

/-- The owner of a key that has not expired. -/
def Unexpired (s : Database) (call : CreateOrGetMessage) (owner : SmsIdempotencyKey) : Prop :=
  owner? s call.input.idempotencyKey = some owner ∧ call.now < owner.expiresAt

/-- A call that starts, with the time to live of all calls. -/
def ingests (ttl : Int) : Control → Bool
  | .creating call again => !again && call.idempotencyTtlHours = ttl
  | _ => false

/-- The control states of calls with one time to live. -/
def Ingesting (ttl : Int) : Control → Prop
  | .creating call _ => call.idempotencyTtlHours = ttl
  | .created call _ => call.idempotencyTtlHours = ttl
  | .createFailed call _ _ => call.idempotencyTtlHours = ttl
  | .crashed => True
  | _ => False

theorem ingesting_of_ingests {ttl : Int} {q : Control} (h : ingests ttl q) : Ingesting ttl q := by
  cases q with
  | creating call again =>
      simp only [ingests, Bool.and_eq_true, decide_eq_true_eq] at h
      exact h.2
  | _ => simp [ingests] at h

theorem lifecycle_of_ingests {ttl : Int} {q : Control} (h : ingests ttl q) : Lifecycle q := by
  cases q with
  | creating call again => exact ⟨by simp [family], by simp [family]⟩
  | _ => simp [ingests] at h

section Controls

variable {config : Config} {ttl : Int} {q q' : Control} {t : Sql Control}
  {onError : Failure → Control} {s s' : Database}

theorem creating_of_code (hq : Ingesting ttl q) (hcode : code config q = .tx t onError) :
    ∃ call again, q = .creating call again := by
  cases q with
  | creating call again => exact ⟨call, again, rfl⟩
  | _ => simp_all [Ingesting, code]

theorem not_act_of_ingesting (hq : Ingesting ttl q)
    {act : Choice → Outside → Option (Outside × Control)} : code config q ≠ .ext act := by
  cases q <;> simp_all [Ingesting, code, creatingCode]

theorem ingesting_of_ok (hq : Ingesting ttl q) (hcode : code config q = .tx t onError)
    (h : controlSpec config q s (.ok q') s') : Ingesting ttl q' := by
  obtain ⟨call, again, rfl⟩ := creating_of_code hq hcode
  obtain ⟨result, rfl, _⟩ := h
  exact hq

theorem ingesting_of_error (hq : Ingesting ttl q) (hcode : code config q = .tx t onError)
    (e : Failure) : Ingesting ttl (onError e) := by
  obtain ⟨call, again, rfl⟩ := creating_of_code hq hcode
  obtain ⟨_, rfl⟩ := Code.tx.inj hcode
  dsimp only
  split <;> exact hq

theorem creating_of_ok {call : CreateOrGetMessage} {result : CreateOrGetSmsMessageResult}
    (hq : Ingesting ttl q) (hcode : code config q = .tx t onError)
    (h : controlSpec config q s (.ok (.created call result)) s') :
    (∃ again, q = .creating call again) ∧ createOrGetMessageSpec call s (.ok result) s' := by
  obtain ⟨call', again, rfl⟩ := creating_of_code hq hcode
  obtain ⟨result', heq, hspec⟩ := h
  obtain ⟨rfl, rfl⟩ := Control.created.inj heq
  exact ⟨⟨again, rfl⟩, hspec⟩

theorem not_created_of_error (hq : Ingesting ttl q) (hcode : code config q = .tx t onError)
    (e : Failure) (call : CreateOrGetMessage) (result : CreateOrGetSmsMessageResult) :
    onError e ≠ .created call result := by
  obtain ⟨call', again, rfl⟩ := creating_of_code hq hcode
  obtain ⟨_, rfl⟩ := Code.tx.inj hcode
  dsimp only
  split <;> simp

end Controls

/-- Every actor is a call of `createOrGetMessage`. -/
def AllIngesting (ttl : Int) (a : ServiceSnapshot) : Prop :=
  ∀ (i : Nat) q, a.controls[i]? = some q → Ingesting ttl q

section Steps

variable {config : Config} {ttl : Int} {a a' : ServiceSnapshot} {l : ServiceLabel}

theorem AllIngesting.step (h : AllIngesting ttl a) (hok : Spawning (ingests ttl ·) a l)
    (hstep : ServiceStep config a l a') : AllIngesting ttl a' := by
  have hset : ∀ {j : Nat} {q' : Control}, Ingesting ttl q' → ∀ (i : Nat) q,
      (a.controls.set j q')[i]? = some q → Ingesting ttl q := by
    intro j q' hq' i q hset
    rcases getElem?_set_eq_some hset with ⟨_, rfl⟩ | ⟨_, hset⟩
    · exact hq'
    · exact h i q hset
  cases hstep with
  | spawn q =>
      intro i q' hq'
      rcases getElem?_concat_eq_some hq' with hq' | rfl
      · exact h i q' hq'
      · exact ingesting_of_ingests (hok q' rfl)
  | answer hq hcode hspec => exact hset (ingesting_of_ok (h _ _ hq) hcode hspec)
  | error hq hcode _ => exact hset (ingesting_of_error (h _ _ hq) hcode _)
  | act hq hcode _ => exact absurd hcode (not_act_of_ingesting (h _ _ hq))
  | commit hq hcode hspec => exact hset (ingesting_of_ok (h _ _ hq) hcode hspec)
  | lost hq hcode _ => exact hset (ingesting_of_error (h _ _ hq) hcode _)
  | fault hq hcode => exact hset (ingesting_of_error (h _ _ hq) hcode _)
  | @crash i q hq hcode =>
      refine hset ?_
      have hq' := h _ _ hq
      cases q <;> first | exact trivial | exact hq'.elim
  | env _ => exact h

theorem created_of_step (h : AllIngesting ttl a) (hok : Spawning (ingests ttl ·) a l)
    (hstep : ServiceStep config a l a') {i : Nat} {call : CreateOrGetMessage}
    {result : CreateOrGetSmsMessageResult} (hq' : a'.controls[i]? = some (.created call result)) :
    a.controls[i]? = some (.created call result) ∨
      ((∃ again, a.controls[i]? = some (.creating call again)) ∧
        createOrGetMessageSpec call a.store (.ok result) a'.store) := by
  have hset : ∀ {j : Nat} {q' : Control},
      (a.controls.set j q')[i]? = some (.created call result) →
      (j = i ∧ q' = .created call result) ∨ a.controls[i]? = some (.created call result) := by
    intro j q' hset
    rcases getElem?_set_eq_some hset with ⟨hji, hq'⟩ | ⟨_, hset⟩
    · exact Or.inl ⟨hji, hq'.symm⟩
    · exact Or.inr hset
  cases hstep with
  | spawn q =>
      rcases getElem?_concat_eq_some hq' with hq' | hq
      · exact Or.inl hq'
      · have hingests : ingests ttl q = true := hok q rfl
        simp [← hq, ingests] at hingests
  | answer hq hcode hspec | commit hq hcode hspec =>
      obtain ⟨rfl, rfl⟩ | hsame := hset hq'
      · obtain ⟨⟨again, rfl⟩, hanswer⟩ := creating_of_ok (h _ _ hq) hcode hspec
        exact Or.inr ⟨⟨again, hq⟩, hanswer⟩
      · exact Or.inl hsame
  | error hq hcode _ | lost hq hcode _ | fault hq hcode =>
      obtain ⟨rfl, hcreated⟩ | hsame := hset hq'
      · exact absurd hcreated (not_created_of_error (h _ _ hq) hcode _ call result)
      · exact Or.inl hsame
  | act hq hcode _ => exact absurd hcode (not_act_of_ingesting (h _ _ hq))
  | @crash j q hq _ =>
      obtain ⟨rfl, hcreated⟩ | hsame := hset hq'
      · cases q <;> simp [service, crash] at hcreated
      · exact Or.inl hsame
  | env _ => exact Or.inl hq'

theorem store_of_step (h : AllIngesting ttl a) (hstep : ServiceStep config a l a') :
    a'.store = a.store ∨ ∃ j call again message, a.controls[j]? = some (.creating call again) ∧
      createOrGetMessageSpec call a.store (.ok ⟨true, message⟩) a'.store ∧
      ((l = .commit j ∧ a'.controls[j]? = some (.created call ⟨true, message⟩)) ∨ l = .lost j) := by
  cases hstep with
  | @commit j q q' t onError s hq hcode hspec =>
      have hlength : j < a.controls.length := (List.getElem?_eq_some_iff.mp hq).1
      obtain ⟨call, again, rfl⟩ := creating_of_code (h _ _ hq) hcode
      obtain ⟨⟨_ | _, message⟩, rfl, hspec⟩ := hspec
      · exact Or.inl hspec.1
      · refine Or.inr ⟨j, call, again, message, hq, hspec, Or.inl ⟨rfl, ?_⟩⟩
        exact List.getElem?_set_self hlength
  | @lost j q q' t onError s hq hcode hspec =>
      obtain ⟨call, again, rfl⟩ := creating_of_code (h _ _ hq) hcode
      obtain ⟨⟨_ | _, message⟩, rfl, hspec⟩ := hspec
      · exact Or.inl hspec.1
      · exact Or.inr ⟨j, call, again, message, hq, hspec, Or.inr rfl⟩
  | _ => exact Or.inl rfl

end Steps

section Owners

variable {call : CreateOrGetMessage} {message : SmsMessage} {s s' : Database}

theorem owner_of_created (h : createOrGetMessageSpec call s (.ok ⟨true, message⟩) s') :
    ∃ owner, owner.smsMessageId = message.id ∧ owner.expiresAt = call.expiresAt ∧
      ∀ k, owner? s' k = if k = call.input.idempotencyKey then some owner else owner? s k := by
  obtain ⟨_, _, _, c, howner⟩ := h
  exact ⟨call.owner message.id c, rfl, rfl, howner⟩

theorem isSome_message_of_created (h : createOrGetMessageSpec call s (.ok ⟨true, message⟩) s') :
    (smsMessage.find s' message.id).isSome ∧
      ∀ m, (smsMessage.find s m).isSome → (smsMessage.find s' m).isSome := by
  obtain ⟨_, ⟨A', ⟨c, events', _, _, _, _, rfl⟩, hupdate⟩, _⟩ := h
  have hmessage : ∀ m, (aggregate s' m).message = smsMessage.find s' m := fun _ => rfl
  constructor
  · rw [← hmessage, hupdate, Function.update_self]
    rfl
  · intro m hm
    rw [← hmessage, hupdate]
    by_cases heq : m = message.id
    · rw [heq, Function.update_self]
      rfl
    · rw [Function.update_of_ne heq]
      exact hm

/-- Every message has been announced once, and nothing else has. -/
def Announced (s : Database) : Prop :=
  ∀ m, intents (· = "SMS_MESSAGE_QUEUED") (aggregate s m) =
    if (smsMessage.find s m).isSome then 1 else 0

theorem announced_of_created (hinv : Announced s)
    (h : createOrGetMessageSpec call s (.ok ⟨true, message⟩) s') : Announced s' := by
  obtain ⟨_, ⟨A', ⟨c, events', hnone, _, _, hevents, rfl⟩, hupdate⟩, _⟩ := h
  intro m
  have hmessage : smsMessage.find s' m = (aggregate s' m).message := rfl
  rw [hmessage, hupdate]
  by_cases hm : m = message.id
  · rw [hm, Function.update_self]
    have hbefore := hinv message.id
    rw [show smsMessage.find s message.id = none from hnone] at hbefore
    have hcount := countP_intended (· = "SMS_MESSAGE_QUEUED") hevents
    simp only [intents] at hbefore ⊢
    rw [hcount, hbefore]
    rfl
  · rw [Function.update_of_ne hm]
    exact hinv m

end Owners

/-- The invariant of the committed owners: a call that has created its message is
still covered by an owner, and every owner has its message. -/
structure Owned (ttl : Int) (a : ServiceSnapshot) : Prop where
  ingesting : AllIngesting ttl a
  covered : ∀ (i : Nat) call message, a.controls[i]? = some (.created call ⟨true, message⟩) →
    ∃ owner, owner? a.store call.input.idempotencyKey = some owner ∧
      call.expiresAt ≤ owner.expiresAt
  present : ∀ k owner, owner? a.store k = some owner →
    (smsMessage.find a.store owner.smsMessageId).isSome
  announced : Announced a.store

section Invariant

variable {config : Config} {ttl : Int} {a a' : ServiceSnapshot} {l : ServiceLabel}

theorem lifetime_pos (httl : 0 < ttl) : 0 < idempotencyLifetimeMilliseconds ttl := by
  unfold idempotencyLifetimeMilliseconds
  omega

theorem owner_of_step (hinv : Owned ttl a) (httl : 0 < ttl) (hstep : ServiceStep config a l a')
    {k : String} {owner : SmsIdempotencyKey} (howner : owner? a.store k = some owner) :
    ∃ owner', owner? a'.store k = some owner' ∧ owner.expiresAt ≤ owner'.expiresAt := by
  obtain hsame | ⟨j, call, again, message, hj, hspec, _⟩ := store_of_step hinv.ingesting hstep
  · exact ⟨owner, by rw [hsame]; exact howner, le_rfl⟩
  · obtain ⟨owner', _, hexpires, hkeys⟩ := owner_of_created hspec
    by_cases hk : k = call.input.idempotencyKey
    · refine ⟨owner', by rw [hkeys, if_pos hk], ?_⟩
      have hexpired : owner.expiresAt ≤ call.now := hspec.2.2.1 owner (hk ▸ howner)
      have hlifetime := lifetime_pos httl
      have hcall : call.idempotencyTtlHours = ttl := hinv.ingesting j _ hj
      rw [hexpires, CreateOrGetMessage.expiresAt, hcall]
      omega
    · exact ⟨owner, by rw [hkeys, if_neg hk]; exact howner, le_rfl⟩

theorem Owned.step (hinv : Owned ttl a) (httl : 0 < ttl) (hok : Spawning (ingests ttl ·) a l)
    (hstep : ServiceStep config a l a') : Owned ttl a' := by
  refine ⟨hinv.ingesting.step hok hstep, fun i call message hi => ?_, fun k owner howner => ?_, ?_⟩
  · obtain hbefore | ⟨_, hspec⟩ := created_of_step hinv.ingesting hok hstep hi
    · obtain ⟨owner, howner, hcovered⟩ := hinv.covered i call message hbefore
      obtain ⟨owner', howner', hlater⟩ := owner_of_step hinv httl hstep howner
      exact ⟨owner', howner', hcovered.trans hlater⟩
    · obtain ⟨owner, _, hexpires, hkeys⟩ := owner_of_created hspec
      exact ⟨owner, by rw [hkeys, if_pos rfl], hexpires.ge⟩
  · obtain hsame | ⟨j, call, again, message, _, hspec, _⟩ := store_of_step hinv.ingesting hstep
    · rw [hsame] at howner ⊢
      exact hinv.present k owner howner
    · obtain ⟨owner', hmessage, _, hkeys⟩ := owner_of_created hspec
      obtain ⟨hnew, hold⟩ := isSome_message_of_created hspec
      rw [hkeys] at howner
      split at howner
      · obtain rfl := Option.some.inj howner
        rw [hmessage]
        exact hnew
      · exact hold _ (hinv.present k owner howner)
  · obtain hsame | ⟨j, call, again, message, _, hspec, _⟩ := store_of_step hinv.ingesting hstep
    · rw [hsame]
      exact hinv.announced
    · exact announced_of_created hinv.announced hspec

theorem owned_of_reachable (httl : 0 < ttl)
    (h : Reachable (ServiceStep config) (Spawning (ingests ttl ·)) Initial a) : Owned ttl a := by
  refine Reachable.invariant (fun a hinit => ?_)
    (fun a l a' _ hinv hl hstep => hinv.step httl hl hstep) h
  constructor
  · simp [AllIngesting, hinit.controls]
  · simp [hinit.controls]
  · simp [hinit.store, owner?, Table.find]
  · intro m
    simp [hinit.store, aggregate_empty, intents, Table.find]

end Invariant

section Retry

variable {config : Config} {ttl : Int}

/-- A transaction that has run its first statement. -/
def underway (config : Config) (x : ServiceActor) : Prop :=
  x ≠ (service config).enter x.control

/-- A call commits an owner of a key while the second run of another call for the
key is under way, and the owner has not expired at the clock of that call. -/
def Overtakes (config : Config) (w : ServiceWorld) (l : ServiceLabel) : Prop :=
  ∃ (i j : Nat) (x y : ServiceActor) (call call' : CreateOrGetMessage)
      (again : Bool),
    w.actors[i]? = some x ∧ x.control = .creating call true ∧ underway config x ∧
      w.actors[j]? = some y ∧ y.control = .creating call' again ∧ i ≠ j ∧
      (l = .commit j ∨ l = .lost j) ∧
      call.input.idempotencyKey = call'.input.idempotencyKey ∧ call.now < call'.expiresAt

/-- The steps of concurrent calls in which no second run is overtaken. -/
def Undisturbed (config : Config) (ttl : Int) (w : ServiceWorld) (l : ServiceLabel) : Prop :=
  Spawning (ingests ttl ·) w.abs l ∧ ¬Overtakes config w l

/-- The worlds of concurrent calls, where `ok` says which steps they may take. -/
def Ingests (config : Config) (ok : ServiceWorld → ServiceLabel → Prop) : ServiceWorld → Prop :=
  Reachable (fun w l w' => (service config).step w l = some w') ok
    fun w => w.actors = [] ∧ Initial w.abs

/-- A second run that is under way has not met an unexpired owner. -/
def Unanswered (config : Config) (w : ServiceWorld) : Prop :=
  ∀ (i : Nat) x call, w.actors[i]? = some x → x.control = .creating call true →
    underway config x → ∀ owner, ¬Unexpired w.store call owner

theorem settle_of_unexpired {call : CreateOrGetMessage} {again : Bool} {s : Database}
    {owner : SmsIdempotencyKey} (howner : Unexpired s call owner) {message : SmsMessage}
    (hmessage : smsMessage.find s owner.smsMessageId = some message) {t : Sql Control}
    {onError : Failure → Control} {writes : Choice → Database → List (Write Row.key)}
    {next : Choice → Database → Sql Control}
    (hcode : (service config).code (.creating call again) = .tx t onError)
    (hrest : ((service config).enter (.creating call again)).rest = some (.stmt writes next))
    (c : Choice) :
    (service config).settle (.creating call again) onError (next c s)
        (record s (writes c s)) =
      (service config).enter (.created call ⟨false, message⟩) := by
  obtain ⟨hfind, hlive⟩ := howner
  rw [Protocol.enter, hcode] at hrest
  obtain ⟨rfl, _⟩ := Code.tx.inj hcode
  obtain ⟨rfl, rfl⟩ := Tx.stmt.inj (Option.some.inj hrest)
  have hread : (smsIdempotencyKey.find s call.input.idempotencyKey).bind (fun owner =>
      (smsMessage.find s owner.smsMessageId).map fun message => (owner, message)) =
        some (owner, message) := by
    rw [show smsIdempotencyKey.find s call.input.idempotencyKey = some owner from hfind,
      Option.bind_some, hmessage, Option.map_some]
  simp [hread, hlive, Protocol.settle]

/-- A second run that starts with an unexpired owner answers with it at once; an
owner that comes later has expired. -/
theorem Unanswered.step {w w' : ServiceWorld} {l : ServiceLabel} (h : Unanswered config w)
    (howned : Owned ttl w.abs) (hok : Undisturbed config ttl w l)
    (hstep : (service config).step w l = some w')
    (hatomic : w'.abs = w.abs ∨ ServiceStep config w.abs l w'.abs) : Unanswered config w' := by
  rintro i x call hx hcontrol hunderway owner ⟨howner, hlive⟩
  obtain ⟨hsame, hcommit, hlost⟩ | ⟨q, rfl⟩ |
    ⟨c, x₀, t, onError, writes, next, rfl, hstore, hx₀, hcode, hrest, rfl⟩ :=
    (moves_of_step hstep).actor hx
  · have hstore : w'.store = w.store ∨ ∃ j call' again message,
        w.abs.controls[j]? = some (.creating call' again) ∧
          createOrGetMessageSpec call' w.store (.ok ⟨true, message⟩) w'.store ∧
            (l = .commit j ∨ l = .lost j) := by
      obtain habs | hatomic := hatomic
      · exact Or.inl (congrArg Snapshot.store habs)
      · obtain hstore | ⟨j, call', again, message, hj, hspec, hlabel⟩ :=
          store_of_step howned.ingesting hatomic
        · exact Or.inl hstore
        · exact Or.inr ⟨j, call', again, message, hj, hspec, hlabel.imp_left And.left⟩
    obtain hstore | ⟨j, call', again, message, hj, hspec, hlabel⟩ := hstore
    · rw [hstore] at howner
      exact h i x call hsame hcontrol hunderway owner ⟨howner, hlive⟩
    obtain ⟨owner', _, hexpires, hkeys⟩ := owner_of_created hspec
    rw [hkeys] at howner
    split at howner
    · rename_i hkey
      obtain rfl := Option.some.inj howner
      obtain ⟨y, hy, hycontrol⟩ := exists_actor_of_abs hj
      have hij : i ≠ j := by
        rintro rfl
        exact hlabel.elim hcommit hlost
      refine hok.2 ⟨i, j, x, y, call, call', again, hsame, hcontrol, hunderway, hy, hycontrol,
        hij, hlabel, hkey, ?_⟩
      rw [← hexpires]
      exact hlive
    · exact h i x call hsame hcontrol hunderway owner ⟨howner, hlive⟩
  · exact hunderway (by rw [enter_control])
  · obtain ⟨q', hentered⟩ | hkept := settle_cases (P := service config) x₀.control onError
      (next c (view w.store x₀.pending))
      (x₀.pending ++ record (view w.store x₀.pending) (writes c (view w.store x₀.pending)))
    · rw [hentered] at hunderway
      exact hunderway (by rw [enter_control])
    have hcontrol₀ : x₀.control = .creating call true := hkept.symm.trans hcontrol
    rw [hstore] at howner
    refine h i x₀ call hx₀ hcontrol₀ (fun hentered => ?_) owner ⟨howner, hlive⟩
    obtain ⟨message, hmessage⟩ := Option.isSome_iff_exists.mp (howned.present _ owner howner)
    have hpending : x₀.pending = [] := by rw [hentered, enter_pending]
    rw [hcontrol₀] at hentered hcode
    rw [hentered] at hrest
    have hsettle := settle_of_unexpired ⟨howner, hlive⟩ hmessage hcode hrest c
    rw [hcontrol₀, hpending] at hcontrol
    rw [List.nil_append, view_nil, hsettle, enter_control] at hcontrol
    simp at hcontrol

end Retry

section Runs

variable {config : Config} {ttl : Int} {w : ServiceWorld}

theorem reaches_of_ingests (h : Ingests config (Undisturbed config ttl) w) :
    Reaches config (Spawning (ingests ttl ·)) Initial w :=
  Reachable.mono (fun _ _ hl => hl.1) h

theorem owned_of_reaches (httl : 0 < ttl)
    (h : Reaches config (Spawning (ingests ttl ·)) Initial w) : Owned ttl w.abs :=
  owned_of_reachable httl (h.atomic fun _ q hq => lifecycle_of_ingests (hq q rfl)).2

theorem serviceStep_of_ingests (h : Ingests config (Undisturbed config ttl) w)
    {w' : ServiceWorld} {l : ServiceLabel} (hl : Undisturbed config ttl w l)
    (hstep : (service config).step w l = some w') :
    w'.abs = w.abs ∨ ServiceStep config w.abs l w'.abs :=
  serviceStep_of_step (fun _ q hq => lifecycle_of_ingests (hq q rfl)) (reaches_of_ingests h)
    hl.1 hstep

theorem unanswered_of_ingests (httl : 0 < ttl) (h : Ingests config (Undisturbed config ttl) w) :
    Unanswered config w := by
  refine Reachable.invariant (fun w hinit => ?_) (fun w l w' hreach hinv hl hstep => ?_) h
  · simp [Unanswered, hinit.1]
  · exact hinv.step (owned_of_reaches httl (reaches_of_ingests hreach)) hl hstep
      (serviceStep_of_ingests hreach hl hstep)

/-- A second run that goes on while its key has an unexpired owner answers with
that owner. -/
theorem answered_of_unexpired (httl : 0 < ttl) (h : Ingests config (Undisturbed config ttl) w)
    {w' : ServiceWorld} {l : ServiceLabel} (hstep : (service config).step w l = some w')
    {i : Nat} {c : Choice} (hl : l = .run i c ∨ l = .commit i) {call : CreateOrGetMessage}
    (hi : w.abs.controls[i]? = some (.creating call true)) {owner : SmsIdempotencyKey}
    (howner : Unexpired w.store call owner) :
    ∃ message, smsMessage.find w.store owner.smsMessageId = some message ∧
      w'.abs.controls[i]? = some (.created call ⟨false, message⟩) := by
  obtain ⟨x, hx, hcontrol⟩ := exists_actor_of_abs hi
  have hentered : x = (service config).enter (.creating call true) := by
    by_contra hne
    exact unanswered_of_ingests httl h i x call hx hcontrol (by rwa [underway, hcontrol]) owner
      howner
  have howned := owned_of_reaches httl (reaches_of_ingests h)
  obtain ⟨message, hmessage⟩ := Option.isSome_iff_exists.mp (howned.present _ owner howner.1)
  refine ⟨message, hmessage, ?_⟩
  obtain ⟨x', hx', hturn⟩ := (moves_of_step hstep).turn hx
  cases hturn with
  | stays hnot => exact absurd (hl.elim (fun hrun => Or.inr ⟨c, hrun⟩) Or.inl) hnot
  | @statement c' _ _ _ _ _ hcode hrest _ _ =>
      have hpending : x.pending = [] := by rw [hentered, enter_pending]
      rw [hcontrol] at hcode
      rw [hentered] at hrest
      have hsettle := settle_of_unexpired howner hmessage hcode hrest c'
      rw [hpending, hcontrol, List.nil_append, view_nil, hsettle] at hx'
      exact abs_control hx'
  | act hcode _ _ =>
      rw [hcontrol] at hcode
      simp [service, code, creatingCode] at hcode
  | commit _ _ hpending _ =>
      rw [hentered, enter_pending] at hpending
      exact absurd rfl hpending
  | failed hlabel _ => rcases hlabel with rfl | rfl <;> simp at hl
  | crashed => simp at hl

/-- Idempotent ingestion where no second run is overtaken: every message has been
announced once; of two calls that create, the later one starts a lifetime after
the earlier one; only a call that creates leaves anything behind; and a second
run whose key has an unexpired owner answers with that owner. -/
theorem idempotent_ingestion (httl : 0 < ttl) (h : Ingests config (Undisturbed config ttl) w) :
    (∀ m, (smsMessage.find w.store m).isSome →
      ((aggregate w.store m).outbox.countP fun event =>
        event.eventType = "SMS_MESSAGE_QUEUED") = 1) ∧
    ∀ l w', Undisturbed config ttl w l → (service config).step w l = some w' →
      (∀ (i j : Nat) call₁ call₂ message₁ message₂ again,
        w.abs.controls[i]? = some (.created call₁ ⟨true, message₁⟩) →
        w.abs.controls[j]? = some (.creating call₂ again) →
        w'.abs.controls[j]? = some (.created call₂ ⟨true, message₂⟩) →
        call₁.input.idempotencyKey = call₂.input.idempotencyKey →
        call₁.now + idempotencyLifetimeMilliseconds ttl ≤ call₂.now) ∧
      (w'.store = w.store ∨ ∃ j call again message,
        w.abs.controls[j]? = some (.creating call again) ∧
          ((l = .commit j ∧ w'.abs.controls[j]? = some (.created call ⟨true, message⟩)) ∨
            l = .lost j)) ∧
      ∀ (i : Nat) c call owner, (l = .run i c ∨ l = .commit i) →
        w.abs.controls[i]? = some (.creating call true) → Unexpired w.store call owner →
        ∃ message, smsMessage.find w.store owner.smsMessageId = some message ∧
          w'.abs.controls[i]? = some (.created call ⟨false, message⟩) := by
  have howned := owned_of_reaches httl (reaches_of_ingests h)
  refine ⟨fun m hm => ?_, fun l w' hl hstep => ⟨?_, ?_, ?_⟩⟩
  · have hcount := howned.announced m
    rwa [show smsMessage.find w.abs.store m = smsMessage.find w.store m from rfl, if_pos hm]
      at hcount
  · intro i j call₁ call₂ message₁ message₂ again hi hj hj' hkey
    obtain ⟨owner, howner, hcovered⟩ := howned.covered i call₁ message₁ hi
    have hexpired : owner.expiresAt ≤ call₂.now := by
      obtain habs | hatomic := serviceStep_of_ingests h hl hstep
      · rw [habs, hj] at hj'
        simp at hj'
      obtain hbefore | ⟨_, hspec⟩ := created_of_step howned.ingesting hl.1 hatomic hj'
      · simp [hj] at hbefore
      · exact hspec.2.2.1 owner (hkey ▸ howner)
    have hcall₁ : call₁.idempotencyTtlHours = ttl := howned.ingesting i _ hi
    rw [CreateOrGetMessage.expiresAt, hcall₁] at hcovered
    omega
  · obtain habs | hatomic := serviceStep_of_ingests h hl hstep
    · exact Or.inl (congrArg Snapshot.store habs)
    · obtain hstore | ⟨j, call, again, message, hj, _, hlabel⟩ :=
        store_of_step howned.ingesting hatomic
      · exact Or.inl hstore
      · exact Or.inr ⟨j, call, again, message, hj, hlabel⟩
  · intro i c call owner hmoves hi howner
    exact answered_of_unexpired httl h hstep hmoves hi howner

end Runs

section Replay

/-- The call whose second run is under way. -/
def retrying? : Control → Option CreateOrGetMessage
  | .creating call true => some call
  | _ => none

theorem eq_of_retrying? {q : Control} {call : CreateOrGetMessage} (h : retrying? q = some call) :
    q = .creating call true := by
  unfold retrying? at h
  split at h
  · rw [Option.some.inj h]
  · simp at h

/-- The call has been rejected with a second unique violation. -/
def rejectedTwice : Control → Bool
  | .createFailed _ true .uniqueViolation => true
  | _ => false

/-- A second run whose key has an unexpired owner. -/
def retriesOwned (w : ServiceWorld) (q : Control) : Bool :=
  (retrying? q).any fun call =>
    (owner? w.store call.input.idempotencyKey).any fun owner => call.now < owner.expiresAt

theorem exists_unexpired {w : ServiceWorld} {q : Control} (h : retriesOwned w q) :
    ∃ call owner, q = .creating call true ∧ Unexpired w.store call owner := by
  obtain ⟨call, hcall, howned⟩ := (Option.any_eq_true _ _).mp h
  obtain ⟨owner, howner, hlive⟩ := (Option.any_eq_true _ _).mp howned
  exact ⟨call, owner, eq_of_retrying? hcall, howner, of_decide_eq_true hlive⟩

/-- The second run of a call finds that the owner has expired, and another call
replaces the owner before the second run does: the call is rejected, although
its key has an unexpired owner. -/
theorem rejected_after_second_race :
    ∃ w w' c call owner, Reaches sampleConfig (Spawning (ingests 1 ·)) Initial w ∧
      (service sampleConfig).step w (.run 1 c) = some w' ∧
      w.abs.controls[1]? = some (.creating call true) ∧ Unexpired w.store call owner ∧
      (∃ q, w'.abs.controls[1]? = some q ∧ rejectedTwice q) ∧
      ¬∃ message, w'.abs.controls[1]? = some (.created call ⟨false, message⟩) := by
  let call := sampleCall "k" 3600000
  let labels := .spawn (.creating (sampleCall "k" 0) false) :: .spawn (.creating call false) ::
    .spawn (.creating call false) :: statements 1 1 (sampleChoice "" 0) ++
    statements 0 4 (sampleChoice "m" 0) ++ .commit 0 :: statements 1 3 (sampleChoice "n" 1) ++
    statements 1 1 (sampleChoice "" 2) ++ statements 2 6 (sampleChoice "p" 3) ++
    .commit 2 :: statements 1 4 (sampleChoice "q" 4)
  obtain ⟨w, hw, howned, hrejected⟩ := exists_reaches_of_exec sampleConfig
    (Spawning (ingests 1 ·)) labels
    (fun w => w.abs.controls[1]?.any (retriesOwned w) ∧
      ((service sampleConfig).step w (.run 1 (sampleChoice "" 5))).any fun w' =>
        w'.abs.controls[1]?.any rejectedTwice) (by decide +kernel)
  obtain ⟨q, hq, howned⟩ := (Option.any_eq_true _ _).mp howned
  obtain ⟨call, owner, rfl, hunexpired⟩ := exists_unexpired howned
  obtain ⟨w', hstep, hw'⟩ := (Option.any_eq_true _ _).mp hrejected
  obtain ⟨q', hq', htwice⟩ := (Option.any_eq_true _ _).mp hw'
  refine ⟨w, w', _, call, owner, hw, hstep, hq, hunexpired, ⟨q', hq', htwice⟩, ?_⟩
  rintro ⟨message, hcreated⟩
  rw [hq'] at hcreated
  simp [Option.some.inj hcreated, rejectedTwice] at htwice

/-- No call commits while a second run is under way. -/
def Calm (ttl : Int) (a : ServiceSnapshot) (l : ServiceLabel) : Prop :=
  Spawning (ingests ttl ·) a l ∧
    ((∀ j, l ≠ .commit j ∧ l ≠ .lost j) ∨ ∀ q ∈ a.controls, (retrying? q).isNone)

instance Calm.decidable (ttl : Int) (a : ServiceSnapshot) :
    (l : ServiceLabel) → Decidable (Calm ttl a l)
  | .commit j => decidable_of_iff
      (Spawning (ingests ttl ·) a (.commit j) ∧ ∀ q ∈ a.controls, (retrying? q).isNone)
      (by simp [Calm])
  | .lost j => decidable_of_iff
      (Spawning (ingests ttl ·) a (.lost j) ∧ ∀ q ∈ a.controls, (retrying? q).isNone)
      (by simp [Calm])
  | .spawn q => decidable_of_iff (Spawning (ingests ttl ·) a (.spawn q)) (by simp [Calm])
  | .run i c => decidable_of_iff (Spawning (ingests ttl ·) a (.run i c)) (by simp [Calm])
  | .fault i => decidable_of_iff (Spawning (ingests ttl ·) a (.fault i)) (by simp [Calm])
  | .crash i => decidable_of_iff (Spawning (ingests ttl ·) a (.crash i)) (by simp [Calm])
  | .env c => decidable_of_iff (Spawning (ingests ttl ·) a (.env c)) (by simp [Calm])

theorem undisturbed_of_calm {config : Config} {ttl : Int} {w : ServiceWorld} {l : ServiceLabel}
    (h : Calm ttl w.abs l) : Undisturbed config ttl w l := by
  refine ⟨h.1, ?_⟩
  rintro ⟨i, j, x, y, call, call', again, hx, hcontrol, _, _, _, _, hlabel, _⟩
  rcases h.2 with hcommit | hnone
  · exact hlabel.elim (hcommit j).1 (hcommit j).2
  · have hretrying := hnone x.control (List.mem_of_getElem? (abs_control hx))
    simp [hcontrol, retrying?] at hretrying

/-- A duplicate that loses the race is answered with the message of the winner. -/
theorem idempotent_ingestion_duplicate :
    ∃ w w' c call owner message, Ingests sampleConfig (Undisturbed sampleConfig 1) w ∧
      (service sampleConfig).step w (.run 1 c) = some w' ∧
      w.abs.controls[1]? = some (.creating call true) ∧ Unexpired w.store call owner ∧
      smsMessage.find w.store owner.smsMessageId = some message ∧
      w'.abs.controls[1]? = some (.created call ⟨false, message⟩) := by
  let labels := .spawn (.creating (sampleCall "k" 0) false) ::
    .spawn (.creating (sampleCall "k" 1000) false) :: statements 1 1 (sampleChoice "" 0) ++
    statements 0 4 (sampleChoice "m" 0) ++ .commit 0 :: statements 1 3 (sampleChoice "n" 1)
  obtain ⟨w, hw, howned, hstep⟩ := exists_reaches_of_exec sampleConfig (Calm 1) labels
    (fun w => w.abs.controls[1]?.any (retriesOwned w) ∧
      ((service sampleConfig).step w (.run 1 (sampleChoice "" 2))).isSome) (by decide +kernel)
  obtain ⟨q, hq, howned⟩ := (Option.any_eq_true _ _).mp howned
  obtain ⟨call, owner, rfl, hunexpired⟩ := exists_unexpired howned
  obtain ⟨w', hstep⟩ := Option.isSome_iff_exists.mp hstep
  have hingests : Ingests sampleConfig (Undisturbed sampleConfig 1) w :=
    Reachable.mono (fun _ _ hl => undisturbed_of_calm hl) hw
  have hcalm : Calm 1 w.abs (.run 1 (sampleChoice "" 2)) := by simp [Calm, Spawning]
  obtain ⟨message, hmessage, hanswer⟩ := ((idempotent_ingestion (by decide) hingests).2 _ w'
    (undisturbed_of_calm hcalm) hstep).2.2 1 (sampleChoice "" 2) call owner (Or.inl rfl) hq
    hunexpired
  exact ⟨w, w', _, call, owner, message, hingests, hstep, hq, hunexpired, hmessage, hanswer⟩

end Replay

end SmsNotification.IdempotentIngestion

import SmsNotification.KeyedStore

/-!
Transactions at Read Committed. A transaction is a finite program of statements;
each statement sees the committed rows under the transaction's own uncommitted
writes, and other transactions may commit between any two of its statements.
Row locks are what makes the uncommitted writes of a transaction still fit the
committed store when it ends, and `TakesEffect` is the proof rule this gives:
one commit, described by a relation between the stores right before and right
after it.
-/

namespace SmsNotification.ReadCommitted

open SmsNotification.KeyedStore

variable {κ ρ χ ε α β γ : Type} {key : ρ → κ}

/-- An uncommitted write with the row it found under its key. -/
structure Pending (key : ρ → κ) where
  write : Write key
  before : Option ρ

/-- A transaction. A statement is given what the environment supplies for it
(clock, generated ids) and the rows it can see. -/
inductive Tx (χ : Type) (key : ρ → κ) (ε α : Type) where
  | done (a : α)
  | abort (e : ε)
  | stmt (writes : χ → Store key → List (Write key)) (next : χ → Store key → Tx χ key ε α)

namespace Tx

protected def bind : Tx χ key ε α → (α → Tx χ key ε β) → Tx χ key ε β
  | done a, k => k a
  | abort e, _ => abort e
  | stmt writes next, k => stmt writes fun c s => (next c s).bind k

instance : Monad (Tx χ key ε) where
  pure := done
  bind := Tx.bind

@[simp] theorem pure_eq (a : α) : (pure a : Tx χ key ε α) = done a :=
  rfl

@[simp] theorem bind_eq (t : Tx χ key ε α) (k : α → Tx χ key ε β) : t.bind k = t >>= k :=
  rfl

@[simp] theorem done_bind (a : α) (k : α → Tx χ key ε β) : (done a >>= k) = k a :=
  rfl

@[simp] theorem abort_bind (e : ε) (k : α → Tx χ key ε β) :
    (abort e >>= k) = abort e :=
  rfl

@[simp] theorem stmt_bind (writes : χ → Store key → List (Write key))
    (next : χ → Store key → Tx χ key ε α) (k : α → Tx χ key ε β) :
    (stmt writes next >>= k) = stmt writes fun c s => next c s >>= k :=
  rfl

theorem bind_done (t : Tx χ key ε α) : (t >>= done) = t := by
  induction t with
  | done a => rfl
  | abort e => rfl
  | stmt writes next ih =>
      exact congrArg (stmt writes) (funext fun c => funext fun s => ih c s)

theorem bind_assoc (t : Tx χ key ε α) (f : α → Tx χ key ε β) (g : β → Tx χ key ε γ) :
    (t >>= f) >>= g = t >>= fun a => f a >>= g := by
  induction t with
  | done a => rfl
  | abort e => rfl
  | stmt writes next ih =>
      simp only [stmt_bind]
      exact congrArg (stmt writes) (funext fun c => funext fun s => ih c s)

/-- The transaction with its result sent through a function. -/
protected def map (f : α → β) (t : Tx χ key ε α) : Tx χ key ε β :=
  t >>= fun a => done (f a)

/-- A check made by the client before it sends the next statement. -/
def require (check : Bool) (e : ε) : Tx χ key ε Unit :=
  if check then done () else abort e

/-- A query. -/
def read (query : χ → Store key → α) : Tx χ key ε α :=
  stmt (fun _ _ => []) fun c s => done (query c s)

variable [DecidableEq κ]

/-- Update of the row under `k` if there is one that passes the guard. The
result is the number of rows updated. -/
def update (k : κ) (guard : ρ → Bool) (change : χ → ρ → ρ) : Tx χ key ε Nat :=
  stmt
    (fun c s => ((s.find k).filter guard).toList.map fun row => .put (change c row))
    fun _ s => done ((s.find k).filter guard).toList.length

/-- Insertion of a record as a row. It fails where the key is taken or a row it
refers to is missing. -/
def insert (parents : ρ → List κ) (wrap : α → ρ) (data : χ → α) (duplicate missing : ε) :
    Tx χ key ε α :=
  stmt
    (fun c s =>
      if (s.find (key (wrap (data c)))).isSome then []
      else if (parents (wrap (data c))).all fun k => (s.find k).isSome then
        [.put (wrap (data c))]
      else [])
    fun c s =>
      if (s.find (key (wrap (data c)))).isSome then abort duplicate
      else if (parents (wrap (data c))).all fun k => (s.find k).isSome then done (data c)
      else abort missing

/-- Removal of the rows under the given keys that are still there and pass the
guard. The result is the number of rows removed. -/
def deleteMany (keys : List κ) (guard : ρ → Bool) : Tx χ key ε Nat :=
  stmt
    (fun _ s => (keys.filter fun k => (s.find k).any guard).map .delete)
    fun _ s => done (keys.filter fun k => (s.find k).any guard).length

/-- The transaction with no other one beside it: its answer and the store it leaves.
One that is rejected is rolled back. -/
def alone (cs : Nat → χ) : Tx χ key ε α → Store key → Except ε (α × Store key)
  | done a, s => .ok (a, s)
  | abort e, _ => .error e
  | stmt writes next, s =>
      alone (fun n => cs (n + 1)) (next (cs 0) s) (s.applyAll (writes (cs 0) s))

theorem alone_map (cs : Nat → χ) (f : α → β) (t : Tx χ key ε α) (s : Store key) :
    (t.map f).alone cs s = (t.alone cs s).map fun answer => (f answer.1, answer.2) := by
  induction t generalizing cs s with
  | done a => rfl
  | abort e => rfl
  | stmt writes next ih => exact ih _ _ _ _

end Tx

variable [DecidableEq κ]

/-- What the transaction sees: the committed rows under its own writes. -/
def view (s : Store key) (ps : List (Pending key)) : Store key :=
  s.applyAll (ps.map (·.write))

/-- Every uncommitted write still finds the row it was made over. -/
def Current : Store key → List (Pending key) → Prop
  | _, [] => True
  | s, p :: ps => s.find p.write.target = p.before ∧ Current (s.apply p.write) ps

/-- The writes of one statement, each with the row it finds. -/
def record : Store key → List (Write key) → List (Pending key)
  | _, [] => []
  | s, w :: ws => ⟨w, s.find w.target⟩ :: record (s.apply w) ws

@[simp] theorem view_nil (s : Store key) : view s [] = s :=
  rfl

@[simp] theorem view_cons (s : Store key) (p : Pending key) (ps : List (Pending key)) :
    view s (p :: ps) = view (s.apply p.write) ps :=
  rfl

theorem view_append (s : Store key) (ps qs : List (Pending key)) :
    view s (ps ++ qs) = view (view s ps) qs := by
  simp [view, Store.applyAll_append]

@[simp] theorem record_nil (s : Store key) : record s [] = [] :=
  rfl

@[simp] theorem record_cons (s : Store key) (w : Write key) (ws : List (Write key)) :
    record s (w :: ws) = ⟨w, s.find w.target⟩ :: record (s.apply w) ws :=
  rfl

theorem current_record (s : Store key) (ws : List (Write key)) : Current s (record s ws) := by
  induction ws generalizing s with
  | nil => trivial
  | cons w ws ih => exact ⟨rfl, ih (s.apply w)⟩

theorem current_append {s : Store key} {ps qs : List (Pending key)} :
    Current s (ps ++ qs) ↔ Current s ps ∧ Current (view s ps) qs := by
  induction ps generalizing s with
  | nil => simp [Current]
  | cons p ps ih => simp [Current, ih, and_assoc]

theorem current_of_agree {s s' : Store key} {ps : List (Pending key)}
    (hagree : ∀ p ∈ ps, s.find p.write.target = s'.find p.write.target)
    (h : Current s ps) : Current s' ps := by
  induction ps generalizing s s' with
  | nil => trivial
  | cons p ps ih =>
      refine ⟨(hagree p List.mem_cons_self).symm.trans h.1, ih (fun q hq => ?_) h.2⟩
      rw [Store.find_apply, Store.find_apply]
      split
      · rfl
      · exact hagree q (List.mem_cons_of_mem _ hq)

theorem write_mem_of_record {s : Store key} {ws : List (Write key)} {p : Pending key}
    (h : p ∈ record s ws) : p.write ∈ ws := by
  induction ws generalizing s with
  | nil => cases h
  | cons w ws ih =>
      rcases List.mem_cons.mp h with rfl | h
      · exact List.mem_cons_self
      · exact List.mem_cons_of_mem _ (ih h)

theorem exists_mem_record (s : Store key) {ws : List (Write key)} {w : Write key} (h : w ∈ ws) :
    ∃ p ∈ record s ws, p.write = w := by
  induction ws generalizing s with
  | nil => cases h
  | cons v ws ih =>
      rcases List.mem_cons.mp h with rfl | h
      · exact ⟨_, List.mem_cons_self, rfl⟩
      · obtain ⟨p, hp, hwrite⟩ := ih (s.apply v) h
        exact ⟨p, List.mem_cons_of_mem _ hp, hwrite⟩

theorem exists_first_write {s : Store key} {ps : List (Pending key)} (h : Current s ps) {k : κ}
    (hk : ∃ p ∈ ps, p.write.target = k) :
    ∃ p ∈ ps, p.write.target = k ∧ p.before = s.find k := by
  induction ps generalizing s with
  | nil => simp at hk
  | cons q ps ih =>
      by_cases hq : q.write.target = k
      · exact ⟨q, List.mem_cons_self, hq, by rw [← hq]; exact h.1.symm⟩
      · obtain ⟨p, hp, htarget⟩ := hk
        have hp : p ∈ ps := (List.mem_cons.mp hp).resolve_left fun heq => hq (heq ▸ htarget)
        obtain ⟨p', hp', htarget', hbefore⟩ := ih h.2 ⟨p, hp, htarget⟩
        rw [Store.find_apply, if_neg hq] at hbefore
        exact ⟨p', List.mem_cons_of_mem _ hp', htarget', hbefore⟩

theorem find_view_of_untouched {s : Store key} {ps : List (Pending key)} {k : κ}
    (h : ∀ p ∈ ps, p.write.target ≠ k) : (view s ps).find k = s.find k := by
  refine Store.find_applyAll_of_untouched s fun w hw => ?_
  obtain ⟨p, hp, rfl⟩ := List.mem_map.mp hw
  exact h p hp

theorem find_view_of_removed {s : Store key} {ps : List (Pending key)}
    (hremove : ∀ p ∈ ps, p.write.after = none) {k : κ} (hk : ∃ p ∈ ps, p.write.target = k) :
    (view s ps).find k = none := by
  induction ps generalizing s with
  | nil => simp at hk
  | cons q ps ih =>
      have htail : ∀ p ∈ ps, p.write.after = none :=
        fun p hp => hremove p (List.mem_cons_of_mem _ hp)
      by_cases hrest : ∃ p ∈ ps, p.write.target = k
      · exact ih htail hrest
      · have huntouched : ∀ p ∈ ps, p.write.target ≠ k := fun p hp heq => hrest ⟨p, hp, heq⟩
        obtain ⟨p, hp, htarget⟩ := hk
        have hq : q.write.target = k := by
          rcases List.mem_cons.mp hp with rfl | hp
          · exact htarget
          · exact absurd htarget (huntouched p hp)
        rw [view_cons, find_view_of_untouched huntouched, Store.find_apply, if_pos hq,
          hremove q List.mem_cons_self]

/-- A check of every write that a transaction can make, over the row it finds. -/
inductive Writes (good : Option ρ → Write key → Prop) : Tx χ key ε α → Prop where
  | done (a : α) : Writes good (.done a)
  | abort (e : ε) : Writes good (.abort e)
  | stmt {writes : χ → Store key → List (Write key)} {next : χ → Store key → Tx χ key ε α} :
      (∀ c s, ∀ p ∈ record s (writes c s), good p.before p.write) →
      (∀ c s, Writes good (next c s)) → Writes good (.stmt writes next)

namespace Writes

variable {good : Option ρ → Write key → Prop}

theorem bind {t : Tx χ key ε α} {k : α → Tx χ key ε β} (h : Writes good t)
    (hk : ∀ a, Writes good (k a)) : Writes good (t >>= k) := by
  induction h with
  | done a => exact hk a
  | abort e => exact .abort e
  | stmt hwrites _ ih => exact .stmt hwrites ih

theorem map (f : α → β) {t : Tx χ key ε α} (h : Writes good t) : Writes good (t.map f) :=
  h.bind fun a => .done (f a)

theorem read (query : χ → Store key → α) :
    Writes good (Tx.read query : Tx χ key ε α) :=
  .stmt (fun _ _ _ hp => by cases hp) fun _ _ => .done _

theorem require (check : Bool) (e : ε) :
    Writes good (Tx.require check e : Tx χ key ε Unit) := by
  unfold Tx.require
  split
  · exact .done _
  · exact .abort e

theorem update {k : κ} {guard : ρ → Bool} {change : χ → ρ → ρ}
    (h : ∀ c row, key row = k → guard row = true →
      key (change c row) = k ∧ good (some row) (.put (change c row))) :
    Writes good (Tx.update k guard change : Tx χ key ε Nat) := by
  refine .stmt (fun c s p hp => ?_) fun _ _ => .done _
  cases hfind : s.find k with
  | none => simp [hfind] at hp
  | some row =>
      by_cases hguard : guard row = true
      · obtain ⟨hkey, hgood⟩ := h c row (Store.key_of_find hfind) hguard
        simp only [hfind, Option.filter, hguard, if_true, Option.toList_some, List.map_cons,
          List.map_nil, record_cons, record_nil, List.mem_singleton] at hp
        obtain rfl := hp
        simpa [Write.target, hkey, hfind] using hgood
      · simp [hfind, Option.filter, hguard] at hp

theorem insert {parents : ρ → List κ} {wrap : β → ρ} {data : χ → β} {duplicate missing : ε}
    (h : ∀ c, good none (.put (wrap (data c)))) :
    Writes good (Tx.insert parents wrap data duplicate missing : Tx χ key ε β) := by
  refine .stmt (fun c s p hp => ?_) fun c s => ?_
  · cases hfind : s.find (key (wrap (data c))) with
    | some old => simp [hfind] at hp
    | none =>
        simp only [hfind, Option.isSome_none, Bool.false_eq_true, if_false] at hp
        split at hp
        · simp only [record_cons, record_nil, List.mem_singleton] at hp
          obtain rfl := hp
          simpa [Write.target, hfind] using h c
        · simp at hp
  · split
    · exact .abort _
    · split
      · exact .done _
      · exact .abort _

theorem before_of_removals {s : Store key} {ks : List κ} {p : Pending key}
    (h : p ∈ record s (ks.map .delete)) :
    p.before = none ∨ p.before = s.find p.write.target := by
  induction ks generalizing s with
  | nil => cases h
  | cons k ks ih =>
      rw [List.map_cons, record_cons] at h
      rcases List.mem_cons.mp h with rfl | h
      · exact Or.inr rfl
      · rcases ih h with hnone | hfind
        · exact Or.inl hnone
        · rw [Store.find_apply] at hfind
          split at hfind
          · exact Or.inl hfind
          · exact Or.inr hfind

theorem deleteMany {ks : List κ} {guard : ρ → Bool}
    (h : ∀ k ∈ ks, good none (.delete k) ∧
      ∀ row, key row = k → guard row = true → good (some row) (.delete k)) :
    Writes good (Tx.deleteMany ks guard : Tx χ key ε Nat) := by
  refine .stmt (fun _ s p hp => ?_) fun _ _ => .done _
  obtain ⟨k, hk, hwrite⟩ := List.mem_map.mp (write_mem_of_record hp)
  obtain ⟨hmem, hany⟩ := List.mem_filter.mp hk
  obtain ⟨row, hrow, hguard⟩ := (Option.any_eq_true _ _).mp hany
  rw [← hwrite]
  obtain hnone | hfind := before_of_removals hp
  · rw [hnone]
    exact (h k hmem).1
  · rw [hfind, ← hwrite, show (Write.delete k : Write key).target = k from rfl, hrow]
    exact (h k hmem).2 row (Store.key_of_find hrow) hguard

theorem mono {good' : Option ρ → Write key → Prop} (himp : ∀ b w, good b w → good' b w)
    {t : Tx χ key ε α} (h : Writes good t) : Writes good' t := by
  induction h with
  | done a => exact .done a
  | abort e => exact .abort e
  | stmt hwrites _ ih => exact .stmt (fun c s p hp => himp _ _ (hwrites c s p hp)) ih

end Writes

/-- A check of every write that a transaction can make with fair choices. -/
inductive WritesFrom (fair : χ → Prop) (good : Option ρ → Write key → Prop) :
    Tx χ key ε α → Prop where
  | done (a : α) : WritesFrom fair good (.done a)
  | abort (e : ε) : WritesFrom fair good (.abort e)
  | stmt {writes : χ → Store key → List (Write key)} {next : χ → Store key → Tx χ key ε α} :
      (∀ c s, fair c → ∀ p ∈ record s (writes c s), good p.before p.write) →
      (∀ c s, fair c → WritesFrom fair good (next c s)) → WritesFrom fair good (.stmt writes next)

namespace WritesFrom

variable {fair : χ → Prop} {good : Option ρ → Write key → Prop}

theorem of_writes {t : Tx χ key ε α} (h : Writes good t) : WritesFrom fair good t := by
  induction h with
  | done a => exact .done a
  | abort e => exact .abort e
  | stmt hwrites _ ih => exact .stmt (fun c s _ => hwrites c s) fun c s _ => ih c s

theorem bind {t : Tx χ key ε α} {k : α → Tx χ key ε β} (h : WritesFrom fair good t)
    (hk : ∀ a, WritesFrom fair good (k a)) : WritesFrom fair good (t >>= k) := by
  induction h with
  | done a => exact hk a
  | abort e => exact .abort e
  | stmt hwrites _ ih => exact .stmt hwrites ih

theorem map (f : α → β) {t : Tx χ key ε α} (h : WritesFrom fair good t) :
    WritesFrom fair good (t.map f) :=
  h.bind fun a => .done (f a)

theorem insert {parents : ρ → List κ} {wrap : β → ρ} {data : χ → β} {duplicate missing : ε}
    (h : ∀ c, fair c → good none (.put (wrap (data c)))) :
    WritesFrom fair good (Tx.insert parents wrap data duplicate missing : Tx χ key ε β) := by
  refine .stmt (fun c s hfair p hp => ?_) fun c s _ => ?_
  · cases hfind : s.find (key (wrap (data c))) with
    | some old => simp [hfind] at hp
    | none =>
        simp only [hfind, Option.isSome_none, Bool.false_eq_true, if_false] at hp
        split at hp
        · simp only [record_cons, record_nil, List.mem_singleton] at hp
          obtain rfl := hp
          simpa [Write.target, hfind] using h c hfair
        · simp at hp
  · split
    · exact .abort _
    · split
      · exact .done _
      · exact .abort _

end WritesFrom

/-- A transaction whose writes are all good until it comes to `last` or aborts. -/
inductive Until (good : Write key → Prop) (last : Tx χ key ε α) : Tx χ key ε α → Prop where
  | last : Until good last last
  | abort (e : ε) : Until good last (.abort e)
  | stmt {writes : χ → Store key → List (Write key)} {next : χ → Store key → Tx χ key ε α} :
      (∀ c s, ∀ w ∈ writes c s, good w) → (∀ c s, Until good last (next c s)) →
      Until good last (.stmt writes next)

omit [DecidableEq κ] in
theorem Until.stmt_cases {good : Write key → Prop} {last : Tx χ key ε α}
    {writes : χ → Store key → List (Write key)} {next : χ → Store key → Tx χ key ε α}
    (h : Until good last (.stmt writes next)) :
    last = .stmt writes next ∨
      ((∀ c s, ∀ w ∈ writes c s, good w) ∧ ∀ c s, Until good last (next c s)) := by
  generalize ht : Tx.stmt writes next = t at h
  cases h with
  | last => exact Or.inl rfl
  | abort e => cases ht
  | stmt hwrites hnext =>
      obtain ⟨rfl, rfl⟩ := Tx.stmt.inj ht
      exact Or.inr ⟨hwrites, hnext⟩

/-- What every good write does to a store is what a list of them does that still
fits the store. -/
theorem view_of_good {good : Option ρ → Write key → Prop} {R : Store key → Store key → Prop}
    (hrefl : ∀ s, R s s) (htrans : ∀ s₁ s₂ s₃, R s₁ s₂ → R s₂ s₃ → R s₁ s₃)
    (hgood : ∀ (s : Store key) w, good (s.find w.target) w → R s (s.apply w))
    {s : Store key} {ps : List (Pending key)} (hcurrent : Current s ps)
    (hps : ∀ p ∈ ps, good p.before p.write) : R s (view s ps) := by
  induction ps generalizing s with
  | nil => exact hrefl s
  | cons p ps ih =>
      have hfirst := hps p List.mem_cons_self
      rw [← hcurrent.1] at hfirst
      exact htrans _ _ _ (hgood s p.write hfirst)
        (ih hcurrent.2 fun q hq => hps q (List.mem_cons_of_mem _ hq))

/-- `spec` describes all that the transaction does to the committed store. At
every statement the committed store is any that `rely` leads to and that the
uncommitted writes still fit, and `supply` holds of what the environment
supplies there; a transaction that wrote nothing takes effect at its last
statement, any other one when it commits. -/
def TakesEffect (supply : χ → Store key → Bool) (rely : Store key → Store key → Prop)
    (spec : Store key → Except ε α → Store key → Prop) :
    Tx χ key ε α → Store key → List (Pending key) → Prop
  | .done a, s, ps =>
      match ps with
      | [] => spec s (.ok a) s
      | p :: ps => ∀ s', rely s s' → Current s' (p :: ps) →
          spec s' (.ok a) (view s' (p :: ps))
  | .abort e, s, _ => spec s (.error e) s
  | .stmt writes next, s, ps =>
      ∀ c s', supply c s' → rely s s' → Current s' ps →
        TakesEffect supply rely spec (next c (view s' ps)) s'
          (ps ++ record (view s' ps) (writes c (view s' ps)))

section Rules

variable {supply : χ → Store key → Bool} {rely : Store key → Store key → Prop}
  {spec : Store key → Except ε α → Store key → Prop}
  {s : Store key} {ps : List (Pending key)}

theorem takesEffect_abort (e : ε) (h : spec s (.error e) s) :
    TakesEffect supply rely spec (.abort e : Tx χ key ε α) s ps :=
  h

theorem takesEffect_require {check : Bool} {e : ε} {next : Unit → Tx χ key ε α}
    (hnot : check = false → spec s (.error e) s)
    (h : check = true → TakesEffect supply rely spec (next ()) s ps) :
    TakesEffect supply rely spec (Tx.require check e >>= next) s ps := by
  cases check with
  | true => exact h rfl
  | false => exact takesEffect_abort e (hnot rfl)

theorem takesEffect_done_nil (a : α) (h : spec s (.ok a) s) :
    TakesEffect supply rely spec (.done a : Tx χ key ε α) s [] :=
  h

theorem takesEffect_commit (a : α) (hps : ps ≠ [])
    (h : ∀ s', rely s s' → Current s' ps → spec s' (.ok a) (view s' ps)) :
    TakesEffect supply rely spec (.done a : Tx χ key ε α) s ps := by
  cases ps with
  | nil => exact absurd rfl hps
  | cons p ps => exact h

theorem takesEffect_read {query : χ → Store key → β} {next : β → Tx χ key ε α}
    (h : ∀ c s', rely s s' → Current s' ps →
      TakesEffect supply rely spec (next (query c (view s' ps))) s' ps) :
    TakesEffect supply rely spec (Tx.read query >>= next) s ps := by
  intro c s' _ hrely hcurrent
  simpa using h c s' hrely hcurrent

theorem takesEffect_update {k : κ} {guard : ρ → Bool} {change : χ → ρ → ρ}
    {next : Nat → Tx χ key ε α}
    (hnone : ∀ s', rely s s' → Current s' ps →
      (∀ row, (view s' ps).find k = some row → guard row = false) →
      TakesEffect supply rely spec (next 0) s' ps)
    (hsome : ∀ c s' row, supply c s' → rely s s' → Current s' ps → (view s' ps).find k = some row →
      guard row = true →
      TakesEffect supply rely spec (next 1) s'
        (ps ++ [⟨.put (change c row), (view s' ps).find (key (change c row))⟩])) :
    TakesEffect supply rely spec (Tx.update k guard change >>= next) s ps := by
  intro c s' hsupply hrely hcurrent
  cases hfind : (view s' ps).find k with
  | none => simpa [hfind] using hnone s' hrely hcurrent (by simp [hfind])
  | some row =>
      cases hguard : guard row with
      | false =>
          have hmiss : ∀ other, (view s' ps).find k = some other → guard other = false := by
            intro other hother
            rw [hfind, Option.some.injEq] at hother
            exact hother ▸ hguard
          simpa [hfind, Option.filter, hguard] using hnone s' hrely hcurrent hmiss
      | true =>
          simpa [hfind, Option.filter, hguard, Write.target] using
            hsome c s' row hsupply hrely hcurrent hfind hguard

theorem takesEffect_insert {parents : ρ → List κ} {wrap : β → ρ} {data : χ → β}
    {duplicate missing : ε} {next : β → Tx χ key ε α}
    (hdup : ∀ c s', supply c s' → rely s s' → Current s' ps →
      ((view s' ps).find (key (wrap (data c)))).isSome → spec s' (.error duplicate) s')
    (hmissing : ∀ c s', rely s s' → Current s' ps →
      (∃ k ∈ parents (wrap (data c)), (view s' ps).find k = none) →
      spec s' (.error missing) s')
    (h : ∀ c s', supply c s' → rely s s' → Current s' ps →
      (view s' ps).find (key (wrap (data c))) = none →
      (∀ k ∈ parents (wrap (data c)), ((view s' ps).find k).isSome) →
      TakesEffect supply rely spec (next (data c)) s' (ps ++ [⟨.put (wrap (data c)), none⟩])) :
    TakesEffect supply rely spec (Tx.insert parents wrap data duplicate missing >>= next) s ps := by
  intro c s' hsupply hrely hcurrent
  cases hfind : (view s' ps).find (key (wrap (data c))) with
  | some old =>
      have hspec := hdup c s' hsupply hrely hcurrent (by simp [hfind])
      simpa [hfind] using takesEffect_abort duplicate hspec
  | none =>
      by_cases hall : ∀ k ∈ parents (wrap (data c)), ((view s' ps).find k).isSome
      · have hall' : (parents (wrap (data c))).all
            (fun k => ((view s' ps).find k).isSome) = true := by
          simpa using hall
        simpa [hfind, hall', Write.target] using h c s' hsupply hrely hcurrent hfind hall
      · have hall' : (parents (wrap (data c))).all
            (fun k => ((view s' ps).find k).isSome) = false := by
          simpa [List.all_eq_false] using hall
        have hgone : ∃ k ∈ parents (wrap (data c)), (view s' ps).find k = none := by
          simpa using hall
        simpa [hfind, hall'] using takesEffect_abort missing (hmissing c s' hrely hcurrent hgone)

theorem takesEffect_deleteOne {k : κ} {guard : ρ → Bool} {next : Nat → Tx χ key ε α}
    (hnone : ∀ s', rely s s' → Current s' ps →
      (∀ row, (view s' ps).find k = some row → guard row = false) →
      TakesEffect supply rely spec (next 0) s' ps)
    (hsome : ∀ s' row, rely s s' → Current s' ps → (view s' ps).find k = some row →
      guard row = true → TakesEffect supply rely spec (next 1) s' (ps ++ [⟨.delete k, some row⟩])) :
    TakesEffect supply rely spec (Tx.deleteMany [k] guard >>= next) s ps := by
  intro c s' _ hrely hcurrent
  cases hguard : ((view s' ps).find k).any guard with
  | false =>
      have hmiss : ∀ row, (view s' ps).find k = some row → guard row = false := by
        intro row hrow
        simpa [hrow] using hguard
      simpa [hguard] using hnone s' hrely hcurrent hmiss
  | true =>
      obtain ⟨row, hrow, hpass⟩ := (Option.any_eq_true _ _).mp hguard
      simpa [hguard, hrow, hpass, Write.target] using hsome s' row hrely hcurrent hrow hpass

theorem TakesEffect.mono {spec' : Store key → Except ε α → Store key → Prop}
    (hspec : ∀ s r s', spec s r s' → spec' s r s') {t : Tx χ key ε α}
    (h : TakesEffect supply rely spec t s ps) : TakesEffect supply rely spec' t s ps := by
  induction t generalizing s ps with
  | done a =>
      cases ps with
      | nil => exact hspec _ _ _ h
      | cons p ps => exact fun s' hrely hcurrent => hspec _ _ _ (h s' hrely hcurrent)
  | abort e => exact hspec _ _ _ h
  | stmt writes next ih =>
      exact fun c s' hsupply hrely hcurrent => ih _ _ (h c s' hsupply hrely hcurrent)

theorem TakesEffect.rely_mono {rely' : Store key → Store key → Prop}
    (hrely : ∀ s s', rely' s s' → rely s s') {t : Tx χ key ε α}
    (h : TakesEffect supply rely spec t s ps) : TakesEffect supply rely' spec t s ps := by
  induction t generalizing s ps with
  | done a =>
      cases ps with
      | nil => exact h
      | cons p ps => exact fun s' hs' hcurrent => h s' (hrely _ _ hs') hcurrent
  | abort e => exact h
  | stmt writes next ih =>
      exact fun c s' hsupply hs' hcurrent => ih _ _ (h c s' hsupply (hrely _ _ hs') hcurrent)

theorem TakesEffect.and {spec' : Store key → Except ε α → Store key → Prop} {t : Tx χ key ε α}
    (h : TakesEffect supply rely spec t s ps) (h' : TakesEffect supply rely spec' t s ps) :
    TakesEffect supply rely (fun s r s' => spec s r s' ∧ spec' s r s') t s ps := by
  induction t generalizing s ps with
  | done a =>
      cases ps with
      | nil => exact ⟨h, h'⟩
      | cons p ps => exact fun s' hrely hcurrent => ⟨h s' hrely hcurrent, h' s' hrely hcurrent⟩
  | abort e => exact ⟨h, h'⟩
  | stmt writes next ih =>
      exact fun c s' hsupply hrely hcurrent =>
        ih _ _ (h c s' hsupply hrely hcurrent) (h' c s' hsupply hrely hcurrent)

/-- A transaction all of whose writes are good does what good writes do. -/
theorem Writes.takesEffect {good : Option ρ → Write key → Prop}
    {R : Store key → Store key → Prop} (hrefl : ∀ s, R s s)
    (htrans : ∀ s₁ s₂ s₃, R s₁ s₂ → R s₂ s₃ → R s₁ s₃)
    (hgood : ∀ (s : Store key) w, good (s.find w.target) w → R s (s.apply w))
    {t : Tx χ key ε α} (h : Writes good t) (hps : ∀ p ∈ ps, good p.before p.write) :
    TakesEffect supply rely (fun s _ s' => R s s') t s ps := by
  induction h generalizing s ps with
  | done a =>
      cases ps with
      | nil => exact hrefl s
      | cons p ps => exact fun s' _ hcurrent => view_of_good hrefl htrans hgood hcurrent hps
  | abort e => exact hrefl s
  | stmt hwrites _ ih =>
      intro c s' _ _ _
      refine ih _ _ fun p hp => ?_
      rcases List.mem_append.mp hp with hp | hp
      · exact hps p hp
      · exact hwrites _ _ p hp

theorem WritesFrom.takesEffect {fair : χ → Prop} {good : Option ρ → Write key → Prop}
    {R : Store key → Store key → Prop} (hfair : ∀ c s, supply c s → fair c)
    (hrefl : ∀ s, R s s) (htrans : ∀ s₁ s₂ s₃, R s₁ s₂ → R s₂ s₃ → R s₁ s₃)
    (hgood : ∀ (s : Store key) w, good (s.find w.target) w → R s (s.apply w))
    {t : Tx χ key ε α} (h : WritesFrom fair good t) (hps : ∀ p ∈ ps, good p.before p.write) :
    TakesEffect supply rely (fun s _ s' => R s s') t s ps := by
  induction h generalizing s ps with
  | done a =>
      cases ps with
      | nil => exact hrefl s
      | cons p ps => exact fun s' _ hcurrent => view_of_good hrefl htrans hgood hcurrent hps
  | abort e => exact hrefl s
  | stmt hwrites _ ih =>
      intro c s' hsupply _ _
      refine ih _ _ (hfair _ _ hsupply) fun p hp => ?_
      rcases List.mem_append.mp hp with hp | hp
      · exact hps p hp
      · exact hwrites _ _ (hfair _ _ hsupply) p hp

theorem takesEffect_trivial (t : Tx χ key ε α) :
    TakesEffect supply rely (fun _ _ _ => True) t s ps := by
  induction t generalizing s ps with
  | done a =>
      cases ps with
      | nil => trivial
      | cons p ps => exact fun _ _ _ => trivial
  | abort e => trivial
  | stmt writes next ih => exact fun c s' _ _ _ => ih _ _

/-- A transaction that has written ends with an answer that passes `ok` or not at
all. `wrote` tells whether it has. -/
inductive CommitsAs (ok : α → Prop) : Bool → Tx χ key ε α → Prop where
  | quiet (a : α) : CommitsAs ok false (.done a)
  | done {wrote : Bool} {a : α} : ok a → CommitsAs ok wrote (.done a)
  | abort {wrote : Bool} (e : ε) : CommitsAs ok wrote (.abort e)
  | stmt {wrote : Bool} {writes : χ → Store key → List (Write key)}
      {next : χ → Store key → Tx χ key ε α} :
      (∀ c s, CommitsAs ok (wrote || !(writes c s).isEmpty) (next c s)) →
      CommitsAs ok wrote (.stmt writes next)

namespace CommitsAs

variable {ok : α → Prop} {wrote : Bool}

omit [DecidableEq κ] in
theorem read_bind {query : χ → Store key → β} {next : β → Tx χ key ε α}
    (h : ∀ b, CommitsAs ok wrote (next b)) : CommitsAs ok wrote (Tx.read query >>= next) :=
  .stmt fun _ _ => by simpa using h _

theorem update_bind {k : κ} {guard : ρ → Bool} {change : χ → ρ → ρ} {next : Nat → Tx χ key ε α}
    (hnone : CommitsAs ok wrote (next 0)) (hsome : CommitsAs ok true (next 1)) :
    CommitsAs ok wrote (Tx.update k guard change >>= next) := by
  refine .stmt fun c s => ?_
  cases hrow : (s.find k).filter guard with
  | none => simpa [hrow] using hnone
  | some row => simpa [hrow] using hsome

theorem insert_bind {parents : ρ → List κ} {wrap : β → ρ} {data : χ → β} {duplicate missing : ε}
    {next : β → Tx χ key ε α} (h : ∀ b, CommitsAs ok true (next b)) :
    CommitsAs ok wrote (Tx.insert parents wrap data duplicate missing >>= next) := by
  refine .stmt fun c s => ?_
  by_cases htaken : (s.find (key (wrap (data c)))).isSome = true
  · simpa [htaken] using CommitsAs.abort duplicate
  · by_cases hparents : ((parents (wrap (data c))).all fun k => (s.find k).isSome) = true
    · simpa only [htaken, hparents, if_true, Bool.false_eq_true, if_false, List.isEmpty_cons,
        Bool.not_false, Bool.or_true, Tx.bind_eq, Tx.done_bind] using h (data c)
    · simpa only [htaken, hparents, Bool.false_eq_true, if_false, Tx.bind_eq, Tx.abort_bind] using
        CommitsAs.abort missing

omit [DecidableEq κ] in
theorem of_forall (h : ∀ a, ok a) (t : Tx χ key ε α) : CommitsAs ok wrote t := by
  induction t generalizing wrote with
  | done a => exact .done (h a)
  | abort e => exact .abort e
  | stmt writes next ih => exact .stmt fun c s => ih c s

omit [DecidableEq κ] in
theorem map {f : β → α} {t : Tx χ key ε β} (h : CommitsAs (fun b => ok (f b)) wrote t) :
    CommitsAs ok wrote (t.map f) := by
  induction h with
  | quiet b => exact .quiet _
  | done hb => exact .done hb
  | abort e => exact .abort e
  | stmt _ ih => exact .stmt ih

omit [DecidableEq κ] in
theorem values {f : β → α} {t : Tx χ key ε β} (h : ∀ b, ok (f b)) : CommitsAs ok wrote (t.map f) :=
  .map (.of_forall h t)

omit [DecidableEq κ] in
theorem mono {ok' : α → Prop} (hok : ∀ a, ok a → ok' a) {t : Tx χ key ε α}
    (h : CommitsAs ok wrote t) : CommitsAs ok' wrote t := by
  induction h with
  | quiet a => exact .quiet a
  | done ha => exact .done (hok _ ha)
  | abort e => exact .abort e
  | stmt _ ih => exact .stmt ih

theorem takesEffect {t : Tx χ key ε α} (h : CommitsAs ok wrote t) (hps : wrote = false → ps = []) :
    TakesEffect supply rely (fun s r s' => s' = s ∨ ∃ a, r = .ok a ∧ ok a) t s ps := by
  induction h generalizing s ps with
  | quiet a =>
      rw [hps rfl]
      exact Or.inl rfl
  | @done wrote a ha =>
      cases ps with
      | nil => exact Or.inl rfl
      | cons p ps => exact fun _ _ _ => Or.inr ⟨a, rfl, ha⟩
  | abort e => exact Or.inl rfl
  | @stmt wrote writes next _ ih =>
      intro c s' _ _ _
      refine ih c _ fun hnone => ?_
      obtain ⟨hwrote, hempty⟩ := Bool.or_eq_false_iff.mp hnone
      have hwrites : writes c (view s' ps) = [] := by simpa using hempty
      rw [hwrites, hps hwrote]
      rfl

theorem answers {t : Tx χ key ε α} (h : CommitsAs ok true t) :
    TakesEffect supply rely (fun _ r _ => ∀ a, r = .ok a → ok a) t s ps := by
  generalize hwrote : true = wrote at h
  induction h generalizing s ps with
  | quiet a => simp at hwrote
  | @done wrote a ha =>
      have hall : ∀ b, (Except.ok a : Except ε α) = .ok b → ok b := by
        rintro b hb
        exact Except.ok.inj hb ▸ ha
      cases ps with
      | nil => exact hall
      | cons p ps => exact fun _ _ _ => hall
  | abort e => exact fun a ha => by cases ha
  | stmt _ ih =>
      subst hwrote
      exact fun c s' _ _ _ => ih c _ rfl

end CommitsAs

/-- In every store that `rely` leads to, the transaction only reads, and it ends with
an answer that passes `ok`. -/
def ReadsTo (supply : χ → Store key → Bool) (rely : Store key → Store key → Prop)
    (ok : α → Prop) : Tx χ key ε α → Store key → Prop
  | .done a, _ => ok a
  | .abort _, _ => False
  | .stmt writes next, s => ∀ c s', supply c s' → rely s s' →
      writes c s' = [] ∧ ReadsTo supply rely ok (next c s') s'

omit [DecidableEq κ] in
theorem readsTo_read {ok : α → Prop} {query : χ → Store key → β} {next : β → Tx χ key ε α}
    (h : ∀ c s', rely s s' → ReadsTo supply rely ok (next (query c s')) s') :
    ReadsTo supply rely ok (Tx.read query >>= next) s :=
  fun c s' _ hrely => ⟨rfl, h c s' hrely⟩

omit [DecidableEq κ] in
theorem ReadsTo.mono {ok ok' : α → Prop} (hok : ∀ a, ok a → ok' a) {t : Tx χ key ε α}
    (h : ReadsTo supply rely ok t s) : ReadsTo supply rely ok' t s := by
  induction t generalizing s with
  | done a => exact hok a h
  | abort e => exact h
  | stmt writes next ih =>
      exact fun c s' hsupply hrely => (h c s' hsupply hrely).imp_right fun hnext => ih _ _ hnext

omit [DecidableEq κ] in
theorem ReadsTo.map {ok : α → Prop} {f : β → α} {t : Tx χ key ε β}
    (h : ReadsTo supply rely (fun b => ok (f b)) t s) : ReadsTo supply rely ok (t.map f) s := by
  induction t generalizing s with
  | done b => exact h
  | abort e => exact h
  | stmt writes next ih =>
      exact fun c s' hsupply hrely => (h c s' hsupply hrely).imp_right fun hnext => ih _ _ hnext

/-- A description of a transaction whose result is sent through a function. -/
def Maps (f : α → β) (spec : Store key → Except ε α → Store key → Prop) (s : Store key)
    (r : Except ε β) (s' : Store key) : Prop :=
  match r with
  | .ok b => ∃ a, b = f a ∧ spec s (.ok a) s'
  | .error e => spec s (.error e) s'

theorem TakesEffect.map (f : α → β) {t : Tx χ key ε α}
    (h : TakesEffect supply rely spec t s ps) :
    TakesEffect supply rely (Maps f spec) (t.map f) s ps := by
  induction t generalizing s ps with
  | done a =>
      cases ps with
      | nil => exact ⟨a, rfl, h⟩
      | cons p ps => exact fun s' hrely hcurrent => ⟨a, rfl, h s' hrely hcurrent⟩
  | abort e => exact h
  | stmt writes next ih =>
      exact fun c s' hsupply hrely hcurrent => ih _ _ (h c s' hsupply hrely hcurrent)

end Rules

end SmsNotification.ReadCommitted

import SmsNotification.LabelledRuns
import SmsNotification.ReadCommitted

/-!
Actors over one Read Committed store. An actor is an automaton: in each control
state it waits for the end of a transaction or for an external action, and the
answer decides the next control state. The statement-level system interleaves
the statements of all open transactions under row locks. The atomic system lets
every transaction take effect in one step. `simulates` shows that the first
only reaches stores and control states of the second.
-/

namespace SmsNotification.ActorSystem

open SmsNotification.KeyedStore
open SmsNotification.LabelledRuns
open SmsNotification.ReadCommitted

variable {κ ρ χ ε Q Ξ : Type} {key : ρ → κ}

/-- What an actor waits for in a control state. -/
inductive Code (χ : Type) (key : ρ → κ) (ε Q Ξ : Type) where
  | tx (t : Tx χ key ε Q) (onError : ε → Q)
  | ext (act : χ → Ξ → Option (Ξ × Q))
  | halt

/-- The automaton all actors run. `supply` is what the environment may supply to
a statement, `parents` are the keys a row refers to, `fault` is the error of a
call the store fails, `crashed` is the control state a crash leaves behind and
`env` are the moves of the outside world. -/
structure Protocol (χ : Type) (key : ρ → κ) (ε Q Ξ : Type) where
  code : Q → Code χ key ε Q Ξ
  supply : χ → Store key → Bool
  parents : ρ → List κ
  fault : ε
  crashed : Q → Q
  env : χ → Ξ → Option Ξ

/-- A running actor: its control state, what is left of its transaction and the
uncommitted writes of that transaction. -/
structure Actor (χ : Type) (key : ρ → κ) (ε Q : Type) where
  control : Q
  rest : Option (Tx χ key ε Q)
  pending : List (Pending key)

structure World (χ : Type) (key : ρ → κ) (ε Q Ξ : Type) where
  store : Store key
  actors : List (Actor χ key ε Q)
  ext : Ξ

/-- Steps of the statement-level system. `lost` is a commit whose answer does
not arrive, `fault` a call that fails and is rolled back. -/
inductive Label (χ Q : Type) where
  | spawn (q : Q)
  | run (i : Nat) (c : χ)
  | commit (i : Nat)
  | lost (i : Nat)
  | fault (i : Nat)
  | crash (i : Nat)
  | env (c : χ)

variable [DecidableEq κ]

/-- The keys that an insert locks for share. -/
def Pending.references (parents : ρ → List κ) (p : Pending key) : List κ :=
  match p.before, p.write with
  | none, .put row => parents row
  | _, _ => []

/-- Two uncommitted writes that row locks keep apart: writes under one key, and
the removal of a row that an insert refers to. -/
def conflict (parents : ρ → List κ) (p q : Pending key) : Bool :=
  p.write.target = q.write.target ||
    (p.write.after.isNone && (Pending.references parents q).contains p.write.target) ||
    (q.write.after.isNone && (Pending.references parents p).contains q.write.target)

theorem conflict_comm (parents : ρ → List κ) (p q : Pending key) :
    conflict parents p q = conflict parents q p := by
  have htarget : decide (p.write.target = q.write.target) =
      decide (q.write.target = p.write.target) := by
    simp [eq_comm]
  rw [conflict, conflict, htarget, Bool.or_assoc, Bool.or_assoc]
  congr 1
  exact Bool.or_comm _ _

theorem target_ne_of_conflict {parents : ρ → List κ} {p q : Pending key}
    (h : conflict parents p q = false) : p.write.target ≠ q.write.target := by
  simp only [conflict, Bool.or_eq_false_iff, decide_eq_false_iff_not] at h
  exact h.1.1

namespace Protocol

variable (P : Protocol χ key ε Q Ξ)

/-- No other open transaction holds a lock that the new writes need. -/
def lockFree (others : List (Actor χ key ε Q)) (new : List (Pending key)) : Bool :=
  others.all fun a => a.pending.all fun q => new.all fun p => !conflict P.parents p q

/-- An actor that has just come to a control state. -/
def enter (q : Q) : Actor χ key ε Q :=
  match P.code q with
  | .tx t _ => ⟨q, some t, []⟩
  | _ => ⟨q, none, []⟩

/-- An actor after a statement. A transaction that is over without uncommitted
writes has nothing to commit. -/
def settle (q : Q) (onError : ε → Q) (t : Tx χ key ε Q) (ps : List (Pending key)) :
    Actor χ key ε Q :=
  match t with
  | .abort e => P.enter (onError e)
  | .done q' => if ps.isEmpty then P.enter q' else ⟨q, some (.done q'), ps⟩
  | .stmt writes next => ⟨q, some (.stmt writes next), ps⟩

/-- One step of the statement-level system. -/
def step (w : World χ key ε Q Ξ) : Label χ Q → Option (World χ key ε Q Ξ)
  | .spawn q => some { w with actors := w.actors ++ [P.enter q] }
  | .run i c =>
      match w.actors[i]? with
      | none => none
      | some a =>
          match P.code a.control, a.rest with
          | .tx _ onError, some (.stmt writes next) =>
              let seen := view w.store a.pending
              let new := record seen (writes c seen)
              if P.supply c w.store && P.lockFree (w.actors.eraseIdx i) new then
                some { w with
                  actors := w.actors.set i
                    (P.settle a.control onError (next c seen) (a.pending ++ new)) }
              else none
          | .ext act, _ =>
              match act c w.ext with
              | none => none
              | some (x, q) => some { w with actors := w.actors.set i (P.enter q), ext := x }
          | _, _ => none
  | .commit i =>
      match w.actors[i]? with
      | none => none
      | some a =>
          match P.code a.control, a.rest, a.pending with
          | .tx _ _, some (.done q), p :: ps =>
              some { w with
                store := view w.store (p :: ps)
                actors := w.actors.set i (P.enter q) }
          | _, _, _ => none
  | .lost i =>
      match w.actors[i]? with
      | none => none
      | some a =>
          match P.code a.control, a.rest, a.pending with
          | .tx _ onError, some (.done _), p :: ps =>
              some { w with
                store := view w.store (p :: ps)
                actors := w.actors.set i (P.enter (onError P.fault)) }
          | _, _, _ => none
  | .fault i =>
      match w.actors[i]? with
      | none => none
      | some a =>
          match P.code a.control with
          | .tx _ onError =>
              some { w with actors := w.actors.set i (P.enter (onError P.fault)) }
          | _ => none
  | .crash i =>
      match w.actors[i]? with
      | none => none
      | some a =>
          match P.code a.control with
          | .halt => none
          | _ => some { w with actors := w.actors.set i (P.enter (P.crashed a.control)) }
  | .env c =>
      match P.env c w.ext with
      | none => none
      | some x => some { w with ext := x }

end Protocol

/-- What a step of the statement-level system does, one case for each kind of
step. -/
inductive Moves (P : Protocol χ key ε Q Ξ) (w : World χ key ε Q Ξ) :
    Label χ Q → World χ key ε Q Ξ → Prop where
  | spawn (q : Q) : Moves P w (.spawn q) { w with actors := w.actors ++ [P.enter q] }
  | statement {i : Nat} {c : χ} {a : Actor χ key ε Q} {t : Tx χ key ε Q} {onError : ε → Q}
      {writes : χ → Store key → List (Write key)} {next : χ → Store key → Tx χ key ε Q} :
      w.actors[i]? = some a → P.code a.control = .tx t onError →
      a.rest = some (.stmt writes next) → P.supply c w.store →
      P.lockFree (w.actors.eraseIdx i)
        (record (view w.store a.pending) (writes c (view w.store a.pending))) →
      Moves P w (.run i c) { w with
        actors := w.actors.set i (P.settle a.control onError (next c (view w.store a.pending))
          (a.pending ++ record (view w.store a.pending) (writes c (view w.store a.pending)))) }
  | act {i : Nat} {c : χ} {a : Actor χ key ε Q} {act : χ → Ξ → Option (Ξ × Q)} {x : Ξ} {q : Q} :
      w.actors[i]? = some a → P.code a.control = .ext act → act c w.ext = some (x, q) →
      Moves P w (.run i c) { w with actors := w.actors.set i (P.enter q), ext := x }
  | commit {i : Nat} {a : Actor χ key ε Q} {t : Tx χ key ε Q} {onError : ε → Q} {q : Q} :
      w.actors[i]? = some a → P.code a.control = .tx t onError → a.rest = some (.done q) →
      a.pending ≠ [] →
      Moves P w (.commit i) { w with
        store := view w.store a.pending, actors := w.actors.set i (P.enter q) }
  | lost {i : Nat} {a : Actor χ key ε Q} {t : Tx χ key ε Q} {onError : ε → Q} {q : Q} :
      w.actors[i]? = some a → P.code a.control = .tx t onError → a.rest = some (.done q) →
      a.pending ≠ [] →
      Moves P w (.lost i) { w with
        store := view w.store a.pending, actors := w.actors.set i (P.enter (onError P.fault)) }
  | fault {i : Nat} {a : Actor χ key ε Q} {t : Tx χ key ε Q} {onError : ε → Q} :
      w.actors[i]? = some a → P.code a.control = .tx t onError →
      Moves P w (.fault i) { w with actors := w.actors.set i (P.enter (onError P.fault)) }
  | crash {i : Nat} {a : Actor χ key ε Q} :
      w.actors[i]? = some a → P.code a.control ≠ .halt →
      Moves P w (.crash i) { w with actors := w.actors.set i (P.enter (P.crashed a.control)) }
  | env {c : χ} {x : Ξ} : P.env c w.ext = some x → Moves P w (.env c) { w with ext := x }

theorem moves_of_step {P : Protocol χ key ε Q Ξ} {w w' : World χ key ε Q Ξ} {l : Label χ Q}
    (hstep : P.step w l = some w') : Moves P w l w' := by
  cases l with
  | spawn q =>
      obtain rfl := Option.some.inj hstep
      exact .spawn q
  | run i c =>
      simp only [Protocol.step] at hstep
      split at hstep
      · simp at hstep
      rename_i a ha
      split at hstep
      · rename_i t onError writes next hcode hrest
        split at hstep
        · rename_i hguard
          simp only [Bool.and_eq_true] at hguard
          obtain rfl := Option.some.inj hstep
          exact .statement ha hcode hrest hguard.1 hguard.2
        · simp at hstep
      · rename_i act hcode
        split at hstep
        · simp at hstep
        rename_i x q hact
        obtain rfl := Option.some.inj hstep
        exact .act ha hcode hact
      · simp at hstep
  | commit i =>
      simp only [Protocol.step] at hstep
      split at hstep
      · simp at hstep
      rename_i a ha
      split at hstep
      · rename_i t onError q p ps hcode hrest hpending
        obtain rfl := Option.some.inj hstep
        rw [← hpending]
        exact .commit ha hcode hrest (by simp [hpending])
      · simp at hstep
  | lost i =>
      simp only [Protocol.step] at hstep
      split at hstep
      · simp at hstep
      rename_i a ha
      split at hstep
      · rename_i t onError q p ps hcode hrest hpending
        obtain rfl := Option.some.inj hstep
        rw [← hpending]
        exact .lost ha hcode hrest (by simp [hpending])
      · simp at hstep
  | fault i =>
      simp only [Protocol.step] at hstep
      split at hstep
      · simp at hstep
      rename_i a ha
      split at hstep
      · rename_i t onError hcode
        obtain rfl := Option.some.inj hstep
        exact .fault ha hcode
      · simp at hstep
  | crash i =>
      simp only [Protocol.step] at hstep
      split at hstep
      · simp at hstep
      rename_i a ha
      split at hstep
      · simp at hstep
      · rename_i hcode
        obtain rfl := Option.some.inj hstep
        exact .crash ha hcode
  | env c =>
      simp only [Protocol.step] at hstep
      split at hstep
      · simp at hstep
      rename_i x hx
      obtain rfl := Option.some.inj hstep
      exact .env hx

/-- What the atomic system keeps of a world. -/
structure Snapshot (key : ρ → κ) (Q Ξ : Type) where
  store : Store key
  controls : List Q
  ext : Ξ

/-- The snapshot of a world. -/
def World.abs (w : World χ key ε Q Ξ) : Snapshot key Q Ξ :=
  ⟨w.store, w.actors.map (·.control), w.ext⟩

/-- One step of the atomic system. It carries the label of the statement-level
step that completes it; `spec` says what the transaction of a control state may
answer and do. -/
inductive Atomic (P : Protocol χ key ε Q Ξ)
    (spec : Q → Store key → Except ε Q → Store key → Prop) :
    Snapshot key Q Ξ → Label χ Q → Snapshot key Q Ξ → Prop where
  | spawn {a : Snapshot key Q Ξ} (q : Q) :
      Atomic P spec a (.spawn q) { a with controls := a.controls ++ [q] }
  | answer {a : Snapshot key Q Ξ} {i : Nat} {c : χ} {q q' : Q} {t : Tx χ key ε Q}
      {onError : ε → Q} :
      a.controls[i]? = some q → P.code q = .tx t onError → spec q a.store (.ok q') a.store →
      Atomic P spec a (.run i c) { a with controls := a.controls.set i q' }
  | error {a : Snapshot key Q Ξ} {i : Nat} {c : χ} {q : Q} {e : ε} {t : Tx χ key ε Q}
      {onError : ε → Q} :
      a.controls[i]? = some q → P.code q = .tx t onError → spec q a.store (.error e) a.store →
      Atomic P spec a (.run i c) { a with controls := a.controls.set i (onError e) }
  | act {a : Snapshot key Q Ξ} {i : Nat} {c : χ} {q q' : Q} {x : Ξ}
      {act : χ → Ξ → Option (Ξ × Q)} :
      a.controls[i]? = some q → P.code q = .ext act → act c a.ext = some (x, q') →
      Atomic P spec a (.run i c) { a with controls := a.controls.set i q', ext := x }
  | commit {a : Snapshot key Q Ξ} {i : Nat} {q q' : Q} {t : Tx χ key ε Q} {onError : ε → Q}
      {s : Store key} :
      a.controls[i]? = some q → P.code q = .tx t onError → spec q a.store (.ok q') s →
      Atomic P spec a (.commit i) { a with store := s, controls := a.controls.set i q' }
  | lost {a : Snapshot key Q Ξ} {i : Nat} {q q' : Q} {t : Tx χ key ε Q} {onError : ε → Q}
      {s : Store key} :
      a.controls[i]? = some q → P.code q = .tx t onError → spec q a.store (.ok q') s →
      Atomic P spec a (.lost i)
        { a with store := s, controls := a.controls.set i (onError P.fault) }
  | fault {a : Snapshot key Q Ξ} {i : Nat} {q : Q} {t : Tx χ key ε Q} {onError : ε → Q} :
      a.controls[i]? = some q → P.code q = .tx t onError →
      Atomic P spec a (.fault i) { a with controls := a.controls.set i (onError P.fault) }
  | crash {a : Snapshot key Q Ξ} {i : Nat} {q : Q} :
      a.controls[i]? = some q → P.code q ≠ .halt →
      Atomic P spec a (.crash i) { a with controls := a.controls.set i (P.crashed q) }
  | env {a : Snapshot key Q Ξ} {c : χ} {x : Ξ} :
      P.env c a.ext = some x → Atomic P spec a (.env c) { a with ext := x }

omit [DecidableEq κ] in
/-- The store changes only where an actor commits, as the spec of its control
state says. -/
theorem Atomic.store {P : Protocol χ key ε Q Ξ}
    {spec : Q → Store key → Except ε Q → Store key → Prop} {a a' : Snapshot key Q Ξ}
    {l : Label χ Q} (h : Atomic P spec a l a') :
    a'.store = a.store ∨ ∃ i q q', a.controls[i]? = some q ∧ (l = .commit i ∨ l = .lost i) ∧
      spec q a.store (.ok q') a'.store := by
  cases h with
  | commit hq _ hspec => exact Or.inr ⟨_, _, _, hq, Or.inl rfl, hspec⟩
  | lost hq _ hspec => exact Or.inr ⟨_, _, _, hq, Or.inr rfl, hspec⟩
  | _ => exact Or.inl rfl

/-- What makes the atomic system sound: in every live control state the
transaction takes effect as `spec` says, every effect is one that the others may
rely on, and live control states lead to live ones. -/
structure Sound (P : Protocol χ key ε Q Ξ) (live : Q → Prop)
    (rely : Store key → Store key → Prop)
    (spec : Q → Store key → Except ε Q → Store key → Prop) : Prop where
  refl : ∀ s, rely s s
  trans : ∀ s₁ s₂ s₃, rely s₁ s₂ → rely s₂ s₃ → rely s₁ s₃
  guarantee : ∀ q s r s', live q → spec q s r s' → rely s s'
  takesEffect : ∀ q t onError, live q → P.code q = .tx t onError → ∀ s,
    TakesEffect P.supply rely (spec q) t s []
  live_ok : ∀ q t onError s q' s', live q → P.code q = .tx t onError →
    spec q s (.ok q') s' → live q'
  live_error : ∀ q t onError e, live q → P.code q = .tx t onError → live (onError e)
  live_act : ∀ q act c x x' q', live q → P.code q = .ext act → act c x = some (x', q') →
    live q'
  live_crashed : ∀ q, live q → live (P.crashed q)

/-- A transaction under way: its uncommitted writes fit the committed store and
what is left of it still takes effect as `spec` says. -/
def Underway (P : Protocol χ key ε Q Ξ) (rely : Store key → Store key → Prop)
    (spec : Q → Store key → Except ε Q → Store key → Prop) (s : Store key)
    (a : Actor χ key ε Q) : Prop :=
  Current s a.pending ∧
    ∀ t onError, P.code a.control = .tx t onError →
      ∃ rest, a.rest = some rest ∧
        ∃ s₀, rely s₀ s ∧ TakesEffect P.supply rely (spec a.control) rest s₀ a.pending

/-- The invariant of the statement-level system: every actor is in a live control
state with a transaction under way, and row locks keep the uncommitted writes of
different actors apart. -/
structure Consistent (P : Protocol χ key ε Q Ξ) (live : Q → Prop)
    (rely : Store key → Store key → Prop)
    (spec : Q → Store key → Except ε Q → Store key → Prop) (w : World χ key ε Q Ξ) : Prop where
  live : ∀ (i : Nat) a, w.actors[i]? = some a → live a.control
  underway : ∀ (i : Nat) a, w.actors[i]? = some a → Underway P rely spec w.store a
  locked : ∀ (i j : Nat) a b, w.actors[i]? = some a → w.actors[j]? = some b → i ≠ j →
    ∀ p ∈ a.pending, ∀ q ∈ b.pending, conflict P.parents p q = false

theorem getElem?_set_eq_some {α : Type} {xs : List α} {i j : Nat} {x y : α}
    (h : (xs.set i x)[j]? = some y) : (i = j ∧ y = x) ∨ (i ≠ j ∧ xs[j]? = some y) := by
  rw [List.getElem?_set] at h
  split at h
  · rename_i hij
    split at h
    · exact Or.inl ⟨hij, (Option.some.inj h).symm⟩
    · simp at h
  · rename_i hij
    exact Or.inr ⟨hij, h⟩

theorem getElem?_concat_eq_some {α : Type} {xs : List α} {j : Nat} {x y : α}
    (h : (xs ++ [x])[j]? = some y) : xs[j]? = some y ∨ y = x := by
  rw [List.getElem?_append] at h
  split at h
  · exact Or.inl h
  · exact Or.inr (List.mem_singleton.mp (List.mem_of_getElem? h))

/-- The control states that an actor goes on to with no answer of a transaction. -/
inductive Unanswered (P : Protocol χ key ε Q Ξ) (q : Q) : Q → Prop where
  | failed {t : Tx χ key ε Q} {onError : ε → Q} (e : ε) :
      P.code q = .tx t onError → Unanswered P q (onError e)
  | acted {act : χ → Ξ → Option (Ξ × Q)} {c : χ} {x x' : Ξ} {q' : Q} :
      P.code q = .ext act → act c x = some (x', q') → Unanswered P q q'
  | crashed : Unanswered P q (P.crashed q)

omit [DecidableEq κ] in
theorem Atomic.control {P : Protocol χ key ε Q Ξ}
    {spec : Q → Store key → Except ε Q → Store key → Prop} {a a' : Snapshot key Q Ξ}
    {l : Label χ Q} (h : Atomic P spec a l a') {i : Nat} {q' : Q}
    (hq' : a'.controls[i]? = some q') :
    l = .spawn q' ∨ a.controls[i]? = some q' ∨ ∃ q, a.controls[i]? = some q ∧
      (((l = .commit i ∨ ∃ c, l = .run i c) ∧ spec q a.store (.ok q') a'.store) ∨
        Unanswered P q q') := by
  have hset : ∀ {j : Nat} {q r : Q}, a.controls[j]? = some q → Unanswered P q r →
      (a.controls.set j r)[i]? = some q' →
      a.controls[i]? = some q' ∨ ∃ q, a.controls[i]? = some q ∧ Unanswered P q q' := by
    intro j q r hq hnext hset
    rcases getElem?_set_eq_some hset with ⟨rfl, rfl⟩ | ⟨_, hset⟩
    · exact Or.inr ⟨q, hq, hnext⟩
    · exact Or.inl hset
  have hgone : (a.controls[i]? = some q' ∨ ∃ q, a.controls[i]? = some q ∧ Unanswered P q q') →
      a.controls[i]? = some q' ∨ ∃ q, a.controls[i]? = some q ∧
        (((l = .commit i ∨ ∃ c, l = .run i c) ∧ spec q a.store (.ok q') a'.store) ∨
          Unanswered P q q') :=
    Or.imp_right fun ⟨q, hq, hnext⟩ => ⟨q, hq, Or.inr hnext⟩
  cases h with
  | spawn q =>
      rcases getElem?_concat_eq_some hq' with hq' | rfl
      · exact Or.inr (Or.inl hq')
      · exact Or.inl rfl
  | answer hq _ hspec =>
      rcases getElem?_set_eq_some hq' with ⟨rfl, rfl⟩ | ⟨_, hq'⟩
      · exact Or.inr (Or.inr ⟨_, hq, Or.inl ⟨Or.inr ⟨_, rfl⟩, hspec⟩⟩)
      · exact Or.inr (Or.inl hq')
  | commit hq _ hspec =>
      rcases getElem?_set_eq_some hq' with ⟨rfl, rfl⟩ | ⟨_, hq'⟩
      · exact Or.inr (Or.inr ⟨_, hq, Or.inl ⟨Or.inl rfl, hspec⟩⟩)
      · exact Or.inr (Or.inl hq')
  | error hq hcode _ => exact Or.inr (hgone (hset hq (.failed _ hcode) hq'))
  | lost hq hcode _ => exact Or.inr (hgone (hset hq (.failed _ hcode) hq'))
  | fault hq hcode => exact Or.inr (hgone (hset hq (.failed _ hcode) hq'))
  | act hq hcode hact => exact Or.inr (hgone (hset hq (.acted hcode hact) hq'))
  | crash hq _ => exact Or.inr (hgone (hset hq .crashed hq'))
  | env _ => exact Or.inr (Or.inl hq')

section Simulation

variable {P : Protocol χ key ε Q Ξ} {live : Q → Prop} {rely : Store key → Store key → Prop}
  {spec : Q → Store key → Except ε Q → Store key → Prop} {w w' : World χ key ε Q Ξ}

omit [DecidableEq κ] in
@[simp] theorem enter_control (q : Q) : (P.enter q).control = q := by
  unfold Protocol.enter
  split <;> rfl

omit [DecidableEq κ] in
@[simp] theorem enter_pending (q : Q) : (P.enter q).pending = [] := by
  unfold Protocol.enter
  split <;> rfl

theorem underway_enter (hsound : Sound P live rely spec) {q : Q} (hq : live q)
    (s : Store key) : Underway P rely spec s (P.enter q) := by
  refine ⟨by simp [Current], fun t onError hcode => ?_⟩
  rw [enter_control] at hcode
  refine ⟨t, by simp [Protocol.enter, hcode], s, hsound.refl s, ?_⟩
  simpa using hsound.takesEffect q t onError hq hcode s

theorem consistent_set (h : Consistent P live rely spec w) {i : Nat} {a : Actor χ key ε Q}
    {x : Ξ} (hlive : live a.control) (hunderway : Underway P rely spec w.store a)
    (hlocked : ∀ (j : Nat) b, w.actors[j]? = some b → i ≠ j →
      ∀ p ∈ a.pending, ∀ q ∈ b.pending, conflict P.parents p q = false) :
    Consistent P live rely spec { w with actors := w.actors.set i a, ext := x } := by
  constructor
  · intro j b hb
    rcases getElem?_set_eq_some hb with ⟨_, rfl⟩ | ⟨_, hb⟩
    · exact hlive
    · exact h.live j b hb
  · intro j b hb
    rcases getElem?_set_eq_some hb with ⟨_, rfl⟩ | ⟨_, hb⟩
    · exact hunderway
    · exact h.underway j b hb
  · intro j k b d hb hd hjk
    rcases getElem?_set_eq_some hb with ⟨hj, hba⟩ | ⟨hj, hb'⟩ <;>
      rcases getElem?_set_eq_some hd with ⟨hk, hda⟩ | ⟨hk, hd'⟩
    · exact absurd (hj.symm.trans hk) hjk
    · rw [hba]
      exact hlocked k d hd' hk
    · intro p hp q hq
      rw [conflict_comm]
      rw [hda] at hq
      exact hlocked j b hb' hj q hq p hp
    · exact h.locked j k b d hb' hd' hjk

theorem consistent_commit (hsound : Sound P live rely spec) (h : Consistent P live rely spec w)
    {i : Nat} {a : Actor χ key ε Q} {q : Q} {x : Ξ} (ha : w.actors[i]? = some a)
    (hrely : rely w.store (view w.store a.pending)) (hlive : live q) :
    Consistent P live rely spec
      { store := view w.store a.pending, actors := w.actors.set i (P.enter q), ext := x } := by
  have hother : ∀ (j : Nat) b, w.actors[j]? = some b → i ≠ j →
      Underway P rely spec (view w.store a.pending) b := by
    intro j b hb hij
    obtain ⟨hcurrent, hrest⟩ := h.underway j b hb
    constructor
    · refine current_of_agree (fun p hp => ?_) hcurrent
      refine (Store.find_applyAll_of_untouched _ fun v hv => ?_).symm
      obtain ⟨q', hq', rfl⟩ := List.mem_map.mp hv
      exact target_ne_of_conflict (h.locked i j a b ha hb hij q' hq' p hp)
    · intro t onError hcode
      obtain ⟨rest, hsome, s₀, hs₀, htakes⟩ := hrest t onError hcode
      exact ⟨rest, hsome, s₀, hsound.trans _ _ _ hs₀ hrely, htakes⟩
  have hmiddle : Consistent P live rely spec
      { w with actors := w.actors.set i (P.enter q), ext := x } :=
    consistent_set h (by simpa using hlive) (underway_enter hsound hlive _) (by simp)
  refine ⟨hmiddle.live, fun j b hb => ?_, hmiddle.locked⟩
  rcases getElem?_set_eq_some hb with ⟨_, rfl⟩ | ⟨hij, hb⟩
  · exact underway_enter hsound hlive _
  · exact hother j b hb hij

omit [DecidableEq κ] in
theorem map_control_set (w : World χ key ε Q Ξ) (i : Nat) (a : Actor χ key ε Q) :
    (w.actors.set i a).map (·.control) = (w.actors.map (·.control)).set i a.control :=
  List.map_set

omit [DecidableEq κ] in
theorem abs_control {i : Nat} {a : Actor χ key ε Q} (h : w.actors[i]? = some a) :
    w.abs.controls[i]? = some a.control := by
  simp [World.abs, h]

theorem spec_of_commit (h : Consistent P live rely spec w) {i : Nat} {a : Actor χ key ε Q}
    {t : Tx χ key ε Q} {onError : ε → Q} {q : Q} (ha : w.actors[i]? = some a)
    (hcode : P.code a.control = .tx t onError) (hrest : a.rest = some (.done q))
    (hpending : a.pending ≠ []) :
    spec a.control w.store (.ok q) (view w.store a.pending) := by
  obtain ⟨hcurrent, hunder⟩ := h.underway i a ha
  obtain ⟨rest, hsome, s₀, hrely, htakes⟩ := hunder t onError hcode
  obtain rfl : rest = .done q := by
    rw [hrest] at hsome
    exact (Option.some.inj hsome).symm
  cases hps : a.pending with
  | nil => exact absurd hps hpending
  | cons p ps =>
      rw [hps] at htakes hcurrent
      exact htakes w.store hrely hcurrent

/-- A commit, answered or not, is the step of the atomic system with its label. -/
theorem atomic_of_commit (h : Consistent P live rely spec w) {i : Nat} {l : Label χ Q}
    (hl : l = .commit i ∨ l = .lost i) (hstep : P.step w l = some w') :
    Atomic P spec w.abs l w'.abs := by
  cases moves_of_step hstep with
  | commit ha hcode hrest hpending =>
      have hatomic :=
        Atomic.commit (abs_control ha) hcode (spec_of_commit h ha hcode hrest hpending)
      simpa [World.abs, map_control_set] using hatomic
  | lost ha hcode hrest hpending =>
      have hatomic :=
        Atomic.lost (abs_control ha) hcode (spec_of_commit h ha hcode hrest hpending)
      simpa [World.abs, map_control_set] using hatomic
  | _ => simp at hl

theorem conflict_of_lockFree {actors : List (Actor χ key ε Q)} {i j : Nat}
    {b : Actor χ key ε Q} {new : List (Pending key)}
    (hfree : P.lockFree (actors.eraseIdx i) new) (hb : actors[j]? = some b) (hij : i ≠ j) :
    ∀ p ∈ new, ∀ q ∈ b.pending, conflict P.parents p q = false := by
  intro p hp q hq
  have hmem : b ∈ actors.eraseIdx i :=
    List.mem_eraseIdx_iff_getElem?.mpr ⟨j, hij.symm, hb⟩
  have hall := List.all_eq_true.mp (List.all_eq_true.mp hfree b hmem) q hq
  simpa using List.all_eq_true.mp hall p hp

/-- What a statement makes of its actor: the transaction is under way, it has failed, or
it has been answered without a write. -/
inductive Settles (P : Protocol χ key ε Q Ξ) (rely : Store key → Store key → Prop)
    (spec : Store key → Except ε Q → Store key → Prop) (q : Q) (onError : ε → Q)
    (s : Store key) : Actor χ key ε Q → Prop where
  | under {t : Tx χ key ε Q} {ps : List (Pending key)} :
      TakesEffect P.supply rely spec t s ps → Settles P rely spec q onError s ⟨q, some t, ps⟩
  | failed (e : ε) : spec s (.error e) s → Settles P rely spec q onError s (P.enter (onError e))
  | answered (q' : Q) : spec s (.ok q') s → Settles P rely spec q onError s (P.enter q')

theorem settles_of_statement {spec : Store key → Except ε Q → Store key → Prop}
    {s₀ s : Store key} {ps : List (Pending key)} {c : χ}
    {writes : χ → Store key → List (Write key)} {next : χ → Store key → Tx χ key ε Q}
    (htakes : TakesEffect P.supply rely spec (.stmt writes next) s₀ ps)
    (hsupply : P.supply c s) (hrely : rely s₀ s) (hcurrent : Current s ps) (q : Q)
    (onError : ε → Q) :
    Settles P rely spec q onError s (P.settle q onError (next c (view s ps))
      (ps ++ record (view s ps) (writes c (view s ps)))) := by
  have hnext := htakes c s hsupply hrely hcurrent
  cases hcase : next c (view s ps) with
  | stmt writes' next' => exact .under (hcase ▸ hnext)
  | abort e =>
      rw [hcase] at hnext
      exact .failed e hnext
  | done q' =>
      rw [hcase] at hnext
      generalize ps ++ record (view s ps) (writes c (view s ps)) = qs at hnext ⊢
      cases qs with
      | nil => exact .answered q' hnext
      | cons p qs => exact .under hnext

omit [DecidableEq κ] in
theorem settle_pending (q : Q) (onError : ε → Q) (t : Tx χ key ε Q) (ps : List (Pending key)) :
    (P.settle q onError t ps).pending = [] ∨ (P.settle q onError t ps).pending = ps := by
  unfold Protocol.settle
  split
  · exact Or.inl (enter_pending _)
  · split
    · exact Or.inl (enter_pending _)
    · exact Or.inr rfl
  · exact Or.inr rfl

theorem simulates_stmt (hsound : Sound P live rely spec) (h : Consistent P live rely spec w)
    {i : Nat} {c : χ} {a : Actor χ key ε Q} {t : Tx χ key ε Q} {onError : ε → Q}
    {writes : χ → Store key → List (Write key)} {next : χ → Store key → Tx χ key ε Q}
    (ha : w.actors[i]? = some a) (hcode : P.code a.control = .tx t onError)
    (hrest : a.rest = some (.stmt writes next)) (hsupply : P.supply c w.store)
    (hfree : P.lockFree (w.actors.eraseIdx i)
      (record (view w.store a.pending) (writes c (view w.store a.pending)))) :
    let seen := view w.store a.pending
    let after := P.settle a.control onError (next c seen)
      (a.pending ++ record seen (writes c seen))
    Consistent P live rely spec { w with actors := w.actors.set i after } ∧
      ((after.control = a.control) ∨
        Atomic P spec w.abs (.run i c)
          { w.abs with controls := w.abs.controls.set i after.control }) := by
  intro seen after
  obtain ⟨hcurrent, hunder⟩ := h.underway i a ha
  obtain ⟨rest, hsome, s₀, hrely, htakes⟩ := hunder t onError hcode
  obtain rfl : rest = .stmt writes next := by
    rw [hrest] at hsome
    exact (Option.some.inj hsome).symm
  have hpending : after.pending = [] ∨ after.pending = a.pending ++ record seen (writes c seen) :=
    settle_pending _ _ _ _
  have hcurrent' : Current w.store after.pending := by
    obtain hnone | hall := hpending
    · rw [hnone]
      trivial
    · rw [hall]
      exact current_append.mpr ⟨hcurrent, current_record _ _⟩
  have hlocked : ∀ (j : Nat) b, w.actors[j]? = some b → i ≠ j →
      ∀ p ∈ after.pending, ∀ q ∈ b.pending, conflict P.parents p q = false := by
    intro j b hb hij p hp
    obtain hnone | hall := hpending
    · simp [hnone] at hp
    · rw [hall] at hp
      rcases List.mem_append.mp hp with hp | hp
      · exact h.locked i j a b ha hb hij p hp
      · exact conflict_of_lockFree hfree hb hij p hp
  have hsettles : Settles P rely (spec a.control) a.control onError w.store after :=
    settles_of_statement htakes hsupply hrely hcurrent a.control onError
  clear_value after
  cases hsettles with
  | under htakes' =>
      refine ⟨consistent_set h (h.live i a ha) ⟨hcurrent', fun t' onError' _ => ?_⟩ hlocked,
        Or.inl rfl⟩
      exact ⟨_, rfl, w.store, hsound.refl _, htakes'⟩
  | failed e hspec =>
      have hlive := hsound.live_error _ _ _ e (h.live i a ha) hcode
      rw [enter_control]
      exact ⟨consistent_set h (by simpa using hlive) (underway_enter hsound hlive _) hlocked,
        Or.inr (Atomic.error (abs_control ha) hcode hspec)⟩
  | answered q hspec =>
      have hlive := hsound.live_ok _ _ _ _ _ _ (h.live i a ha) hcode hspec
      rw [enter_control]
      exact ⟨consistent_set h (by simpa using hlive) (underway_enter hsound hlive _) hlocked,
        Or.inr (Atomic.answer (abs_control ha) hcode hspec)⟩

theorem consistent_spawn (hsound : Sound P live rely spec)
    (h : Consistent P live rely spec w) {q : Q} (hq : live q) :
    Consistent P live rely spec { w with actors := w.actors ++ [P.enter q] } := by
  constructor
  · intro j b hb
    rcases getElem?_concat_eq_some hb with hb' | rfl
    · exact h.live j b hb'
    · simpa using hq
  · intro j b hb
    rcases getElem?_concat_eq_some hb with hb' | rfl
    · exact h.underway j b hb'
    · exact underway_enter hsound hq _
  · intro j k b d hb hd hjk
    rcases getElem?_concat_eq_some hb with hb' | rfl <;>
      rcases getElem?_concat_eq_some hd with hd' | rfl
    · exact h.locked j k b d hb' hd' hjk
    · simp
    · simp
    · simp

/-- Every step of the statement-level system is a stutter or the step of the
atomic system with the same label. -/
theorem simulates (hsound : Sound P live rely spec) (h : Consistent P live rely spec w)
    {l : Label χ Q} (hspawn : ∀ q, l = .spawn q → live q) (hstep : P.step w l = some w') :
    Consistent P live rely spec w' ∧ (w'.abs = w.abs ∨ Atomic P spec w.abs l w'.abs) := by
  have hmove : ∀ {i : Nat} {q : Q} {x : Ξ}, live q →
      Consistent P live rely spec { w with actors := w.actors.set i (P.enter q), ext := x } :=
    fun hq => consistent_set h (by simpa using hq) (underway_enter hsound hq _) (by simp)
  cases moves_of_step hstep with
  | spawn q =>
      refine ⟨consistent_spawn hsound h (hspawn q rfl), Or.inr ?_⟩
      have hatomic : Atomic P spec w.abs (.spawn q)
          { w.abs with controls := w.abs.controls ++ [q] } := Atomic.spawn q
      simpa [World.abs] using hatomic
  | statement ha hcode hrest hsupply hfree =>
      obtain ⟨hconsistent, hsame | hatomic⟩ :=
        simulates_stmt hsound h ha hcode hrest hsupply hfree
      · refine ⟨hconsistent, Or.inl ?_⟩
        have hcontrols := abs_control ha
        simp only [World.abs, map_control_set, hsame] at hcontrols ⊢
        obtain ⟨hi, hcontrol⟩ := List.getElem?_eq_some_iff.mp hcontrols
        rw [← hcontrol, List.set_getElem_self hi]
      · refine ⟨hconsistent, Or.inr ?_⟩
        simpa only [World.abs, map_control_set] using hatomic
  | @act i c a _ _ _ ha hcode hact =>
      refine ⟨hmove (hsound.live_act _ _ _ _ _ _ (h.live i a ha) hcode hact), Or.inr ?_⟩
      have hatomic : Atomic P spec w.abs (.run i c) _ := Atomic.act (abs_control ha) hcode hact
      simpa [World.abs, map_control_set] using hatomic
  | @commit i a _ _ _ ha hcode hrest hpending =>
      have hspec := spec_of_commit h ha hcode hrest hpending
      have hlive := hsound.live_ok _ _ _ _ _ _ (h.live i a ha) hcode hspec
      have hrely := hsound.guarantee _ _ _ _ (h.live i a ha) hspec
      exact ⟨consistent_commit hsound h ha hrely hlive,
        Or.inr (atomic_of_commit h (Or.inl rfl) hstep)⟩
  | @lost i a _ _ _ ha hcode hrest hpending =>
      have hspec := spec_of_commit h ha hcode hrest hpending
      have hlive := hsound.live_error _ _ _ P.fault (h.live i a ha) hcode
      have hrely := hsound.guarantee _ _ _ _ (h.live i a ha) hspec
      exact ⟨consistent_commit hsound h ha hrely hlive,
        Or.inr (atomic_of_commit h (Or.inr rfl) hstep)⟩
  | @fault i a _ _ ha hcode =>
      refine ⟨hmove (hsound.live_error _ _ _ P.fault (h.live i a ha) hcode), Or.inr ?_⟩
      have hatomic : Atomic P spec w.abs (.fault i) _ := Atomic.fault (abs_control ha) hcode
      simpa [World.abs, map_control_set] using hatomic
  | @crash i a ha hcode =>
      refine ⟨hmove (hsound.live_crashed _ (h.live i a ha)), Or.inr ?_⟩
      have hatomic : Atomic P spec w.abs (.crash i) _ := Atomic.crash (abs_control ha) hcode
      simpa [World.abs, map_control_set] using hatomic
  | env hx => exact ⟨⟨h.live, h.underway, h.locked⟩, Or.inr (Atomic.env hx)⟩

omit [DecidableEq κ] in
theorem settle_cases (q : Q) (onError : ε → Q) (t : Tx χ key ε Q) (ps : List (Pending key)) :
    (∃ q', P.settle q onError t ps = P.enter q') ∨ (P.settle q onError t ps).control = q := by
  unfold Protocol.settle
  split
  · exact Or.inl ⟨_, rfl⟩
  · split
    · exact Or.inl ⟨_, rfl⟩
    · exact Or.inr rfl
  · exact Or.inr rfl

omit [DecidableEq κ] in
theorem exists_actor_of_abs {i : Nat} {q : Q} (h : w.abs.controls[i]? = some q) :
    ∃ a, w.actors[i]? = some a ∧ a.control = q := by
  simpa [World.abs] using h

/-- The steps in which an actor goes on with what it is at. -/
def Own (i : Nat) (l : Label χ Q) : Prop :=
  l = .commit i ∨ ∃ c, l = .run i c

/-- What a step makes of one actor, one case for each of its own steps. -/
inductive Turn (P : Protocol χ key ε Q Ξ) (w : World χ key ε Q Ξ) (i : Nat)
    (a : Actor χ key ε Q) : Label χ Q → World χ key ε Q Ξ → Actor χ key ε Q → Prop where
  | stays {l : Label χ Q} {w' : World χ key ε Q Ξ} :
      ¬Own i l → Turn P w i a l w' a
  | statement {c : χ} {w' : World χ key ε Q Ξ} {t : Tx χ key ε Q} {onError : ε → Q}
      {writes : χ → Store key → List (Write key)} {next : χ → Store key → Tx χ key ε Q} :
      P.code a.control = .tx t onError → a.rest = some (.stmt writes next) →
      P.supply c w.store → w'.store = w.store →
      Turn P w i a (.run i c) w' (P.settle a.control onError (next c (view w.store a.pending))
        (a.pending ++ record (view w.store a.pending) (writes c (view w.store a.pending))))
  | act {c : χ} {w' : World χ key ε Q Ξ} {act : χ → Ξ → Option (Ξ × Q)} {q : Q} :
      P.code a.control = .ext act → act c w.ext = some (w'.ext, q) → w'.store = w.store →
      Turn P w i a (.run i c) w' (P.enter q)
  | commit {w' : World χ key ε Q Ξ} {t : Tx χ key ε Q} {onError : ε → Q} {q : Q} :
      P.code a.control = .tx t onError → a.rest = some (.done q) → a.pending ≠ [] →
      w'.store = view w.store a.pending → Turn P w i a (.commit i) w' (P.enter q)
  | failed {l : Label χ Q} {w' : World χ key ε Q Ξ} {t : Tx χ key ε Q} {onError : ε → Q} :
      l = .lost i ∨ l = .fault i → P.code a.control = .tx t onError →
      Turn P w i a l w' (P.enter (onError P.fault))
  | crashed {w' : World χ key ε Q Ξ} : Turn P w i a (.crash i) w' (P.enter (P.crashed a.control))

theorem Moves.turn {l : Label χ Q} (h : Moves P w l w') {i : Nat} {a : Actor χ key ε Q}
    (ha : w.actors[i]? = some a) : ∃ a', w'.actors[i]? = some a' ∧ Turn P w i a l w' a' := by
  have hi := (List.getElem?_eq_some_iff.mp ha).1
  have hself : ∀ b, (w.actors.set i b)[i]? = some b := fun b => List.getElem?_set_self hi
  have hown : ∀ {l : Label χ Q}, l ≠ .commit i → (∀ c, l ≠ .run i c) → ¬Own i l := by
    rintro l hcommit hrun (h | ⟨c, h⟩)
    · exact hcommit h
    · exact hrun c h
  have hother : ∀ {j : Nat} {b : Actor χ key ε Q}, j ≠ i → (w.actors.set j b)[i]? = some a := by
    intro j b hji
    rw [List.getElem?_set_ne hji, ha]
  cases h with
  | spawn q =>
      exact ⟨a, by rw [List.getElem?_append_left hi]; exact ha, .stays (hown (by simp) (by simp))⟩
  | @statement j _ _ _ _ _ _ hb hcode hrest hsupply _ =>
      by_cases hji : j = i
      · subst hji
        obtain rfl := Option.some.inj (ha.symm.trans hb)
        exact ⟨_, hself _, .statement hcode hrest hsupply rfl⟩
      · exact ⟨a, hother hji, .stays (hown (by simp) (by simp [hji]))⟩
  | @act j _ _ _ _ _ hb hcode hact =>
      by_cases hji : j = i
      · subst hji
        obtain rfl := Option.some.inj (ha.symm.trans hb)
        exact ⟨_, hself _, .act hcode hact rfl⟩
      · exact ⟨a, hother hji, .stays (hown (by simp) (by simp [hji]))⟩
  | @commit j _ _ _ _ hb hcode hrest hpending =>
      by_cases hji : j = i
      · subst hji
        obtain rfl := Option.some.inj (ha.symm.trans hb)
        exact ⟨_, hself _, .commit hcode hrest hpending rfl⟩
      · exact ⟨a, hother hji, .stays (hown (by simp [hji]) (by simp))⟩
  | @lost j _ _ _ _ hb hcode _ _ =>
      by_cases hji : j = i
      · subst hji
        obtain rfl := Option.some.inj (ha.symm.trans hb)
        exact ⟨_, hself _, .failed (Or.inl rfl) hcode⟩
      · exact ⟨a, hother hji, .stays (hown (by simp) (by simp))⟩
  | @fault j _ _ _ hb hcode =>
      by_cases hji : j = i
      · subst hji
        obtain rfl := Option.some.inj (ha.symm.trans hb)
        exact ⟨_, hself _, .failed (Or.inr rfl) hcode⟩
      · exact ⟨a, hother hji, .stays (hown (by simp) (by simp))⟩
  | @crash j _ hb _ =>
      by_cases hji : j = i
      · subst hji
        obtain rfl := Option.some.inj (ha.symm.trans hb)
        exact ⟨_, hself _, .crashed⟩
      · exact ⟨a, hother hji, .stays (hown (by simp) (by simp))⟩
  | env _ => exact ⟨a, ha, .stays (hown (by simp) (by simp))⟩

theorem Moves.before {l : Label χ Q} (h : Moves P w l w') {i : Nat} {a' : Actor χ key ε Q}
    (ha' : w'.actors[i]? = some a') :
    (∃ a, w.actors[i]? = some a) ∨ ∃ q, l = .spawn q ∧ a' = P.enter q := by
  have hlength : ∀ {n : Nat}, i < n → w.actors.length = n → ∃ a, w.actors[i]? = some a :=
    fun hi hn => ⟨_, List.getElem?_eq_getElem (hn ▸ hi)⟩
  have hi := (List.getElem?_eq_some_iff.mp ha').1
  cases h with
  | spawn q =>
      rcases getElem?_concat_eq_some ha' with ha' | rfl
      · exact Or.inl ⟨a', ha'⟩
      · exact Or.inr ⟨q, rfl, rfl⟩
  | env _ => exact Or.inl ⟨a', ha'⟩
  | statement _ _ _ _ _ | act _ _ _ | commit _ _ _ _ | lost _ _ _ _ | fault _ _ | crash _ _ =>
      exact Or.inl (hlength hi (by simp))

theorem Moves.actor {l : Label χ Q} (h : Moves P w l w') {i : Nat} {a' : Actor χ key ε Q}
    (ha' : w'.actors[i]? = some a') :
    (w.actors[i]? = some a' ∧ l ≠ .commit i ∧ l ≠ .lost i) ∨ (∃ q, a' = P.enter q) ∨
      ∃ c a t onError writes next, l = .run i c ∧ w'.store = w.store ∧ w.actors[i]? = some a ∧
        P.code a.control = .tx t onError ∧ a.rest = some (.stmt writes next) ∧
        a' = P.settle a.control onError (next c (view w.store a.pending))
          (a.pending ++ record (view w.store a.pending) (writes c (view w.store a.pending))) := by
  have hset : ∀ {j : Nat} {q : Q}, (w.actors.set j (P.enter q))[i]? = some a' →
      (∃ q, a' = P.enter q) ∨ (w.actors[i]? = some a' ∧ j ≠ i) := by
    intro j q hset
    rcases getElem?_set_eq_some hset with ⟨_, rfl⟩ | ⟨hji, hset⟩
    · exact Or.inl ⟨q, rfl⟩
    · exact Or.inr ⟨hset, hji⟩
  cases h with
  | spawn q =>
      rcases getElem?_concat_eq_some ha' with ha' | rfl
      · exact Or.inl ⟨ha', by simp, by simp⟩
      · exact Or.inr (Or.inl ⟨q, rfl⟩)
  | @statement j c a t onError writes next ha hcode hrest _ _ =>
      rcases getElem?_set_eq_some ha' with ⟨rfl, rfl⟩ | ⟨_, ha'⟩
      · exact Or.inr (Or.inr ⟨c, a, t, onError, writes, next, rfl, rfl, ha, hcode, hrest, rfl⟩)
      · exact Or.inl ⟨ha', by simp, by simp⟩
  | commit _ _ _ _ =>
      obtain hentered | ⟨hsame, hij⟩ := hset ha'
      · exact Or.inr (Or.inl hentered)
      · exact Or.inl ⟨hsame, by simpa using hij, by simp⟩
  | lost _ _ _ _ =>
      obtain hentered | ⟨hsame, hij⟩ := hset ha'
      · exact Or.inr (Or.inl hentered)
      · exact Or.inl ⟨hsame, by simp, by simpa using hij⟩
  | act _ _ _ | fault _ _ | crash _ _ =>
      obtain hentered | ⟨hsame, _⟩ := hset ha'
      · exact Or.inr (Or.inl hentered)
      · exact Or.inl ⟨hsame, by simp, by simp⟩
  | env _ => exact Or.inl ⟨ha', by simp, by simp⟩

theorem Moves.halted {l : Label χ Q} (h : Moves P w l w') {i : Nat} {a : Actor χ key ε Q}
    (ha : w.actors[i]? = some a) (hcode : P.code a.control = .halt) :
    w'.actors[i]? = some a := by
  have hset : ∀ {j : Nat} {b b' : Actor χ key ε Q}, w.actors[j]? = some b →
      P.code b.control ≠ .halt → (w.actors.set j b')[i]? = some a := by
    intro j b b' hb hne
    rw [List.getElem?_set_ne, ha]
    rintro rfl
    rw [ha] at hb
    exact hne (Option.some.inj hb ▸ hcode)
  cases h with
  | spawn q =>
      rw [List.getElem?_append_left (List.getElem?_eq_some_iff.mp ha).1]
      exact ha
  | statement hb hcode' _ _ _ => exact hset hb (by simp [hcode'])
  | act hb hcode' _ => exact hset hb (by simp [hcode'])
  | commit hb hcode' _ _ => exact hset hb (by simp [hcode'])
  | lost hb hcode' _ _ => exact hset hb (by simp [hcode'])
  | fault hb hcode' => exact hset hb (by simp [hcode'])
  | crash hb hcode' => exact hset hb hcode'
  | env _ => exact ha

/-- An actor within a transaction that only reads and will answer as `ok` says. -/
def Reading (P : Protocol χ key ε Q Ξ) (rely : Store key → Store key → Prop) (ok : Q → Prop)
    (s : Store key) (a : Actor χ key ε Q) : Prop :=
  a.pending = [] ∧ ∃ writes next s₀, a.rest = some (.stmt writes next) ∧ rely s₀ s ∧
    ReadsTo P.supply rely ok (.stmt writes next) s₀

theorem Reading.run {ok : Q → Prop} {i : Nat} {a : Actor χ key ε Q}
    (h : Reading P rely ok w.store a) (ha : w.actors[i]? = some a) {t : Tx χ key ε Q}
    {onError : ε → Q} (hcode : P.code a.control = .tx t onError) {c : χ}
    (hc : P.supply c w.store) : (P.step w (.run i c)).isSome := by
  obtain ⟨hpending, writes, next, s₀, hrest, hrely, hreads⟩ := h
  have hwrites := (hreads c w.store hc hrely).1
  simp [Protocol.step, ha, hcode, hrest, hpending, hwrites, hc, Protocol.lockFree]

theorem Reading.step {ok : Q → Prop} {l : Label χ Q} (h : Moves P w l w') {i : Nat}
    {a : Actor χ key ε Q} (hreading : Reading P rely ok w.store a)
    (ha : w.actors[i]? = some a) {t : Tx χ key ε Q} {onError : ε → Q}
    (hcode : P.code a.control = .tx t onError)
    (htrans : ∀ s₁ s₂ s₃, rely s₁ s₂ → rely s₂ s₃ → rely s₁ s₃) (hrefl : ∀ s, rely s s)
    (hrely : rely w.store w'.store) :
    ∃ a', w'.actors[i]? = some a' ∧
      ((a'.control = a.control ∧ Reading P rely ok w'.store a') ∨
        ∃ q, a' = P.enter q ∧ (ok q ∨ q = onError P.fault ∨ q = P.crashed a.control)) := by
  obtain ⟨a', ha', hturn⟩ := h.turn ha
  refine ⟨a', ha', ?_⟩
  obtain ⟨hpending, writes, next, s₀, hrest, hs₀, hreads⟩ := hreading
  cases hturn with
  | stays _ =>
      exact Or.inl ⟨rfl, hpending, writes, next, s₀, hrest, htrans _ _ _ hs₀ hrely, hreads⟩
  | @statement c _ _ _ _ _ _ hrest' hsupply hstore =>
      obtain ⟨rfl, rfl⟩ := Tx.stmt.inj (Option.some.inj (hrest.symm.trans hrest'))
      obtain ⟨hwrites, hnext⟩ := hreads c w.store hsupply hs₀
      rw [hstore]
      simp only [hpending, view_nil, hwrites, record_nil, List.append_nil]
      cases hcase : next c w.store with
      | done q =>
          rw [hcase] at hnext
          exact Or.inr ⟨q, by simp [Protocol.settle], Or.inl hnext⟩
      | abort e =>
          rw [hcase] at hnext
          exact hnext.elim
      | stmt writes₁ next₁ =>
          rw [hcase] at hnext
          exact Or.inl ⟨rfl, rfl, writes₁, next₁, w.store, rfl, hrefl _, hnext⟩
  | act hcode' _ _ =>
      rw [hcode] at hcode'
      cases hcode'
  | commit _ _ hne _ => exact absurd hpending hne
  | failed _ hcode' =>
      obtain ⟨_, rfl⟩ := Code.tx.inj (hcode.symm.trans hcode')
      exact Or.inr ⟨_, rfl, Or.inr (Or.inl rfl)⟩
  | crashed => exact Or.inr ⟨_, rfl, Or.inr (Or.inr rfl)⟩

/-- An actor that has just come to such a transaction stays within it until it has
answered, failed or crashed. -/
theorem reading_of_reachable {ok : Q → Prop} {allowed : World χ key ε Q Ξ → Label χ Q → Prop}
    {i : Nat} {q : Q} {t : Tx χ key ε Q} {onError : ε → Q} (hcode : P.code q = .tx t onError)
    (hi : w.actors[i]? = some (P.enter q)) (hreads : ReadsTo P.supply rely ok t w.store)
    (hstmt : ∀ q', t ≠ .done q') (hrefl : ∀ s, rely s s)
    (htrans : ∀ s₁ s₂ s₃, rely s₁ s₂ → rely s₂ s₃ → rely s₁ s₃)
    (hhalt : ∀ q', ok q' ∨ q' = onError P.fault ∨ q' = P.crashed q → P.code q' = .halt)
    (hrely : ∀ w₁ l w₂, Reachable (fun w l w' => P.step w l = some w') allowed (· = w) w₁ →
      allowed w₁ l → P.step w₁ l = some w₂ → rely w₁.store w₂.store)
    (h : Reachable (fun w l w' => P.step w l = some w') allowed (· = w) w') :
    ∃ a, w'.actors[i]? = some a ∧
      ((a.control = q ∧ Reading P rely ok w'.store a) ∨
        ∃ q', a = P.enter q' ∧ (ok q' ∨ q' = onError P.fault ∨ q' = P.crashed q)) := by
  induction h with
  | start h0 =>
      subst h0
      refine ⟨_, hi, Or.inl ⟨enter_control q, enter_pending q, ?_⟩⟩
      cases t with
      | done q' => exact absurd rfl (hstmt q')
      | abort e => exact hreads.elim
      | stmt writes next =>
          exact ⟨writes, next, _, by simp [Protocol.enter, hcode], hrefl _, hreads⟩
  | next l hprev hl hstep ih =>
      obtain ⟨a, ha, ⟨hcontrol, hreading⟩ | ⟨q', rfl, hq'⟩⟩ := ih
      · obtain ⟨a', ha', hnext⟩ := hreading.step (moves_of_step hstep) ha (hcontrol ▸ hcode) htrans
          hrefl (hrely _ _ _ hprev hl hstep)
        rw [hcontrol] at hnext
        exact ⟨a', ha', hnext⟩
      · refine ⟨_, (moves_of_step hstep).halted ha ?_, Or.inr ⟨q', rfl, hq'⟩⟩
        rw [enter_control]
        exact hhalt q' hq'

/-- A reachable world is consistent and its snapshot is reachable in the atomic
system, where the steps allowed and the worlds to start from are given by their
snapshots. -/
theorem reachable_abs (hsound : Sound P live rely spec)
    {ok : Snapshot key Q Ξ → Label χ Q → Prop} {init : Snapshot key Q Ξ → Prop}
    (hspawn : ∀ a q, ok a (.spawn q) → live q)
    (h : Reachable (fun w l w' => P.step w l = some w') (fun w l => ok w.abs l)
      (fun w => w.actors = [] ∧ init w.abs) w) :
    Consistent P live rely spec w ∧ Reachable (Atomic P spec) ok init w.abs := by
  refine Reachable.simulate (fun w h0 => ⟨?_, h0.2⟩) (fun w l w' hw hok hstep => ?_) h
  · constructor <;> simp [h0.1]
  · obtain ⟨hw', hsame | hatomic⟩ :=
      simulates hsound hw (fun q hq => hspawn w.abs q (hq ▸ hok)) hstep
    · exact ⟨hw', Or.inl hsame⟩
    · exact ⟨hw', Or.inr ⟨l, hok, hatomic⟩⟩

end Simulation

end SmsNotification.ActorSystem

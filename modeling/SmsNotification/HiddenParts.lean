import Mathlib.Data.List.Basic
import SmsNotification.LabelledRuns

/-!
Systems of which another one leaves some parts out: lists that agree but for the
entries of those parts, and simulation of one step by several ones.
-/

namespace SmsNotification.HiddenParts

open SmsNotification.LabelledRuns

section Lists

variable {α : Type*} {hidden extra : α → Prop} {xs xs' ys ys' : List α} {x y : α}

/-- The two lists have the same entries in the same order but for hidden entries of the
first one and extra entries of the second one. -/
inductive Agree (hidden extra : α → Prop) : List α → List α → Prop where
  | nil : Agree hidden extra [] []
  | both {xs ys : List α} {x : α} : ¬hidden x → Agree hidden extra xs ys →
      Agree hidden extra (x :: xs) (x :: ys)
  | hidden {xs ys : List α} {x : α} : hidden x → Agree hidden extra xs ys →
      Agree hidden extra (x :: xs) ys
  | extra {xs ys : List α} {y : α} : extra y → Agree hidden extra xs ys →
      Agree hidden extra xs (y :: ys)

theorem Agree.append (h : Agree hidden extra xs ys) (h' : Agree hidden extra xs' ys') :
    Agree hidden extra (xs ++ xs') (ys ++ ys') := by
  induction h with
  | nil => exact h'
  | both hx _ ih => exact .both hx ih
  | hidden hx _ ih => exact .hidden hx ih
  | extra hy _ ih => exact .extra hy ih

theorem Agree.exists_get (h : Agree hidden extra xs ys) {i : Nat} (hx : xs[i]? = some x)
    (hvisible : ¬hidden x) : ∃ j, ys[j]? = some x ∧
      ∀ x', ¬hidden x' → Agree hidden extra (xs.set i x') (ys.set j x') := by
  induction h generalizing i with
  | nil => simp at hx
  | both hhead hrest ih =>
      cases i with
      | zero =>
          obtain rfl := Option.some.inj hx
          exact ⟨0, rfl, fun x' hx' => .both hx' hrest⟩
      | succ i =>
          obtain ⟨j, hj, hset⟩ := ih hx
          exact ⟨j + 1, hj, fun x' hx' => .both hhead (hset x' hx')⟩
  | hidden hhead hrest ih =>
      cases i with
      | zero =>
          obtain rfl := Option.some.inj hx
          exact absurd hhead hvisible
      | succ i =>
          obtain ⟨j, hj, hset⟩ := ih hx
          exact ⟨j, hj, fun x' hx' => .hidden hhead (hset x' hx')⟩
  | extra hhead hrest ih =>
      obtain ⟨j, hj, hset⟩ := ih hx
      exact ⟨j + 1, hj, fun x' hx' => .extra hhead (hset x' hx')⟩

theorem Agree.set_hidden (h : Agree hidden extra xs ys) {i : Nat} (hx : xs[i]? = some x)
    (hhidden : hidden x) {x' : α} (hx' : hidden x') : Agree hidden extra (xs.set i x') ys := by
  induction h generalizing i with
  | nil => simp at hx
  | both hhead hrest ih =>
      cases i with
      | zero =>
          obtain rfl := Option.some.inj hx
          exact absurd hhidden hhead
      | succ i => exact .both hhead (ih hx)
  | hidden hhead hrest ih =>
      cases i with
      | zero => exact .hidden hx' hrest
      | succ i => exact .hidden hhead (ih hx)
  | extra hhead hrest ih => exact .extra hhead (ih hx)

theorem Agree.exists_pair (h : Agree hidden extra xs ys) {i j : Nat} (hij : i < j)
    (hx : xs[i]? = some x) (hy : xs[j]? = some y) (hvisible : ¬hidden x) (hvisible' : ¬hidden y) :
    ∃ i' j' : Nat, i' < j' ∧ ys[i']? = some x ∧ ys[j']? = some y := by
  induction h generalizing i j with
  | nil => simp at hx
  | both hhead hrest ih =>
      obtain ⟨j, rfl⟩ := Nat.exists_eq_succ_of_ne_zero (Nat.ne_zero_of_lt hij)
      cases i with
      | zero =>
          obtain ⟨j', hj', _⟩ := hrest.exists_get hy hvisible'
          exact ⟨0, j' + 1, Nat.succ_pos _, hx, hj'⟩
      | succ i =>
          obtain ⟨i', j', hlt, hi', hj'⟩ := ih (Nat.lt_of_succ_lt_succ hij) hx hy
          exact ⟨i' + 1, j' + 1, Nat.succ_lt_succ hlt, hi', hj'⟩
  | hidden hhead hrest ih =>
      obtain ⟨j, rfl⟩ := Nat.exists_eq_succ_of_ne_zero (Nat.ne_zero_of_lt hij)
      cases i with
      | zero =>
          obtain rfl := Option.some.inj hx
          exact absurd hhead hvisible
      | succ i => exact ih (Nat.lt_of_succ_lt_succ hij) hx hy
  | extra hhead hrest ih =>
      obtain ⟨i', j', hlt, hi', hj'⟩ := ih hij hx hy
      exact ⟨i' + 1, j' + 1, Nat.succ_lt_succ hlt, hi', hj'⟩

theorem Agree.mem (h : Agree hidden extra xs ys) (hy : y ∈ ys) : extra y ∨ y ∈ xs := by
  induction h with
  | nil => simp at hy
  | both _ _ ih =>
      rcases List.mem_cons.mp hy with rfl | hy
      · exact Or.inr List.mem_cons_self
      · exact (ih hy).imp_right (List.mem_cons_of_mem _)
  | hidden _ _ ih => exact (ih hy).imp_right (List.mem_cons_of_mem _)
  | extra hhead _ ih =>
      rcases List.mem_cons.mp hy with rfl | hy
      · exact Or.inl hhead
      · exact ih hy

theorem Agree.any_eq (h : Agree hidden extra xs ys) {p : α → Bool}
    (hhidden : ∀ x, hidden x → p x = false) (hextra : ∀ y, extra y → p y = false) :
    ys.any p = xs.any p := by
  induction h with
  | nil => rfl
  | both _ _ ih => rw [List.any_cons, List.any_cons, ih]
  | hidden hhead _ ih => rw [List.any_cons, hhidden _ hhead, Bool.false_or, ih]
  | extra hhead _ ih => rw [List.any_cons, hextra _ hhead, Bool.false_or, ih]

theorem Agree.filter_eq (h : Agree hidden extra xs ys) {p : α → Bool}
    (hhidden : ∀ x, hidden x → p x = false) (hextra : ∀ y, extra y → p y = false) :
    ys.filter p = xs.filter p := by
  induction h with
  | nil => rfl
  | both _ _ ih => rw [List.filter_cons, List.filter_cons, ih]
  | hidden hhead _ ih =>
      rw [List.filter_cons_of_neg (p := p) (by simp [hhidden _ hhead]), ih]
  | extra hhead _ ih =>
      rw [List.filter_cons_of_neg (p := p) (by simp [hextra _ hhead]), ih]

theorem Agree.filter (h : Agree hidden extra xs ys) (p : α → Bool) :
    Agree hidden extra (xs.filter p) (ys.filter p) := by
  induction h with
  | nil => exact .nil
  | both hhead _ ih =>
      rw [List.filter_cons, List.filter_cons]
      split
      · exact .both hhead ih
      · exact ih
  | hidden hhead _ ih =>
      rw [List.filter_cons]
      split
      · exact .hidden hhead ih
      · exact ih
  | extra hhead _ ih =>
      rw [List.filter_cons]
      split
      · exact .extra hhead ih
      · exact ih

theorem Agree.filter_hidden (h : Agree hidden extra xs ys) {p : α → Bool}
    (hp : ∀ x, ¬hidden x → p x) : Agree hidden extra (xs.filter p) ys := by
  induction h with
  | nil => exact .nil
  | both hhead _ ih =>
      rw [List.filter_cons, if_pos (hp _ hhead)]
      exact .both hhead ih
  | hidden hhead _ ih =>
      rw [List.filter_cons]
      split
      · exact .hidden hhead ih
      · exact ih
  | extra hhead _ ih => exact .extra hhead ih

theorem Agree.map (h : Agree hidden extra xs ys) (f : α → α)
    (hhidden : ∀ x, hidden (f x) ↔ hidden x) (hextra : ∀ y, extra y → extra (f y)) :
    Agree hidden extra (xs.map f) (ys.map f) := by
  induction h with
  | nil => exact .nil
  | both hhead _ ih => exact .both (fun hf => hhead ((hhidden _).mp hf)) ih
  | hidden hhead _ ih => exact .hidden ((hhidden _).mpr hhead) ih
  | extra hhead _ ih => exact .extra (hextra _ hhead) ih

end Lists

section Simulation

variable {σ τ ℓ μ : Type*} {step : σ → ℓ → σ → Prop} {ok : σ → ℓ → Prop} {init : σ → Prop}
  {step' : τ → μ → τ → Prop} {ok' : τ → μ → Prop} {init' : τ → Prop}

theorem reachable_trans {t t' : τ} (h : Reachable step' ok' init' t)
    (h' : Reachable step' ok' (· = t) t') : Reachable step' ok' init' t' := by
  induction h' with
  | start h0 => exact h0 ▸ h
  | next l _ hl hstep ih => exact Reachable.next l ih hl hstep

/-- Simulation along a relation, where each step is followed by any number of steps. -/
theorem exists_related {R : σ → τ → Prop} (hinit : ∀ s, init s → ∃ t, init' t ∧ R s t)
    (hstep : ∀ s l s' t, Reachable step ok init s → R s t → ok s l → step s l s' →
      ∃ t', Reachable step' ok' (· = t) t' ∧ R s' t')
    {s : σ} (h : Reachable step ok init s) : ∃ t, Reachable step' ok' init' t ∧ R s t := by
  induction h with
  | start h0 =>
      obtain ⟨t, ht, hrelated⟩ := hinit _ h0
      exact ⟨t, Reachable.start ht, hrelated⟩
  | next l hreach hl hs ih =>
      obtain ⟨t, ht, hrelated⟩ := ih
      obtain ⟨t', ht', hrelated'⟩ := hstep _ l _ t hreach hrelated hl hs
      exact ⟨t', reachable_trans ht ht', hrelated'⟩

end Simulation

end SmsNotification.HiddenParts

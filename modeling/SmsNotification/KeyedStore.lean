import Mathlib.Data.List.Nodup
import Mathlib.Data.List.Perm.Basic

/-!
Keyed row stores. A store is the list of its rows in creation order, no two of
them under one key. The only writes are to put a row under its own key and to
remove the row under a key; every query in the development is a `find` or a
`select`, and this module says what a write does to each of them.
-/

namespace SmsNotification.KeyedStore

variable {κ ρ β : Type*} {key : ρ → κ}

/-- Rows in creation order with pairwise different keys. -/
structure Store (key : ρ → κ) where
  rows : List ρ
  nodup : (rows.map key).Nodup

/-- One row write: put a row under its own key, or remove the row under a key. -/
inductive Write (key : ρ → κ) where
  | put (row : ρ)
  | delete (k : κ)

/-- The key a write touches. -/
def Write.target : Write key → κ
  | .put row => key row
  | .delete k => k

/-- What is under the touched key after the write. -/
def Write.after : Write key → Option ρ
  | .put row => some row
  | .delete _ => none

theorem Write.key_of_after {w : Write key} {row : ρ} (h : w.after = some row) :
    key row = w.target := by
  cases w with
  | put new => exact congrArg key (Option.some.inj h).symm
  | delete k => cases h

namespace Store

/-- The store without rows. -/
def empty (key : ρ → κ) : Store key :=
  ⟨[], by simp⟩

/-- The rows a projection keeps, in creation order. -/
def select (f : ρ → Option β) (s : Store key) : List β :=
  s.rows.filterMap f

theorem mem_select {f : ρ → Option β} {s : Store key} {y : β} :
    y ∈ s.select f ↔ ∃ row ∈ s.rows, f row = some y :=
  List.mem_filterMap

@[simp] theorem select_empty (f : ρ → Option β) : (empty key).select f = [] :=
  rfl

variable [DecidableEq κ]

/-- The row under a key. -/
def find (s : Store key) (k : κ) : Option ρ :=
  s.rows.find? fun row => key row = k

@[simp] theorem find_empty (k : κ) : (empty key).find k = none :=
  rfl

theorem key_of_find {s : Store key} {k : κ} {row : ρ} (h : s.find k = some row) :
    key row = k := by
  simpa using List.find?_some h

theorem mem_of_find {s : Store key} {k : κ} {row : ρ} (h : s.find k = some row) :
    row ∈ s.rows :=
  List.mem_of_find?_eq_some h

theorem find_of_mem {s : Store key} {row : ρ} (h : row ∈ s.rows) :
    s.find (key row) = some row := by
  cases hfind : s.find (key row) with
  | none =>
      have hnone := List.find?_eq_none.mp hfind row h
      simp at hnone
  | some other =>
      have hinj := List.inj_on_of_nodup_map s.nodup
      exact congrArg some (hinj (mem_of_find hfind) h (key_of_find hfind))

theorem find_eq_some_iff {s : Store key} {k : κ} {row : ρ} :
    s.find k = some row ↔ row ∈ s.rows ∧ key row = k := by
  constructor
  · intro h
    exact ⟨mem_of_find h, key_of_find h⟩
  · rintro ⟨hmem, rfl⟩
    exact find_of_mem hmem

theorem find_eq_none_iff {s : Store key} {k : κ} :
    s.find k = none ↔ ∀ row ∈ s.rows, key row ≠ k := by
  simp [find, List.find?_eq_none]

/-- A put replaces the row under its key where there is one and appends
otherwise. -/
def apply (s : Store key) : Write key → Store key
  | .put row =>
      if h : (s.find (key row)).isSome then
        { rows := s.rows.map fun other => if key other = key row then row else other
          nodup := by
            have hkeys : (s.rows.map fun other =>
                if key other = key row then row else other).map key = s.rows.map key := by
              rw [List.map_map]
              apply List.map_congr_left
              intro other _
              by_cases hkey : key other = key row <;> simp [hkey]
            rw [hkeys]
            exact s.nodup }
      else
        { rows := s.rows ++ [row]
          nodup := by
            have hnone : s.find (key row) = none := by simpa using h
            rw [find_eq_none_iff] at hnone
            rw [List.map_append, List.nodup_append]
            refine ⟨s.nodup, by simp, ?_⟩
            intro k hk l hl
            obtain ⟨other, hother, rfl⟩ := List.mem_map.mp hk
            have hl' : l = key row := by simpa using hl
            rw [hl']
            exact hnone other hother }
  | .delete k =>
      { rows := s.rows.filter fun row => key row ≠ k
        nodup := s.nodup.sublist (List.filter_sublist.map key) }

/-- The writes of a list, first to last. -/
def applyAll (s : Store key) (ws : List (Write key)) : Store key :=
  ws.foldl apply s

@[simp] theorem applyAll_nil (s : Store key) : s.applyAll [] = s :=
  rfl

@[simp] theorem applyAll_cons (s : Store key) (w : Write key) (ws : List (Write key)) :
    s.applyAll (w :: ws) = (s.apply w).applyAll ws :=
  rfl

theorem applyAll_append (s : Store key) (ws vs : List (Write key)) :
    s.applyAll (ws ++ vs) = (s.applyAll ws).applyAll vs :=
  List.foldl_append

theorem rows_put_new {s : Store key} {row : ρ} (h : s.find (key row) = none) :
    (s.apply (.put row)).rows = s.rows ++ [row] := by
  simp [apply, h]

theorem exists_split_of_find {s : Store key} {k : κ} {old : ρ} (h : s.find k = some old) :
    ∃ before after, s.rows = before ++ old :: after ∧
      ∀ row, key row = k → (s.apply (.put row)).rows = before ++ row :: after := by
  obtain ⟨before, after, hsplit⟩ := List.append_of_mem (mem_of_find h)
  have hold := key_of_find h
  have hnodup := s.nodup
  rw [hsplit, List.map_append, List.map_cons, List.nodup_append, List.nodup_cons] at hnodup
  obtain ⟨_, ⟨hafter, _⟩, hbefore⟩ := hnodup
  refine ⟨before, after, hsplit, fun row hrow => ?_⟩
  have hsome : (s.find (key row)).isSome := by simp [hrow, h]
  have hkeepBefore : before.map (fun other =>
      if key other = key row then row else other) = before := by
    refine (List.map_congr_left fun other hother => ?_).trans (List.map_id before)
    have hne : key other ≠ key old :=
      hbefore _ (List.mem_map_of_mem hother) _ (by simp)
    simp [hrow, ← hold, hne]
  have hkeepAfter : after.map (fun other =>
      if key other = key row then row else other) = after := by
    refine (List.map_congr_left fun other hother => ?_).trans (List.map_id after)
    have hne : key other ≠ key old := fun heq =>
      hafter (heq ▸ List.mem_map_of_mem hother)
    simp [hrow, ← hold, hne]
  simp only [apply, hsome, dite_true]
  rw [hsplit, List.map_append, List.map_cons, hkeepBefore, hkeepAfter]
  simp [hold, hrow]

theorem mem_apply {s : Store key} {w : Write key} {row : ρ} :
    row ∈ (s.apply w).rows ↔ w.after = some row ∨ (row ∈ s.rows ∧ key row ≠ w.target) := by
  cases w with
  | put new =>
      simp only [Write.after, Write.target, Option.some.injEq]
      cases hfind : s.find (key new) with
      | none =>
          have hnone := find_eq_none_iff.mp hfind
          rw [rows_put_new hfind, List.mem_append, List.mem_singleton]
          constructor
          · rintro (hmem | rfl)
            · exact Or.inr ⟨hmem, hnone row hmem⟩
            · exact Or.inl rfl
          · rintro (rfl | ⟨hmem, _⟩)
            · exact Or.inr rfl
            · exact Or.inl hmem
      | some old =>
          have hsome : (s.find (key new)).isSome := by simp [hfind]
          simp only [apply, hsome, dite_true, List.mem_map]
          constructor
          · rintro ⟨other, hother, rfl⟩
            by_cases hkey : key other = key new
            · exact Or.inl (if_pos hkey).symm
            · rw [if_neg hkey]
              exact Or.inr ⟨hother, hkey⟩
          · rintro (rfl | ⟨hmem, hne⟩)
            · exact ⟨old, mem_of_find hfind, if_pos (key_of_find hfind)⟩
            · exact ⟨row, hmem, if_neg hne⟩
  | delete k => simp [apply, Write.after, Write.target]

theorem find_apply (s : Store key) (w : Write key) (k : κ) :
    (s.apply w).find k = if w.target = k then w.after else s.find k := by
  apply Option.ext
  intro row
  rw [find_eq_some_iff, mem_apply]
  by_cases hk : w.target = k
  · rw [if_pos hk]
    constructor
    · rintro ⟨hafter | ⟨_, hne⟩, hkey⟩
      · exact hafter
      · exact absurd (hkey.trans hk.symm) hne
    · exact fun hafter => ⟨Or.inl hafter, (Write.key_of_after hafter).trans hk⟩
  · rw [if_neg hk, find_eq_some_iff]
    constructor
    · rintro ⟨hafter | ⟨hmem, _⟩, hkey⟩
      · exact absurd ((Write.key_of_after hafter).symm.trans hkey) hk
      · exact ⟨hmem, hkey⟩
    · rintro ⟨hmem, hkey⟩
      exact ⟨Or.inr ⟨hmem, fun heq => hk (heq.symm.trans hkey)⟩, hkey⟩

theorem select_put_new (f : ρ → Option β) {s : Store key} {row : ρ}
    (h : s.find (key row) = none) :
    (s.apply (.put row)).select f = s.select f ++ (f row).toList := by
  simp only [select, rows_put_new h, List.filterMap_append]
  cases hf : f row <;> simp [hf]

theorem select_put_old (f : ρ → Option β) {s : Store key} {old row : ρ}
    (h : s.find (key row) = some old) :
    ∃ before after, s.select f = before ++ (f old).toList ++ after ∧
      (s.apply (.put row)).select f = before ++ (f row).toList ++ after := by
  obtain ⟨before, after, hrows, hput⟩ := exists_split_of_find h
  refine ⟨before.filterMap f, after.filterMap f, ?_, ?_⟩
  · simp only [select, hrows, List.filterMap_append]
    cases hf : f old <;> simp [hf]
  · simp only [select, hput row rfl, List.filterMap_append]
    cases hf : f row <;> simp [hf]

theorem select_put_same (f : ρ → Option β) {s : Store key} {old row : ρ}
    (h : s.find (key row) = some old) (hf : f row = f old) :
    (s.apply (.put row)).select f = s.select f := by
  obtain ⟨before, after, hold, hnew⟩ := select_put_old f h
  rw [hold, hnew, hf]

theorem select_put_of_none (f : ρ → Option β) {s : Store key} {row : ρ}
    (hrow : f row = none) (hold : ∀ old, s.find (key row) = some old → f old = none) :
    (s.apply (.put row)).select f = s.select f := by
  cases hfind : s.find (key row) with
  | none => simp [select_put_new f hfind, hrow]
  | some old => exact select_put_same f hfind (by rw [hrow, hold old hfind])

theorem select_delete_of_none (f : ρ → Option β) {s : Store key} {k : κ}
    (hold : ∀ old, s.find k = some old → f old = none) :
    (s.apply (.delete k)).select f = s.select f := by
  simp only [select, apply, List.filterMap_filter]
  refine List.filterMap_congr fun row hrow => ?_
  by_cases hk : key row = k
  · simp [hk, hold row (hk ▸ find_of_mem hrow)]
  · simp [hk]

theorem select_put_map (f : ρ → Option β) (g : β → β) {s : Store key} {old row : ρ}
    (h : s.find (key row) = some old)
    (hg : ∀ other ∈ s.rows,
      f (if key other = key row then row else other) = (f other).map g) :
    (s.apply (.put row)).select f = (s.select f).map g := by
  have hsome : (s.find (key row)).isSome := by simp [h]
  simp only [select, apply, hsome, dite_true, List.filterMap_map, List.map_filterMap]
  exact List.filterMap_congr hg

theorem find_applyAll_of_untouched (s : Store key) {ws : List (Write key)} {k : κ}
    (h : ∀ w ∈ ws, w.target ≠ k) : (s.applyAll ws).find k = s.find k := by
  induction ws generalizing s with
  | nil => rfl
  | cons w ws ih =>
      rw [applyAll_cons, ih _ fun v hv => h v (List.mem_cons_of_mem _ hv), find_apply,
        if_neg (h w List.mem_cons_self)]

theorem find_applyAll_delete (s : Store key) (ks : List κ) (k : κ) :
    (s.applyAll (ks.map .delete)).find k = if k ∈ ks then none else s.find k := by
  induction ks generalizing s with
  | nil => simp
  | cons k' ks ih =>
      rw [List.map_cons, applyAll_cons, ih, find_apply]
      by_cases hk : k = k'
      · simp [hk, Write.target, Write.after]
      · simp [hk, Ne.symm hk, Write.target]

end Store

end SmsNotification.KeyedStore

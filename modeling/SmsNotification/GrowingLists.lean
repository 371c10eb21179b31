import Mathlib.Data.List.Infix

namespace SmsNotification.GrowingLists

variable {α β : Type*}

/-- Every entry of the first list is, as far as `R` tells, still in its place in the
second. -/
def Grows (R : α → α → Prop) (xs ys : List α) : Prop :=
  ∀ (k : Nat) x, xs[k]? = some x → ∃ y, ys[k]? = some y ∧ R x y

variable {R : α → α → Prop} {xs ys zs : List α}

theorem Grows.refl (hrefl : ∀ x, R x x) (xs : List α) : Grows R xs xs :=
  fun _ x hx => ⟨x, hx, hrefl x⟩

theorem Grows.trans (htrans : ∀ x y z, R x y → R y z → R x z) (h : Grows R xs ys)
    (h' : Grows R ys zs) : Grows R xs zs := by
  intro k x hx
  obtain ⟨y, hy, hxy⟩ := h k x hx
  obtain ⟨z, hz, hyz⟩ := h' k y hy
  exact ⟨z, hz, htrans x y z hxy hyz⟩

theorem Grows.append (h : Grows R xs ys) (zs : List α) : Grows R xs (ys ++ zs) := by
  intro k x hx
  obtain ⟨y, hy, hxy⟩ := h k x hx
  exact ⟨y, by rw [List.getElem?_append_left (List.getElem?_eq_some_iff.mp hy).1, hy], hxy⟩

theorem grows_map {f : α → α} (h : ∀ x ∈ xs, R x (f x)) : Grows R xs (xs.map f) := by
  intro k x hx
  exact ⟨f x, by rw [List.getElem?_map, hx]; rfl, h x (List.mem_of_getElem? hx)⟩

theorem Grows.mem (h : Grows R xs ys) {x : α} (hx : x ∈ xs) : ∃ y ∈ ys, R x y := by
  obtain ⟨k, hk⟩ := List.mem_iff_getElem?.mp hx
  obtain ⟨y, hy, hxy⟩ := h k x hk
  exact ⟨y, List.mem_of_getElem? hy, hxy⟩

theorem Grows.map_prefix {f : α → β} (hf : ∀ x y, R x y → f x = f y) (h : Grows R xs ys) :
    xs.map f <+: ys.map f := by
  rw [List.prefix_iff_getElem?]
  intro k hk
  rw [List.length_map] at hk
  obtain ⟨y, hy, hxy⟩ := h k xs[k] (List.getElem?_eq_getElem hk)
  rw [List.getElem?_map, hy, List.getElem_map, hf _ _ hxy]
  rfl

end SmsNotification.GrowingLists

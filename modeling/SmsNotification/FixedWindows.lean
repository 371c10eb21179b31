import Mathlib.Data.List.Basic

/-!
Entries that are counted over windows of one length which do not overlap and which their
first entry opens. A stretch of time as long as a window meets two of them at most, and
of the earlier one it misses the entry that has opened it.
-/

namespace SmsNotification.FixedWindows

variable {α : Type} {time start : α → Int} {length : Int} {entries : List α}

/-- Each entry lies in its window, which an entry has opened, and two windows are the same
or do not meet. -/
structure Windows (time start : α → Int) (length : Int) (entries : List α) : Prop where
  within : ∀ e ∈ entries, start e ≤ time e ∧ time e ≤ start e + length
  opened : ∀ e ∈ entries, ∃ o ∈ entries, start o = start e ∧ time o = start e
  apart : ∀ e ∈ entries, ∀ e' ∈ entries,
    start e = start e' ∨ start e + length < start e' ∨ start e' + length < start e

theorem Windows.nil : Windows time start length [] := by
  constructor <;> simp

theorem Windows.cons (h : Windows time start length entries) {e : α}
    (hwithin : start e ≤ time e ∧ time e ≤ start e + length)
    (hopened : time e = start e ∨ ∃ o ∈ entries, start o = start e ∧ time o = start e)
    (hlatest : ∀ e' ∈ entries, start e' = start e ∨ start e' + length < start e) :
    Windows time start length (e :: entries) where
  within := List.forall_mem_cons.mpr ⟨hwithin, h.within⟩
  opened := by
    refine List.forall_mem_cons.mpr ⟨?_, fun e' he' => ?_⟩
    · obtain htime | ⟨o, ho, hopens⟩ := hopened
      · exact ⟨e, List.mem_cons_self, rfl, htime⟩
      · exact ⟨o, List.mem_cons_of_mem _ ho, hopens⟩
    · obtain ⟨o, ho, hopens⟩ := h.opened e' he'
      exact ⟨o, List.mem_cons_of_mem _ ho, hopens⟩
  apart := by
    refine List.forall_mem_cons.mpr ⟨?_, fun a ha => ?_⟩
    · refine List.forall_mem_cons.mpr ⟨Or.inl rfl, fun b hb => ?_⟩
      have hb := hlatest b hb
      omega
    · refine List.forall_mem_cons.mpr ⟨?_, h.apart a ha⟩
      have ha := hlatest a ha
      omega

section Counting

variable {p q r : α → Bool}

theorem countP_le_add (h : ∀ e ∈ entries, p e → q e ∨ r e) :
    entries.countP p ≤ entries.countP (fun e => p e && q e) + entries.countP r := by
  induction entries with
  | nil => simp
  | cons e entries ih =>
      have hrest := ih fun e' he' => h e' (List.mem_cons_of_mem _ he')
      have he := h e List.mem_cons_self
      simp only [List.countP_cons, Bool.and_eq_true]
      split <;> split <;> split <;> grind

theorem countP_and_lt {o : α} (ho : o ∈ entries) (hq : q o) (hp : ¬p o) :
    entries.countP (fun e => p e && q e) < entries.countP q := by
  rw [List.countP_eq_countP_filter_add entries q p, List.countP_filter, List.countP_filter]
  have hmissed : 0 < entries.countP fun e => q e && !p e :=
    List.countP_pos_iff.mpr ⟨o, ho, by simp [hq, hp]⟩
  simp only [Bool.and_comm (q _)] at hmissed ⊢
  omega

end Counting

/-- The entry lies in the stretch of that length. -/
def during (time : α → Int) (first length : Int) (e : α) : Bool :=
  first ≤ time e && time e ≤ first + length

variable {limit : Nat} {first : Int}

theorem during_eq_true {e : α} :
    during time first length e = true ↔ first ≤ time e ∧ time e ≤ first + length := by
  simp [during]

theorem Windows.countP_le_of_lt (h : Windows time start length entries)
    (hlimit : ∀ s, entries.countP (fun e => start e = s) ≤ limit) {a b : α} (ha : a ∈ entries)
    (hb : b ∈ entries) (hlt : start a + length < start b) (hafter : first ≤ time a)
    (hbefore : time b ≤ first + length) :
    entries.countP (during time first length) ≤ 2 * limit - 1 := by
  have hwithinA := h.within a ha
  have hwithinB := h.within b hb
  have htwo : ∀ e ∈ entries, during time first length e →
      decide (start e = start a) ∨ decide (start e = start b) := by
    intro e he hin
    obtain ⟨hafterE, hbeforeE⟩ := during_eq_true.mp hin
    have hwithin := h.within e he
    have hapartA := h.apart e he a ha
    have hapartB := h.apart e he b hb
    simp only [decide_eq_true_eq]
    omega
  obtain ⟨o, ho, hstart, htime⟩ := h.opened a ha
  have hmissed : ¬during time first length o := by
    intro hin
    have hafterO := (during_eq_true.mp hin).1
    omega
  have hfewer : entries.countP (fun e => during time first length e && start e = start a) <
      entries.countP fun e => start e = start a :=
    countP_and_lt ho (decide_eq_true hstart) hmissed
  have hcount := countP_le_add htwo
  have hlimitA := hlimit (start a)
  have hlimitB := hlimit (start b)
  omega

/-- No stretch as long as a window has twice as many entries as a window takes. -/
theorem Windows.countP_le (h : Windows time start length entries)
    (hlimit : ∀ s, entries.countP (fun e => start e = s) ≤ limit) (first : Int) :
    entries.countP (during time first length) ≤ 2 * limit - 1 := by
  by_cases hsome : ∃ a ∈ entries, during time first length a
  · obtain ⟨a, ha, hina⟩ := hsome
    by_cases hother : ∃ b ∈ entries, during time first length b ∧ start b ≠ start a
    · obtain ⟨b, hb, hinb, hne⟩ := hother
      rw [during_eq_true] at hina hinb
      obtain heq | hlt | hlt := h.apart a ha b hb
      · exact absurd heq.symm hne
      · exact h.countP_le_of_lt hlimit ha hb hlt hina.1 hinb.2
      · exact h.countP_le_of_lt hlimit hb ha hlt hinb.1 hina.2
    · have hmeets : 0 < entries.countP fun e => start e = start a :=
        List.countP_pos_iff.mpr ⟨a, ha, decide_eq_true rfl⟩
      have hcount : entries.countP (during time first length) ≤
          entries.countP fun e => start e = start a :=
        List.countP_mono_left fun e he hin => decide_eq_true
          (by_contra fun hne => hother ⟨e, he, hin, hne⟩)
      have hlimitA := hlimit (start a)
      omega
  · rw [List.countP_eq_zero.mpr fun e he hin => hsome ⟨e, he, hin⟩]
    exact Nat.zero_le _

end SmsNotification.FixedWindows

import Mathlib.Data.List.Basic
import Mathlib.Data.List.Induction
import Mathlib.Logic.Relation

/-!
Work that must be done at most once, although those who are asked to do it may leave
the one who asks in doubt. An item is tried again only after every try has been refused,
and a try that has been taken is not.
-/

namespace SmsNotification.AtMostOnce

/-- How far a try has come. -/
inductive Phase where
  | permitted
  | underway
  | refused
  | over
  deriving DecidableEq, Repr

/-- One try of an item, and whether it has been taken. -/
structure Try where
  phase : Phase
  taken : Bool
  deriving DecidableEq, Repr

inductive Verdict where
  | pending
  | abandoned
  | settled
  deriving DecidableEq, Repr

structure Item where
  verdict : Verdict
  tries : List Try
  deriving DecidableEq, Repr

/-- An item that has not been tried. -/
def fresh : Item :=
  ⟨.pending, []⟩

/-- Every try has been refused. -/
def Refused (tries : List Try) : Prop :=
  ∀ t ∈ tries, t.phase = .refused

/-- What may become of one try: nobody can take it before it is underway or after it has
been refused, and nobody refuses what he has taken. -/
inductive TryStep : Try → Try → Prop where
  | start : TryStep ⟨.permitted, false⟩ ⟨.underway, false⟩
  | refuse : TryStep ⟨.underway, false⟩ ⟨.refused, false⟩
  | finish (taken : Bool) : TryStep ⟨.underway, taken⟩ ⟨.over, taken⟩
  | take {t : Try} : t.phase ≠ .permitted → t.phase ≠ .refused →
      TryStep t { t with taken := true }

/-- What may become of an item. -/
inductive Step : Item → Item → Prop where
  | permit {tries : List Try} : Refused tries →
      Step ⟨.pending, tries⟩ ⟨.pending, tries ++ [⟨.permitted, false⟩]⟩
  | tried (verdict : Verdict) {tries : List Try} {k : Nat} {t t' : Try} : tries[k]? = some t →
      TryStep t t' → Step ⟨verdict, tries⟩ ⟨verdict, tries.set k t'⟩
  | abandon {tries : List Try} : Refused tries → Step ⟨.pending, tries⟩ ⟨.abandoned, tries⟩
  | resume (tries : List Try) : Step ⟨.abandoned, tries⟩ ⟨.pending, tries⟩
  | settle (tries : List Try) : Step ⟨.pending, tries⟩ ⟨.settled, tries⟩

/-- Any number of steps. -/
abbrev Steps : Item → Item → Prop :=
  Relation.ReflTransGen Step

/-- Only the last try may be other than refused, and one that has been taken is underway
or over. -/
structure Sound (x : Item) : Prop where
  spent : ∀ (k : Nat) t, x.tries[k]? = some t → k + 1 < x.tries.length → t.phase = .refused
  underway : ∀ t ∈ x.tries, t.taken → t.phase ≠ .permitted ∧ t.phase ≠ .refused
  abandoned : x.verdict = .abandoned → Refused x.tries

theorem sound_fresh : Sound fresh := by
  constructor <;> simp [fresh, Refused]

section Preservation

variable {x y : Item} {verdict : Verdict} {tries : List Try} {t t' : Try}

theorem TryStep.not_refused (h : TryStep t t') : t.phase ≠ .refused := by
  cases h with
  | take _ hrefused => exact hrefused
  | _ => nofun

theorem TryStep.underway (h : TryStep t t') (ht : t.taken → t.phase ≠ .permitted ∧
    t.phase ≠ .refused) (htaken : t'.taken) : t'.phase ≠ .permitted ∧ t'.phase ≠ .refused := by
  cases h with
  | start | refuse => cases htaken
  | finish _ => exact ⟨nofun, nofun⟩
  | take hpermitted hrefused => exact ⟨hpermitted, hrefused⟩

theorem Sound.permit (h : Sound ⟨.pending, tries⟩) (hrefused : Refused tries) :
    Sound ⟨.pending, tries ++ [⟨.permitted, false⟩]⟩ where
  spent k t ht hk := by
    have hlt : k < tries.length := by simpa using hk
    rw [List.getElem?_append_left hlt] at ht
    exact hrefused t (List.mem_of_getElem? ht)
  underway t ht htaken := by
    rcases List.mem_append.mp ht with ht | ht
    · exact h.underway t ht htaken
    · rw [List.mem_singleton.mp ht] at htaken
      cases htaken
  abandoned := nofun

theorem Sound.tried (h : Sound ⟨verdict, tries⟩) {k : Nat} (hk : tries[k]? = some t)
    (hstep : TryStep t t') : Sound ⟨verdict, tries.set k t'⟩ where
  spent j u hu hj := by
    have hlast : ¬k + 1 < tries.length := fun hlt => hstep.not_refused (h.spent k t hk hlt)
    have hlt : k < tries.length := (List.getElem?_eq_some_iff.mp hk).1
    have hj' : j + 1 < tries.length := by simpa using hj
    have hne : k ≠ j := by omega
    have hu' : tries[j]? = some u := (List.getElem?_set_ne hne).symm.trans hu
    exact h.spent j u hu' hj'
  underway u hu htaken := by
    rcases List.mem_or_eq_of_mem_set hu with hu | rfl
    · exact h.underway u hu htaken
    · exact hstep.underway (h.underway t (List.mem_of_getElem? hk)) htaken
  abandoned habandoned :=
    absurd (h.abandoned habandoned t (List.mem_of_getElem? hk)) hstep.not_refused

theorem Sound.step (h : Sound x) (hstep : Step x y) : Sound y := by
  cases hstep with
  | permit hrefused => exact h.permit hrefused
  | tried _ hk hstep => exact h.tried hk hstep
  | abandon hrefused => exact ⟨h.spent, h.underway, fun _ => hrefused⟩
  | resume | settle => exact ⟨h.spent, h.underway, nofun⟩

theorem Sound.steps (h : Sound x) (hsteps : Steps x y) : Sound y := by
  induction hsteps with
  | refl => exact h
  | tail _ hstep ih => exact ih.step hstep

/-- One try has been taken. -/
def Taken (x : Item) : Prop :=
  ∃ t ∈ x.tries, t.taken

/-- After a try has been taken no other one is permitted. -/
theorem Sound.taken_step (h : Sound x) (htaken : Taken x) (hstep : Step x y) :
    Taken y ∧ y.tries.length = x.tries.length := by
  obtain ⟨t, ht, htrue⟩ := htaken
  cases hstep with
  | permit hrefused => exact absurd (hrefused t ht) (h.underway t ht htrue).2
  | @tried _ tries k u u' hk hstep =>
      refine ⟨?_, List.length_set⟩
      obtain ⟨j, hj⟩ := List.mem_iff_getElem?.mp ht
      by_cases hkj : k = j
      · subst hkj
        obtain rfl := Option.some.inj (hk.symm.trans hj)
        refine ⟨u', List.mem_set (List.getElem?_eq_some_iff.mp hk).1 _, ?_⟩
        cases hstep with
        | start | refuse => cases htrue
        | finish _ => exact htrue
        | take _ _ => rfl
      · exact ⟨t, List.mem_of_getElem? ((List.getElem?_set_ne hkj).trans hj), htrue⟩
  | abandon | resume | settle => exact ⟨⟨t, ht, htrue⟩, rfl⟩

theorem Sound.taken_steps (h : Sound x) (htaken : Taken x) (hsteps : Steps x y) :
    y.tries.length = x.tries.length := by
  suffices hkept : Taken y ∧ y.tries.length = x.tries.length from hkept.2
  induction hsteps with
  | refl => exact ⟨htaken, rfl⟩
  | tail hsteps hstep ih =>
      obtain ⟨htaken', hlength⟩ := (h.steps hsteps).taken_step ih.1 hstep
      exact ⟨htaken', hlength.trans ih.2⟩

end Preservation

end SmsNotification.AtMostOnce

import Mathlib.Data.List.Basic

/-!
Runs of labelled transition systems: the states of a run, invariants of the
reachable states, and simulation of one system by another along a function.
-/

namespace SmsNotification.LabelledRuns

variable {σ τ ℓ μ : Type*}

section Systems

variable (step : σ → ℓ → σ → Prop) (ok : σ → ℓ → Prop) (init : σ → Prop)

/-- The states a system can get to; `ok` says which steps are allowed where. -/
inductive Reachable : σ → Prop where
  | start {s : σ} : init s → Reachable s
  | next {s s' : σ} (l : ℓ) : Reachable s → ok s l → step s l s' → Reachable s'

/-- The states of one finite run, the latest first. -/
inductive Run : List σ → Prop where
  | start {s : σ} : init s → Run [s]
  | next {s s' : σ} {past : List σ} (l : ℓ) :
      Run (s :: past) → ok s l → step s l s' → Run (s' :: s :: past)

end Systems

variable {step : σ → ℓ → σ → Prop} {ok : σ → ℓ → Prop} {init : σ → Prop}

theorem Run.reachable {states : List σ} (h : Run step ok init states) :
    ∀ s ∈ states, Reachable step ok init s := by
  induction h with
  | start h0 =>
      intro s hs
      rw [List.mem_singleton.mp hs]
      exact Reachable.start h0
  | next l hprev hok hstep ih =>
      intro s hs
      rcases List.mem_cons.mp hs with rfl | hs
      · exact Reachable.next l (ih _ List.mem_cons_self) hok hstep
      · exact ih s hs

theorem Reachable.mono {ok' : σ → ℓ → Prop} (hok : ∀ s l, ok s l → ok' s l) {s : σ}
    (h : Reachable step ok init s) : Reachable step ok' init s := by
  induction h with
  | start h0 => exact Reachable.start h0
  | next l _ hl hstep ih => exact Reachable.next l ih (hok _ l hl) hstep

theorem Run.mono {ok' : σ → ℓ → Prop} (hok : ∀ s l, ok s l → ok' s l) {states : List σ}
    (h : Run step ok init states) : Run step ok' init states := by
  induction h with
  | start h0 => exact Run.start h0
  | next l _ hl hstep ih => exact Run.next l ih (hok _ l hl) hstep

theorem Reachable.weaken {init' : σ → Prop} (hinit : ∀ s, init s → init' s) {s : σ}
    (h : Reachable step ok init s) : Reachable step ok init' s := by
  induction h with
  | start h0 => exact Reachable.start (hinit _ h0)
  | next l _ hl hstep ih => exact Reachable.next l ih hl hstep

/-- An invariant along a run: what holds at the start and is kept by every
allowed step from a reachable state. -/
theorem Reachable.invariant {inv : σ → Prop} (hinit : ∀ s, init s → inv s)
    (hstep : ∀ s l s', Reachable step ok init s → inv s → ok s l → step s l s' → inv s')
    {s : σ} (h : Reachable step ok init s) : inv s := by
  induction h with
  | start h0 => exact hinit _ h0
  | next l hreach hl hs ih => exact hstep _ l _ hreach ih hl hs

/-- The number of steps of a run that are an event. -/
def occurrences (event : σ → σ → Bool) : List σ → Nat
  | s' :: s :: past => occurrences event (s :: past) + if event s s' then 1 else 0
  | _ => 0

/-- A counter that starts at zero and goes up at each event counts the events. -/
theorem Run.count_eq (count : σ → Nat) (event : σ → σ → Bool)
    (hinit : ∀ s, init s → count s = 0)
    (hstep : ∀ s l s', Reachable step ok init s → ok s l → step s l s' →
      count s' = count s + if event s s' then 1 else 0)
    {s : σ} {past : List σ} (h : Run step ok init (s :: past)) :
    count s = occurrences event (s :: past) := by
  induction past generalizing s with
  | nil =>
      cases h with
      | start h0 => exact hinit s h0
  | cons s₀ past ih =>
      cases h with
      | next l hprev hl hs =>
          rw [hstep s₀ l s (hprev.reachable s₀ List.mem_cons_self) hl hs, ih hprev]
          rfl

/-- The states reached from `s`, each with the number of counted steps on the way. -/
inductive Counted (step : σ → ℓ → σ → Prop) (ok : σ → ℓ → Prop) (counted : ℓ → Prop) (s : σ) :
    Nat → σ → Prop where
  | start : Counted step ok counted s 0 s
  | other {n : Nat} {s₁ s₂ : σ} (l : ℓ) : Counted step ok counted s n s₁ → ok s₁ l →
      step s₁ l s₂ → ¬counted l → Counted step ok counted s n s₂
  | event {n : Nat} {s₁ s₂ : σ} (l : ℓ) : Counted step ok counted s n s₁ → ok s₁ l →
      step s₁ l s₂ → counted l → Counted step ok counted s (n + 1) s₂

/-- A budget that every counted step lowers and no other one raises bounds the counted
steps. -/
theorem Counted.le_budget {counted : ℓ → Prop} (budget : Nat → σ → Prop)
    (hother : ∀ n s l s', ok s l → step s l s' → ¬counted l → budget n s → budget n s')
    (hevent : ∀ n s l s', ok s l → step s l s' → counted l → budget n s →
      ∃ n', n' < n ∧ budget n' s')
    {n k : Nat} {s s' : σ} (hs : budget n s) (h : Counted step ok counted s k s') :
    ∃ n', k + n' ≤ n ∧ budget n' s' := by
  induction h with
  | start => exact ⟨n, Nat.le_of_eq (Nat.zero_add n), hs⟩
  | other l _ hl hstep hnot ih =>
      obtain ⟨n', hle, hn'⟩ := ih
      exact ⟨n', hle, hother n' _ l _ hl hstep hnot hn'⟩
  | event l _ hl hstep hcounted ih =>
      obtain ⟨n', hle, hn'⟩ := ih
      obtain ⟨n'', hlt, hn''⟩ := hevent n' _ l _ hl hstep hcounted hn'
      exact ⟨n'', by omega, hn''⟩

/-- Simulation along `abs`; a step that keeps the image is a stutter. -/
theorem Reachable.simulate {step' : τ → μ → τ → Prop} {ok' : τ → μ → Prop} {init' : τ → Prop}
    {abs : σ → τ} {inv : σ → Prop}
    (hinit : ∀ s, init s → inv s ∧ init' (abs s))
    (hstep : ∀ s l s', inv s → ok s l → step s l s' →
      inv s' ∧ (abs s' = abs s ∨ ∃ l', ok' (abs s) l' ∧ step' (abs s) l' (abs s')))
    {s : σ} (h : Reachable step ok init s) : inv s ∧ Reachable step' ok' init' (abs s) := by
  induction h with
  | start h0 => exact ⟨(hinit _ h0).1, Reachable.start (hinit _ h0).2⟩
  | next l _ hl hs ih =>
      obtain ⟨hinv, hsame | ⟨l', hl', hs'⟩⟩ := hstep _ l _ ih.1 hl hs
      · exact ⟨hinv, hsame ▸ ih.2⟩
      · exact ⟨hinv, Reachable.next l' ih.2 hl' hs'⟩

/-- The state after a list of labels, where the step is a function and the
restriction is decidable. -/
def exec (next : σ → ℓ → Option σ) (ok : σ → ℓ → Prop) [∀ s l, Decidable (ok s l)] :
    σ → List ℓ → Option σ
  | s, [] => some s
  | s, l :: ls => if ok s l then (next s l).bind fun s' => exec next ok s' ls else none

theorem exec_append {next : σ → ℓ → Option σ} [∀ s l, Decidable (ok s l)] (s : σ)
    (ls ls' : List ℓ) :
    exec next ok s (ls ++ ls') = (exec next ok s ls).bind fun s' => exec next ok s' ls' := by
  induction ls generalizing s with
  | nil => rfl
  | cons l ls ih =>
      simp only [List.cons_append, exec]
      split
      · cases next s l with
        | none => rfl
        | some s' => exact ih s'
      · rfl

theorem reachable_of_exec {next : σ → ℓ → Option σ} [∀ s l, Decidable (ok s l)] {s s' : σ}
    {ls : List ℓ} (h : Reachable (fun s l s' => next s l = some s') ok init s)
    (hexec : exec next ok s ls = some s') :
    Reachable (fun s l s' => next s l = some s') ok init s' := by
  induction ls generalizing s with
  | nil =>
      obtain rfl : s = s' := by simpa [exec] using hexec
      exact h
  | cons l ls ih =>
      simp only [exec] at hexec
      split at hexec
      · rename_i hok
        obtain ⟨_, hnext, hrest⟩ := Option.bind_eq_some_iff.mp hexec
        exact ih (Reachable.next l h hok hnext) hrest
      · simp at hexec

/-- The states on the way along a list of labels, the latest first. -/
def replay (next : σ → ℓ → Option σ) (ok : σ → ℓ → Prop) [∀ s l, Decidable (ok s l)] :
    List σ → List ℓ → Option (List σ)
  | s :: past, l :: ls =>
      if ok s l then (next s l).bind fun s' => replay next ok (s' :: s :: past) ls else none
  | [], _ :: _ => none
  | states, [] => some states

theorem run_of_replay {next : σ → ℓ → Option σ} [∀ s l, Decidable (ok s l)]
    {states states' : List σ} {ls : List ℓ}
    (h : Run (fun s l s' => next s l = some s') ok init states)
    (hreplay : replay next ok states ls = some states') :
    Run (fun s l s' => next s l = some s') ok init states' := by
  induction ls generalizing states with
  | nil =>
      obtain rfl : states = states' := by
        cases states <;> simpa [replay] using hreplay
      exact h
  | cons l ls ih =>
      cases states with
      | nil => simp [replay] at hreplay
      | cons s past =>
          simp only [replay] at hreplay
          split at hreplay
          · rename_i hok
            obtain ⟨_, hnext, hrest⟩ := Option.bind_eq_some_iff.mp hreplay
            exact ih (Run.next l h hok hnext) hrest
          · simp at hreplay

end SmsNotification.LabelledRuns

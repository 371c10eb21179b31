import SmsNotification.ActorSystem

/-!
How often one actor can still move. Control states have a rank that every way out of
them lowers, and transactions are so many statements long at most; together they
bound the steps of an actor, whatever the others do between them.
-/

namespace SmsNotification.StepBudgets

open SmsNotification.ActorSystem
open SmsNotification.KeyedStore
open SmsNotification.LabelledRuns
open SmsNotification.ReadCommitted

variable {κ ρ χ ε α β Q Ξ : Type} {key : ρ → κ}

/-- A transaction of at most `n` statements whose answers pass. -/
inductive Within (ok : α → Prop) : Nat → Tx χ key ε α → Prop where
  | done {n : Nat} {a : α} : ok a → Within ok n (.done a)
  | abort {n : Nat} (e : ε) : Within ok n (.abort e)
  | stmt {n : Nat} {writes : χ → Store key → List (Write key)}
      {next : χ → Store key → Tx χ key ε α} :
      (∀ c s, Within ok n (next c s)) → Within ok (n + 1) (.stmt writes next)

namespace Within

variable {ok : α → Prop} {n m : Nat}

theorem mono {t : Tx χ key ε α} (h : Within ok n t) (hnm : n ≤ m) : Within ok m t := by
  induction h generalizing m with
  | done ha => exact .done ha
  | abort e => exact .abort e
  | stmt _ ih =>
      obtain ⟨m, rfl⟩ := Nat.exists_eq_add_of_le' (Nat.le_of_add_left_le hnm)
      exact .stmt fun c s => ih c s (by omega)

theorem bind {ok' : β → Prop} {t : Tx χ key ε β} {k : β → Tx χ key ε α} (h : Within ok' n t)
    (hk : ∀ b, ok' b → Within ok m (k b)) : Within ok (n + m) (t >>= k) := by
  induction h with
  | done hb => exact (hk _ hb).mono (Nat.le_add_left m _)
  | abort e => exact .abort e
  | @stmt n writes next _ ih =>
      rw [Nat.add_right_comm]
      exact .stmt ih

theorem map {f : β → α} {t : Tx χ key ε β} (h : Within (fun b => ok (f b)) n t) :
    Within ok n (t.map f) := by
  have hbind : Within ok (n + 0) (t >>= fun b => .done (f b)) := h.bind fun _ hb => .done hb
  exact hbind

theorem weaken {ok' : α → Prop} (hok : ∀ a, ok a → ok' a) {t : Tx χ key ε α}
    (h : Within ok n t) : Within ok' n t := by
  induction h with
  | done ha => exact .done (hok _ ha)
  | abort e => exact .abort e
  | stmt _ ih => exact .stmt ih

theorem require (check : Bool) (e : ε) :
    Within (fun _ => True) 0 (Tx.require check e : Tx χ key ε Unit) := by
  cases check with
  | true => exact .done trivial
  | false => exact .abort e

theorem read (query : χ → Store key → α) :
    Within (fun _ => True) 1 (Tx.read query : Tx χ key ε α) :=
  .stmt fun _ _ => .done trivial

variable [DecidableEq κ]

theorem update (k : κ) (guard : ρ → Bool) (change : χ → ρ → ρ) :
    Within (fun _ => True) 1 (Tx.update k guard change : Tx χ key ε Nat) :=
  .stmt fun _ _ => .done trivial

theorem insert (parents : ρ → List κ) (wrap : α → ρ) (data : χ → α) (duplicate missing : ε) :
    Within (fun _ => True) 1
      (Tx.insert parents wrap data duplicate missing : Tx χ key ε α) := by
  refine .stmt fun c s => ?_
  split
  · exact .abort _
  · split
    · exact .done trivial
    · exact .abort _

end Within

/-- The control states of an actor with a rank for each, where no transaction is longer
than `depth` statements. -/
structure Ranked (P : Protocol χ key ε Q Ξ) (live : Q → Prop) (rank : Q → Nat) (depth : Nat) :
    Prop where
  starts : ∀ q t onError, live q → P.code q = .tx t onError →
    ∃ writes next, t = .stmt writes next
  tx : ∀ q t onError, live q → P.code q = .tx t onError →
    Within (fun q' => live q' ∧ rank q' < rank q) depth t
  error : ∀ q t onError e, live q → P.code q = .tx t onError →
    live (onError e) ∧ rank (onError e) < rank q
  act : ∀ q act c x x' q', live q → P.code q = .ext act → act c x = some (x', q') →
    live q' ∧ rank q' < rank q
  crashed : ∀ q, live q → live (P.crashed q) ∧ P.code (P.crashed q) = .halt

/-- An actor with at most `n` steps of its own before it. -/
inductive Left (P : Protocol χ key ε Q Ξ) (live : Q → Prop) (rank : Q → Nat) (depth : Nat)
    (a : Actor χ key ε Q) : Nat → Prop where
  | halted {n : Nat} : live a.control → P.code a.control = .halt → Left P live rank depth a n
  | waiting {n : Nat} {act : χ → Ξ → Option (Ξ × Q)} : live a.control →
      P.code a.control = .ext act → rank a.control * (depth + 1) ≤ n → Left P live rank depth a n
  | running {n k r : Nat} {t rest : Tx χ key ε Q} {onError : ε → Q} : live a.control →
      P.code a.control = .tx t onError → a.rest = some rest →
      ((∃ writes next, rest = .stmt writes next) ∨ ((∃ q, rest = .done q) ∧ a.pending ≠ [])) →
      Within (fun q => live q ∧ rank q ≤ r) k rest → k ≤ depth → rank a.control = r + 1 →
      r * (depth + 1) + k + 1 ≤ n → Left P live rank depth a n

section Steps

variable {P : Protocol χ key ε Q Ξ} {live : Q → Prop} {rank : Q → Nat} {depth : Nat}

theorem Left.mono {a : Actor χ key ε Q} {n m : Nat} (h : Left P live rank depth a n)
    (hnm : n ≤ m) : Left P live rank depth a m := by
  cases h with
  | halted hlive hcode => exact .halted hlive hcode
  | waiting hlive hcode hn => exact .waiting hlive hcode (Nat.le_trans hn hnm)
  | running hlive hcode hrest hopen hwithin hk hrank hn =>
      exact .running hlive hcode hrest hopen hwithin hk hrank (Nat.le_trans hn hnm)

theorem live_of_left {a : Actor χ key ε Q} {n : Nat} (h : Left P live rank depth a n) :
    live a.control := by
  cases h with
  | halted hlive _ => exact hlive
  | waiting hlive _ _ => exact hlive
  | running hlive _ _ _ _ _ _ _ => exact hlive

theorem Left.of_rank {a : Actor χ key ε Q} {n : Nat} (h : Left P live rank depth a n) :
    Left P live rank depth a (rank a.control * (depth + 1)) := by
  cases h with
  | halted hlive hcode => exact .halted hlive hcode
  | waiting hlive hcode _ => exact .waiting hlive hcode (Nat.le_refl _)
  | running hlive hcode hrest hopen hwithin hk hrank _ =>
      refine .running hlive hcode hrest hopen hwithin hk hrank ?_
      rw [hrank, Nat.add_mul, Nat.one_mul]
      omega

theorem left_enter [DecidableEq κ] (hranked : Ranked P live rank depth) {q : Q} (hq : live q) :
    Left P live rank depth (P.enter q) (rank q * (depth + 1)) := by
  cases hcode : P.code q with
  | halt => exact .halted (by simpa using hq) (by rw [enter_control, hcode])
  | ext act => exact .waiting (by simpa using hq) (by rw [enter_control, hcode]) (by simp)
  | tx t onError =>
      obtain ⟨writes, next, rfl⟩ := hranked.starts q t onError hq hcode
      have hpos := (hranked.error q _ onError P.fault hq hcode).2
      obtain ⟨r, hr⟩ := Nat.exists_eq_succ_of_ne_zero (Nat.ne_zero_of_lt hpos)
      have hwithin : Within (fun q' => live q' ∧ rank q' ≤ r) depth (.stmt writes next) :=
        (hranked.tx q _ onError hq hcode).weaken fun q' hq' =>
          ⟨hq'.1, Nat.lt_succ_iff.mp (hr ▸ hq'.2)⟩
      refine .running (by simpa using hq) (by rw [enter_control, hcode]) ?_
        (Or.inl ⟨writes, next, rfl⟩) hwithin (Nat.le_refl _) (by simpa using hr) ?_
      · simp [Protocol.enter, hcode]
      · exact Nat.le_of_eq (by rw [hr, Nat.succ_mul, Nat.add_assoc])

theorem left_of_lower [DecidableEq κ] (hranked : Ranked P live rank depth) {q : Q} {r n : Nat}
    (hq : live q ∧ rank q ≤ r) (hn : r * (depth + 1) ≤ n) :
    Left P live rank depth (P.enter q) n :=
  (left_enter hranked hq.1).mono (Nat.le_trans (Nat.mul_le_mul_right _ hq.2) hn)

variable [DecidableEq κ] {w w' : World χ key ε Q Ξ} {i : Nat} {a a' : Actor χ key ε Q}
  {l : Label χ Q} {n : Nat}

theorem left_settle (hranked : Ranked P live rank depth) {q : Q} {onError : ε → Q}
    {t t' : Tx χ key ε Q} {ps : List (Pending key)} {k r : Nat} (hq : live q)
    (hcode : P.code q = .tx t onError) (hrank : rank q = r + 1)
    (hwithin : Within (fun q' => live q' ∧ rank q' ≤ r) k t') (hk : k ≤ depth)
    (hn : r * (depth + 1) + k + 1 ≤ n) : Left P live rank depth (P.settle q onError t' ps) n := by
  cases t' with
  | abort e =>
      obtain ⟨hlive, hlt⟩ := hranked.error q t onError e hq hcode
      exact left_of_lower hranked ⟨hlive, Nat.lt_succ_iff.mp (hrank ▸ hlt)⟩ (by omega)
  | stmt writes next =>
      exact .running hq hcode rfl (Or.inl ⟨writes, next, rfl⟩) hwithin hk hrank hn
  | done q' =>
      cases ps with
      | nil =>
          cases hwithin with
          | done hq' => exact left_of_lower hranked hq' (by omega)
      | cons p ps =>
          exact .running hq hcode rfl (Or.inr ⟨⟨q', rfl⟩, List.cons_ne_nil p ps⟩) hwithin hk hrank
            hn

theorem left_of_turn (hranked : Ranked P live rank depth) (h : Left P live rank depth a n)
    (hturn : Turn P w i a l w' a') :
    (¬Own i l → Left P live rank depth a' n) ∧
      (Own i l → ∃ n', n' < n ∧ Left P live rank depth a' n') := by
  cases hturn with
  | stays hown => exact ⟨fun _ => h, fun hl => absurd hl hown⟩
  | @statement c _ t onError writes next hcode hrest _ _ =>
      refine ⟨fun hown => absurd (Or.inr ⟨c, rfl⟩) hown, fun _ => ?_⟩
      cases h with
      | halted _ hcode' => simp [hcode] at hcode'
      | waiting _ hcode' _ => simp [hcode] at hcode'
      | @running k r t' rest onError' hlive hcode' hrest' hopen hwithin hk hrank hn =>
          obtain rfl := Option.some.inj (hrest.symm.trans hrest')
          cases hwithin with
          | @stmt k _ _ hnext =>
              exact ⟨n - 1, by omega,
                left_settle hranked hlive hcode hrank (hnext _ _) (by omega) (by omega)⟩
  | @act c _ act q hcode hact _ =>
      refine ⟨fun hown => absurd (Or.inr ⟨c, rfl⟩) hown, fun _ => ?_⟩
      cases h with
      | halted _ hcode' => simp [hcode] at hcode'
      | @waiting act' hlive hcode' hn =>
          obtain ⟨hq, hlt⟩ := hranked.act _ _ _ _ _ _ hlive hcode hact
          refine ⟨rank q * (depth + 1), ?_, left_enter hranked hq⟩
          exact Nat.lt_of_lt_of_le (Nat.mul_lt_mul_of_pos_right hlt (Nat.succ_pos depth)) hn
      | running _ hcode' _ _ _ _ _ _ => simp [hcode] at hcode'
  | @commit _ t onError q hcode hrest _ _ =>
      refine ⟨fun hown => absurd (Or.inl rfl) hown, fun _ => ?_⟩
      cases h with
      | halted _ hcode' => simp [hcode] at hcode'
      | waiting _ hcode' _ => simp [hcode] at hcode'
      | @running k r t' rest onError' hlive hcode' hrest' hopen hwithin hk hrank hn =>
          obtain rfl := Option.some.inj (hrest.symm.trans hrest')
          cases hwithin with
          | done hq => exact ⟨n - 1, by omega, left_of_lower hranked hq (by omega)⟩
  | @failed _ _ t onError hlabel hcode =>
      refine ⟨fun _ => ?_, fun hown => ?_⟩
      · cases h with
        | halted _ hcode' => simp [hcode] at hcode'
        | waiting _ hcode' _ => simp [hcode] at hcode'
        | running hlive _ _ _ _ _ hrank hn =>
            obtain ⟨hq, hlt⟩ := hranked.error _ t onError P.fault hlive hcode
            exact left_of_lower hranked ⟨hq, Nat.lt_succ_iff.mp (hrank ▸ hlt)⟩ (by omega)
      · rcases hlabel with rfl | rfl <;> simp [Own] at hown
  | crashed =>
      refine ⟨fun _ => ?_, fun hown => by simp [Own] at hown⟩
      obtain ⟨hq, hhalt⟩ := hranked.crashed _ (live_of_left h)
      exact .halted (by simpa using hq) (by simpa using hhalt)

/-- In every run from a world an actor takes as many steps of its own at most as are left
to it there, and some are left to it at the end. -/
theorem counted_le (hranked : Ranked P live rank depth)
    {ok : World χ key ε Q Ξ → Label χ Q → Prop} {k : Nat} (ha : w.actors[i]? = some a)
    (h : Left P live rank depth a n)
    (hrun : Counted (fun w l w' => P.step w l = some w') ok (Own i) w k w') :
    ∃ a' n', k + n' ≤ n ∧ w'.actors[i]? = some a' ∧ Left P live rank depth a' n' := by
  have hbudget : ∃ n', k + n' ≤ n ∧
      ∃ a', w'.actors[i]? = some a' ∧ Left P live rank depth a' n' := by
    refine Counted.le_budget (fun n w => ∃ a, w.actors[i]? = some a ∧ Left P live rank depth a n)
      (fun n w l w' _ hstep hown hleft => ?_) (fun n w l w' _ hstep hown hleft => ?_)
      ⟨a, ha, h⟩ hrun
    · obtain ⟨a, ha, hleft⟩ := hleft
      obtain ⟨a', ha', hturn⟩ := (moves_of_step hstep).turn ha
      exact ⟨a', ha', (left_of_turn hranked hleft hturn).1 hown⟩
    · obtain ⟨a, ha, hleft⟩ := hleft
      obtain ⟨a', ha', hturn⟩ := (moves_of_step hstep).turn ha
      obtain ⟨n', hlt, hleft'⟩ := (left_of_turn hranked hleft hturn).2 hown
      exact ⟨n', hlt, a', ha', hleft'⟩
  obtain ⟨n', hle, a', ha', hleft⟩ := hbudget
  exact ⟨a', n', hle, ha', hleft⟩

theorem left_of_reachable (hranked : Ranked P live rank depth)
    {ok : World χ key ε Q Ξ → Label χ Q → Prop} {init : World χ key ε Q Ξ → Prop}
    (hinit : ∀ w, init w → w.actors = []) (hspawn : ∀ w q, ok w (.spawn q) → live q)
    (h : Reachable (fun w l w' => P.step w l = some w') ok init w) {i : Nat}
    {a : Actor χ key ε Q} (ha : w.actors[i]? = some a) :
    Left P live rank depth a (rank a.control * (depth + 1)) := by
  induction h generalizing i a with
  | start h0 => simp [hinit _ h0] at ha
  | @next w w' l _ hl hstep ih =>
      suffices ∃ n, Left P live rank depth a n from this.elim fun _ hn => hn.of_rank
      obtain ⟨b, hb⟩ | ⟨q, rfl, rfl⟩ := (moves_of_step hstep).before ha
      · obtain ⟨a', ha', hturn⟩ := (moves_of_step hstep).turn hb
        obtain rfl := Option.some.inj (ha'.symm.trans ha)
        obtain ⟨hothers, hown⟩ := left_of_turn hranked (ih hb) hturn
        by_cases hl' : Own i l
        · obtain ⟨n, _, hn⟩ := hown hl'
          exact ⟨n, hn⟩
        · exact ⟨_, hothers hl'⟩
      · exact ⟨_, left_enter hranked (hspawn w q hl)⟩

theorem exists_step_of_tx (h : Left P live rank depth a n) (ha : w.actors[i]? = some a)
    {t : Tx χ key ε Q} {onError : ε → Q} (hcode : P.code a.control = .tx t onError)
    (hothers : ∀ j b, w.actors[j]? = some b → j ≠ i → b.pending = [])
    (hsupply : ∃ c, P.supply c w.store) : ∃ l, Own i l ∧ (P.step w l).isSome := by
  cases h with
  | halted _ hcode' => simp [hcode] at hcode'
  | waiting _ hcode' _ => simp [hcode] at hcode'
  | running _ hcode' hrest hopen _ _ _ _ =>
      rcases hopen with ⟨writes, next, rfl⟩ | ⟨⟨q, rfl⟩, hpending⟩
      · obtain ⟨c, hc⟩ := hsupply
        have hfree : ∀ new, P.lockFree (w.actors.eraseIdx i) new := by
          intro new
          refine List.all_eq_true.mpr fun b hb => ?_
          obtain ⟨j, hji, hj⟩ := List.mem_eraseIdx_iff_getElem?.mp hb
          simp [hothers j b hj hji]
        exact ⟨.run i c, Or.inr ⟨c, rfl⟩, by simp [Protocol.step, ha, hcode, hrest, hc, hfree]⟩
      · obtain ⟨p, ps, hps⟩ := List.exists_cons_of_ne_nil hpending
        exact ⟨.commit i, Or.inl rfl, by simp [Protocol.step, ha, hcode, hrest, hps]⟩

/-- An actor that can always go on comes to its end: the steps that are left to it are
taken one after the other. -/
theorem exists_halted (hranked : Ranked P live rank depth)
    {ok : World χ key ε Q Ξ → Label χ Q → Prop} {inv : World χ key ε Q Ξ → Prop}
    (hgoes : ∀ w a, inv w → w.actors[i]? = some a → P.code a.control ≠ .halt →
      ∃ l w', Own i l ∧ ok w l ∧ P.step w l = some w' ∧ inv w')
    (hw : inv w) (ha : w.actors[i]? = some a) (h : Left P live rank depth a n) :
    ∃ w' a', Reachable (fun w l w' => P.step w l = some w') ok (· = w) w' ∧ inv w' ∧
      w'.actors[i]? = some a' ∧ P.code a'.control = .halt := by
  suffices ∀ w₁ a₁, Reachable (fun w l w' => P.step w l = some w') ok (· = w) w₁ → inv w₁ →
      w₁.actors[i]? = some a₁ → Left P live rank depth a₁ n →
      ∃ w' a', Reachable (fun w l w' => P.step w l = some w') ok (· = w) w' ∧ inv w' ∧
        w'.actors[i]? = some a' ∧ P.code a'.control = .halt from
    this w a (Reachable.start rfl) hw ha h
  clear hw ha h
  induction n using Nat.strongRecOn with
  | ind n ih =>
      intro w₁ a₁ hreach hw₁ ha₁ hleft
      by_cases hhalt : P.code a₁.control = .halt
      · exact ⟨w₁, a₁, hreach, hw₁, ha₁, hhalt⟩
      · obtain ⟨l, w₂, hown, hl, hstep, hw₂⟩ := hgoes w₁ a₁ hw₁ ha₁ hhalt
        obtain ⟨a₂, ha₂, hturn⟩ := (moves_of_step hstep).turn ha₁
        obtain ⟨n', hlt, hleft'⟩ := (left_of_turn hranked hleft hturn).2 hown
        exact ih n' hlt w₂ a₂ (Reachable.next l hreach hl hstep) hw₂ ha₂ hleft'

end Steps

end SmsNotification.StepBudgets

import SmsNotification.FixedWindows
import SmsNotification.ProviderRateLimiter

namespace SmsNotification.RateLimitWindows

open SmsNotification.FixedWindows
open SmsNotification.LabelledRuns
open SmsNotification.ProviderRateLimiter

/-- The runs of the script after which a call for the provider has returned. -/
def returnedCalls (providerName : String) (evals : List Eval) : List Eval :=
  evals.filter fun e => e.providerName = providerName && e.waitMs ≤ 0

/-- The start of the lifetime of the counter that a run of the script has used. -/
def lifetimeStart (e : Eval) : Int :=
  (e.found.bind Counter.expiresAt).elim e.now (· - windowMs)

/-- The calls of one lifetime. -/
def ofLifetime (start : Int) (returned : List Eval) : Nat :=
  returned.countP fun e => lifetimeStart e = start

/-- What the stored counter says of the calls that have returned. -/
structure Current (config : Config) (providerName : String) (clock : Int) (evals : List Eval)
    (n : Nat) (instant : Int) : Prop where
  started : instant ≤ clock + windowMs
  latest : ∀ e ∈ returnedCalls providerName evals,
    lifetimeStart e = instant - windowMs ∨ lifetimeStart e + windowMs < instant - windowMs
  opened : 1 ≤ config.limitFor providerName → ∃ e ∈ returnedCalls providerName evals,
    lifetimeStart e = instant - windowMs ∧ e.now = instant - windowMs
  least : min n (config.limitFor providerName) ≤
    ofLifetime (instant - windowMs) (returnedCalls providerName evals)
  most : Timely config providerName evals →
    ofLifetime (instant - windowMs) (returnedCalls providerName evals) ≤
      min n (config.limitFor providerName)

/-- The delay of a call: the limit has returned, and it ends with the lifetime. -/
structure Delayed (config : Config) (e : Eval) (past : List Eval) : Prop where
  least : config.limitFor e.providerName ≤
    ofLifetime (lifetimeStart e) (returnedCalls e.providerName past)
  most : Timely config e.providerName past →
    ofLifetime (lifetimeStart e) (returnedCalls e.providerName past) ≤
      config.limitFor e.providerName
  started : lifetimeStart e ≤ e.now
  ends : e.now + e.waitMs = lifetimeStart e + windowMs

/-- The invariant of a provider's counter over time. -/
structure Lifetimes (config : Config) (providerName : String) (w : World) : Prop where
  unused : w.redis (counterKey providerName) = none → returnedCalls providerName w.evals = []
  current : ∀ n instant, w.redis (counterKey providerName) = some ⟨n, some instant⟩ →
    Current config providerName w.clock w.evals n instant
  windows : Timely config providerName w.evals →
    Windows Eval.now lifetimeStart windowMs (returnedCalls providerName w.evals)
  bounded : Timely config providerName w.evals → ∀ start,
    ofLifetime start (returnedCalls providerName w.evals) ≤ config.limitFor providerName
  delayed : ∀ e past, e :: past <:+ w.evals → e.providerName = providerName → 0 < e.waitMs →
    Delayed config e past

theorem windowMs_pos : 0 < windowMs := by
  decide

section Logs

variable {p : String} {e : Eval} {past : List Eval}

theorem returnedCalls_of_ne (h : e.providerName ≠ p) :
    returnedCalls p (e :: past) = returnedCalls p past := by
  simp [returnedCalls, h]

theorem returnedCalls_of_returned (h : e.providerName = p) (hwait : e.waitMs ≤ 0) :
    returnedCalls p (e :: past) = e :: returnedCalls p past := by
  simp [returnedCalls, h, hwait]

theorem returnedCalls_of_delayed (hwait : 0 < e.waitMs) :
    returnedCalls p (e :: past) = returnedCalls p past := by
  simp [returnedCalls, hwait]

theorem ofLifetime_cons (start : Int) (returned : List Eval) :
    ofLifetime start (e :: returned) =
      ofLifetime start returned + if lifetimeStart e = start then 1 else 0 := by
  simp [ofLifetime, List.countP_cons]

end Logs

section Steps

variable {config : Config} {p : String} {w w' : World}

theorem Lifetimes.init (clock : Int) : Lifetimes config p (initial clock) where
  unused _ := rfl
  current _ _ hstored := by cases hstored
  windows _ := Windows.nil
  bounded _ _ := Nat.zero_le _
  delayed e past hpast := absurd (List.IsSuffix.length_le hpast) (Nat.not_succ_le_zero _)

theorem Lifetimes.delayed_cons (h : Lifetimes config p w) {e : Eval}
    (hevals : w'.evals = e :: w.evals)
    (hdelayed : e.providerName = p → 0 < e.waitMs → Delayed config e w.evals) :
    ∀ e past, e :: past <:+ w'.evals → e.providerName = p → 0 < e.waitMs →
      Delayed config e past := by
  intro e' past hpast hname hwait
  rw [hevals, List.suffix_cons_iff] at hpast
  obtain heq | hpast := hpast
  · obtain ⟨rfl, rfl⟩ := List.cons.inj heq
    exact hdelayed hname hwait
  · exact h.delayed e' past hpast hname hwait

theorem Lifetimes.keep (h : Lifetimes config p w)
    (hredis : w'.redis (counterKey p) = w.redis (counterKey p))
    (hreturned : returnedCalls p w'.evals = returnedCalls p w.evals)
    (htimely : Timely config p w'.evals → Timely config p w.evals) (hclock : w.clock ≤ w'.clock)
    (hdelayed : ∀ e past, e :: past <:+ w'.evals → e.providerName = p → 0 < e.waitMs →
      Delayed config e past) : Lifetimes config p w' := by
  refine ⟨hreturned ▸ hredis ▸ h.unused, fun n instant hstored => ?_,
    hreturned ▸ fun ht => h.windows (htimely ht), hreturned ▸ fun ht => h.bounded (htimely ht),
    hdelayed⟩
  have hcurrent := h.current n instant (hredis ▸ hstored)
  refine ⟨?_, hreturned ▸ hcurrent.latest, hreturned ▸ hcurrent.opened,
    hreturned ▸ hcurrent.least, hreturned ▸ fun ht => hcurrent.most (htimely ht)⟩
  have hstarted := hcurrent.started
  omega

theorem Lifetimes.ended (h : Lifetimes config p w) (hcounted : Counted config w)
    (hlive : w.redis.live w.clock (counterKey p) = none) :
    ∀ e ∈ returnedCalls p w.evals, lifetimeStart e + windowMs < w.clock := by
  intro e he
  cases hstored : w.redis (counterKey p) with
  | none =>
      rw [h.unused hstored] at he
      exact absurd he List.not_mem_nil
  | some counter =>
      obtain ⟨_, instant, hexpires⟩ := hcounted.timed _ _ hstored
      obtain ⟨n, expiresAt⟩ := counter
      obtain rfl : expiresAt = some instant := hexpires
      have hover : instant < w.clock := by
        rw [Redis.live, hstored] at hlive
        simpa using hlive
      have hlatest := (h.current n instant hstored).latest e he
      have hpos := windowMs_pos
      omega

theorem Lifetimes.ofLifetime_clock (h : Lifetimes config p w) (hcounted : Counted config w)
    (hlive : w.redis.live w.clock (counterKey p) = none) :
    ofLifetime w.clock (returnedCalls p w.evals) = 0 := by
  refine List.countP_eq_zero.mpr fun e he hstart => ?_
  have hended := h.ended hcounted hlive e he
  rw [of_decide_eq_true hstart, windowMs] at hended
  omega

variable {e : Eval} {n : Nat} {instant : Int}

theorem Lifetimes.returned (h : Lifetimes config p w) (hname : e.providerName = p)
    (hwait : e.waitMs ≤ 0) (hevals : w'.evals = e :: w.evals)
    (hredis : w'.redis (counterKey p) = some ⟨n, some instant⟩)
    (hstart : lifetimeStart e = instant - windowMs)
    (hnow : instant - windowMs ≤ e.now ∧ e.now ≤ instant) (hclock : instant ≤ w'.clock + windowMs)
    (hlatest : ∀ e ∈ returnedCalls p w.evals,
      lifetimeStart e = instant - windowMs ∨ lifetimeStart e + windowMs < instant - windowMs)
    (hopened : 1 ≤ config.limitFor p → e.now = instant - windowMs ∨
      ∃ o ∈ returnedCalls p w.evals, lifetimeStart o = instant - windowMs ∧
        o.now = instant - windowMs)
    (hleast : min n (config.limitFor p) ≤
      ofLifetime (instant - windowMs) (returnedCalls p w.evals) + 1)
    (hmost : Timely config p w'.evals → n ≤ config.limitFor p ∧
      ofLifetime (instant - windowMs) (returnedCalls p w.evals) + 1 ≤ n) :
    Lifetimes config p w' := by
  have hreturned : returnedCalls p w'.evals = e :: returnedCalls p w.evals := by
    rw [hevals, returnedCalls_of_returned hname hwait]
  have hcount : ofLifetime (instant - windowMs) (returnedCalls p w'.evals) =
      ofLifetime (instant - windowMs) (returnedCalls p w.evals) + 1 := by
    rw [hreturned, ofLifetime_cons, if_pos hstart]
  have htimely : Timely config p w'.evals → Timely config p w.evals := by
    rw [hevals, timely_cons]
    exact And.right
  refine ⟨by simp [hredis], fun n' instant' hstored => ?_, fun ht => ?_, fun ht start => ?_,
    h.delayed_cons hevals fun _ hpositive => absurd hpositive (Int.not_lt.mpr hwait)⟩
  · obtain ⟨rfl, rfl⟩ : n = n' ∧ instant = instant' := by simpa [hredis] using hstored
    refine ⟨hclock, ?_, fun hlimit => ?_, hcount ▸ hleast, fun ht => ?_⟩
    · rw [hreturned]
      exact List.forall_mem_cons.mpr ⟨Or.inl hstart, hlatest⟩
    · rw [hreturned]
      obtain hfirst | ⟨o, ho, hopens⟩ := hopened hlimit
      · exact ⟨e, List.mem_cons_self, hstart, hfirst⟩
      · exact ⟨o, List.mem_cons_of_mem _ ho, hopens⟩
    · rw [hcount, min_eq_left (hmost ht).1]
      exact (hmost ht).2
  · have hlimit : 1 ≤ config.limitFor p := by
      have hmost := hmost ht
      omega
    rw [hreturned]
    refine (h.windows (htimely ht)).cons ?_ ?_ ?_
    · rw [hstart]
      omega
    · rw [hstart]
      exact hopened hlimit
    · rw [hstart]
      exact hlatest
  · by_cases heq : start = instant - windowMs
    · rw [heq, hcount]
      exact (hmost ht).2.trans (hmost ht).1
    · rw [hreturned, ofLifetime_cons, hstart, if_neg (Ne.symm heq)]
      exact h.bounded (htimely ht) start

theorem Lifetimes.delays (h : Lifetimes config p w) (hname : e.providerName = p)
    (hwait : 0 < e.waitMs) (hevals : w'.evals = e :: w.evals)
    (hredis : w'.redis (counterKey p) = some ⟨n, some instant⟩)
    (hcurrent : Current config p w'.clock w.evals n instant) (hlimit : config.limitFor p ≤ n)
    (hstart : lifetimeStart e = instant - windowMs) (hnow : instant - windowMs ≤ e.now)
    (hends : e.now + e.waitMs = instant) : Lifetimes config p w' := by
  have hreturned : returnedCalls p w'.evals = returnedCalls p w.evals := by
    rw [hevals, returnedCalls_of_delayed hwait]
  have htimely : Timely config p w'.evals → Timely config p w.evals := by
    rw [hevals, timely_cons]
    exact And.right
  refine ⟨by simp [hredis], fun n' instant' hstored => ?_, fun ht => ?_, fun ht => ?_,
    h.delayed_cons hevals fun _ _ => ?_⟩
  · obtain ⟨rfl, rfl⟩ : n = n' ∧ instant = instant' := by simpa [hredis] using hstored
    refine ⟨hcurrent.started, ?_, ?_, ?_, fun ht => ?_⟩
    · exact hreturned ▸ hcurrent.latest
    · exact hreturned ▸ hcurrent.opened
    · exact hreturned ▸ hcurrent.least
    · exact hreturned ▸ hcurrent.most (htimely ht)
  · exact hreturned ▸ h.windows (htimely ht)
  · exact hreturned ▸ h.bounded (htimely ht)
  · subst hname
    refine ⟨?_, ?_, ?_, ?_⟩
    · rw [hstart]
      exact (min_eq_right hlimit).symm.le.trans hcurrent.least
    · rw [hstart]
      exact fun ht => (hcurrent.most ht).trans (Nat.min_le_right _ _)
    · rw [hstart]
      exact hnow
    · rw [hstart]
      omega

theorem Lifetimes.new (h : Lifetimes config p w) (hcounted : Counted config w)
    (hlive : w.redis.live w.clock (counterKey p) = none)
    (hredis : w'.redis = redisAfter config w p) (hevals : w'.evals = evalOf config w p :: w.evals)
    (hclock : w.clock ≤ w'.clock) : Lifetimes config p w' := by
  obtain ⟨hafter, heval⟩ := slot_new config hlive
  have hended := h.ended hcounted hlive
  have hzero := h.ofLifetime_clock hcounted hlive
  have hpos := windowMs_pos
  have hstored : w'.redis (counterKey p) = some ⟨1, some (w.clock + windowMs)⟩ := by
    rw [hredis, hafter, Redis.set_self]
  have hstart : w.clock + windowMs - windowMs = w.clock := by omega
  rw [heval] at hevals
  by_cases hlimit : 1 ≤ config.limitFor p
  · rw [if_pos hlimit] at hevals
    refine h.returned rfl (Int.le_refl 0) hevals hstored hstart.symm ?_ ?_ ?_ ?_ ?_ fun _ => ?_
    · simp only
      omega
    · omega
    · rw [hstart]
      exact fun e he => Or.inr (hended e he)
    · rw [hstart]
      exact fun _ => Or.inl rfl
    · omega
    · rw [hstart, hzero]
      exact ⟨hlimit, le_refl 1⟩
  · rw [if_neg hlimit] at hevals
    refine h.delays rfl windowMs_pos hevals hstored ?_ ?_ hstart.symm
      (Int.le_of_eq hstart) rfl
    · refine ⟨?_, ?_, fun hpositive => absurd hpositive hlimit, ?_, fun _ => ?_⟩
      · omega
      · rw [hstart]
        exact fun e he => Or.inr (hended e he)
      · omega
      · rw [hstart, hzero]
        exact Nat.zero_le _
    · omega

theorem Lifetimes.further (h : Lifetimes config p w) {n : Nat} {instant : Int} (hn : 1 ≤ n)
    (hnow : w.clock ≤ instant) (hbefore : w.redis (counterKey p) = some ⟨n, some instant⟩)
    (hlive : w.redis.live w.clock (counterKey p) = some ⟨n, some instant⟩)
    (hredis : w'.redis = redisAfter config w p) (hevals : w'.evals = evalOf config w p :: w.evals)
    (hclock : w.clock ≤ w'.clock) : Lifetimes config p w' := by
  obtain ⟨hafter, heval⟩ := slot_counted config hn hlive
  have hcurrent := h.current n instant hbefore
  have hstarted := hcurrent.started
  have hleast := hcurrent.least
  have hstored : w'.redis (counterKey p) = some ⟨n + 1, some instant⟩ := by
    rw [hredis, hafter, Redis.set_self]
  rw [heval] at hevals
  by_cases hwait : (if n + 1 ≤ config.limitFor p then 0 else instant - w.clock) ≤ 0
  · refine h.returned rfl hwait hevals hstored rfl ⟨?_, hnow⟩ ?_ hcurrent.latest
      (fun hlimit => Or.inr (hcurrent.opened hlimit)) ?_ fun ht => ?_
    · simp only
      omega
    · omega
    · omega
    · rw [hevals, timely_cons] at ht
      have hexpiry := ht.1 rfl
      have hmost := hcurrent.most ht.2
      simp only [atExpiry, Option.any_some, Bool.and_eq_false_iff, decide_eq_false_iff_not,
        Option.some.injEq] at hexpiry
      split at hwait <;> omega
  · split at hwait
    · omega
    · rename_i hlimit
      rw [if_neg hlimit] at hevals
      refine h.delays rfl (Int.not_le.mp hwait) hevals hstored ?_ (by omega) rfl ?_ ?_
      · refine ⟨by omega, hcurrent.latest, hcurrent.opened, by omega, fun ht => ?_⟩
        have hmost := hcurrent.most ht
        omega
      · simp only
        omega
      · simp only
        omega

theorem clock_of_step {l : Label} (h : step config w l = some w') : w.clock ≤ w'.clock := by
  cases l with
  | tick ms =>
      obtain rfl := Option.some.inj h
      exact Int.le_add_of_nonneg_right (Int.natCast_nonneg ms)
  | acquire q =>
      obtain rfl := Option.some.inj h
      exact Int.le_refl _
  | eval i | wake i =>
      simp only [step] at h
      split at h
      · obtain rfl := Option.some.inj h
        exact Int.le_refl _
      · cases h

theorem Lifetimes.step (h : Lifetimes config p w) (hcounted : Counted config w) {l : Label}
    (hstep : step config w l = some w') : Lifetimes config p w' := by
  have hclock := clock_of_step hstep
  obtain ⟨q, hredis, hevals⟩ | ⟨hredis, hevals⟩ := redis_of_step hstep
  · by_cases hq : q = p
    · subst hq
      obtain hlive | ⟨n, instant, hn, hnow, hbefore, hlive⟩ := live_cases hcounted q
      · exact h.new hcounted hlive hredis hevals hclock
      · exact h.further hn hnow hbefore hlive hredis hevals hclock
    · obtain ⟨n, instant, hafter⟩ := redisAfter_eq hcounted q
      have hkey : counterKey p ≠ counterKey q := fun heq => hq (counterKey_injective heq).symm
      refine h.keep ?_ ?_ ?_ hclock (h.delayed_cons hevals fun heq => absurd heq hq)
      · rw [hredis, hafter, Redis.set_other _ hkey]
      · rw [hevals, returnedCalls_of_ne hq]
      · rw [hevals, timely_cons]
        exact And.right
  · exact h.keep (by rw [hredis]) (by rw [hevals]) (by rw [hevals]; exact id) hclock
      (hevals ▸ h.delayed)

end Steps

theorem lifetimes_of_reaches {config : Config} {w : World} (h : Reaches config w) (p : String) :
    Lifetimes config p w := by
  induction h with
  | start hinit =>
      obtain ⟨clock, rfl⟩ := hinit
      exact Lifetimes.init clock
  | next l hreach _ hstep ih => exact ih.step (counted_of_reaches hreach) hstep

/-- Any second: as long as the script never runs at the expiry of a used up counter, the
calls for a provider that return in one second are fewer than twice its limit. -/
theorem any_second {config : Config} {w : World} (h : Reaches config w) {providerName : String}
    (htimely : Timely config providerName w.evals) (first : Int) :
    ((returnedCalls providerName w.evals).countP fun e =>
        first ≤ e.now && e.now ≤ first + windowMs) ≤
      2 * config.limitFor providerName - 1 :=
  ((lifetimes_of_reaches h providerName).windows htimely).countP_le
    ((lifetimes_of_reaches h providerName).bounded htimely) first

instance Timely.decidable (config : Config) (providerName : String) (evals : List Eval) :
    Decidable (Timely config providerName evals) :=
  inferInstanceAs (Decidable (∀ e ∈ evals, _))

/-- Two calls a second for every provider. -/
def twoASecond : Config :=
  ⟨fun _ => some 2, none⟩

/-- Where the steps lead, if they can be taken. -/
def after (config : Config) (labels : List Label) : World :=
  (exec (step config) (fun _ _ => True) (initial 0) labels).getD (initial 0)

theorem reaches_after (config : Config) (labels : List Label) :
    Reaches config (after config labels) := by
  have hinit : Reaches config (initial 0) := Reachable.start ⟨0, rfl⟩
  rw [after]
  cases hexec : exec (step config) (fun _ _ => True) (initial 0) labels with
  | none => exact hinit
  | some w => exact reachable_of_exec hinit hexec

/-- Two calls return, and the third one is delayed by half a second. -/
def usedUp : List Label :=
  [.acquire "twilio", .eval 0, .tick 500, .acquire "twilio", .eval 1, .acquire "twilio", .eval 2]

/-- The delayed call and another one return from the next counter. -/
def nextCounter : List Label :=
  usedUp ++ [.tick 501, .wake 2, .eval 2, .acquire "twilio", .eval 3]

theorem any_second_attained :
    let returned := returnedCalls "twilio" (after twoASecond nextCounter).evals
    returned.countP (fun e => 500 ≤ e.now && e.now ≤ 500 + windowMs) = 3 ∧
      returned.countP (fun e => 500 ≤ e.now && e.now ≤ 500 + windowMs) ≤ 2 * 2 - 1 :=
  have hreaches : Reaches twoASecond (after twoASecond nextCounter) :=
    reaches_after twoASecond nextCounter
  ⟨by decide +kernel, any_second hreaches (by decide +kernel) 500⟩

/-- Delays: a call is delayed only by a counter in whose lifetime the whole limit has
returned, no more than it where the script never ran at the expiry of a used up counter,
and the delay ends with that lifetime, a second at most from now. -/
theorem delayed_at_limit {config : Config} {w : World} (h : Reaches config w) {e : Eval}
    {past : List Eval} (hpast : e :: past <:+ w.evals) (hwait : 0 < e.waitMs) :
    let returned := (returnedCalls e.providerName past).countP fun e' =>
      lifetimeStart e' = lifetimeStart e
    config.limitFor e.providerName ≤ returned ∧
      (Timely config e.providerName past → returned = config.limitFor e.providerName) ∧
      e.now + e.waitMs = lifetimeStart e + windowMs ∧ e.waitMs ≤ windowMs := by
  intro returned
  have hdelayed := (lifetimes_of_reaches h e.providerName).delayed e past hpast rfl hwait
  have hstarted := hdelayed.started
  have hends := hdelayed.ends
  exact ⟨hdelayed.least, fun ht => le_antisymm (hdelayed.most ht) hdelayed.least, hends, by omega⟩

theorem delayed_at_limit_twice :
    ∃ e past, e :: past = (after twoASecond usedUp).evals ∧ e.waitMs = 500 ∧
      e.now + 500 = lifetimeStart e + windowMs ∧
      ((returnedCalls e.providerName past).countP fun e' =>
        lifetimeStart e' = lifetimeStart e) = 2 := by
  have hhead : ∃ hne, ((after twoASecond usedUp).evals.head hne).waitMs = 500 ∧
      Timely twoASecond ((after twoASecond usedUp).evals.head hne).providerName
        (after twoASecond usedUp).evals.tail := by
    decide +kernel
  obtain ⟨hne, hwait, htimely⟩ := hhead
  have hevals := List.cons_head_tail hne
  have hpast : (after twoASecond usedUp).evals.head hne :: (after twoASecond usedUp).evals.tail <:+
      (after twoASecond usedUp).evals := by
    rw [hevals]
  have hdelayed := delayed_at_limit (reaches_after twoASecond usedUp) hpast (by omega)
  exact ⟨_, _, hevals, hwait, hwait ▸ hdelayed.2.2.1, hdelayed.2.1 htimely⟩

end SmsNotification.RateLimitWindows

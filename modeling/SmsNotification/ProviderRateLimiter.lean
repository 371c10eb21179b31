import Mathlib.Data.List.Infix
import SmsNotification.LabelledRuns

namespace SmsNotification.ProviderRateLimiter

open SmsNotification.LabelledRuns

/-- A counter with the instant of its expiry, if one is set. -/
structure Counter where
  count : Nat
  expiresAt : Option Int
  deriving DecidableEq, Repr

abbrev Redis := String → Option Counter

/-- The counter under a key. It counts as expired only once its instant has passed. -/
def Redis.live (redis : Redis) (now : Int) (key : String) : Option Counter :=
  (redis key).filter fun counter => counter.expiresAt.all fun instant => now ≤ instant

def Redis.set (redis : Redis) (key : String) (counter : Counter) : Redis :=
  fun other => if other = key then some counter else redis other

/-- `INCR`. -/
def Redis.incr (redis : Redis) (now : Int) (key : String) : Redis × Nat :=
  let counter := match redis.live now key with
    | some counter => { counter with count := counter.count + 1 }
    | none => ⟨1, none⟩
  (redis.set key counter, counter.count)

/-- `PEXPIRE`. -/
def Redis.pexpire (redis : Redis) (now : Int) (key : String) (ms : Int) : Redis :=
  match redis.live now key with
  | some counter => redis.set key { counter with expiresAt := some (now + ms) }
  | none => redis

/-- `PTTL`. -/
def Redis.pttl (redis : Redis) (now : Int) (key : String) : Int :=
  match redis.live now key with
  | none => -2
  | some ⟨_, none⟩ => -1
  | some ⟨_, some instant⟩ => max (instant - now) 0

def windowMs : Int :=
  1000

/-- The script, which runs at one instant: a call within the limit is answered by zero,
and any other one by the time that the counter has left. -/
def acquireWindowSlot (redis : Redis) (now : Int) (key : String) (limit : Nat) (ms : Int) :
    Redis × Int :=
  let (redis, count) := redis.incr now key
  let redis := if count = 1 then redis.pexpire now key ms else redis
  if count ≤ limit then (redis, 0) else (redis, redis.pttl now key)

/-- The settings `SMS_PROVIDER_TPS_*`, by the name of the provider in upper case, and
`SMS_PROVIDER_TPS`. -/
structure Config where
  specificLimit : String → Option Nat
  limit : Option Nat

def Config.limitFor (config : Config) (providerName : String) : Nat :=
  (config.specificLimit providerName.toUpper).getD (config.limit.getD 10)

def counterKey (providerName : String) : String :=
  "sms:provider-tps:" ++ providerName

/-- A call of `acquire`. -/
inductive Acquire where
  | evaluating (providerName : String)
  | delaying (providerName : String) (waitMs : Int)
  | returned (providerName : String)

/-- The loop after an answer of the script. -/
def afterEval (providerName : String) (waitMs : Int) : Acquire :=
  if waitMs ≤ 0 then .returned providerName else .delaying providerName waitMs

/-- One run of the script: when, the counter that it has found and its answer. -/
structure Eval where
  providerName : String
  now : Int
  found : Option Counter
  waitMs : Int

/-- The calls on one Redis; `evals` logs the runs of the script, the latest first. -/
structure World where
  redis : Redis
  clock : Int
  calls : List Acquire
  evals : List Eval

inductive Label where
  | tick (ms : Nat)
  | acquire (providerName : String)
  | eval (i : Nat)
  | wake (i : Nat)

/-- One step of the calls. A timer may end a delay at any time. -/
def step (config : Config) (w : World) : Label → Option World
  | .tick ms => some { w with clock := w.clock + ms }
  | .acquire providerName => some { w with calls := w.calls ++ [.evaluating providerName] }
  | .eval i =>
      match w.calls[i]? with
      | some (.evaluating providerName) =>
          let key := counterKey providerName
          let (redis, waitMs) :=
            acquireWindowSlot w.redis w.clock key (config.limitFor providerName) windowMs
          some { w with
            redis := redis
            calls := w.calls.set i (afterEval providerName waitMs)
            evals := ⟨providerName, w.clock, w.redis.live w.clock key, waitMs⟩ :: w.evals }
      | _ => none
  | .wake i =>
      match w.calls[i]? with
      | some (.delaying providerName _) =>
          some { w with calls := w.calls.set i (.evaluating providerName) }
      | _ => none

/-- No call has run and there is no counter. -/
def initial (clock : Int) : World :=
  ⟨fun _ => none, clock, [], []⟩

/-- The worlds that the calls get to. -/
def Reaches (config : Config) : World → Prop :=
  Reachable (fun w l w' => step config w l = some w') (fun _ _ => True) fun w =>
    ∃ clock, w = initial clock

/-- The calls for the provider that have returned since the run of the script that made
its counter. -/
def grantedInLifetime (providerName : String) : List Eval → Nat
  | [] => 0
  | e :: past =>
      if e.providerName = providerName then
        (if e.found.isSome then grantedInLifetime providerName past else 0) +
          if e.waitMs ≤ 0 then 1 else 0
      else grantedInLifetime providerName past

/-- A run of the script at the very instant at which the counter expires, with the limit
used up. -/
def atExpiry (limit : Nat) (e : Eval) : Bool :=
  e.found.any fun counter => limit ≤ counter.count && counter.expiresAt = some e.now

section Script

variable {redis : Redis} {now : Int} {key : String} {limit : Nat} {ms : Int}

@[simp] theorem Redis.set_self (counter : Counter) : redis.set key counter key = some counter :=
  if_pos rfl

theorem Redis.set_set (counter counter' : Counter) :
    (redis.set key counter).set key counter' = redis.set key counter' := by
  funext other
  simp only [Redis.set]
  split <;> rfl

theorem Redis.set_other (counter : Counter) {other : String} (h : other ≠ key) :
    redis.set key counter other = redis other :=
  if_neg h

theorem Redis.live_eq_some {counter : Counter} (h : redis.live now key = some counter) :
    redis key = some counter ∧ ∀ instant, counter.expiresAt = some instant → now ≤ instant := by
  obtain ⟨hstored, hinstant⟩ := Option.filter_eq_some_iff.mp h
  refine ⟨hstored, fun instant hexpires => ?_⟩
  rw [hexpires] at hinstant
  simpa using hinstant

theorem Redis.live_set {counter : Counter}
    (h : ∀ instant, counter.expiresAt = some instant → now ≤ instant) :
    (redis.set key counter).live now key = some counter := by
  rw [Redis.live, Redis.set_self, Option.filter_eq_some_iff]
  refine ⟨rfl, ?_⟩
  cases hexpires : counter.expiresAt with
  | none => rfl
  | some instant => simpa using h instant hexpires

theorem acquireWindowSlot_new (limit : Nat) (hms : 0 ≤ ms) (h : redis.live now key = none) :
    acquireWindowSlot redis now key limit ms =
      (redis.set key ⟨1, some (now + ms)⟩, if 1 ≤ limit then 0 else ms) := by
  have hmade : (redis.set key ⟨1, none⟩).live now key = some ⟨1, none⟩ :=
    Redis.live_set fun _ hexpires => by simp at hexpires
  have hgiven : (redis.set key ⟨1, some (now + ms)⟩).live now key = some ⟨1, some (now + ms)⟩ :=
    Redis.live_set fun _ hexpires => by
      obtain rfl := Option.some.inj hexpires
      omega
  simp only [acquireWindowSlot, Redis.incr, h, Redis.pexpire, hmade, if_true, Redis.set_set,
    Redis.pttl, hgiven]
  split
  · rfl
  · rw [show max (now + ms - now) 0 = ms by omega]

theorem acquireWindowSlot_counted (limit : Nat) (ms : Int) {n : Nat} {instant : Int} (hn : 1 ≤ n)
    (h : redis.live now key = some ⟨n, some instant⟩) :
    acquireWindowSlot redis now key limit ms =
      (redis.set key ⟨n + 1, some instant⟩,
        if n + 1 ≤ limit then 0 else instant - now) := by
  have hnow : now ≤ instant := (Redis.live_eq_some h).2 instant rfl
  have hcounted : (redis.set key ⟨n + 1, some instant⟩).live now key =
      some ⟨n + 1, some instant⟩ :=
    Redis.live_set fun _ hexpires => Option.some.inj hexpires ▸ hnow
  have hfirst : n + 1 ≠ 1 := by omega
  simp only [acquireWindowSlot, Redis.incr, h, hfirst, if_false, Redis.pttl, hcounted]
  split
  · rfl
  · rw [show max (instant - now) 0 = instant - now by omega]

end Script

theorem counterKey_injective {p q : String} (h : counterKey p = counterKey q) : p = q :=
  String.append_right_inj _ |>.mp h

/-- The calls that the stored counter of the provider has counted. -/
def counted (redis : Redis) (providerName : String) : Nat :=
  (redis (counterKey providerName)).elim 0 Counter.count

/-- No run of the script for the provider was at the expiry of a used up counter. -/
def Timely (config : Config) (providerName : String) (evals : List Eval) : Prop :=
  ∀ e ∈ evals, e.providerName = providerName →
    atExpiry (config.limitFor providerName) e = false

/-- At no time has one lifetime of the counter seen more calls return than the limit. -/
def Limited (config : Config) (providerName : String) (evals : List Eval) : Prop :=
  ∀ past, past <:+ evals → grantedInLifetime providerName past ≤ config.limitFor providerName

/-- The invariant of the limiter: what its counters have counted is what has been
granted, up to the limit. -/
structure Counted (config : Config) (w : World) : Prop where
  timed : ∀ key counter, w.redis key = some counter → 1 ≤ counter.count ∧
    ∃ instant, counter.expiresAt = some instant
  granted : ∀ p, Timely config p w.evals →
    grantedInLifetime p w.evals = min (counted w.redis p) (config.limitFor p)
  limited : ∀ p, Limited config p w.evals ↔ Timely config p w.evals

section Runs

variable {config : Config} {w w' : World} {l : Label} {providerName : String}

/-- The run of the script for a provider as it is logged. -/
def evalOf (config : Config) (w : World) (providerName : String) : Eval :=
  ⟨providerName, w.clock, w.redis.live w.clock (counterKey providerName),
    (acquireWindowSlot w.redis w.clock (counterKey providerName) (config.limitFor providerName)
      windowMs).2⟩

/-- The counters after the run of the script for a provider. -/
def redisAfter (config : Config) (w : World) (providerName : String) : Redis :=
  (acquireWindowSlot w.redis w.clock (counterKey providerName) (config.limitFor providerName)
    windowMs).1

theorem slot_new (config : Config)
    (hlive : w.redis.live w.clock (counterKey providerName) = none) :
    redisAfter config w providerName =
      w.redis.set (counterKey providerName) ⟨1, some (w.clock + windowMs)⟩ ∧
    evalOf config w providerName = ⟨providerName, w.clock, none,
      if 1 ≤ config.limitFor providerName then 0 else windowMs⟩ := by
  have hslot := acquireWindowSlot_new (config.limitFor providerName)
    (show (0 : Int) ≤ windowMs by decide) hlive
  rw [redisAfter, evalOf, hslot, hlive]
  exact ⟨rfl, rfl⟩

theorem slot_counted (config : Config) {n : Nat} {instant : Int} (hn : 1 ≤ n)
    (hlive : w.redis.live w.clock (counterKey providerName) = some ⟨n, some instant⟩) :
    redisAfter config w providerName =
      w.redis.set (counterKey providerName) ⟨n + 1, some instant⟩ ∧
    evalOf config w providerName = ⟨providerName, w.clock, some ⟨n, some instant⟩,
      if n + 1 ≤ config.limitFor providerName then 0 else instant - w.clock⟩ := by
  have hslot := acquireWindowSlot_counted (config.limitFor providerName) windowMs hn hlive
  rw [redisAfter, evalOf, hslot, hlive]
  exact ⟨rfl, rfl⟩

theorem live_cases (hw : Counted config w) (providerName : String) :
    w.redis.live w.clock (counterKey providerName) = none ∨
      ∃ n instant, 1 ≤ n ∧ w.clock ≤ instant ∧
        w.redis (counterKey providerName) = some ⟨n, some instant⟩ ∧
        w.redis.live w.clock (counterKey providerName) = some ⟨n, some instant⟩ := by
  cases hlive : w.redis.live w.clock (counterKey providerName) with
  | none => exact Or.inl rfl
  | some counter =>
      obtain ⟨hstored, hnow⟩ := Redis.live_eq_some hlive
      obtain ⟨hn, instant, hinstant⟩ := hw.timed _ _ hstored
      obtain ⟨n, _⟩ := counter
      subst hinstant
      exact Or.inr ⟨n, instant, hn, hnow instant rfl, hstored, rfl⟩

theorem redisAfter_eq (hw : Counted config w) (providerName : String) :
    ∃ n instant, redisAfter config w providerName =
      w.redis.set (counterKey providerName) ⟨n + 1, some instant⟩ := by
  obtain hlive | ⟨n, instant, hn, _, _, hlive⟩ := live_cases hw providerName
  · exact ⟨0, _, (slot_new config hlive).1⟩
  · exact ⟨n, instant, (slot_counted config hn hlive).1⟩

theorem timed_redisAfter (hw : Counted config w) : ∀ key counter,
    redisAfter config w providerName key = some counter →
      1 ≤ counter.count ∧ ∃ instant, counter.expiresAt = some instant := by
  intro key counter hcounter
  obtain ⟨n, instant, hafter⟩ := redisAfter_eq hw providerName
  rw [hafter] at hcounter
  by_cases hkey : key = counterKey providerName
  · rw [hkey, Redis.set_self] at hcounter
    obtain rfl := Option.some.inj hcounter
    exact ⟨Nat.le_add_left 1 n, instant, rfl⟩
  · rw [Redis.set_other _ hkey] at hcounter
    exact hw.timed key counter hcounter

theorem granted_evalOf (hw : Counted config w) (p : String) (htimely : Timely config p w.evals) :
    grantedInLifetime p (evalOf config w providerName :: w.evals) =
      min (counted (redisAfter config w providerName) p) (config.limitFor p) +
        if providerName = p ∧ atExpiry (config.limitFor p) (evalOf config w providerName)
        then 1 else 0 := by
  have hgranted := hw.granted p htimely
  by_cases hp : providerName = p
  · subst hp
    obtain hlive | ⟨n, instant, hn, hnow, hstored, hlive⟩ := live_cases hw providerName
    · obtain ⟨hafter, heval⟩ := slot_new config hlive
      simp only [hafter, heval, grantedInLifetime, counted, atExpiry, Redis.set_self,
        Option.elim_some, Option.isSome_none, Option.any_none, if_true, Bool.false_eq_true,
        if_false, and_false, windowMs]
      split <;> split <;> omega
    · obtain ⟨hafter, heval⟩ := slot_counted config hn hlive
      rw [counted, hstored, Option.elim_some] at hgranted
      simp only [hafter, heval, grantedInLifetime, counted, atExpiry, Redis.set_self,
        Option.elim_some, Option.isSome_some, Option.any_some, if_true, hgranted,
        Bool.and_eq_true, decide_eq_true_eq, Option.some.injEq, true_and]
      split <;> split <;> split <;> omega
  · obtain ⟨n, instant, hafter⟩ := redisAfter_eq hw providerName
    have hkey : counterKey p ≠ counterKey providerName :=
      fun heq => hp (counterKey_injective heq).symm
    have hsame : counted (redisAfter config w providerName) p = counted w.redis p := by
      rw [counted, hafter, Redis.set_other _ hkey, counted]
    simp [grantedInLifetime, evalOf, hp, hsame, hgranted]

theorem timely_cons {p : String} {e : Eval} {past : List Eval} :
    Timely config p (e :: past) ↔
      (e.providerName = p → atExpiry (config.limitFor p) e = false) ∧ Timely config p past :=
  List.forall_mem_cons

theorem limited_cons {p : String} {e : Eval} {past : List Eval} :
    Limited config p (e :: past) ↔
      grantedInLifetime p (e :: past) ≤ config.limitFor p ∧ Limited config p past := by
  simp only [Limited, List.suffix_cons_iff, or_imp, forall_and, forall_eq]

theorem limit_le_counted (hw : Counted config w)
    (hexpiry : atExpiry (config.limitFor providerName) (evalOf config w providerName) = true) :
    config.limitFor providerName ≤ counted (redisAfter config w providerName) providerName := by
  obtain hlive | ⟨n, instant, hn, _, _, hlive⟩ := live_cases hw providerName
  · simp [atExpiry, (slot_new config hlive).2] at hexpiry
  · obtain ⟨hafter, heval⟩ := slot_counted config hn hlive
    simp only [heval, atExpiry, Option.any_some, Bool.and_eq_true, decide_eq_true_eq] at hexpiry
    rw [counted, hafter, Redis.set_self, Option.elim_some]
    exact Nat.le_succ_of_le hexpiry.1

theorem Counted.eval (hw : Counted config w) (hredis : w'.redis = redisAfter config w providerName)
    (hevals : w'.evals = evalOf config w providerName :: w.evals) : Counted config w' where
  timed := hredis ▸ timed_redisAfter hw
  granted p htimely := by
    rw [hevals, timely_cons] at htimely
    have hnot : ¬(providerName = p ∧
        atExpiry (config.limitFor p) (evalOf config w providerName)) :=
      fun h => by simp [htimely.1 h.1] at h
    rw [hevals, hredis, granted_evalOf hw p htimely.2, if_neg hnot, Nat.add_zero]
  limited p := by
    rw [hevals, limited_cons, timely_cons, hw.limited p, and_congr_left_iff]
    intro htimely
    rw [granted_evalOf hw p htimely]
    by_cases hexpiry : providerName = p ∧
        atExpiry (config.limitFor p) (evalOf config w providerName)
    · obtain ⟨rfl, hexpiry⟩ := hexpiry
      have hbeyond := limit_le_counted hw hexpiry
      rw [if_pos ⟨rfl, hexpiry⟩, min_eq_right hbeyond]
      exact ⟨fun h => absurd h (Nat.not_succ_le_self _),
        fun h => absurd (h rfl) (by simp [hexpiry])⟩
    · rw [if_neg hexpiry, Nat.add_zero]
      refine ⟨fun _ hp => ?_, fun _ => Nat.min_le_right _ _⟩
      simpa [show providerName = p from hp] using hexpiry

theorem Counted.init (clock : Int) : Counted config (initial clock) where
  timed _ _ h := by cases h
  granted _ _ := (Nat.zero_min _).symm
  limited _ := ⟨fun _ _ he => (List.not_mem_nil he).elim, fun _ past hpast => by
    rw [List.suffix_nil.mp hpast]
    exact Nat.zero_le _⟩

theorem redis_of_step (h : step config w l = some w') :
    (∃ p, w'.redis = redisAfter config w p ∧ w'.evals = evalOf config w p :: w.evals) ∨
      w'.redis = w.redis ∧ w'.evals = w.evals := by
  cases l with
  | tick ms => exact Or.inr (by obtain rfl := Option.some.inj h; exact ⟨rfl, rfl⟩)
  | acquire p => exact Or.inr (by obtain rfl := Option.some.inj h; exact ⟨rfl, rfl⟩)
  | eval i =>
      simp only [step] at h
      split at h
      · exact Or.inl ⟨_, by obtain rfl := Option.some.inj h; exact ⟨rfl, rfl⟩⟩
      · cases h
  | wake i =>
      simp only [step] at h
      split at h
      · exact Or.inr (by obtain rfl := Option.some.inj h; exact ⟨rfl, rfl⟩)
      · cases h

theorem Counted.step (hw : Counted config w) (h : step config w l = some w') :
    Counted config w' := by
  obtain ⟨p, hredis, hevals⟩ | ⟨hredis, hevals⟩ := redis_of_step h
  · exact hw.eval hredis hevals
  · exact ⟨hredis ▸ hw.timed, hredis ▸ hevals ▸ hw.granted, hevals ▸ hw.limited⟩

end Runs

theorem counted_of_reaches {config : Config} {w : World} (h : Reaches config w) :
    Counted config w := by
  induction h with
  | start hinit =>
      obtain ⟨clock, rfl⟩ := hinit
      exact Counted.init clock
  | next l _ _ hstep ih => exact ih.step hstep

/-- The calls that return in one lifetime of the counter stay within the limit of the
provider exactly as long as the script never runs at the expiry of a used up counter. -/
theorem rate_limit {config : Config} {w : World} (h : Reaches config w) (providerName : String) :
    Limited config providerName w.evals ↔ Timely config providerName w.evals :=
  (counted_of_reaches h).limited providerName

/-- One call a second for every provider. -/
def oneASecond : Config :=
  ⟨fun _ => some 1, none⟩

/-- Two calls, the second of which runs the script some time after the first. -/
def twoCalls (elapsedMs : Nat) : World :=
  (exec (step oneASecond) (fun _ _ => True) (initial 0)
    [.acquire "twilio", .eval 0, .acquire "twilio", .tick elapsedMs, .eval 1]).getD (initial 0)

theorem reaches_twoCalls (elapsedMs : Nat) : Reaches oneASecond (twoCalls elapsedMs) := by
  have hexec : ∃ w, exec (step oneASecond) (fun _ _ => True) (initial 0)
      [.acquire "twilio", .eval 0, .acquire "twilio", .tick elapsedMs, .eval 1] = some w :=
    ⟨_, rfl⟩
  obtain ⟨w, hw⟩ := hexec
  rw [twoCalls, hw]
  exact reachable_of_exec (Reachable.start ⟨0, rfl⟩) hw

/-- One second after the first call the second one exceeds the limit, and a millisecond later
it does not. -/
theorem rate_limit_on_the_second :
    ¬Limited oneASecond "twilio" (twoCalls 1000).evals ∧
      Limited oneASecond "twilio" (twoCalls 1001).evals := by
  refine ⟨fun hlimited => ?_, (rate_limit (reaches_twoCalls 1001) "twilio").mpr ?_⟩
  · have htimely := (rate_limit (reaches_twoCalls 1000) "twilio").mp hlimited
    have hexpired : (twoCalls 1000).evals.any fun e =>
        e.providerName = "twilio" && atExpiry (oneASecond.limitFor "twilio") e := by
      decide +kernel
    obtain ⟨e, he, hatExpiry⟩ := List.any_eq_true.mp hexpired
    simp only [Bool.and_eq_true, decide_eq_true_eq] at hatExpiry
    simp [htimely e he hatExpiry.1] at hatExpiry
  · have hinTime : (twoCalls 1001).evals.all fun e =>
        !atExpiry (oneASecond.limitFor "twilio") e := by
      decide +kernel
    intro e he _
    simpa using List.all_eq_true.mp hinTime e he

/-- At the expiry of the counter the second call returns in the lifetime of the first. -/
theorem rate_limit_exceeded :
    ∃ w, Reaches oneASecond w ∧ 1 ≤ oneASecond.limitFor "twilio" ∧
      ¬Limited oneASecond "twilio" w.evals := by
  refine ⟨twoCalls 1000, reaches_twoCalls 1000, by decide +kernel, fun hlimited => ?_⟩
  have hgranted := hlimited (twoCalls 1000).evals List.suffix_rfl
  exact absurd hgranted (by decide +kernel)

end SmsNotification.ProviderRateLimiter

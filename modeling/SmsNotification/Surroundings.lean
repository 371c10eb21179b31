import SmsNotification.Schema

/-!
What the service talks to beside its database: the queues in Redis and the
providers. A job is there from its add to its end; adding a job whose id is on
the queue changes nothing, and a job that completes or fails is removed.
-/

namespace SmsNotification.Surroundings

open SmsNotification.QueueConstants
open SmsNotification.Schema

inductive JobState where
  | waiting
  | delayed
  | active
  deriving DecidableEq, Repr

structure QueuedJob where
  job : Job
  state : JobState
  addedAt : Int
  deriving DecidableEq

/-- The classes that consume the maintenance queue. -/
inductive MaintenanceProcessor where
  | retention
  | processingRecovery
  | ambiguousOutcomeExpiry
  deriving DecidableEq, Repr

/-- The service calls that a maintenance job can stand for. -/
inductive MaintenanceEffect where
  | purgeExpired
  | recoverStaleProcessing
  | expireAmbiguousOutcome (messageId : String)
  deriving DecidableEq, Repr

/-- A maintenance job that has completed, with the processor that ran it and the
service calls that have returned to it. -/
structure Completion where
  job : Job
  processor : MaintenanceProcessor
  performed : List MaintenanceEffect
  deriving DecidableEq

inductive CallState where
  | inFlight
  | refused
  | closed
  deriving DecidableEq, Repr

/-- One call of `sendSms`, for an attempt; its `referenceId` is the message's id. -/
structure SendCall where
  messageId : String
  recipientPhone : String
  body : String
  attemptId : String
  providerName : String
  state : CallState
  accepted : Bool
  deriving DecidableEq

/-- `added` and `completed` are logs: every add that the relay has been told is done
and every maintenance job that has completed. -/
structure Outside where
  clock : Int
  jobs : List QueuedJob
  added : List Job
  completed : List Completion
  calls : List SendCall

def Outside.empty : Outside :=
  ⟨0, [], [], [], []⟩

/-- Two jobs under one id of one queue. -/
def sameJob (job other : Job) : Bool :=
  job.queue = other.queue && job.jobId = other.jobId

theorem map_set_of_eq {α β : Type} {f : α → β} {xs : List α} {k : Nat} {x y : α}
    (hk : xs[k]? = some x) (h : f y = f x) : (xs.set k y).map f = xs.map f := by
  refine List.ext_getElem? fun j => ?_
  rw [List.getElem?_map, List.getElem?_map]
  by_cases hj : k = j
  · subst hj
    rw [List.getElem?_set_self (List.getElem?_eq_some_iff.mp hk).1, hk]
    exact congrArg some h
  · rw [List.getElem?_set_ne hj]

namespace Outside

variable (o : Outside)

def addJob (job : Job) : Outside :=
  let state : JobState := if job.delay.any fun ms => 0 < ms then .delayed else .waiting
  { o with
    jobs := if o.jobs.any fun queued => sameJob queued.job job then o.jobs
      else o.jobs ++ [⟨job, state, o.clock⟩] }

/-- The add of a job succeeds. -/
def acknowledgeJob (job : Job) : Outside :=
  { o.addJob job with added := o.added ++ [job] }

/-- A worker of the queue takes a waiting job. -/
def takeJob (queue : QueueName) (pick : Nat) : Option (Outside × Job) :=
  match o.jobs[pick]? with
  | some queued =>
      if queued.job.queue = queue && queued.state = .waiting then
        some ({ o with jobs := o.jobs.set pick { queued with state := .active } }, queued.job)
      else none
  | none => none

def removeJob (job : Job) : Outside :=
  { o with jobs := o.jobs.filter fun queued => !sameJob queued.job job }

/-- A delayed job whose time has come. -/
def promote (jobId : String) : Outside :=
  { o with
    jobs := o.jobs.map fun queued =>
      if queued.job.jobId = jobId && queued.state = .delayed &&
          (queued.job.delay.all fun ms => (queued.addedAt : ℚ) + ms ≤ o.clock) then
        { queued with state := .waiting }
      else queued }

def startCall (call : SendCall) : Outside :=
  { o with calls := o.calls ++ [call] }

/-- The answer of a provider says that it did not accept. -/
def isRefusal (result : SendSmsResult) : Bool :=
  !result.success && result.isAmbiguous ≠ some true

/-- A call ends, with a result or by throwing. A provider that has accepted does
not answer that it has not. -/
def answerCall (call : Nat) (reply : Option SendSmsResult) : Option Outside :=
  match o.calls[call]? with
  | some started =>
      if started.state ≠ .inFlight then none
      else if reply.any isRefusal then
        if started.accepted then none
        else some { o with calls := o.calls.set call { started with state := .refused } }
      else some { o with calls := o.calls.set call { started with state := .closed } }
  | none => none

/-- A provider accepts a call that it has not refused. -/
def acceptCall (call : Nat) : Option Outside :=
  match o.calls[call]? with
  | some started =>
      if started.state = .refused then none
      else some { o with calls := o.calls.set call { started with accepted := true } }
  | none => none

/-- The moves of the world outside. -/
def move (c : Choice) : Option Outside :=
  match c.move with
  | .accept call => o.acceptCall call
  | .promote jobId => some (o.promote jobId)
  | .tick ms => some { o with clock := o.clock + ms }
  | .schedule job => if job.queue = .smsMaintenance then some (o.addJob job) else none

variable {o} {o' : Outside}

theorem answerCall_eq_some {call : Nat} {reply : Option SendSmsResult}
    (h : o.answerCall call reply = some o') :
    ∃ started state, o.calls[call]? = some started ∧ started.state = .inFlight ∧
      o' = { o with calls := o.calls.set call { started with state := state } } ∧
      (if reply.any isRefusal then started.accepted = false ∧ state = .refused
        else state = .closed) := by
  unfold answerCall at h
  split at h
  · rename_i started hstarted
    by_cases hflight : started.state = .inFlight
    · simp only [hflight, ne_eq, not_true_eq_false, if_false] at h
      split at h
      · rename_i hrefusal
        split at h
        · simp at h
        · rename_i haccepted
          refine ⟨started, .refused, hstarted, hflight, (Option.some.inj h).symm, ?_⟩
          rw [if_pos hrefusal]
          exact ⟨by simpa using haccepted, rfl⟩
      · rename_i hrefusal
        refine ⟨started, .closed, hstarted, hflight, (Option.some.inj h).symm, ?_⟩
        rw [if_neg hrefusal]
    · simp [hflight] at h
  · simp at h

theorem acceptCall_eq_some {call : Nat} (h : o.acceptCall call = some o') :
    ∃ started, o.calls[call]? = some started ∧ started.state ≠ .refused ∧
      o' = { o with calls := o.calls.set call { started with accepted := true } } := by
  unfold acceptCall at h
  split at h
  · rename_i started hstarted
    split at h
    · simp at h
    · rename_i hrefused
      exact ⟨started, hstarted, hrefused, (Option.some.inj h).symm⟩
  · simp at h

theorem takeJob_eq_some {queue : QueueName} {pick : Nat} {job : Job}
    (h : o.takeJob queue pick = some (o', job)) :
    ∃ queued, o.jobs[pick]? = some queued ∧ queued.job = job ∧ job.queue = queue ∧
      queued.state = .waiting ∧
        o' = { o with jobs := o.jobs.set pick { queued with state := .active } } := by
  unfold takeJob at h
  split at h
  · rename_i queued hqueued
    split at h
    · rename_i hguard
      obtain ⟨rfl, rfl⟩ := Prod.mk.inj (Option.some.inj h)
      simp only [Bool.and_eq_true, decide_eq_true_eq] at hguard
      exact ⟨queued, hqueued, rfl, hguard.1, hguard.2, rfl⟩
    · simp at h
  · simp at h

/-- What a move of the world does, one case for each move. -/
inductive MovesTo (o : Outside) (c : Choice) : Outside → Prop where
  | accepted {call : Nat} {after : Outside} : c.move = .accept call →
      o.acceptCall call = some after → MovesTo o c after
  | promoted (jobId : String) : MovesTo o c (o.promote jobId)
  | ticked (ms : Nat) : MovesTo o c { o with clock := o.clock + ms }
  | scheduled {job : Job} : job.queue = .smsMaintenance → MovesTo o c (o.addJob job)

theorem movesTo_of_move {c : Choice} (h : o.move c = some o') : MovesTo o c o' := by
  unfold move at h
  split at h
  · rename_i hc
    exact .accepted hc h
  · rw [← Option.some.inj h]
    exact .promoted _
  · rw [← Option.some.inj h]
    exact .ticked _
  · split at h
    · rename_i hqueue
      rw [← Option.some.inj h]
      exact .scheduled hqueue
    · simp at h

theorem calls_of_move {c : Choice} (h : o.move c = some o') :
    o'.calls = o.calls ∨ ∃ call, o.acceptCall call = some o' := by
  cases movesTo_of_move h with
  | accepted _ haccept => exact Or.inr ⟨_, haccept⟩
  | _ => exact Or.inl rfl

theorem added_of_move {c : Choice} (h : o.move c = some o') : o'.added = o.added := by
  cases movesTo_of_move h with
  | accepted _ haccept =>
      obtain ⟨_, _, _, rfl⟩ := acceptCall_eq_some haccept
      rfl
  | _ => rfl

theorem completed_of_move {c : Choice} (h : o.move c = some o') :
    o'.completed = o.completed := by
  cases movesTo_of_move h with
  | accepted _ haccept =>
      obtain ⟨_, _, _, rfl⟩ := acceptCall_eq_some haccept
      rfl
  | _ => rfl

theorem clock_of_move {c : Choice} (h : o.move c = some o') : o.clock ≤ o'.clock := by
  cases movesTo_of_move h with
  | accepted _ haccept =>
      obtain ⟨_, _, _, rfl⟩ := acceptCall_eq_some haccept
      exact le_refl _
  | ticked ms => exact Int.le_add_of_nonneg_right (Int.natCast_nonneg _)
  | _ => exact le_refl _

section Queues

/-- The jobs that are there, in the order of their adds. -/
def queuedJobs (o : Outside) : List Job :=
  o.jobs.map QueuedJob.job

theorem queuedJobs_addJob (o : Outside) (job : Job) : (o.addJob job).queuedJobs =
    if o.queuedJobs.any fun other => sameJob other job then o.queuedJobs
    else o.queuedJobs ++ [job] := by
  simp only [queuedJobs, addJob, List.any_map, Function.comp_def]
  split
  · rfl
  · rw [List.map_append, List.map_singleton]

theorem mem_queuedJobs_addJob {o : Outside} {job other : Job}
    (h : other ∈ (o.addJob job).queuedJobs) : other ∈ o.queuedJobs ∨ other = job := by
  rw [queuedJobs_addJob] at h
  split at h
  · exact Or.inl h
  · simpa using h

theorem mem_addJob_of_mem {o : Outside} {job other : Job} (h : other ∈ o.queuedJobs) :
    other ∈ (o.addJob job).queuedJobs := by
  rw [queuedJobs_addJob]
  split
  · exact h
  · exact List.mem_append_left _ h

theorem exists_sameJob_addJob (o : Outside) (job : Job) :
    ∃ other ∈ (o.addJob job).queuedJobs, sameJob other job := by
  rw [queuedJobs_addJob]
  split
  · rename_i hany
    exact List.any_eq_true.mp hany
  · exact ⟨job, List.mem_append_right _ List.mem_cons_self, by simp [sameJob]⟩

theorem mem_queuedJobs_removeJob {o : Outside} {job other : Job} :
    other ∈ (o.removeJob job).queuedJobs ↔ other ∈ o.queuedJobs ∧ sameJob other job = false := by
  simp only [queuedJobs, removeJob, List.mem_map, List.mem_filter, Bool.not_eq_true']
  constructor
  · rintro ⟨queued, ⟨hmem, hother⟩, rfl⟩
    exact ⟨⟨queued, hmem, rfl⟩, hother⟩
  · rintro ⟨⟨queued, hmem, rfl⟩, hother⟩
    exact ⟨queued, ⟨hmem, hother⟩, rfl⟩

theorem queuedJobs_of_takeJob {queue : QueueName} {pick : Nat} {job : Job}
    (h : o.takeJob queue pick = some (o', job)) :
    o'.queuedJobs = o.queuedJobs ∧ job ∈ o.queuedJobs ∧ job.queue = queue := by
  obtain ⟨queued, hqueued, rfl, hqueue, _, rfl⟩ := takeJob_eq_some h
  exact ⟨map_set_of_eq hqueued rfl, List.mem_map_of_mem (List.mem_of_getElem? hqueued), hqueue⟩

theorem queuedJobs_of_move {c : Choice} (h : o.move c = some o') :
    o'.queuedJobs = o.queuedJobs ∨ ∃ job, job.queue = .smsMaintenance ∧ o' = o.addJob job := by
  cases movesTo_of_move h with
  | accepted _ haccept =>
      obtain ⟨started, _, _, rfl⟩ := acceptCall_eq_some haccept
      exact Or.inl rfl
  | promoted jobId =>
      refine Or.inl ?_
      simp only [queuedJobs, promote, List.map_map]
      refine List.map_congr_left fun queued _ => ?_
      simp only [Function.comp_apply]
      split <;> rfl
  | ticked ms => exact Or.inl rfl
  | scheduled hqueue => exact Or.inr ⟨_, hqueue, rfl⟩

end Queues

end Outside

end SmsNotification.Surroundings

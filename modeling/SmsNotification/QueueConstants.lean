import Mathlib.Algebra.Group.Nat.Defs
import Mathlib.Data.Rat.Defs

namespace SmsNotification.QueueConstants

inductive QueueName where
  | smsDispatch
  | smsDlq
  | smsMaintenance
  deriving DecidableEq, Repr

def retentionCleanupJob : String :=
  "retention-cleanup"

def processingRecoveryJob : String :=
  "processing-recovery"

def ambiguousOutcomeExpiryJob : String :=
  "ambiguous-outcome-expiry"

def defaultRetryBackoffBaseMs : Nat :=
  2000

/-- Exponential backoff: the base times two to the round. -/
def backoffDelayMs (round baseMs : Nat) : Nat :=
  baseMs * 2 ^ round

/-- A job. The jobs of the schedulers carry no message id. -/
structure Job where
  queue : QueueName
  jobId : String
  name : String
  messageId : Option String
  delay : Option ℚ
  deriving DecidableEq

/-- The values a setting may be read as: the parsed number where it is a positive
integer and the fallback otherwise. -/
def readPositiveInt (parsed : Option Int) (fallback : Nat) : Nat :=
  match parsed with
  | some n => if 0 < n then n.toNat else fallback
  | none => fallback

theorem readPositiveInt_pos (parsed : Option Int) {fallback : Nat} (h : 0 < fallback) :
    0 < readPositiveInt parsed fallback := by
  unfold readPositiveInt
  split
  · split <;> omega
  · exact h

end SmsNotification.QueueConstants

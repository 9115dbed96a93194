/-
# Backoff — trying again

A request that fails for a reason that may pass is made again, after a delay that doubles
each time up to a cap.  The last failure is the caller's.  Delays are whole numbers or
doubles, as they were given; the doubling of a double is by a double, which ends where
two to the number of failures is no double any more.  A whole number may grow past all
doubles; what is lost then is the record of the delay, which shows it with one place.
-/
import ImageTrust.Host

namespace ImageTrust

/-- How often to try, and how long to wait. -/
structure Backoff where
  attempts : Number
  base : Number
  cap : Number

namespace Backoff

variable {σ α : Type}

/-- Three attempts, from half a second to eight. -/
def standard : Backoff :=
  ⟨.whole 3, .binary (Binary64.ofDecimal false 5 (-1)), .binary (Binary64.ofInt 8)⟩

/-- The delay after this many failures, before the cap. -/
def grown (base : Number) (failures : Nat) : Except Fault Number :=
  match base with
  | .whole i => .ok (.whole (i * 2 ^ (failures - 1)))
  | .binary x =>
    if 1024 ≤ failures - 1 then .error .delayTooLarge else .ok (.binary (x.scale (failures - 1)))

/-- The delay after this many failures. -/
def delay (b : Backoff) (failures : Nat) : Except Fault Number :=
  (grown b.base failures).map fun d => d.least b.cap

/-- The record of an attempt that is to be made again after a delay. If the delay in seconds
cannot be shown with one place, the record is lost. -/
def report (total number : Nat) (f : Fault) (d : Number) : Act σ Unit :=
  match d.toBinary64? with
  | none => pure ()
  | some seconds =>
    Act.log .warning .retry
      ["Attempt ", Text.decimal number, "/", Text.decimal total, " failed (", f.message,
        "), retrying in ", seconds.fixed 1, "s"]

/-- The number of attempts; there has to be one, and it has to be whole. -/
def count (attempts : Number) : Except Fault Nat :=
  if attempts.lt (.whole 1) then .error (.noAttempts attempts)
  else
    match attempts with
    | .whole i => .ok i.toNat
    | .binary _ => .error .attemptsNotWhole

/-- The attempt with this number of `total`, and as many after it as `more` says. -/
def attempt (b : Backoff) (total : Nat) (sleep : Number → Act σ Unit) (passes : FaultKind → Bool)
    (call : Act σ α) (number : Nat) : Nat → Act σ α
  | 0 => do
    match ← Act.outcome call with
    | .ok a => return a
    | .error f =>
      if passes f.kind then
        Act.log .error .retry ["Giving up after ", Text.decimal number, " attempts: ", f.message]
      Act.fail f
  | more + 1 => do
    match ← Act.outcome call with
    | .ok a => return a
    | .error f =>
      if passes f.kind then
        let d ← Act.ofExcept (b.delay number)
        report total number f d
        sleep d
        attempt b total sleep passes call (number + 1) more
      else Act.fail f

/-- The call, made again while it fails for a reason that passes and attempts are left. -/
def run (b : Backoff) (sleep : Number → Act σ Unit) (passes : FaultKind → Bool) (call : Act σ α) :
    Act σ α := do
  let total ← Act.ofExcept (count b.attempts)
  attempt b total sleep passes call 1 (total - 1)

end Backoff

end ImageTrust

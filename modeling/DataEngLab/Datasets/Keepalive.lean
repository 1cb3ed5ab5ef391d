/-
Keeping a lease while an operation runs.

`run_while_renewing` starts the operation on a thread of its own and waits for it in slices.
A slice is a third of what is left of the lease, as far as the local clock can tell, and at
most five seconds; when it has passed and the operation is still running, the lease is
renewed.  The first renewal that fails is the last: its error is kept, and the operation is
waited for without a limit.

The operation enters as what it returns or raises; when it completes is for the answers to
`Call.wait` to say.  The lock of the source is held by one thread here.
-/
import DataEngLab.Datasets.Leases
import Mathlib.Algebra.Order.Field.Rat

namespace Datasets

open Lib

/-- `_LEASE_SECONDS` -/
def leaseSeconds : Int := 60

/-- `_LeaseKeepalive`, without `_started` and `_stopped`. -/
structure Keepalive where
  lease : Lease
  stop : Bool
  error : Option Exn

/-- `_ForegroundOutcome` -/
structure ForegroundOutcome (α : Type) where
  result : Option α
  workerError : Option Exn
  renewalError : Option Exn

/-- What `except Exception` catches. -/
def Exn.isException : Exn → Bool
  | .raised .interrupt => false
  | _ => true

/-- `_renew_once`: whether it renewed. -/
def renewOnce (k : Keepalive) : S (Bool × Keepalive) := do
  if k.stop || k.error.isSome then return (false, k)
  else
    match ← (renewLease k.lease leaseSeconds).attempt with
    | .ok lease => return (true, { k with lease := lease })
    | .error e => if e.isException then return (false, { k with error := some e }) else throw e

/-- `max((lease.expires_at - now).total_seconds(), 0.0)` -/
def Lease.remaining (l : Lease) (now : Moment) : Rat :=
  max (((l.expiresAt.micros : Rat) - now.micros) / 1000000) 0

/-- How long to wait until the next renewal. -/
def renewalInterval (l : Lease) (now : Moment) : Rat := max (1 / 20) (min 5 (l.remaining now / 3))

/-- The loop of `run_while_renewing`, and what interrupted it. -/
def renewWhileWaiting : Nat → Keepalive → S (Keepalive × Option Exn)
  | 0, _ => outOfFuel
  | fuel + 1, k => do
      let now ← utcNow
      match ← perform (.wait (some (renewalInterval k.lease now))) with
      | .completed => return (k, none)
      | .interrupted => return (k, some (.raised .interrupt))
      | .timedOut =>
          match ← (renewOnce k).attempt with
          | .error e => return (k, some e)
          | .ok (true, k') => renewWhileWaiting fuel k'
          | .ok (false, k') =>
              match ← perform (.wait none) with
              | .interrupted => return (k', some (.raised .interrupt))
              | _ => return (k', none)

def foregroundOutcome {α : Type} (operation : Except Exn α) (renewalError : Option Exn) : ForegroundOutcome α :=
  match operation with
  | .ok a => ⟨some a, none, renewalError⟩
  | .error e => ⟨none, some e, renewalError⟩

/-- `run_while_renewing`, and the keepalive it leaves behind. -/
def runWhileRenewing {α : Type} (operation : Except Exn α) (fuel : Nat) (k : Keepalive) :
    S (Keepalive × Except Exn (ForegroundOutcome α)) := do
  let (k', interrupted) ← renewWhileWaiting fuel k
  -- `finally`: the worker is joined whatever happened
  let _ ← perform (.wait none)
  match interrupted with
  | some e => return (k', .error e)
  | none => return (k', .ok (foregroundOutcome operation k'.error))

end Datasets

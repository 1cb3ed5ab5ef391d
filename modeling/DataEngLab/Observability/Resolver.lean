/-
One name lookup at a time.

`_SingleFlightResolver` keeps the lookup that is under way in a slot.  A call that finds
the slot empty fills it and starts a worker; a call for the same endpoint waits for that
worker; a call for another one is refused.  The worker looks the name up, stores what it
found, sets the event and empties the slot.

A lock region is one call here, the start of the thread included.  Every other read or
write is a call or a step of its own, in any order with those of other threads.
-/
import DataEngLab.Lib.Pool
import Mathlib.Data.Rat.Defs

namespace Observability

open Lib

/-- A host and a port. -/
abbrev Endpoint := List Nat × Int

def maxResolvedAddresses : Nat := 32

/-- What `socket.getaddrinfo` does: it returns, it raises one of the exceptions the worker catches,
or it raises another. -/
inductive Lookup (A : Type) where
  | values (addresses : List A)
  | caught
  | escaping

/-- Where a worker is: before its lookup, before it stores the outcome, before it sets the event,
before it takes the lock, at its end. -/
inductive WorkerAt where
  | looking
  | storing
  | setting
  | clearing
  | done
deriving DecidableEq

/-- `_Resolution`, with the thread that was started for it and what its lookup gave. -/
structure Resolution (A : Type) where
  endpoint : Endpoint
  event : Bool
  addresses : List A
  failed : Bool
  worker : Option WorkerAt
  lookup : Option (Lookup A)

/-- The slot `_active`, as a position among the resolutions there have been. -/
structure SingleFlightResolver (A : Type) where
  resolutions : List (Resolution A)
  active : Option Nat

/-- How `worker.start()` ends; when it raises, the thread may be running all the same. -/
inductive Start where
  | started
  | raised (running : Bool)

/-- How the lock region of `resolve` ends. -/
inductive Entry where
  | task (i : Nat)
  /-- `raise OSError` -/
  | refused
  /-- what `worker.start()` raised; whether the thread is running is not known to the caller -/
  | startRaised (running : Bool)

variable {A : Type}

def Start.running : Start → Bool
  | .started => true
  | .raised running => running

def Resolution.fresh (endpoint : Endpoint) (s : Start) : Resolution A :=
  ⟨endpoint, false, [], false, if s.running then some .looking else none, none⟩

def Start.entry (i : Nat) : Start → Entry
  | .started => .task i
  | .raised running => .startRaised running

/-- The lock region of `resolve`. -/
def SingleFlightResolver.enter (w : SingleFlightResolver A) (endpoint : Endpoint) (s : Start) :
    Entry × SingleFlightResolver A :=
  match w.active with
  | none =>
      let i := w.resolutions.length
      (s.entry i, ⟨w.resolutions ++ [.fresh endpoint s], some i⟩)
  | some i =>
      match w.resolutions[i]? with
      | some task => if task.endpoint = endpoint then (.task i, w) else (.refused, w)
      | none => (.refused, w)

/-! ### The worker -/

def Lookup.escapes : Lookup A → Bool
  | .escaping => true
  | _ => false

/-- What the worker writes into its resolution. -/
def Resolution.store (task : Resolution A) : Resolution A :=
  match task.lookup with
  | some (.values values) =>
      if values.isEmpty || decide (maxResolvedAddresses < values.length) then { task with failed := true }
      else { task with addresses := values }
  | _ => { task with failed := true }

/-- The next line of the worker on its resolution; `l` is what a lookup would give. -/
def Resolution.turn (task : Resolution A) (l : Lookup A) : Option (Resolution A) :=
  match task.worker with
  | some .looking =>
      some { task with lookup := some l, worker := some (if l.escapes then .setting else .storing) }
  | some .storing => some { task.store with worker := some .setting }
  | some .setting => some { task with event := true, worker := some .clearing }
  | some .clearing => some { task with worker := some .done }
  | some .done => none
  | none => none

/-- A step of the worker of resolution `i`; the last one empties the slot. -/
def SingleFlightResolver.advance (w : SingleFlightResolver A) (i : Nat) (l : Lookup A) :
    Option (SingleFlightResolver A) :=
  (w.resolutions[i]?).bind fun task => (task.turn l).map fun task' =>
    ⟨w.resolutions.set i task',
      if task.worker = some .clearing ∧ w.active = some i then none else w.active⟩

/-! ### The caller -/

inductive Exn where
  | osError
  | timeoutError
  /-- what `worker.start()` raised -/
  | startError
deriving DecidableEq

inductive Call where
  | enter (endpoint : Endpoint)
  | monotonic
  | wait (i : Nat) (remaining : Rat)
  | failed (i : Nat)
  | addresses (i : Nat)

def Answer (A : Type) : Call → Type
  | .enter _ => Entry
  | .monotonic => Rat
  | .wait _ _ => Bool
  | .failed _ => Bool
  | .addresses _ => List A

abbrev Resolve (A α : Type) := Proc Call (Answer A) Exn α

/-- The arguments of a call. -/
structure Request where
  endpoint : Endpoint
  deadline : Rat

/-- `task.failed or not task.addresses` -/
def unresolved (i : Nat) : Resolve A Bool := do
  let failed : Bool ← Proc.perform (Call.failed i)
  if failed then return true
  let addresses : List A ← Proc.perform (Call.addresses i)
  return addresses.isEmpty

/-- `resolve` after its lock region. -/
def waitFor (deadline : Rat) (i : Nat) : Resolve A (List A) := do
  let now : Rat ← Proc.perform Call.monotonic
  let remaining := deadline - now
  if remaining ≤ 0 then throw .timeoutError
  let signalled : Bool ← Proc.perform (Call.wait i remaining)
  if !signalled then throw .timeoutError
  let unusable ← unresolved i
  if unusable then throw .osError
  Proc.perform (Call.addresses i)

def resolve (q : Request) : Resolve A (List A) := do
  let entry : Entry ← Proc.perform (Call.enter q.endpoint)
  match entry with
  | .refused => throw .osError
  | .startRaised _ => throw .startError
  | .task i => waitFor q.deadline i

/-- How a call is answered, and what it leaves of the resolver. -/
def Answered (w : SingleFlightResolver A) : (e : Call) → Answer A e → SingleFlightResolver A → Prop
  | .enter endpoint, r, w' => ∃ s, w.enter endpoint s = (r, w')
  | .monotonic, _, w' => w' = w
  | .wait i _, r, w' => w' = w ∧ (r = true → (w.resolutions[i]?).map Resolution.event = some true)
  | .failed i, r, w' => w' = w ∧ (w.resolutions[i]?).map Resolution.failed = some r
  | .addresses i, r, w' => w' = w ∧ (w.resolutions[i]?).map Resolution.addresses = some r

/-- Calls of `resolve` on one resolver, and its workers. -/
def resolverMachine (A : Type) :
    Machine Request (SingleFlightResolver A) Call (Answer A) (Except Exn (List A)) where
  code := resolve
  step _ _ s e r w := Answered s.world e r w
  drift w w' := ∃ i l, w.advance i l = some w'

/-- `_SingleFlightResolver()` -/
def Idle (w : SingleFlightResolver A) : Prop := w.resolutions = [] ∧ w.active = none

end Observability

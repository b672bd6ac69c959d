import BmsBridge.Ble.Client
import Mathlib.Logic.Function.Basic

/-! All clients with the scan coordinator that they share.  A call of the coordinator takes effect
under its lock; the grant that it leads to is called by the same thread, behind the lock. -/

namespace BmsBridge

/-- The slot and its queue, over the owners of a type. -/
structure BleScanCoordinator (ι : Type) where
  holder : Option ι := none
  waiters : List ι := []
  deriving DecidableEq, Repr

namespace BleScanCoordinator

variable {ι : Type} [DecidableEq ι]

/-- The owner whose grant is to be called comes with the new state. -/
def request (c : BleScanCoordinator ι) (owner : ι) : BleScanCoordinator ι × Option ι :=
  if c.holder = some owner then (c, some owner)
  else if c.holder = none then ({ c with holder := some owner }, some owner)
  else if owner ∈ c.waiters then (c, none)
  else ({ c with waiters := c.waiters ++ [owner] }, none)

def release (c : BleScanCoordinator ι) (owner : ι) : BleScanCoordinator ι × Option ι :=
  if c.holder ≠ some owner then ({ c with waiters := c.waiters.erase owner }, none)
  else
    match c.waiters with
    | [] => ({ c with holder := none }, none)
    | w :: waiters => ({ holder := some w, waiters }, some w)

end BleScanCoordinator

/-- An owner in the queue, with the callback that it has left. -/
structure Waiter (ι κ : Type) where
  owner : ι
  cb : κ
  deriving DecidableEq, Repr

/-- The coordinator with the callbacks, which are of any kind. -/
structure CallbackCoordinator (ι κ : Type) where
  holder : Option ι := none
  waiters : List (Waiter ι κ) := []
  deriving DecidableEq, Repr

namespace CallbackCoordinator

variable {ι κ : Type} [DecidableEq ι]

/-- The callback to be called comes with the new state, and with it the owner that has left it. -/
def request (c : CallbackCoordinator ι κ) (owner : ι) (onGranted : κ) :
    CallbackCoordinator ι κ × Option (Waiter ι κ) :=
  if c.holder = some owner then (c, some { owner, cb := onGranted })
  else if c.holder = none then
    ({ c with holder := some owner }, some { owner, cb := onGranted })
  else if c.waiters.any (·.owner = owner) then (c, none)
  else ({ c with waiters := c.waiters ++ [{ owner, cb := onGranted }] }, none)

def release (c : CallbackCoordinator ι κ) (owner : ι) :
    CallbackCoordinator ι κ × Option (Waiter ι κ) :=
  if c.holder ≠ some owner then
    ({ c with waiters := c.waiters.eraseP (·.owner = owner) }, none)
  else
    match c.waiters with
    | [] => ({ c with holder := none }, none)
    | w :: waiters => ({ holder := some w.owner, waiters }, some w)

/-- The coordinator without the callbacks. -/
def owners (c : CallbackCoordinator ι κ) : BleScanCoordinator ι where
  holder := c.holder
  waiters := c.waiters.map Waiter.owner

end CallbackCoordinator

namespace BleClient

structure System (ι : Type) where
  clients : ι → Client := fun _ => {}
  coordinator : BleScanCoordinator ι := {}
  /-- The client whose grant the thread of a client has yet to call. -/
  granting : ι → Option ι := fun _ => none

inductive SystemLabel (ι : Type) where
  | client (i : ι) (l : Label)
  /-- The thread of a client calls the grant that it has got from the coordinator. -/
  | grant (i : ι)
  deriving DecidableEq, Repr

namespace System

variable {ι : Type} [DecidableEq ι]

def setClient (s : System ι) (i : ι) (c : Client) : System ι :=
  { s with clients := Function.update s.clients i c }

/-- The next statement of a client's thread, as far as it concerns the coordinator. -/
def coordinatorCall (s : System ι) (i : ι) : BleScanCoordinator ι × Option ι :=
  match (s.clients i).code with
  | .requestSlot :: _ => s.coordinator.request i
  | .releaseSlot :: _ => s.coordinator.release i
  | _ => (s.coordinator, none)

def step (s : System ι) : SystemLabel ι → Option (System ι)
  | .client i (.thread ok) =>
    -- The thread is not through with its last call of the coordinator.
    if (s.granting i).isSome then none
    else (next (s.clients i) ok).map fun c => {
      clients := Function.update s.clients i c
      coordinator := (s.coordinatorCall i).1
      granting := Function.update s.granting i (s.coordinatorCall i).2 }
  | .client _ .grant => none
  | .client i l => (BleClient.step (s.clients i) l).map (s.setClient i)
  | .grant i =>
    (s.granting i).map fun j => {
      clients := Function.update s.clients j { s.clients j with slotEvent := true }
      coordinator := s.coordinator
      granting := Function.update s.granting i none }

end System

end BleClient

end BmsBridge

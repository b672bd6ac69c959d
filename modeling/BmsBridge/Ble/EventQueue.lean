import BmsBridge.Lib.Runs
import Mathlib.Logic.Function.Basic

/-! The queue between the BLE threads and the dispatcher: any number of producers `push` into it,
and `BleTransport::pump` takes events out on the dispatcher's thread.  A step is what one thread does
between two points at which the others can see it: the lock is held for one step, and every `read`
and `write` of the eventfd is one. -/

namespace BmsBridge

/-- A write that would take an eventfd's counter past this fails. -/
def kEventFdMax : Nat := 0xFFFFFFFFFFFFFFFE

structure EventFd where
  counter : Nat := 0
  deriving DecidableEq, Repr

namespace EventFd

def readable (fd : EventFd) : Bool := 0 < fd.counter

/-- A write of 1; its failure is ignored. -/
def write (fd : EventFd) : EventFd :=
  if fd.counter < kEventFdMax then { counter := fd.counter + 1 } else fd

/-- A read takes the whole counter, and fails when it is zero. -/
def read (fd : EventFd) : Option EventFd := if fd.readable then some {} else none

end EventFd

/-- Where `pump` is. -/
inductive Pump (α : Type) where
  | outside
  /-- In the loop of `drain_notify`. -/
  | draining
  /-- About to call `try_pop`. -/
  | popping
  /-- With a popped event, in front of the sink's call. -/
  | handing (ev : α)
  deriving DecidableEq, Repr

/-- The popped event that the sink has not seen. -/
def Pump.held {α : Type} : Pump α → List α
  | .handing ev => [ev]
  | _ => []

/-- The queue with its users.  `enqueued` and `delivered` are histories: what the producers have put
in and what the sink has been handed, in order. -/
structure BmsEventQueue (ι α : Type) where
  q : List α := []
  evfd : EventFd := {}
  /-- The producer is between its `push_back` and its `write`. -/
  unsignalled : ι → Bool := fun _ => false
  pump : Pump α := .outside
  enqueued : List α := []
  delivered : List α := []

namespace BmsEventQueue

inductive Label (ι α : Type) where
  | enqueue (i : ι) (ev : α)
  | signal (i : ι)
  /-- `epoll_wait` has found the eventfd readable, and the dispatcher calls `pump`. -/
  | wake
  | drain
  | tryPop
  | deliver

variable {ι α : Type} [DecidableEq ι]

def step (s : BmsEventQueue ι α) : Label ι α → Option (BmsEventQueue ι α)
  | .enqueue i ev =>
    if s.unsignalled i then none
    else some { s with
      q := s.q ++ [ev]
      unsignalled := Function.update s.unsignalled i true
      enqueued := s.enqueued ++ [ev] }
  | .signal i =>
    if s.unsignalled i then some { s with
      evfd := s.evfd.write
      unsignalled := Function.update s.unsignalled i false }
    else none
  | .wake => match s.pump with
    | .outside => if s.evfd.readable then some { s with pump := .draining } else none
    | _ => none
  | .drain => match s.pump with
    | .draining => match s.evfd.read with
      | some evfd => some { s with evfd }
      | none => some { s with pump := .popping }
    | _ => none
  | .tryPop => match s.pump with
    | .popping => match s.q with
      | [] => some { s with pump := .outside }
      | ev :: q => some { s with q, pump := .handing ev }
    | _ => none
  | .deliver => match s.pump with
    | .handing ev => some { s with pump := .popping, delivered := s.delivered ++ [ev] }
    | _ => none

end BmsEventQueue

end BmsBridge

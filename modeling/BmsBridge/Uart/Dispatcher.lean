import BmsBridge.Ble.EventQueue

/-! The dispatcher's table of handlers and its epoll set, and the timers that are armed once.
Descriptors are the numbers that the kernel gives out. -/

namespace BmsBridge

/-! ### Timers -/

/-- A timerfd without an interval. -/
inductive TimerFd where
  | disarmed
  | armed
  | expired
  deriving DecidableEq, Repr

structure TimeSpec where
  sec : Int
  nsec : Int
  deriving DecidableEq, Repr

namespace TimerFd

/-- `timerfd_settime`: it refuses times that are no proper ones, and zero disarms. -/
def setTime (t : TimerFd) (value : TimeSpec) : TimerFd :=
  if value.sec < 0 ∨ value.nsec < 0 ∨ 999999999 < value.nsec then t
  else if value.sec = 0 ∧ value.nsec = 0 then .disarmed
  else .armed

/-- `Timer::arm`, with milliseconds. -/
def arm (t : TimerFd) (ms : Int) : TimerFd :=
  let sec := ms.tdiv 1000
  let nsec := (ms - sec * 1000) * 1000000
  t.setTime { sec, nsec := if sec = 0 ∧ nsec = 0 then 1 else nsec }

/-- `Timer::consume`: the read fails unless the timer has expired. -/
def consume (t : TimerFd) : TimerFd := if t = .expired then .disarmed else t

theorem tdiv_rem_bounds (ms : Int) :
    (0 ≤ ms → 0 ≤ ms.tdiv 1000 ∧ 0 ≤ ms - ms.tdiv 1000 * 1000 ∧ ms - ms.tdiv 1000 * 1000 < 1000) ∧
      (ms ≤ 0 → ms.tdiv 1000 ≤ 0 ∧ ms - ms.tdiv 1000 * 1000 ≤ 0) := by
  have hDiv := Int.tmod_add_mul_tdiv ms 1000
  refine ⟨fun hms => ?_, fun hms => ?_⟩
  · have hLow := Int.tmod_nonneg 1000 hms
    have hHigh := Int.tmod_lt_of_pos ms (show (0 : Int) < 1000 by decide)
    have hSec := Int.tdiv_nonneg hms (show (0 : Int) ≤ 1000 by decide)
    omega
  · have hLow := Int.tmod_nonneg 1000 (show 0 ≤ -ms by omega)
    have hSec := Int.tdiv_nonneg (show 0 ≤ -ms by omega) (show (0 : Int) ≤ 1000 by decide)
    rw [Int.neg_tmod] at hLow
    rw [Int.neg_tdiv] at hSec
    omega

/-- A negative time leaves the timer alone. -/
theorem arm_eq (t : TimerFd) (ms : Int) : t.arm ms = if 0 ≤ ms then .armed else t := by
  obtain ⟨hNonneg, hNonpos⟩ := tdiv_rem_bounds ms
  simp only [arm, setTime]
  by_cases hms : 0 ≤ ms
  · obtain ⟨hSec, hLow, hHigh⟩ := hNonneg hms
    rw [if_pos hms]
    split
    · rw [if_neg (by omega), if_neg (by omega)]
    · rw [if_neg (by omega)]
  · obtain ⟨hSec, hLow⟩ := hNonpos (by omega)
    rw [if_neg hms, if_pos]
    split <;> omega

end TimerFd

/-! ### Handlers -/

structure Dispatcher (η : Type) where
  handlers : Nat → Option η := fun _ => none
  /-- The descriptors in the epoll set. -/
  interest : Nat → Bool
  signalfd : Nat
  wakefd : Nat
  wakeEvent : EventFd := {}
  stopping : Bool := false
  /-- A call of `watch` has thrown. -/
  threw : Bool := false

namespace Dispatcher

variable {η : Type} (d : Dispatcher η)

/-- `emplace` keeps the handler that is there; `epoll_ctl` fails for a descriptor in its set. -/
def watch (fd : Nat) (onReadable : η) : Dispatcher η :=
  { d with
    handlers := Function.update d.handlers fd (some ((d.handlers fd).getD onReadable))
    interest := Function.update d.interest fd true
    threw := d.threw || d.interest fd }

def unwatch (fd : Nat) : Dispatcher η :=
  { d with
    handlers := Function.update d.handlers fd none
    interest := Function.update d.interest fd false }

end Dispatcher

end BmsBridge

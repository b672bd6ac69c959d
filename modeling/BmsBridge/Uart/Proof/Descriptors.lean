import BmsBridge.Lib.Batch
import BmsBridge.Lib.Runs
import BmsBridge.Uart.Transport
import Mathlib.Tactic.SplitIfs

/-! The handlers against the table of descriptors: each handler is registered for the descriptor that
it belongs to, and for no longer than that descriptor is open. -/

namespace BmsBridge

/-- `try_open`, as the line sees it. -/
def UartTransport.afterOpen (line : UartTransport) : Option Nat → UartTransport
  | none => line.armReopen
  | some fd => { line with
      fd := some fd
      session := line.session + 1
      calls := line.calls ++ [.connected] }

namespace Process

variable {ι : Type}

/-- The handler that a descriptor ought to have.  A line's timer has one while the line is attached. -/
def registered (p : Process ι) (fd : Nat) : Option (Handler ι) :=
  match p.table fd with
  | some (.reopenTimer i) => if (p.lines i).attached then some (.reopenTick i) else none
  | some device => device.handler?
  | none => none

structure Sound (p : Process ι) : Prop where
  signalfd : p.table p.dispatcher.signalfd = some .signals
  wakefd : p.table p.dispatcher.wakefd = some .wakeEvent
  timerFd : ∀ i, p.table (p.lines i).timerFd = some (.reopenTimer i)
  timer : ∀ fd i, p.table fd = some (.reopenTimer i) → fd = (p.lines i).timerFd
  port : ∀ fd i n, p.table fd = some (.port i n) ↔
    (p.lines i).fd = some fd ∧ (p.lines i).session = n
  attached : ∀ i fd, (p.lines i).fd = some fd → (p.lines i).attached
  handlers : ∀ fd, p.dispatcher.handlers fd = p.registered fd
  interest : ∀ fd, p.dispatcher.interest fd ↔
    p.registered fd ≠ none ∨ fd = p.dispatcher.signalfd ∨ fd = p.dispatcher.wakefd
  threw : p.dispatcher.threw = false

/-- Before anything is started.  Each line has made its timer. -/
structure Initial (p : Process ι) : Prop where
  signalfd : p.table p.dispatcher.signalfd = some .signals
  wakefd : p.table p.dispatcher.wakefd = some .wakeEvent
  timerFd : ∀ i, p.table (p.lines i).timerFd = some (.reopenTimer i)
  others : ∀ fd, p.table fd = none ∨ p.table fd = some .foreign ∨ fd = p.dispatcher.signalfd ∨
    fd = p.dispatcher.wakefd ∨ ∃ i, fd = (p.lines i).timerFd
  handlers : ∀ fd, p.dispatcher.handlers fd = none
  interest : ∀ fd, p.dispatcher.interest fd ↔ fd = p.dispatcher.signalfd ∨ fd = p.dispatcher.wakefd
  threw : p.dispatcher.threw = false
  wakeEvent : p.dispatcher.wakeEvent = {}
  stopping : p.dispatcher.stopping = false
  lines : ∀ i, ∃ reconnectMs timerFd, p.lines i = { reconnectMs, timerFd }
  loop : p.loop = .before
  stoppers : p.stoppers = 0
  signals : p.signals = 0

variable {p p' : Process ι} {i : ι} {fd : Nat}

theorem registered_congr (hTable : p'.table fd = p.table fd)
    (hAttached : ∀ j, (p'.lines j).attached = (p.lines j).attached) :
    p'.registered fd = p.registered fd := by
  simp only [registered, hTable, hAttached]

theorem registered_free (hFree : p.table fd = none) : p.registered fd = none := by
  rw [registered, hFree]

theorem Initial.sound (h : Initial p) : p.Sound := by
  have hLine (j : ι) : (p.lines j).fd = none ∧ (p.lines j).attached = false := by
    obtain ⟨_, _, hLine⟩ := h.lines j
    rw [hLine]
    exact ⟨rfl, rfl⟩
  have hDevice (fd : Nat) : p.table fd = none ∨ p.table fd = some .foreign ∨
      (fd = p.dispatcher.signalfd ∧ p.table fd = some .signals) ∨
      (fd = p.dispatcher.wakefd ∧ p.table fd = some .wakeEvent) ∨
      ∃ j, fd = (p.lines j).timerFd ∧ p.table fd = some (.reopenTimer j) := by
    rcases h.others fd with hNone | hForeign | rfl | rfl | ⟨j, rfl⟩
    · exact .inl hNone
    · exact .inr (.inl hForeign)
    · exact .inr (.inr (.inl ⟨rfl, h.signalfd⟩))
    · exact .inr (.inr (.inr (.inl ⟨rfl, h.wakefd⟩)))
    · exact .inr (.inr (.inr (.inr ⟨j, rfl, h.timerFd j⟩)))
  have hNone (fd : Nat) : p.registered fd = none := by
    rcases hDevice fd with hFd | hFd | ⟨-, hFd⟩ | ⟨-, hFd⟩ | ⟨j, -, hFd⟩ <;>
      simp [registered, hFd, Device.handler?, hLine]
  refine ⟨h.signalfd, h.wakefd, h.timerFd, ?_, ?_, ?_, ?_, ?_, h.threw⟩
  · intro fd j hFd
    rcases hDevice fd with hFd' | hFd' | ⟨-, hFd'⟩ | ⟨-, hFd'⟩ | ⟨j', rfl, hFd'⟩ <;> rw [hFd'] at hFd <;>
      cases hFd
    rfl
  · intro fd j n
    refine iff_of_false ?_ fun hPort => ?_
    · rcases hDevice fd with hFd | hFd | ⟨-, hFd⟩ | ⟨-, hFd⟩ | ⟨j', -, hFd⟩ <;> simp [hFd]
    · rw [(hLine j).1] at hPort
      cases hPort.1
  · intro j fd hFd
    rw [(hLine j).1] at hFd
    cases hFd
  · exact fun fd => (h.handlers fd).trans (hNone fd).symm
  · intro fd
    rw [h.interest, hNone]
    simp

/-! ### What leaves the descriptors alone -/

/-- A step that touches neither the table nor the handlers, and of the lines neither ports nor timers'
descriptors. -/
structure SameDescriptors (p p' : Process ι) : Prop where
  table : p'.table = p.table
  handlers : p'.dispatcher.handlers = p.dispatcher.handlers
  interest : p'.dispatcher.interest = p.dispatcher.interest
  signalfd : p'.dispatcher.signalfd = p.dispatcher.signalfd
  wakefd : p'.dispatcher.wakefd = p.dispatcher.wakefd
  threw : p'.dispatcher.threw = p.dispatcher.threw
  timerFd : ∀ j, (p'.lines j).timerFd = (p.lines j).timerFd
  fd : ∀ j, (p'.lines j).fd = (p.lines j).fd
  session : ∀ j, (p'.lines j).session = (p.lines j).session
  attached : ∀ j, (p'.lines j).attached = (p.lines j).attached

theorem SameDescriptors.registered (h : SameDescriptors p p') (fd : Nat) :
    p'.registered fd = p.registered fd := registered_congr (congrFun h.table fd) h.attached

theorem Sound.congr (hSound : p.Sound) (h : SameDescriptors p p') : p'.Sound where
  signalfd := by rw [h.table, h.signalfd, hSound.signalfd]
  wakefd := by rw [h.table, h.wakefd, hSound.wakefd]
  timerFd := fun j => by rw [h.table, h.timerFd, hSound.timerFd]
  timer := fun fd j hFd => by
    rw [h.table] at hFd
    rw [h.timerFd, hSound.timer fd j hFd]
  port := fun fd j n => by rw [h.table, h.fd, h.session, hSound.port]
  attached := fun j fd hFd => by
    rw [h.fd] at hFd
    rw [h.attached, hSound.attached j fd hFd]
  handlers := fun fd => by rw [h.handlers, hSound.handlers, h.registered]
  interest := fun fd => by rw [h.interest, h.signalfd, h.wakefd, h.registered, hSound.interest]
  threw := by rw [h.threw, hSound.threw]

/-! ### What opens and closes descriptors -/

/-- A descriptor that is neither the dispatcher's own nor a timer's. -/
def Plain : Option (Device ι) → Prop
  | none | some (.port _ _) | some (.other _) | some .foreign => True
  | _ => False

/-- A step that changes what one descriptor is, and nothing else about descriptors but ports. -/
structure RewiredAt (fd : Nat) (p p' : Process ι) : Prop where
  signalfd : p'.dispatcher.signalfd = p.dispatcher.signalfd
  wakefd : p'.dispatcher.wakefd = p.dispatcher.wakefd
  threw : p'.dispatcher.threw = p.dispatcher.threw
  table : ∀ x, x ≠ fd → p'.table x = p.table x
  handlers : ∀ x, x ≠ fd → p'.dispatcher.handlers x = p.dispatcher.handlers x
  interest : ∀ x, x ≠ fd → p'.dispatcher.interest x = p.dispatcher.interest x
  timerFd : ∀ j, (p'.lines j).timerFd = (p.lines j).timerFd
  attached : ∀ j, (p'.lines j).attached = (p.lines j).attached

theorem Sound.rewired (hSound : p.Sound) (h : RewiredAt fd p p') (hPlain : Plain (p.table fd))
    (hPlain' : Plain (p'.table fd)) (hHandler : p'.dispatcher.handlers fd = p'.registered fd)
    (hInterest : p'.dispatcher.interest fd ↔ p'.registered fd ≠ none)
    (hPort : ∀ x j n, p'.table x = some (.port j n) ↔ (p'.lines j).fd = some x ∧ (p'.lines j).session = n)
    (hUp : ∀ j x, (p'.lines j).fd = some x → (p.lines j).attached) : p'.Sound := by
  have hRegistered (x : Nat) (hx : x ≠ fd) : p'.registered x = p.registered x :=
    registered_congr (h.table x hx) h.attached
  have hNot {x : Nat} {device : Device ι} (hx : p.table x = some device) (hDevice : ¬Plain (some device)) :
      x ≠ fd := by
    rintro rfl
    rw [hx] at hPlain
    exact hDevice hPlain
  have hNotSignals := hNot hSound.signalfd id
  have hNotWake := hNot hSound.wakefd id
  refine ⟨?_, ?_, ?_, ?_, hPort, ?_, ?_, ?_, h.threw.trans hSound.threw⟩
  · rw [h.signalfd, h.table _ hNotSignals, hSound.signalfd]
  · rw [h.wakefd, h.table _ hNotWake, hSound.wakefd]
  · intro j
    rw [h.timerFd, h.table _ (hNot (hSound.timerFd j) id), hSound.timerFd]
  · intro x j hx
    by_cases hFd : x = fd
    · rw [← hFd, hx] at hPlain'
      exact hPlain'.elim
    · rw [h.timerFd]
      exact hSound.timer x j ((h.table x hFd).symm.trans hx)
  · intro j x hx
    rw [h.attached, hUp j x hx]
  · intro x
    by_cases hx : x = fd
    · rw [hx, hHandler]
    · rw [h.handlers x hx, hRegistered x hx, hSound.handlers]
  · intro x
    rw [h.signalfd, h.wakefd]
    by_cases hx : x = fd
    · rw [hx, hInterest]
      simp [hNotSignals.symm, hNotWake.symm]
    · rw [h.interest x hx, hRegistered x hx, hSound.interest]

/-- The ports, when what one descriptor is changes to what is no port either. -/
theorem Sound.port_of_lines (hSound : p.Sound) (hTable : ∀ x, x ≠ fd → p'.table x = p.table x)
    (hOld : ∀ j n, p.table fd ≠ some (.port j n)) (hNew : ∀ j n, p'.table fd ≠ some (.port j n))
    (hLines : p'.lines = p.lines) (x : Nat) (j : ι) (n : Nat) :
    p'.table x = some (.port j n) ↔ (p'.lines j).fd = some x ∧ (p'.lines j).session = n := by
  rw [hLines, ← hSound.port]
  by_cases hx : x = fd
  · rw [hx]
    exact iff_of_false (hNew j n) (hOld j n)
  · rw [hTable x hx]

theorem Sound.interest_free (hSound : p.Sound) (hFree : p.table fd = none) :
    p.dispatcher.interest fd = false := by
  rw [Bool.eq_false_iff, ne_eq, hSound.interest, registered_free hFree]
  rintro (hNone | rfl | rfl)
  · exact hNone rfl
  · rw [hSound.signalfd] at hFree
    cases hFree
  · rw [hSound.wakefd] at hFree
    cases hFree

/-- Nothing is registered for a number that is not in use, so a handler that is watched there is the
one that gets called, and `epoll_ctl` takes the number. -/
theorem Sound.watch_free (hSound : p.Sound) (hFree : p.table fd = none) (onReadable : Handler ι) :
    p.dispatcher.watch fd onReadable = { p.dispatcher with
      handlers := Function.update p.dispatcher.handlers fd (some onReadable)
      interest := Function.update p.dispatcher.interest fd true } := by
  rw [Dispatcher.watch, hSound.handlers, registered_free hFree, hSound.interest_free hFree,
    Bool.or_false]
  rfl

@[simp] theorem openAs_table (fd x : Nat) (device : Device ι) :
    (p.openAs fd device).table x = if x = fd then some device else p.table x := Function.update_apply ..

theorem Sound.foreignOpen (hSound : p.Sound) (hFree : p.table fd = none) :
    (p.openAs fd .foreign).Sound := by
  have hTable (x : Nat) (hx : x ≠ fd) : (p.openAs fd .foreign).table x = p.table x := by simp [hx]
  have hOwn : (p.openAs fd .foreign).table fd = some .foreign := by simp
  have hRegistered : (p.openAs fd .foreign).registered fd = none := by
    simp [registered, Device.handler?]
  refine hSound.rewired ⟨rfl, rfl, rfl, hTable, fun _ _ => rfl, fun _ _ => rfl, fun _ => rfl,
    fun _ => rfl⟩ ?_ ?_ ?_ ?_ ?_ ?_
  · rw [hFree]
    trivial
  · rw [hOwn]
    trivial
  · rw [hRegistered]
    exact (hSound.handlers fd).trans (registered_free hFree)
  · rw [hRegistered]
    exact iff_of_false (by simp [openAs, hSound.interest_free hFree]) (by simp)
  · refine hSound.port_of_lines hTable (fun j n hPort => ?_) (fun j n hPort => ?_) rfl
    · rw [hFree] at hPort
      cases hPort
    · rw [hOwn] at hPort
      cases hPort
  · exact hSound.attached

theorem Sound.foreignClose (hSound : p.Sound) (hOpen : p.table fd = some .foreign) :
    (p.close fd).Sound := by
  have hTable (x : Nat) (hx : x ≠ fd) : (p.close fd).table x = p.table x := Function.update_of_ne hx ..
  have hOwn : (p.close fd).table fd = none := Function.update_self ..
  refine hSound.rewired ⟨rfl, rfl, rfl, hTable, fun _ _ => rfl,
    fun x hx => Function.update_of_ne hx .., fun _ => rfl, fun _ => rfl⟩ ?_ ?_ ?_ ?_ ?_ ?_
  · rw [hOpen]
    trivial
  · rw [hOwn]
    trivial
  · rw [registered_free hOwn]
    refine (hSound.handlers fd).trans ?_
    rw [registered, hOpen]
    rfl
  · rw [registered_free hOwn]
    simp [close]
  · refine hSound.port_of_lines hTable (fun j n hPort => ?_) (fun j n hPort => ?_) rfl
    · rw [hOpen] at hPort
      cases hPort
    · rw [hOwn] at hPort
      cases hPort
  · exact hSound.attached

theorem Sound.watchOther (hSound : p.Sound) (hFree : p.table fd = none) (k : Nat) :
    ((p.openAs fd (.other k)).watch fd (.other k)).Sound := by
  have hWatch := hSound.watch_free hFree (.other k)
  have hDispatcher : ((p.openAs fd (.other k)).watch fd (.other k)).dispatcher = _ := hWatch
  have hTable (x : Nat) (hx : x ≠ fd) :
      ((p.openAs fd (.other k)).watch fd (.other k)).table x = p.table x :=
    (openAs_table fd x _).trans (if_neg hx)
  have hOwn : ((p.openAs fd (.other k)).watch fd (.other k)).table fd = some (.other k) :=
    (openAs_table fd fd _).trans (if_pos rfl)
  have hRegistered : ((p.openAs fd (.other k)).watch fd (.other k)).registered fd =
      some (.other k) := by
    rw [registered, hOwn]
    rfl
  refine hSound.rewired ⟨rfl, rfl, ?_, hTable, ?_, ?_, fun _ => rfl, fun _ => rfl⟩
    ?_ ?_ ?_ ?_ ?_ ?_
  · rw [hDispatcher]
  · intro x hx
    rw [hDispatcher]
    exact Function.update_of_ne hx ..
  · intro x hx
    rw [hDispatcher]
    exact Function.update_of_ne hx ..
  · rw [hFree]
    trivial
  · rw [hOwn]
    trivial
  · rw [hRegistered, hDispatcher]
    exact Function.update_self ..
  · rw [hRegistered, hDispatcher]
    simp
  · refine hSound.port_of_lines hTable (fun j n hPort => ?_) (fun j n hPort => ?_) rfl
    · rw [hFree] at hPort
      cases hPort
    · rw [hOwn] at hPort
      cases hPort
  · exact hSound.attached

theorem Sound.port_ne_timer (hSound : p.Sound) (hFd : (p.lines i).fd = some fd) (j : ι) :
    fd ≠ (p.lines j).timerFd := by
  rintro rfl
  have hOpen := (hSound.port _ i (p.lines i).session).mpr ⟨hFd, rfl⟩
  rw [hSound.timerFd] at hOpen
  cases hOpen

variable [DecidableEq ι]

@[simp] theorem onLine_lines (f : UartTransport → UartTransport) (j : ι) :
    (p.onLine i f).lines j = if j = i then f (p.lines i) else p.lines j := Function.update_apply ..

/-- A change of a line's timer or of what its sink has been told. -/
theorem sameDescriptors_onLine {f : UartTransport → UartTransport}
    (hTimerFd : (f (p.lines i)).timerFd = (p.lines i).timerFd)
    (hFd : (f (p.lines i)).fd = (p.lines i).fd)
    (hSession : (f (p.lines i)).session = (p.lines i).session)
    (hAttached : (f (p.lines i)).attached = (p.lines i).attached) :
    SameDescriptors p (p.onLine i f) := by
  refine ⟨rfl, rfl, rfl, rfl, rfl, rfl, ?_, ?_, ?_, ?_⟩ <;> intro j <;> rw [onLine_lines] <;>
    split <;> simp_all

/-! ### The operations of a line -/

theorem tryOpen_lines (opened : Option Nat) (j : ι) :
    (p.tryOpen i opened).lines j = if j = i then (p.lines i).afterOpen opened else p.lines j := by
  cases opened with
  | none => exact onLine_lines ..
  | some fd =>
    simp only [tryOpen, onLine_lines, watch, openAs]
    split <;> simp_all [UartTransport.tell, UartTransport.afterOpen]

theorem tryOpen_table (opened : Option Nat) {x : Nat} (hx : opened ≠ some x) :
    (p.tryOpen i opened).table x = p.table x := by
  cases opened with
  | none => rfl
  | some fd => exact (openAs_table fd x _).trans (if_neg fun h => hx (congrArg some h.symm))

theorem closeFd_closed (hFd : (p.lines i).fd = none) : p.closeFd i = p := by
  rw [closeFd, hFd]

theorem closeFd_lines (j : ι) :
    (p.closeFd i).lines j = if j = i then { p.lines i with fd := none } else p.lines j := by
  cases hFd : (p.lines i).fd with
  | none =>
    rw [closeFd_closed hFd]
    split
    · rename_i hj
      rw [hj, ← hFd]
    · rfl
  | some fd =>
    have hLines : ((if (p.lines i).attached then p.unwatch fd else p).close fd).lines = p.lines := by
      split <;> rfl
    rw [closeFd, hFd]
    simp only [onLine_lines, hLines]

theorem closeFd_loop : (p.closeFd i).loop = p.loop := by
  rw [closeFd]
  split
  · rfl
  · simp only [onLine, close]
    split <;> rfl

theorem closeFd_fd : ((p.closeFd i).lines i).fd = none := by
  rw [closeFd_lines, if_pos rfl]

theorem closeFd_table {x : Nat} (hx : (p.lines i).fd ≠ some x) : (p.closeFd i).table x = p.table x := by
  cases hFd : (p.lines i).fd with
  | none => rw [closeFd_closed hFd]
  | some fd =>
    have hNe : x ≠ fd := fun h => hx (hFd.trans (congrArg some h.symm))
    have hTable : (if (p.lines i).attached then p.unwatch fd else p).table = p.table := by
      split <;> rfl
    rw [closeFd, hFd]
    exact (Function.update_of_ne hNe ..).trans (congrFun hTable x)

theorem Sound.closeFd_eq (hSound : p.Sound) (hFd : (p.lines i).fd = some fd) : p.closeFd i =
    ((p.unwatch fd).close fd).onLine i fun line => { line with fd := none } := by
  rw [Process.closeFd, hFd]
  simp [hSound.attached i fd hFd]

theorem Sound.tryOpen (hSound : p.Sound) (hUp : (p.lines i).attached) (hDown : (p.lines i).fd = none)
    {opened : Option Nat} (hFree : opened.all p.isFree) : (p.tryOpen i opened).Sound := by
  cases opened with
  | none => exact hSound.congr (sameDescriptors_onLine rfl rfl rfl rfl)
  | some fd =>
    have hNone : p.table fd = none := of_decide_eq_true hFree
    have hTable (x : Nat) : (p.tryOpen i (some fd)).table x =
        if x = fd then some (.port i ((p.lines i).session + 1)) else p.table x := Function.update_apply ..
    have hLine (j : ι) : (p.tryOpen i (some fd)).lines j =
        if j = i then (p.lines i).afterOpen (some fd) else p.lines j := tryOpen_lines ..
    have hWatch : (p.tryOpen i (some fd)).dispatcher = _ := hSound.watch_free hNone (.readable i)
    have hRegistered : (p.tryOpen i (some fd)).registered fd = some (.readable i) := by
      rw [registered, hTable, if_pos rfl]
      rfl
    refine hSound.rewired (⟨?_, ?_, ?_, ?_, ?_, ?_, ?_, ?_⟩ : RewiredAt fd _ _) ?_ ?_ ?_ ?_ ?_ ?_
    · rw [hWatch]
    · rw [hWatch]
    · rw [hWatch]
    · exact fun x hx => (hTable x).trans (if_neg hx)
    · intro x hx
      rw [hWatch]
      exact Function.update_of_ne hx ..
    · intro x hx
      rw [hWatch]
      exact Function.update_of_ne hx ..
    · intro j
      rw [hLine]
      split <;> simp_all [UartTransport.afterOpen]
    · intro j
      rw [hLine]
      split <;> simp_all [UartTransport.afterOpen]
    · rw [hNone]
      trivial
    · rw [hTable, if_pos rfl]
      trivial
    · rw [hRegistered, hWatch]
      exact Function.update_self ..
    · rw [hRegistered, hWatch]
      simp
    · intro x j n
      rw [hTable, hLine]
      have hPort := hSound.port x j n
      by_cases hx : x = fd
      · rw [if_pos hx]
        by_cases hj : j = i
        · simp [hx, hj, UartTransport.afterOpen]
        · rw [if_neg hj, ← hPort, hx, hNone]
          simp [Ne.symm hj]
      · rw [if_neg hx]
        by_cases hj : j = i
        · rw [hPort, hj, hDown]
          simp [Ne.symm hx, UartTransport.afterOpen]
        · rw [if_neg hj, hPort]
    · intro j x hx
      rw [hLine] at hx
      split at hx
      · rename_i hj
        rw [hj, hUp]
      · exact hSound.attached j x hx

theorem Sound.closeFd (hSound : p.Sound) : (p.closeFd i).Sound := by
  cases hFd : (p.lines i).fd with
  | none =>
    rw [Process.closeFd, hFd]
    exact hSound
  | some fd =>
    have hOpen := (hSound.port fd i (p.lines i).session).mpr ⟨hFd, rfl⟩
    have hClose := hSound.closeFd_eq hFd
    have hTable (x : Nat) : (p.closeFd i).table x = if x = fd then none else p.table x := by
      rw [hClose]
      exact Function.update_apply ..
    have hLine (j : ι) : (p.closeFd i).lines j =
        if j = i then { p.lines i with fd := none } else p.lines j := closeFd_lines j
    refine hSound.rewired (⟨?_, ?_, ?_, ?_, ?_, ?_, ?_, ?_⟩ : RewiredAt fd _ _) ?_ ?_ ?_ ?_ ?_ ?_
    · rw [hClose]
      rfl
    · rw [hClose]
      rfl
    · rw [hClose]
      rfl
    · exact fun x hx => (hTable x).trans (if_neg hx)
    · intro x hx
      rw [hClose]
      exact Function.update_of_ne hx ..
    · intro x hx
      rw [hClose]
      exact (Function.update_of_ne hx ..).trans (Function.update_of_ne hx ..)
    · intro j
      rw [hLine]
      split <;> simp_all
    · intro j
      rw [hLine]
      split <;> simp_all
    · rw [hOpen]
      trivial
    · rw [hTable, if_pos rfl]
      trivial
    · rw [registered_free ((hTable fd).trans (if_pos rfl)), hClose]
      exact Function.update_self ..
    · rw [registered_free ((hTable fd).trans (if_pos rfl)), hClose]
      refine iff_of_false ?_ (by simp)
      rw [Bool.not_eq_true]
      exact Function.update_self ..
    · intro x j n
      rw [hTable, hLine]
      have hPort := hSound.port x j n
      by_cases hx : x = fd
      · rw [if_pos hx]
        by_cases hj : j = i
        · simp [hj]
        · rw [if_neg hj, ← hPort, hx, hOpen]
          simp [Ne.symm hj]
      · rw [if_neg hx]
        by_cases hj : j = i
        · rw [hPort, hj, hFd]
          simp [Ne.symm hx]
        · rw [if_neg hj, hPort]
    · intro j x hx
      rw [hLine] at hx
      split at hx
      · cases hx
      · exact hSound.attached j x hx

/-- The handler of a line's timer comes or goes with `dispatcher_`. -/
def switch (p : Process ι) (i : ι) (on : Bool) : Process ι :=
  { p with
    dispatcher := { p.dispatcher with
      handlers := Function.update p.dispatcher.handlers (p.lines i).timerFd
        (if on then some (.reopenTick i) else none)
      interest := Function.update p.dispatcher.interest (p.lines i).timerFd on }
    lines := Function.update p.lines i { p.lines i with attached := on } }

theorem switch_lines (on : Bool) (j : ι) :
    (p.switch i on).lines j = if j = i then { p.lines i with attached := on } else p.lines j :=
  Function.update_apply ..

theorem Sound.registered_switch (hSound : p.Sound) (on : Bool) (x : Nat) :
    (p.switch i on).registered x =
      if x = (p.lines i).timerFd then (if on then some (.reopenTick i) else none) else p.registered x := by
  have hTable : (p.switch i on).table = p.table := rfl
  simp only [registered, hTable]
  by_cases hx : x = (p.lines i).timerFd
  · rw [if_pos hx, hx, hSound.timerFd]
    simp only [switch_lines, if_pos]
  · rw [if_neg hx]
    cases hDevice : p.table x with
    | none => rfl
    | some device =>
      cases device with
      | reopenTimer j =>
        have hj : j ≠ i := fun hj => hx (hj ▸ hSound.timer x j hDevice)
        simp only [switch_lines, if_neg hj]
      | _ => rfl

theorem Sound.switch (hSound : p.Sound) (on : Bool) (hDown : (p.lines i).fd = none) :
    (p.switch i on).Sound := by
  have hField {α : Type} (f : UartTransport → α) (hf : ∀ line on, f { line with attached := on } = f line)
      (j : ι) : f ((p.switch i on).lines j) = f (p.lines j) := by
    rw [switch_lines]
    split
    · rename_i hj
      rw [hf, hj]
    · rfl
  have hFds (j : ι) := hField UartTransport.fd (fun _ _ => rfl) j
  have hTimerFds (j : ι) := hField UartTransport.timerFd (fun _ _ => rfl) j
  have hSessions (j : ι) := hField UartTransport.session (fun _ _ => rfl) j
  have hTimer := hSound.timerFd i
  refine ⟨hSound.signalfd, hSound.wakefd, ?_, ?_, ?_, ?_, ?_, ?_, hSound.threw⟩
  · exact fun j => (congrArg p.table (hTimerFds j)).trans (hSound.timerFd j)
  · exact fun x j hx => (hSound.timer x j hx).trans (hTimerFds j).symm
  · intro x j n
    rw [hFds, hSessions]
    exact hSound.port x j n
  · intro j x hx
    rw [hFds] at hx
    have hj : j ≠ i := by
      rintro rfl
      rw [hDown] at hx
      cases hx
    rw [switch_lines, if_neg hj]
    exact hSound.attached j x hx
  · intro x
    rw [hSound.registered_switch]
    refine (Function.update_apply ..).trans ?_
    rw [hSound.handlers]
  · intro x
    have hInterest : (p.switch i on).dispatcher.interest x =
        if x = (p.lines i).timerFd then on else p.dispatcher.interest x := Function.update_apply ..
    rw [hSound.registered_switch, hInterest]
    by_cases hx : x = (p.lines i).timerFd
    · have hSignals : x ≠ p.dispatcher.signalfd := by
        rintro rfl
        rw [← hx, hSound.signalfd] at hTimer
        cases hTimer
      have hWake : x ≠ p.dispatcher.wakefd := by
        rintro rfl
        rw [← hx, hSound.wakefd] at hTimer
        cases hTimer
      have hNeither : ¬(x = (p.switch i on).dispatcher.signalfd ∨ x = (p.switch i on).dispatcher.wakefd) :=
        fun h => h.elim hSignals hWake
      rw [if_pos hx, if_pos hx, or_iff_left hNeither]
      cases on <;> simp
    · rw [if_neg hx, if_neg hx]
      exact hSound.interest x

theorem Sound.start_eq (hSound : p.Sound) (hNew : (p.lines i).attached = false) (opened : Option Nat) :
    p.start i opened = (p.switch i true).tryOpen i opened := by
  have hNone : p.registered (p.lines i).timerFd = none := by
    rw [registered, hSound.timerFd]
    simp [hNew]
  have hInterest : p.dispatcher.interest (p.lines i).timerFd = false := by
    have hTimer := hSound.timerFd i
    rw [Bool.eq_false_iff, ne_eq, hSound.interest, hNone]
    rintro (hNone | hFd | hFd)
    · exact hNone rfl
    · rw [hFd, hSound.signalfd] at hTimer
      cases hTimer
    · rw [hFd, hSound.wakefd] at hTimer
      cases hTimer
  have hWatch : p.dispatcher.watch (p.lines i).timerFd (.reopenTick i) =
      (p.switch i true).dispatcher := by
    rw [Dispatcher.watch, hSound.handlers, hNone, hInterest, Bool.or_false]
    rfl
  rw [Process.start, onLine_lines, if_pos rfl]
  refine congrArg (fun q => Process.tryOpen q i opened) ?_
  rw [watch]
  refine Eq.trans ?_ (congrArg (fun d => { p.switch i true with dispatcher := d }) hWatch)
  rfl

theorem Sound.stop_eq (hSound : p.Sound) (hUp : (p.lines i).attached) :
    p.stop i = (p.closeFd i).switch i false := by
  cases hFd : (p.lines i).fd with
  | none =>
    rw [closeFd_closed hFd, Process.stop]
    simp only [hUp, if_true]
    rw [closeFd_closed (p := p.unwatch (p.lines i).timerFd) hFd]
    rfl
  | some fd =>
    have hNe := hSound.port_ne_timer hFd i
    have hDetached : (p.unwatch (p.lines i).timerFd).closeFd i =
        (((p.unwatch (p.lines i).timerFd).unwatch fd).close fd).onLine i
          fun line => { line with fd := none } := by
      rw [Process.closeFd]
      simp only [unwatch, hFd, hUp, if_true]
    rw [Process.stop]
    simp only [hUp, if_true]
    rw [hDetached, hSound.closeFd_eq hFd]
    simp only [Process.switch, onLine, unwatch, Dispatcher.unwatch, close, Function.update_self,
      Function.update_idem, Function.update_comm hNe, Bool.false_eq_true, if_false]

theorem Sound.stop (hSound : p.Sound) : (p.stop i).Sound := by
  by_cases hUp : (p.lines i).attached
  · rw [hSound.stop_eq hUp]
    exact hSound.closeFd.switch false closeFd_fd
  · have hDown : (p.lines i).fd = none := by
      cases hFd : (p.lines i).fd with
      | none => rfl
      | some fd => exact absurd (hSound.attached i fd hFd) hUp
    rw [Process.stop, if_neg hUp, closeFd_closed hDown]
    exact hSound.congr (sameDescriptors_onLine rfl rfl rfl (by simp [hUp]))

theorem Sound.start (hSound : p.Sound) (hNew : (p.lines i).attached = false) {opened : Option Nat}
    (hFree : opened.all p.isFree) : (p.start i opened).Sound := by
  have hDown : (p.lines i).fd = none := by
    cases hFd : (p.lines i).fd with
    | none => rfl
    | some fd =>
      have hUp := hSound.attached i fd hFd
      rw [hNew] at hUp
      cases hUp
  rw [hSound.start_eq hNew]
  refine (hSound.switch true hDown).tryOpen ?_ ?_ hFree
  · rw [switch_lines, if_pos rfl]
  · rw [switch_lines, if_pos rfl, hDown]

end Process

end BmsBridge

import BmsBridge.Uart.Proof.Descriptors

/-! Runs of the dispatcher's thread with serial lines: what can happen to a line, whose event it is
that a handler is called for, and how the loop ends. -/

namespace BmsBridge

/-! ### One line -/

namespace UartTransport

/-- The sink's view of the link, which a call changes; none if the call is out of order. -/
def follow (up : Bool) : SinkCall → Option Bool
  | .connected => if up then none else some true
  | .disconnected => if up then some false else none
  | .bytes _ => if up then some true else none

def followed (calls : List SinkCall) : Option Bool := calls.foldlM follow false

theorem followed_append (calls more : List SinkCall) :
    followed (calls ++ more) = (followed calls).bind fun up => more.foldlM follow up :=
  List.foldlM_append

theorem follow_chunks (chunks : List (List UInt8)) :
    (chunks.map SinkCall.bytes).foldlM follow true = some true := by
  induction chunks with
  | nil => rfl
  | cons chunk chunks ih =>
    rw [List.map_cons, List.foldlM_cons]
    exact ih

/-- What a line and its sink agree about.  A line without a port waits for its timer, unless the timer
refuses the time. -/
structure Linked (line : UartTransport) : Prop where
  idle : line.fd ≠ none → line.reopenTimer = .disarmed
  pending : line.attached → line.fd = none → (line.reopenTimer ≠ .disarmed ↔ 0 ≤ line.reconnectMs)
  told : line.attached → followed line.calls = some line.fd.isSome
  ordered : followed line.calls ≠ none
  chunks : ∀ data, .bytes data ∈ line.calls → 0 < data.length ∧ data.length ≤ 512

/-- A line that has not been started. -/
structure Fresh (line : UartTransport) : Prop where
  fd : line.fd = none
  reopenTimer : line.reopenTimer = .disarmed
  calls : line.calls = []

/-- What can happen to a line. -/
inductive Moves (line : UartTransport) : UartTransport → Prop where
  | same : Moves line line
  | expire : line.reopenTimer = .armed → Moves line { line with reopenTimer := .expired }
  | start (opened : Option Nat) : line.Fresh →
    Moves line ({ line with attached := true }.afterOpen opened)
  | tick (opened : Option Nat) : line.attached → line.fd = none → line.reopenTimer = .expired →
    Moves line ({ line with reopenTimer := .disarmed }.afterOpen opened)
  | read (reads : Reads) : line.attached → line.fd ≠ none → reads.fit →
    Moves line (line.tell (reads.chunks.map .bytes))
  | lost (reads : Reads) : line.attached → line.fd ≠ none → reads.fit →
    Moves line { line with
      fd := none
      reopenTimer := line.reopenTimer.arm line.reconnectMs
      calls := line.calls ++ reads.chunks.map .bytes ++ [.disconnected] }
  | stop : Moves line { line with fd := none, attached := false }

variable {line line' : UartTransport}

/-- A timer that is armed while it is idle waits from then on, unless it refuses the time. -/
theorem arm_waits {t : TimerFd} (hIdle : t = .disarmed) (ms : Int) : t.arm ms ≠ .disarmed ↔ 0 ≤ ms := by
  rw [TimerFd.arm_eq, hIdle]
  split
  · rename_i hms
    simpa using hms
  · rename_i hms
    exact iff_of_false (fun h => h rfl) hms

theorem linked_afterOpen {opened : Option Nat} (hDown : line.fd = none) (hIdle : line.reopenTimer = .disarmed)
    (hTold : followed line.calls = some false)
    (hChunks : ∀ data, .bytes data ∈ line.calls → 0 < data.length ∧ data.length ≤ 512) :
    (line.afterOpen opened).Linked := by
  cases opened with
  | none =>
    refine ⟨fun hFd => absurd hDown hFd, fun _ _ => arm_waits hIdle _, fun _ => ?_, ?_, hChunks⟩
    · exact hTold.trans (congrArg (fun fd : Option Nat => some fd.isSome) hDown).symm
    · exact hTold ▸ Option.some_ne_none _
  | some fd =>
    have hUp : followed (line.calls ++ [.connected]) = some true := by
      rw [followed_append, hTold]
      rfl
    refine ⟨fun _ => hIdle, fun _ hFd => ?_, fun _ => hUp, ?_, fun data hData => ?_⟩
    · cases hFd
    · exact hUp ▸ Option.some_ne_none _
    · refine hChunks data ((List.mem_append.mp hData).resolve_right ?_)
      simp

theorem Reads.mem_fit {reads : Reads} (hFit : reads.fit) {data : List UInt8}
    (hData : SinkCall.bytes data ∈ reads.chunks.map SinkCall.bytes) :
    0 < data.length ∧ data.length ≤ 512 := by
  obtain ⟨chunk, hChunk, hEq⟩ := List.mem_map.mp hData
  cases hEq
  simpa using List.all_eq_true.mp hFit data hChunk

theorem Linked.told_chunks (h : line.Linked) (hAttached : line.attached) (hUp : line.fd ≠ none)
    (reads : Reads) : followed (line.calls ++ reads.chunks.map .bytes) = some true := by
  have hSome : line.fd.isSome = true := Option.isSome_iff_ne_none.mpr hUp
  rw [followed_append, h.told hAttached, hSome]
  exact follow_chunks reads.chunks

theorem Linked.moves (h : line.Linked) (hMoves : line.Moves line') : line'.Linked := by
  cases hMoves with
  | same => exact h
  | expire hArmed =>
    refine ⟨fun hFd => ?_, fun hUp hFd => ?_, h.told, h.ordered, h.chunks⟩
    · rw [h.idle hFd] at hArmed
      cases hArmed
    · refine iff_of_true (by simp) ((h.pending hUp hFd).mp ?_)
      rw [hArmed]
      simp
  | start opened hFresh =>
    refine linked_afterOpen hFresh.fd hFresh.reopenTimer ?_ h.chunks
    show followed line.calls = some false
    rw [hFresh.calls]
    rfl
  | tick opened hUp hDown hExpired =>
    refine linked_afterOpen hDown rfl ?_ h.chunks
    have hTold := h.told hUp
    rwa [hDown] at hTold
  | read reads hAttached hUp hFit =>
    have hTold := h.told_chunks hAttached hUp reads
    refine ⟨h.idle, h.pending, fun _ => ?_, ?_, fun data hData => ?_⟩
    · exact hTold.trans (congrArg some (Option.isSome_iff_ne_none.mpr hUp).symm)
    · exact hTold ▸ Option.some_ne_none _
    · exact (List.mem_append.mp hData).elim (h.chunks data) (Reads.mem_fit hFit)
  | lost reads hAttached hUp hFit =>
    have hTold : followed (line.calls ++ reads.chunks.map .bytes ++ [.disconnected]) = some false := by
      rw [followed_append, h.told_chunks hAttached hUp reads]
      rfl
    refine ⟨fun hFd => absurd rfl hFd, fun _ _ => arm_waits (h.idle hUp) _, fun _ => hTold, ?_,
      fun data hData => ?_⟩
    · exact hTold ▸ Option.some_ne_none _
    · have hData := (List.mem_append.mp hData).resolve_right (by simp)
      exact (List.mem_append.mp hData).elim (h.chunks data) (Reads.mem_fit hFit)
  | stop =>
    exact ⟨fun hFd => absurd rfl hFd, fun hUp => absurd hUp (by simp), fun hUp => absurd hUp (by simp),
      h.ordered, h.chunks⟩

end UartTransport

/-! ### The thread -/

namespace Process

variable {ι : Type} [DecidableEq ι] {p p' : Process ι} {i : ι} {fd : Nat} {device : Device ι}
  {events : List (Nat × Device ι)}

/-- The events that are left of a batch are about the descriptors that `epoll_wait` has reported, and
the timers among them are still to be read. -/
structure Watched (p : Process ι) (events : List (Nat × Device ι)) : Prop where
  current : Batch.Current p.table events
  own : ∀ e ∈ events, e.2 ≠ .foreign
  timers : ∀ fd i, (fd, .reopenTimer i) ∈ events →
    (p.lines i).attached ∧ (p.lines i).reopenTimer = .expired

structure Good (p : Process ι) : Prop where
  sound : p.Sound
  linked : ∀ i, (p.lines i).Linked
  fresh : p.loop = .before → ∀ i, (p.lines i).attached = false → (p.lines i).Fresh
  batch : ∀ events, p.loop = .handling events → p.Watched events

/-- What the handler of an event does: the reads of a line from its own port, or an attempt to open a
port that is not open, or nothing to the lines. -/
inductive Handles (p : Process ι) (fd : Nat) (answers : Answers) : Process ι → Prop where
  | read (i : ι) : (p.lines i).fd = some fd → Handles p fd answers (p.onReadable i answers.reads)
  | tick (i : ι) : fd = (p.lines i).timerFd → (p.lines i).attached → (p.lines i).fd = none →
    (p.lines i).reopenTimer = .expired → Handles p fd answers
      ((p.onLine i fun line => { line with reopenTimer := .disarmed }).tryOpen i answers.opened)
  | other (p' : Process ι) : SameDescriptors p p' → p'.lines = p.lines → Handles p fd answers p'

theorem Good.handle_cases (hGood : p.Good) (hWatched : p.Watched ((fd, device) :: events))
    (answers : Answers) : Handles p fd answers (p.handle answers fd) := by
  have hSound := hGood.sound
  have hDevice := hWatched.current.means _ (List.mem_cons_self ..)
  rw [handle]
  split
  · exact .other _ ⟨rfl, rfl, rfl, rfl, rfl, rfl, fun _ => rfl, fun _ => rfl, fun _ => rfl, fun _ => rfl⟩
      rfl
  split
  · exact .other _ ⟨rfl, rfl, rfl, rfl, rfl, rfl, fun _ => rfl, fun _ => rfl, fun _ => rfl, fun _ => rfl⟩
      rfl
  rw [hSound.handlers, registered, hDevice]
  cases device with
  | reopenTimer j =>
    obtain ⟨hUp, hExpired⟩ := hWatched.timers fd j (List.mem_cons_self ..)
    have hDown : (p.lines j).fd = none := by
      by_contra hFd
      rw [(hGood.linked j).idle hFd] at hExpired
      cases hExpired
    have hTick : p.call answers (.reopenTick j) =
        (p.onLine j fun line => { line with reopenTimer := .disarmed }).tryOpen j answers.opened := by
      have hConsume : (p.onLine j fun line => { line with reopenTimer := line.reopenTimer.consume }) =
          p.onLine j fun line => { line with reopenTimer := .disarmed } := by
        simp only [onLine, hExpired]
        rfl
      rw [call, hConsume, onReopenTick, onLine_lines, if_pos rfl]
      simp only [hDown]
    simp only [hUp, if_true]
    rw [hTick]
    exact .tick j (hSound.timer fd j hDevice) hUp hDown hExpired
  | port j n =>
    exact .read j ((hSound.port fd j n).mp hDevice).1
  | _ =>
    exact .other _ ⟨rfl, rfl, rfl, rfl, rfl, rfl, fun _ => rfl, fun _ => rfl, fun _ => rfl, fun _ => rfl⟩
      rfl

/-- What `on_readable` does to the lines. -/
theorem onReadable_lines (reads : UartTransport.Reads) (j : ι) :
    (p.onReadable i reads).lines j =
      if j = i then match reads.last with
        | .noData => (p.lines i).tell (reads.chunks.map .bytes)
        | .failed => { p.lines i with
            fd := none
            reopenTimer := (p.lines i).reopenTimer.arm (p.lines i).reconnectMs
            calls := (p.lines i).calls ++ reads.chunks.map .bytes ++ [.disconnected] }
      else p.lines j := by
  cases hLast : reads.last with
  | noData =>
    simp only [onReadable, hLast]
    exact onLine_lines ..
  | failed =>
    simp only [onReadable, hLast, onLine_lines, closeFd_lines, if_true]
    split
    · rfl
    · rfl

/-- Every line does one of its moves while an event is handled. -/
theorem Handles.moves {answers : Answers} (h : Handles p fd answers p') (hGood : p.Good)
    (hFit : answers.reads.fit) (j : ι) : (p.lines j).Moves (p'.lines j) := by
  cases h with
  | read i hFd =>
    rw [onReadable_lines]
    split
    · rename_i hj
      subst hj
      have hUp := hGood.sound.attached j fd hFd
      have hSome : (p.lines j).fd ≠ none := by simp [hFd]
      cases hLast : answers.reads.last with
      | noData => exact .read _ hUp hSome hFit
      | failed => exact .lost _ hUp hSome hFit
    · exact .same
  | tick i hTimer hUp hDown hExpired =>
    rw [tryOpen_lines]
    split
    · rename_i hj
      subst hj
      rw [onLine_lines, if_pos rfl]
      exact .tick _ hUp hDown hExpired
    · rename_i hj
      rw [onLine_lines, if_neg hj]
      exact .same
  | other _ _ hLines =>
    rw [hLines]
    exact .same

theorem Handles.sound {answers : Answers} (h : Handles p fd answers p') (hGood : p.Good)
    (hFree : answers.opened.all p.isFree) : p'.Sound := by
  cases h with
  | read i hFd =>
    have hTold : (p.onLine i fun line => line.tell (answers.reads.chunks.map .bytes)).Sound :=
      hGood.sound.congr (sameDescriptors_onLine rfl rfl rfl rfl)
    rw [onReadable]
    cases answers.reads.last with
    | noData => exact hTold
    | failed => exact hTold.closeFd.congr (sameDescriptors_onLine rfl rfl rfl rfl)
  | tick i hTimer hUp hDown hExpired =>
    have hConsumed : (p.onLine i fun line => { line with reopenTimer := .disarmed }).Sound :=
      hGood.sound.congr (sameDescriptors_onLine rfl rfl rfl rfl)
    refine hConsumed.tryOpen ?_ ?_ hFree
    · rw [onLine_lines, if_pos rfl, hUp]
    · rw [onLine_lines, if_pos rfl, hDown]
  | other _ hSame _ => exact hGood.sound.congr hSame

/-- An event's handler leaves all other descriptors what they are, and opens one that is not in use. -/
theorem Handles.table {answers : Answers} (h : Handles p fd answers p')
    (hFree : answers.opened.all p.isFree) {x : Nat} (hx : x ≠ fd) (hSome : p.table x ≠ none) :
    p'.table x = p.table x := by
  cases h with
  | read i hFd =>
    rw [onReadable]
    cases answers.reads.last with
    | noData => rfl
    | failed =>
      refine (closeFd_table (p := p.onLine i _) fun hFd' => ?_)
      rw [onLine_lines, if_pos rfl] at hFd'
      exact hx (Option.some.inj (hFd'.symm.trans hFd))
  | tick i hTimer hUp hDown hExpired =>
    refine tryOpen_table _ fun hx' => ?_
    rw [hx'] at hFree
    exact hSome (of_decide_eq_true hFree)
  | other _ hSame _ => rw [hSame.table]

/-- The timers of other events stay expired. -/
theorem Handles.timer {answers : Answers} (h : Handles p fd answers p') (hGood : p.Good) {j : ι}
    (hOther : fd ≠ (p.lines j).timerFd) (hExpired : (p.lines j).reopenTimer = .expired) :
    p'.lines j = p.lines j := by
  cases h with
  | read i hFd =>
    rw [onReadable_lines, if_neg]
    rintro rfl
    have hIdle := (hGood.linked j).idle (by simp [hFd])
    rw [hExpired] at hIdle
    cases hIdle
  | tick i hTimer hUp hDown _ =>
    have hj : j ≠ i := by
      rintro rfl
      exact hOther hTimer
    rw [tryOpen_lines, if_neg hj, onLine_lines, if_neg hj]
  | other _ _ hLines => rw [hLines]

theorem Handles.watched {answers : Answers} (h : Handles p fd answers p') (hGood : p.Good)
    (hWatched : p.Watched ((fd, device) :: events)) (hFree : answers.opened.all p.isFree) :
    p'.Watched events where
  current := hWatched.current.handled fun _ hx hSome => h.table hFree hx hSome
  own := fun e he => hWatched.own e (List.mem_cons_of_mem _ he)
  timers := fun x j hMem => by
    obtain ⟨hUp, hExpired⟩ := hWatched.timers x j (List.mem_cons_of_mem _ hMem)
    have hTimer := hGood.sound.timer x j (hWatched.current.tail.means _ hMem)
    have hOther : fd ≠ (p.lines j).timerFd := by
      intro hFd
      have hFirst := (List.nodup_cons.mp hWatched.current.distinct).1
      rw [← hTimer] at hFd
      exact hFirst (List.mem_map.mpr ⟨_, hMem, hFd.symm⟩)
    rw [h.timer hGood hOther hExpired]
    exact ⟨hUp, hExpired⟩

/-! ### Steps -/

omit [DecidableEq ι] in
theorem Watched.congr (h : p.Watched events)
    (hTable : ∀ e ∈ events, p.table e.1 ≠ none → p'.table e.1 = p.table e.1)
    (hLines : ∀ fd j, (fd, .reopenTimer j) ∈ events → p'.lines j = p.lines j) : p'.Watched events where
  current := h.current.congr hTable
  own := h.own
  timers := fun fd j hMem => by
    rw [hLines fd j hMem]
    exact h.timers fd j hMem

omit [DecidableEq ι] in
/-- A step that only moves the loop, or that happens beside it. -/
theorem Good.congr (hGood : p.Good) (hSame : SameDescriptors p p') (hLines : p'.lines = p.lines)
    (hLoop : p'.loop = p.loop ∨ (p'.loop ≠ .before ∧ ∀ events, p'.loop ≠ .handling events)) :
    p'.Good where
  sound := hGood.sound.congr hSame
  linked := fun i => by
    rw [hLines]
    exact hGood.linked i
  fresh := fun hBefore i hNew => by
    rcases hLoop with hLoop | ⟨hLoop, -⟩
    · rw [hLines] at hNew ⊢
      exact hGood.fresh (hLoop.symm.trans hBefore) i hNew
    · exact absurd hBefore hLoop
  batch := fun events hHandling => by
    rcases hLoop with hLoop | ⟨-, hLoop⟩
    · exact (hGood.batch events (hLoop.symm.trans hHandling)).congr (fun _ _ _ => by rw [hSame.table])
        fun _ _ _ => by rw [hLines]
    · exact absurd hHandling (hLoop events)

theorem Good.start (hGood : p.Good) (hBefore : p.loop = .before) (hNew : (p.lines i).attached = false)
    {opened : Option Nat} (hFree : opened.all p.isFree) : (p.start i opened).Good := by
  have hFresh := hGood.fresh hBefore i hNew
  have hLine (j : ι) : (p.start i opened).lines j =
      if j = i then { p.lines i with attached := true }.afterOpen opened else p.lines j := by
    rw [hGood.sound.start_eq hNew, tryOpen_lines, switch_lines, switch_lines, if_pos rfl]
    split
    · rfl
    · rfl
  have hLoop : (p.start i opened).loop = .before := by
    rw [hGood.sound.start_eq hNew, ← hBefore]
    cases opened <;> rfl
  have hAttached (line : UartTransport) : (line.afterOpen opened).attached = line.attached := by
    cases opened <;> rfl
  refine ⟨hGood.sound.start hNew hFree, fun j => ?_, fun _ j hj => ?_, fun events hHandling => ?_⟩
  · rw [hLine]
    split
    · exact (hGood.linked i).moves (.start opened hFresh)
    · exact hGood.linked j
  · rw [hLine] at hj ⊢
    split at hj
    · rw [hAttached] at hj
      cases hj
    · rename_i hNe
      rw [if_neg hNe]
      exact hGood.fresh hBefore j hj
  · rw [hLoop] at hHandling
    cases hHandling

omit [DecidableEq ι] in
theorem Good.watchOther (hGood : p.Good) (hBefore : p.loop = .before) (hFree : p.table fd = none)
    (k : Nat) : ((p.openAs fd (.other k)).watch fd (.other k)).Good where
  sound := hGood.sound.watchOther hFree k
  linked := hGood.linked
  fresh := fun _ => hGood.fresh hBefore
  batch := fun events hHandling => by
    have hLoop : p.loop = .handling events := hHandling
    rw [hBefore] at hLoop
    cases hLoop

omit [DecidableEq ι] in
theorem Good.foreignOpen (hGood : p.Good) (hFree : p.table fd = none) : (p.openAs fd .foreign).Good where
  sound := hGood.sound.foreignOpen hFree
  linked := hGood.linked
  fresh := hGood.fresh
  batch := fun events hHandling => by
    refine (hGood.batch events hHandling).congr (fun e _ hSome => ?_) fun _ _ _ => rfl
    rw [openAs_table, if_neg]
    rintro rfl
    exact hSome hFree

omit [DecidableEq ι] in
theorem Good.foreignClose (hGood : p.Good) (hOpen : p.table fd = some .foreign) : (p.close fd).Good where
  sound := hGood.sound.foreignClose hOpen
  linked := hGood.linked
  fresh := hGood.fresh
  batch := fun events hHandling => by
    have hWatched := hGood.batch events hHandling
    refine hWatched.congr (fun e he _ => ?_) fun _ _ _ => rfl
    refine Function.update_of_ne (fun hFd => ?_) ..
    have hDevice := hWatched.current.means e he
    rw [hFd, hOpen] at hDevice
    exact hWatched.own e he (Option.some.inj hDevice).symm

theorem Good.expire (hGood : p.Good) (hArmed : (p.lines i).reopenTimer = .armed) :
    (p.onLine i fun line => { line with reopenTimer := .expired }).Good where
  sound := hGood.sound.congr (sameDescriptors_onLine rfl rfl rfl rfl)
  linked := fun j => by
    rw [onLine_lines]
    split
    · exact (hGood.linked i).moves (.expire hArmed)
    · exact hGood.linked j
  fresh := fun hBefore j hNew => by
    rw [onLine_lines] at hNew ⊢
    split at hNew
    · rw [(hGood.fresh hBefore i hNew).reopenTimer] at hArmed
      cases hArmed
    · rename_i hj
      rw [if_neg hj]
      exact hGood.fresh hBefore j hNew
  batch := fun events hHandling => by
    have hWatched := hGood.batch events hHandling
    refine hWatched.congr (fun _ _ _ => rfl) fun x j hMem => ?_
    rw [onLine_lines, if_neg]
    rintro rfl
    rw [(hWatched.timers x j hMem).2] at hArmed
    cases hArmed

omit [DecidableEq ι] in
theorem Good.wait (hGood : p.Good) {fds : List Nat} (hDistinct : fds.Nodup) (hReady : fds.all p.ready) :
    Good { p with loop := .handling (p.reported fds) } where
  sound := hGood.sound.congr ⟨rfl, rfl, rfl, rfl, rfl, rfl, fun _ => rfl, fun _ => rfl, fun _ => rfl,
    fun _ => rfl⟩
  linked := hGood.linked
  fresh := nofun
  batch := fun events hHandling => by
    cases hHandling
    have hMem (e : Nat × Device ι) (he : e ∈ p.reported fds) :
        p.table e.1 = some e.2 ∧ p.ready e.1 := by
      obtain ⟨fd, hFd, he⟩ := List.mem_filterMap.mp he
      obtain ⟨device, hDevice, rfl⟩ := Option.map_eq_some_iff.mp he
      exact ⟨hDevice, List.all_eq_true.mp hReady fd hFd⟩
    refine ⟨Batch.current_taken hDistinct, fun e he hForeign => ?_, fun fd i he => ?_⟩
    · obtain ⟨hDevice, hReady⟩ := hMem e he
      rw [ready, hDevice, hForeign] at hReady
      simp at hReady
    · obtain ⟨hDevice, hReady⟩ := hMem _ he
      simp only [ready, hDevice, Bool.and_eq_true, decide_eq_true_eq] at hReady
      refine ⟨?_, hReady.2⟩
      rcases (hGood.sound.interest fd).mp hReady.1 with hHandler | rfl | rfl
      · rw [registered, hDevice] at hHandler
        by_contra hUp
        exact hHandler (if_neg hUp)
      · rw [hGood.sound.signalfd] at hDevice
        cases hDevice
      · rw [hGood.sound.wakefd] at hDevice
        cases hDevice

theorem Good.stop (hGood : p.Good) (hReturned : p.loop = .returned) : (p.stop i).Good := by
  have hLine (j : ι) : (p.stop i).lines j =
      if j = i then { p.lines i with fd := none, attached := false } else p.lines j := by
    have hDetached : (if (p.lines i).attached then p.unwatch (p.lines i).timerFd else p).lines = p.lines := by
      split <;> rfl
    rw [Process.stop]
    simp only [onLine_lines, closeFd_lines, hDetached, if_true]
    split <;> rfl
  have hLoop : (p.stop i).loop = .returned := by
    rw [← hReturned, Process.stop]
    refine closeFd_loop.trans ?_
    split <;> rfl
  refine ⟨hGood.sound.stop, fun j => ?_, fun hBefore => ?_, fun events hHandling => ?_⟩
  · rw [hLine]
    split
    · exact (hGood.linked i).moves .stop
    · exact hGood.linked j
  · rw [hLoop] at hBefore
    cases hBefore
  · rw [hLoop] at hHandling
    cases hHandling

theorem Good.handle (hGood : p.Good) (hHandling : p.loop = .handling ((fd, device) :: events))
    {answers : Answers} (hValid : answers.valid p) :
    Good { p.handle answers fd with loop := .handling events } := by
  rw [Answers.valid, Bool.and_eq_true] at hValid
  have hWatched := hGood.batch _ hHandling
  have h := hGood.handle_cases hWatched answers
  refine ⟨(h.sound hGood hValid.1).congr ⟨rfl, rfl, rfl, rfl, rfl, rfl, fun _ => rfl, fun _ => rfl,
    fun _ => rfl, fun _ => rfl⟩, fun i => (hGood.linked i).moves (h.moves hGood hValid.2 i), nofun, ?_⟩
  intro events' hEvents
  cases hEvents
  exact (h.watched hGood hWatched hValid.1).congr (fun _ _ _ => rfl) fun _ _ _ => rfl

omit [DecidableEq ι] in
theorem Initial.good (h : p.Initial) : p.Good := by
  have hFresh (i : ι) : (p.lines i).Fresh ∧ (p.lines i).attached = false := by
    obtain ⟨_, _, hLine⟩ := h.lines i
    rw [hLine]
    exact ⟨⟨rfl, rfl, rfl⟩, rfl⟩
  refine ⟨h.sound, fun i => ?_, fun _ i _ => (hFresh i).1, fun events hHandling => ?_⟩
  · obtain ⟨⟨hFd, hIdle, hCalls⟩, hNew⟩ := hFresh i
    refine ⟨fun _ => hIdle, fun hUp => ?_, fun hUp => ?_, ?_, ?_⟩
    · rw [hNew] at hUp
      cases hUp
    · rw [hNew] at hUp
      cases hUp
    · rw [hCalls]
      exact Option.some_ne_none false
    · rw [hCalls]
      exact fun _ => nofun
  · rw [h.loop] at hHandling
    cases hHandling

theorem Good.step {l : Label ι} (hGood : p.Good) (hStep : p.step l = some p') : p'.Good := by
  have hSame {q : Process ι} (hTable : q.table = p.table) (hDispatcher : q.dispatcher = p.dispatcher)
      (hLines : q.lines = p.lines) : SameDescriptors p q := by
    refine ⟨hTable, ?_, ?_, ?_, ?_, ?_, ?_, ?_, ?_, ?_⟩ <;> first
      | rw [hDispatcher]
      | (intro j; rw [hLines])
  cases l with
  | start i opened =>
    obtain ⟨⟨hBefore, hNew, hFree⟩, ⟨⟩⟩ := Option.ite_none_right_eq_some.mp hStep
    exact hGood.start hBefore (by simpa using hNew) hFree
  | watchOther fd k =>
    obtain ⟨⟨hBefore, hFree⟩, ⟨⟩⟩ := Option.ite_none_right_eq_some.mp hStep
    exact hGood.watchOther hBefore (of_decide_eq_true hFree) k
  | foreignOpen fd =>
    obtain ⟨hFree, ⟨⟩⟩ := Option.ite_none_right_eq_some.mp hStep
    exact hGood.foreignOpen (of_decide_eq_true hFree)
  | foreignClose fd =>
    obtain ⟨hOpen, ⟨⟩⟩ := Option.ite_none_right_eq_some.mp hStep
    exact hGood.foreignClose hOpen
  | expire i =>
    obtain ⟨hArmed, ⟨⟩⟩ := Option.ite_none_right_eq_some.mp hStep
    exact hGood.expire hArmed
  | signal =>
    obtain rfl := Option.some.inj hStep
    exact hGood.congr (hSame rfl rfl rfl) rfl (.inl rfl)
  | stopStore =>
    obtain rfl := Option.some.inj hStep
    exact hGood.congr ⟨rfl, rfl, rfl, rfl, rfl, rfl, fun _ => rfl, fun _ => rfl, fun _ => rfl,
      fun _ => rfl⟩ rfl (.inl rfl)
  | stopWake =>
    obtain ⟨-, ⟨⟩⟩ := Option.ite_none_right_eq_some.mp hStep
    exact hGood.congr ⟨rfl, rfl, rfl, rfl, rfl, rfl, fun _ => rfl, fun _ => rfl, fun _ => rfl,
      fun _ => rfl⟩ rfl (.inl rfl)
  | run =>
    obtain ⟨-, ⟨⟩⟩ := Option.ite_none_right_eq_some.mp hStep
    exact hGood.congr (hSame rfl rfl rfl) rfl (.inr ⟨nofun, nofun⟩)
  | test =>
    obtain ⟨-, ⟨⟩⟩ := Option.ite_none_right_eq_some.mp hStep
    refine hGood.congr (hSame rfl rfl rfl) rfl (.inr ?_)
    cases p.dispatcher.stopping with
    | true => exact ⟨nofun, nofun⟩
    | false => exact ⟨nofun, nofun⟩
  | interrupted =>
    obtain ⟨-, ⟨⟩⟩ := Option.ite_none_right_eq_some.mp hStep
    exact hGood.congr (hSame rfl rfl rfl) rfl (.inr ⟨nofun, nofun⟩)
  | wait fds =>
    obtain ⟨⟨-, -, hDistinct, -, hReady⟩, ⟨⟩⟩ := Option.ite_none_right_eq_some.mp hStep
    exact hGood.wait hDistinct hReady
  | handle answers =>
    simp only [Process.step] at hStep
    split at hStep
    · rename_i fd device events hHandling
      obtain ⟨hValid, ⟨⟩⟩ := Option.ite_none_right_eq_some.mp hStep
      exact hGood.handle hHandling hValid
    · cases hStep
  | done =>
    obtain ⟨-, ⟨⟩⟩ := Option.ite_none_right_eq_some.mp hStep
    exact hGood.congr (hSame rfl rfl rfl) rfl (.inr ⟨nofun, nofun⟩)
  | stop i =>
    obtain ⟨hReturned, ⟨⟩⟩ := Option.ite_none_right_eq_some.mp hStep
    exact hGood.stop hReturned

theorem good_of_run {p₀ : Process ι} {labels : List (Label ι)} (hInitial : p₀.Initial)
    (hRun : Runs.run step p₀ labels = some p) : p.Good :=
  Runs.invariant (fun _ _ _ hGood hStep => hGood.step hStep) hInitial.good hRun

/-! ### Results -/

variable {p₀ : Process ι} {labels : List (Label ι)}

/-- Whatever happens to descriptors while a batch is handled, each event that is left of it finds the
handler of the very descriptor that was reported: a port that the line has kept open since, or the
timer of a line that still has no port.  No call of `watch` fails. -/
theorem no_stale_event (hInitial : p₀.Initial) (hRun : Runs.run step p₀ labels = some p) :
    p.dispatcher.threw = false ∧ ∀ events, p.loop = .handling events →
      (events.map Prod.fst).Nodup ∧ ∀ e ∈ events, p.table e.1 = some e.2 ∧
        p.dispatcher.handlers e.1 = e.2.handler? ∧
        (∀ i n, e.2 = .port i n → (p.lines i).fd = some e.1 ∧ (p.lines i).session = n) ∧
        (∀ i, e.2 = .reopenTimer i → (p.lines i).fd = none ∧ (p.lines i).reopenTimer = .expired) := by
  have hGood := good_of_run hInitial hRun
  refine ⟨hGood.sound.threw, fun events hHandling => ?_⟩
  have hWatched := hGood.batch events hHandling
  refine ⟨hWatched.current.distinct, fun e he => ?_⟩
  have hDevice := hWatched.current.means e he
  refine ⟨hDevice, ?_, fun i n hPort => ?_, fun i hTimer => ?_⟩
  · rw [hGood.sound.handlers, registered, hDevice]
    cases hEvent : e.2 with
    | reopenTimer i => exact if_pos (hWatched.timers e.1 i (hEvent ▸ he)).1
    | _ => rfl
  · rw [hPort] at hDevice
    exact (hGood.sound.port e.1 i n).mp hDevice
  · have hExpired := (hWatched.timers e.1 i (hTimer ▸ he)).2
    refine ⟨?_, hExpired⟩
    by_contra hUp
    rw [(hGood.linked i).idle hUp] at hExpired
    cases hExpired

/-- Two lines: their timers are the descriptors 5 and 6. -/
def twoLines : Process Bool where
  table fd :=
    if fd = 3 then some .signals
    else if fd = 4 then some .wakeEvent
    else if fd = 5 then some (.reopenTimer false)
    else if fd = 6 then some (.reopenTimer true)
    else none
  dispatcher := { interest := fun fd => fd = 3 ∨ fd = 4, signalfd := 3, wakefd := 4 }
  lines i := { reconnectMs := 5000, timerFd := if i then 6 else 5 }

theorem twoLines_initial : twoLines.Initial where
  signalfd := rfl
  wakefd := rfl
  timerFd := by decide
  others := fun fd => by
    have hTable : twoLines.table fd = if fd = 3 then some .signals else if fd = 4 then some .wakeEvent
      else if fd = 5 then some (.reopenTimer false) else if fd = 6 then some (.reopenTimer true)
      else none := rfl
    by_cases h3 : fd = 3
    · exact .inr (.inr (.inl h3))
    by_cases h4 : fd = 4
    · exact .inr (.inr (.inr (.inl h4)))
    by_cases h5 : fd = 5
    · exact .inr (.inr (.inr (.inr ⟨false, h5⟩)))
    by_cases h6 : fd = 6
    · exact .inr (.inr (.inr (.inr ⟨true, h6⟩)))
    rw [hTable, if_neg h3, if_neg h4, if_neg h5, if_neg h6]
    exact .inl rfl
  handlers := fun _ => rfl
  interest := fun fd => decide_eq_true_iff
  threw := rfl
  wakeEvent := rfl
  stopping := rfl
  lines := fun i => ⟨5000, if i then 6 else 5, rfl⟩
  loop := rfl
  stoppers := rfl
  signals := rfl

/-- The first line opens its port, the second one has none to open; then the first line's port fails
in the batch in which the second line's timer has expired, and the number is given to the second. -/
def handedOver : List (Label Bool) :=
  [.start false (some 7), .start true none, .run, .test, .expire true, .wait [7, 6],
    .handle { reads := { chunks := [[0x7E]], last := .failed } }]

theorem no_stale_event_handed_over : ∃ p, Runs.run step twoLines handedOver = some p ∧
    p.loop = .handling [(6, .reopenTimer true)] ∧ p.table 7 = none ∧ (p.lines true).fd = none := by
  refine ⟨_, rfl, rfl, rfl, ?_⟩
  have hRun : Runs.run step twoLines handedOver = some _ := rfl
  have hOwn := (no_stale_event twoLines_initial hRun).2 _ rfl
  exact ((hOwn.2 _ (List.mem_singleton_self _)).2.2.2 true rfl).1

/-- A sink hears of a link that comes and goes in turns, with at most 512 bytes at a time while it is
up.  A line that is started has told its sink the truth; `epoll_wait` may report its open port, and
without one its timer runs, or has expired and may be reported, if and only if the time is not
negative. -/
theorem link_kept (hInitial : p₀.Initial) (hRun : Runs.run step p₀ labels = some p) (i : ι) :
    UartTransport.followed (p.lines i).calls ≠ none ∧
      (∀ data, .bytes data ∈ (p.lines i).calls → 0 < data.length ∧ data.length ≤ 512) ∧
      ((p.lines i).attached →
        UartTransport.followed (p.lines i).calls = some (p.lines i).fd.isSome ∧
        (∀ fd, (p.lines i).fd = some fd → p.ready fd) ∧
        ((p.lines i).fd = none → ((p.lines i).reopenTimer = .armed ∨
          (p.lines i).reopenTimer = .expired ∧ p.ready (p.lines i).timerFd ↔
            0 ≤ (p.lines i).reconnectMs))) := by
  have hGood := good_of_run hInitial hRun
  have hSound := hGood.sound
  have hLinked := hGood.linked i
  refine ⟨hLinked.ordered, hLinked.chunks, fun hUp => ⟨hLinked.told hUp, fun fd hFd => ?_, fun hDown => ?_⟩⟩
  · have hOpen := (hSound.port fd i (p.lines i).session).mpr ⟨hFd, rfl⟩
    have hInterest := (hSound.interest fd).mpr
      (.inl (by rw [registered, hOpen]; exact Option.some_ne_none _))
    rw [ready, hInterest, hOpen]
    rfl
  · have hTimer := hSound.timerFd i
    have hInterest := (hSound.interest (p.lines i).timerFd).mpr
      (.inl (by simp [registered, hTimer, hUp]))
    rw [← hLinked.pending hUp hDown]
    simp only [ready, hInterest, hTimer, Bool.true_and, decide_eq_true_eq, and_self]
    cases (p.lines i).reopenTimer <;> simp

theorem link_kept_handed_over : ∃ p, Runs.run step twoLines handedOver = some p ∧
    (p.lines false).calls = [.connected, .bytes [0x7E], .disconnected] ∧
    (p.lines false).fd = none ∧ ((p.lines false).reopenTimer = .armed ∨
      (p.lines false).reopenTimer = .expired ∧ p.ready (p.lines false).timerFd) := by
  refine ⟨_, rfl, rfl, rfl, ?_⟩
  have hRun : Runs.run step twoLines handedOver = some _ := rfl
  exact ((link_kept twoLines_initial hRun false).2.2 rfl).2.2 rfl |>.mpr (by decide)

/-- The line that a handler is called for. -/
def line? : Handler ι → Option ι
  | .reopenTick i | .readable i => some i
  | .other _ => none

omit [DecidableEq ι] in
/-- Only lines that are started have handlers. -/
theorem Sound.attached_of_handler (hSound : p.Sound) {handler : Handler ι}
    (hHandler : p.dispatcher.handlers fd = some handler) (hLine : line? handler = some i) :
    (p.lines i).attached := by
  rw [hSound.handlers, registered] at hHandler
  cases hDevice : p.table fd with
  | none =>
    rw [hDevice] at hHandler
    cases hHandler
  | some device =>
    rw [hDevice] at hHandler
    cases device with
    | port j n =>
      cases hHandler
      cases hLine
      exact hSound.attached i fd ((hSound.port fd i n).mp hDevice).1
    | reopenTimer j =>
      simp only at hHandler
      split at hHandler
      · rename_i hUp
        cases hHandler
        cases hLine
        exact hUp
      · cases hHandler
    | other k =>
      cases hHandler
      cases hLine
    | _ => cases hHandler

/-- A line has at most one port, which is the one that it knows, and none unless it is started.  A line
that is not started, or has been stopped, has left no handler behind. -/
theorem no_port_leaked (hInitial : p₀.Initial) (hRun : Runs.run step p₀ labels = some p) :
    (∀ fd i n, p.table fd = some (.port i n) →
      (p.lines i).attached ∧ (p.lines i).fd = some fd ∧ (p.lines i).session = n) ∧
    ∀ i, (p.lines i).attached = false → (p.lines i).fd = none ∧
      p.dispatcher.interest (p.lines i).timerFd = false ∧
      ∀ fd, p.dispatcher.handlers fd ≠ some (.readable i) ∧
        p.dispatcher.handlers fd ≠ some (.reopenTick i) := by
  have hSound := (good_of_run hInitial hRun).sound
  refine ⟨fun fd i n hPort => ?_, fun i hStopped => ?_⟩
  · have hFd := (hSound.port fd i n).mp hPort
    exact ⟨hSound.attached i fd hFd.1, hFd⟩
  have hNot {q : Prop} (hUp : (p.lines i).attached = true) : q := by
    rw [hStopped] at hUp
    cases hUp
  have hTimer := hSound.timerFd i
  refine ⟨?_, ?_, fun fd => ⟨fun hHandler => ?_, fun hHandler => ?_⟩⟩
  · cases hFd : (p.lines i).fd with
    | none => rfl
    | some fd => exact hNot (hSound.attached i fd hFd)
  · rw [Bool.eq_false_iff, ne_eq, hSound.interest]
    rintro (hSome | hFd | hFd)
    · refine hSome ?_
      rw [registered, hTimer]
      simp [hStopped]
    · rw [hFd, hSound.signalfd] at hTimer
      cases hTimer
    · rw [hFd, hSound.wakefd] at hTimer
      cases hTimer
  · exact hNot (hSound.attached_of_handler hHandler rfl)
  · exact hNot (hSound.attached_of_handler hHandler rfl)

theorem no_port_leaked_handed_over : ∃ p,
    Runs.run step twoLines (handedOver ++ [.handle { opened := some 7 }]) = some p ∧
      p.table 7 = some (.port true 1) ∧ (p.lines true).fd = some 7 := by
  refine ⟨_, rfl, rfl, ?_⟩
  have hRun : Runs.run step twoLines (handedOver ++ [.handle { opened := some 7 }]) = some _ := rfl
  exact ((no_port_leaked twoLines_initial hRun).1 7 true 1 rfl).2.1

end Process

end BmsBridge

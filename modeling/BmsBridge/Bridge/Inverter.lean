import BmsBridge.Bridge.Config
import BmsBridge.Bridge.Handler
import BmsBridge.Lib.Drain
import BmsBridge.Lib.Faults
import BmsBridge.Pylontech.Responders

/-! The Pylontech slave that answers the inverter's polls. -/

namespace BmsBridge

open Words

def kRxBufLimit : Nat := 4096

/-- A reserve's current limit: 0.5C, in tenths. -/
def kReserveCRateTenths : UInt32 := 5

def kBaseAddress : UInt8 := 2

/-- One module address.  Batteries are named by their index in the configuration. -/
structure Slot where
  battery : Nat
  mirror : Option Nat := none
  moduleCount : UInt8 := 1
  deriving DecidableEq, Repr

def BatteryConfig.capMah (b : BatteryConfig) : UInt32 := b.capacity.toUInt32 * 1000

def findMirror (batteries : List BatteryConfig) (b : BatteryConfig) : Option Nat :=
  if b.monitored then none else batteries.findIdx? fun o => o.name = b.mirror

def slotsOf (batteries : List BatteryConfig) (i : Nat) (b : BatteryConfig) : List Slot :=
  let n := moduleCountForCapacity b.capMah
  List.replicate n.toNat { battery := i, mirror := findMirror batteries b, moduleCount := n }

def buildAddressMap (batteries : List BatteryConfig) : List Slot :=
  (batteries.mapIdx (slotsOf batteries)).flatten

/-- A reserve carries no current, its capacity is its own, and its charge is the mirror's
percentage of it. -/
def reserveOverride (capacity : Int32) (pack : JkPackInfo) (lim : JkSettings) :
    JkPackInfo × JkSettings :=
  let capMah := capacity.toUInt32 * 1000
  let ilimMa := capacity.toUInt32 * 1000 * kReserveCRateTenths / 10
  ({ pack with
      totalCapacityMah := capMah
      remainingCapacityMah := capMah * pack.stateOfChargePct.toUInt32 / 100
      currentMa := 0 },
    { lim with maxChargeCurrentMa := ilimMa, maxDischargeCurrentMa := ilimMa })

def moduleSlice (moduleCount : UInt8) (pack : JkPackInfo) (lim : JkSettings) :
    Except Fault (JkPackInfo × JkSettings) := do
  let currentMa ← sdiv pack.currentMa moduleCount.toUInt32.toInt32
  let remainingCapacityMah ← udiv pack.remainingCapacityMah moduleCount.toUInt32
  let totalCapacityMah ← udiv pack.totalCapacityMah moduleCount.toUInt32
  let maxChargeCurrentMa ← udiv lim.maxChargeCurrentMa moduleCount.toUInt32
  let maxDischargeCurrentMa ← udiv lim.maxDischargeCurrentMa moduleCount.toUInt32
  return ({ pack with currentMa, remainingCapacityMah, totalCapacityMah },
    { lim with maxChargeCurrentMa, maxDischargeCurrentMa })

def buildResponse (f : PylontechFrame) (cells : JkCellInfo) (pack : JkPackInfo) (lim : JkSettings) :
    Except Fault (Option (List UInt8)) :=
  if f.cid2 = 0x42 then some <$> buildAnalogResponse f cells pack
  else if f.cid2 = 0x44 then .ok (some (buildAlarmResponse f cells))
  else if f.cid2 = 0x47 then .ok (some (buildSystemParamResponse f lim))
  else if f.cid2 = 0x92 then .ok (some (buildChgmgmtResponse f pack lim))
  else .ok none

/-- The answer of a slot whose source is ready; `capacity` is its owner's. -/
def answer (slot : Slot) (capacity : Int32) (cells : JkCellInfo) (pack : JkPackInfo)
    (lim : JkSettings) (f : PylontechFrame) : Except Fault (Option (List UInt8)) := do
  let (pack, lim) := if slot.mirror.isSome then reserveOverride capacity pack lim else (pack, lim)
  let (pack, lim) ← moduleSlice slot.moduleCount pack lim
  buildResponse f cells pack lim

def ownerCapacity (batteries : List BatteryConfig) (slot : Slot) : Int32 :=
  (batteries[slot.battery]?.map BatteryConfig.capacity).getD 0

/-- Five seconds. -/
def kFreshFor : Int := 5000000000

def Slot.source (slot : Slot) : Nat := slot.mirror.getD slot.battery

/-- What the inverter reads of the other parts: the configured batteries and their states. -/
structure Batteries where
  configs : List BatteryConfig
  states : Nat → SharedState

/-- The body of `process_buffer`'s loop for one decoded frame; `none` is silence. -/
def respond (slots : List Slot) (b : Batteries) (now : Int) (f : PylontechFrame) :
    Except Fault (Option (List UInt8)) :=
  if f.adr < kBaseAddress then .ok none
  else
    match slots[(f.adr - kBaseAddress).toNat]? with
    | none => .ok none
    | some slot =>
      let snap := b.states slot.source
      if snap.isFresh now kFreshFor then
        match snap.cells, snap.pack, snap.settings with
        | some cells, some pack, some lim =>
          answer slot (ownerCapacity b.configs slot) cells pack lim f
        | _, _, _ => .ok none
      else .ok none

/-- The loop over the receive buffer: the responses sent, in order, and the buffer left. -/
def processBuffer (slots : List Slot) (b : Batteries) (now : Int) (rxBuf : List UInt8) :
    Except Fault (List (List UInt8)) × List UInt8 :=
  Drain.drain (tryParsePylontech ·)
    (fun (sent : Except Fault (List (List UInt8))) f => do
      let sent ← sent
      let resp ← respond slots b now f
      return sent ++ resp.toList)
    (.ok []) rxBuf

def appendRx (rxBuf data : List UInt8) : List UInt8 :=
  if kRxBufLimit < rxBuf.length + data.length then data else rxBuf ++ data

@[simp] theorem appendRx_nil (data : List UInt8) : appendRx [] data = data := by
  rw [appendRx, List.nil_append, ite_self]

/-- `Inverter::on_bytes`. -/
def onBytes (slots : List Slot) (b : Batteries) (now : Int) (rxBuf data : List UInt8) :
    Except Fault (List (List UInt8)) × List UInt8 :=
  processBuffer slots b now (appendRx rxBuf data)

theorem onBytes_eq (slots : List Slot) (b : Batteries) (now : Int) (rxBuf data : List UInt8) :
    onBytes slots b now rxBuf data =
      ((Drain.frames (tryParsePylontech ·) (appendRx rxBuf data)).foldl
          (Faults.collect (respond slots b now)) (.ok []),
        Drain.rest (tryParsePylontech ·) (appendRx rxBuf data)) :=
  Drain.drain_eq ..

end BmsBridge

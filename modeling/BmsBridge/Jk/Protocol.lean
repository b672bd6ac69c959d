/-! The JK BMS protocol: the 300-byte response frames, the reassembly of frames from BLE
notification chunks, and the parsers of the cell-info and settings frames. -/

namespace BmsBridge

def kJkResponseSize : Nat := 300

def kJkResponseMagic : List UInt8 := [0x55, 0xAA, 0xEB, 0x90]

/-! Frame type byte (offset 4) of a response. -/

def kJkFrameTypeSettings : UInt8 := 0x01
def kJkFrameTypeCellInfo : UInt8 := 0x02

/-- Per-cell part of a cell-info frame. -/
structure JkCellInfo where
  voltagesMv : List UInt16 := []
  resistanceUohm : List UInt16 := []
  averageVoltageMv : UInt16 := 0
  voltageDiffMv : UInt16 := 0
  /-- 0-based. -/
  maxVoltageCellIdx : UInt8 := 0
  minVoltageCellIdx : UInt8 := 0
  deriving DecidableEq, Repr

/-- A settings frame, in JK's own units: mV, mA, 0.1 °C. -/
structure JkSettings where
  smartSleepMv : UInt16 := 0
  cellUvpMv : UInt16 := 0
  cellUvprMv : UInt16 := 0
  cellOvpMv : UInt16 := 0
  cellOvprMv : UInt16 := 0
  balanceTriggerMv : UInt16 := 0
  soc100Mv : UInt16 := 0
  soc0Mv : UInt16 := 0
  requestChargeMv : UInt16 := 0
  requestFloatMv : UInt16 := 0
  powerOffMv : UInt16 := 0
  maxChargeCurrentMa : UInt32 := 0
  chargeOcpDelayS : UInt32 := 0
  chargeOcpRecoveryS : UInt32 := 0
  maxDischargeCurrentMa : UInt32 := 0
  dischargeOcpDelayS : UInt32 := 0
  dischargeOcpRecoveryS : UInt32 := 0
  scpRecoveryS : UInt32 := 0
  maxBalanceCurrentMa : UInt32 := 0
  chargeOtpDC : Int16 := 0
  chargeOtpRecoveryDC : Int16 := 0
  dischargeOtpDC : Int16 := 0
  dischargeOtpRecoveryDC : Int16 := 0
  chargeUtpDC : Int16 := 0
  chargeUtpRecoveryDC : Int16 := 0
  mosfetOtpDC : Int16 := 0
  mosfetOtpRecoveryDC : Int16 := 0
  cellCount : UInt8 := 0
  chargingSwitchOn : Bool := false
  dischargingSwitchOn : Bool := false
  balancerSwitchOn : Bool := false
  nominalCapacityMah : UInt32 := 0
  scpDelayUs : UInt32 := 0
  startBalanceMv : UInt16 := 0

structure JkPackInfo where
  voltageMv : Int32 := 0
  /-- Positive while charging. -/
  currentMa : Int32 := 0
  stateOfChargePct : UInt8 := 0
  remainingCapacityMah : UInt32 := 0
  totalCapacityMah : UInt32 := 0
  cycleCount : UInt32 := 0
  batteryTemp1DC : Int16 := 0
  batteryTemp2DC : Int16 := 0
  powerTubeTempDC : Int16 := 0
  chargingEnabled : Bool := false
  dischargingEnabled : Bool := false
  balancerEnabled : Bool := false
  balanceCurrentMa : Int16 := 0
  errorsBitmask : UInt16 := 0
  deriving DecidableEq, Repr

/-! ### Little-endian fields of a frame -/

def byteAt (frame : List UInt8) (off : Nat) : UInt8 := frame.getD off 0

def le16 (frame : List UInt8) (off : Nat) : UInt16 :=
  (byteAt frame off).toUInt16 ||| ((byteAt frame (off + 1)).toUInt16 <<< 8)

def le16s (frame : List UInt8) (off : Nat) : Int16 := (le16 frame off).toInt16

def le32 (frame : List UInt8) (off : Nat) : UInt32 :=
  (byteAt frame off).toUInt32 ||| ((byteAt frame (off + 1)).toUInt32 <<< 8) |||
    ((byteAt frame (off + 2)).toUInt32 <<< 16) ||| ((byteAt frame (off + 3)).toUInt32 <<< 24)

def le32s (frame : List UInt8) (off : Nat) : Int32 := (le32 frame off).toInt32

def startsWithResponseMagic (p : List UInt8) : Bool :=
  4 ≤ p.length ∧ byteAt p 0 = byteAt kJkResponseMagic 0 ∧ byteAt p 1 = byteAt kJkResponseMagic 1 ∧
    byteAt p 2 = byteAt kJkResponseMagic 2 ∧ byteAt p 3 = byteAt kJkResponseMagic 3

/-- The additive checksum: a 16-bit sum, cut to its low byte. -/
def jkCrc8 (data : List UInt8) : UInt8 :=
  (data.foldl (fun (s : UInt16) b => s + b.toUInt16) 0 &&& 0xFF).toUInt8

def jkResponseFrameType (frame : List UInt8) : Option UInt8 :=
  if frame.length < kJkResponseSize then none
  else if !startsWithResponseMagic frame then none
  else some (byteAt frame 4)

/-! ### Reassembly -/

/-- `buf` is the frame being assembled, `ready` the one slot for a finished frame; an empty `ready`
means that there is none. -/
structure JkFrameAssembler where
  buf : List UInt8 := []
  ready : List UInt8 := []
  deriving DecidableEq, Repr

namespace JkFrameAssembler

def pushByte (a : JkFrameAssembler) (b : UInt8) : JkFrameAssembler :=
  -- Nothing is kept before the first byte of the magic.
  if a.buf = [] ∧ b ≠ byteAt kJkResponseMagic 0 then a
  else
    let buf := a.buf ++ [b]
    let pos := buf.length - 1
    if buf.length ≤ 4 ∧ byteAt buf pos ≠ byteAt kJkResponseMagic pos then
      -- The mismatching byte is dropped with the bytes matched so far.
      { a with buf := [] }
    else if buf.length = kJkResponseSize then
      let computed := jkCrc8 (buf.take (kJkResponseSize - 1))
      let received := byteAt buf (kJkResponseSize - 1)
      if computed = received then { buf := [], ready := buf } else { a with buf := [] }
    else { a with buf }

def pushChunk (a : JkFrameAssembler) (data : List UInt8) : JkFrameAssembler :=
  data.foldl pushByte a

def takeCompleteFrame (a : JkFrameAssembler) : Option (List UInt8) × JkFrameAssembler :=
  if a.ready = [] then (none, a) else (some a.ready, { a with ready := [] })

def reset (_ : JkFrameAssembler) : JkFrameAssembler := { buf := [], ready := [] }

end JkFrameAssembler

/-! ### Requests -/

def kJkRequestSize : Nat := 20

def kJkRequestMagic : List UInt8 := [0xAA, 0x55, 0x90, 0xEB]

/-! Command codes at byte 4 of a request. -/

def kJkCmdDeviceInfo : UInt8 := 0x97

def kJkCmdCellInfo : UInt8 := 0x96

structure JkRequest where
  command : UInt8 := 0
  valueLength : UInt8 := 0
  value : UInt32 := 0
  deriving DecidableEq, Repr

def JkRequest.serialize (r : JkRequest) : List UInt8 :=
  let body := kJkRequestMagic ++ [r.command, r.valueLength, r.value.toUInt8, (r.value >>> 8).toUInt8,
    (r.value >>> 16).toUInt8, (r.value >>> 24).toUInt8] ++ List.replicate 9 0
  body ++ [jkCrc8 (body.take (kJkRequestSize - 1))]

/-! ### Frame parsers -/

/-- A cell-enabled bitmask `(1 << N) - 1` with `N ≥ 4`, in wrapping 32-bit arithmetic. -/
def looksLikeBitmask (v : UInt32) : Bool := 0x0F ≤ v ∧ (v + 1) &&& v = 0

/-- `parse_cell_info`: `none` is the source's `false`, which leaves both outputs alone. -/
def parseCellInfo (frame : List UInt8) : Option (JkCellInfo × JkPackInfo) :=
  if frame.length < kJkResponseSize then none
  else if !startsWithResponseMagic frame then none
  else if byteAt frame 4 ≠ kJkFrameTypeCellInfo then none
  else
    let is32s := !looksLikeBitmask (le32 frame 54)
    let cellSlots := if is32s then 32 else 24
    let cellShift := if is32s then 16 else 0
    let telemShift := if is32s then 32 else 0
    -- The cell table ends at its first zero.
    let voltages := ((List.range cellSlots).map fun i => le16 frame (6 + i * 2)).takeWhile (· ≠ 0)
    let resOff := if is32s then 80 else 64
    let cells : JkCellInfo := {
      voltagesMv := voltages
      resistanceUohm := (List.range voltages.length).map fun i => le16 frame (resOff + i * 2)
      averageVoltageMv := le16 frame (58 + cellShift)
      voltageDiffMv := le16 frame (60 + cellShift)
      maxVoltageCellIdx :=
        if byteAt frame (62 + cellShift) ≠ 0 then byteAt frame (62 + cellShift) - 1 else 0
      minVoltageCellIdx :=
        if byteAt frame (63 + cellShift) ≠ 0 then byteAt frame (63 + cellShift) - 1 else 0 }
    let pack : JkPackInfo := {
      powerTubeTempDC := if is32s then le16s frame 144 else le16s frame 134
      voltageMv := (le32 frame (118 + telemShift)).toInt32
      currentMa := le32s frame (126 + telemShift)
      batteryTemp1DC := le16s frame (130 + telemShift)
      batteryTemp2DC := le16s frame (132 + telemShift)
      errorsBitmask := le16 frame (if is32s then 166 else 136)
      stateOfChargePct := byteAt frame (141 + telemShift)
      remainingCapacityMah := le32 frame (142 + telemShift)
      totalCapacityMah := le32 frame (146 + telemShift)
      cycleCount := le32 frame (150 + telemShift)
      chargingEnabled := byteAt frame (166 + telemShift) ≠ 0
      dischargingEnabled := byteAt frame (167 + telemShift) ≠ 0
      balanceCurrentMa := (le16 frame (138 + telemShift)).toInt16
      balancerEnabled := byteAt frame (140 + telemShift) ≠ 0 }
    some (cells, pack)

/-- `parse_settings`: `none` is the source's `false`. -/
def parseSettings (frame : List UInt8) : Option JkSettings :=
  if frame.length < kJkResponseSize then none
  else if !startsWithResponseMagic frame then none
  else if byteAt frame 4 ≠ kJkFrameTypeSettings then none
  else some {
    smartSleepMv := (le32 frame 6).toUInt16
    cellUvpMv := (le32 frame 10).toUInt16
    cellUvprMv := (le32 frame 14).toUInt16
    cellOvpMv := (le32 frame 18).toUInt16
    cellOvprMv := (le32 frame 22).toUInt16
    balanceTriggerMv := (le32 frame 26).toUInt16
    soc100Mv := (le32 frame 30).toUInt16
    soc0Mv := (le32 frame 34).toUInt16
    requestChargeMv := (le32 frame 38).toUInt16
    requestFloatMv := (le32 frame 42).toUInt16
    powerOffMv := (le32 frame 46).toUInt16
    maxChargeCurrentMa := le32 frame 50
    chargeOcpDelayS := le32 frame 54
    chargeOcpRecoveryS := le32 frame 58
    maxDischargeCurrentMa := le32 frame 62
    dischargeOcpDelayS := le32 frame 66
    dischargeOcpRecoveryS := le32 frame 70
    scpRecoveryS := le32 frame 74
    maxBalanceCurrentMa := le32 frame 78
    chargeOtpDC := (le32s frame 82).toInt16
    chargeOtpRecoveryDC := (le32s frame 86).toInt16
    dischargeOtpDC := (le32s frame 90).toInt16
    dischargeOtpRecoveryDC := (le32s frame 94).toInt16
    chargeUtpDC := (le32s frame 98).toInt16
    chargeUtpRecoveryDC := (le32s frame 102).toInt16
    mosfetOtpDC := (le32s frame 106).toInt16
    mosfetOtpRecoveryDC := (le32s frame 110).toInt16
    cellCount := (le32 frame 114).toUInt8
    chargingSwitchOn := le32 frame 118 ≠ 0
    dischargingSwitchOn := le32 frame 122 ≠ 0
    balancerSwitchOn := le32 frame 126 ≠ 0
    nominalCapacityMah := le32 frame 130
    scpDelayUs := le32 frame 134
    startBalanceMv := (le32 frame 138).toUInt16 }

end BmsBridge

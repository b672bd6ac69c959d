import BmsBridge.Jk.Protocol

/-! The JK driver: feeds received bytes to the frame assembler and parses what completes. -/

namespace BmsBridge

structure Telemetry where
  cells : JkCellInfo := {}
  pack : JkPackInfo := {}
  deriving DecidableEq, Repr

/-- `BatteryProtocol::Parsed`: what one `feed` call reports. -/
structure Parsed where
  telemetry : Option Telemetry := none
  settings : Option JkSettings := none

structure JkProtocol where
  assembler : JkFrameAssembler := {}

namespace JkProtocol

def reset (p : JkProtocol) : JkProtocol := { p with assembler := p.assembler.reset }

def pollRequest : List UInt8 := JkRequest.serialize { command := kJkCmdCellInfo }

def settingsRequest : List UInt8 := JkRequest.serialize { command := kJkCmdDeviceInfo }

/-- What one complete frame adds to a report.  Device-info frames are only logged, and frames of
other types are only warned about. -/
def report (out : Parsed) (frame : List UInt8) : Parsed :=
  match jkResponseFrameType frame with
  | none => out
  | some type =>
    if type = kJkFrameTypeCellInfo then
      match parseCellInfo frame with
      | some (cells, pack) => { out with telemetry := some { cells, pack } }
      | none => out
    else if type = kJkFrameTypeSettings then
      match parseSettings frame with
      | some s => { out with settings := some s }
      | none => out
    else out

theorem takeCompleteFrame_lt {a a' : JkFrameAssembler} {frame : List UInt8}
    (h : a.takeCompleteFrame = (some frame, a')) : a'.ready.length < a.ready.length := by
  simp only [JkFrameAssembler.takeCompleteFrame] at h
  split at h
  · cases h
  · cases h
    exact List.length_pos_iff.mpr ‹a.ready ≠ []›

/-- `feed`'s loop: take complete frames until there is none. -/
def takeFrames (out : Parsed) (a : JkFrameAssembler) : Parsed × JkFrameAssembler :=
  match _h : a.takeCompleteFrame with
  | (none, a') => (out, a')
  | (some frame, a') => takeFrames (report out frame) a'
termination_by a.ready.length
decreasing_by exact takeCompleteFrame_lt _h

def feed (p : JkProtocol) (data : List UInt8) : Parsed × JkProtocol :=
  let (out, assembler) := takeFrames {} (p.assembler.pushChunk data)
  (out, { p with assembler })

end JkProtocol

end BmsBridge

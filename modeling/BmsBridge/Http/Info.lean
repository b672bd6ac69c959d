import BmsBridge.Bridge.Inverter
import BmsBridge.Http.Server

/-! `HttpServer::handle_info`: what the dashboard shows of one battery besides its samples. -/

namespace BmsBridge

/-- The JSON about a reserve. -/
structure ReserveInfo where
  reserve : Bool := true
  mirror : String
  capacityMah : UInt32
  chargeCurrentLimitMa : UInt32
  dischargeCurrentLimitMa : UInt32
  socPct : Nat := 100
  currentMa : Int := 0
  deriving DecidableEq, Repr

/-- A monitored battery's JSON has one number or flag for each of its settings. -/
inductive InfoReply where
  | notFound (error : String)
  | reserve (info : ReserveInfo)
  | settings (s : JkSettings)

namespace HttpServer

def stateFor (b : Batteries) (batteryId : String) : Option SharedState :=
  (b.configs.findIdx? fun c => c.name = batteryId).map b.states

/-- A reserve's figures are made up from the configuration, with a limit of 0.5C. -/
def reserveInfo (c : BatteryConfig) : ReserveInfo :=
  let kReserveCRateTenths : UInt32 := 5
  let capMah := c.capacity.toUInt32 * 1000
  let limitMa := c.capacity.toUInt32 * 1000 * kReserveCRateTenths / 10
  { mirror := c.mirror
    capacityMah := capMah
    chargeCurrentLimitMa := limitMa
    dischargeCurrentLimitMa := limitMa }

/-- `battery` is the id in the request, or 0. -/
def handleInfo (s : HttpServer) (b : Batteries) (battery : Int) : InfoReply :=
  let name := s.history.batteryName battery
  match b.configs.find? fun c => c.name = name with
  | none => .notFound "battery not in config"
  | some c =>
    if !c.monitored then .reserve (reserveInfo c)
    else
      match stateFor b name with
      | none => .notFound "no live data for this battery"
      | some st =>
        match st.settings with
        | none => .notFound "settings not yet received"
        | some settings => .settings settings

end HttpServer

end BmsBridge

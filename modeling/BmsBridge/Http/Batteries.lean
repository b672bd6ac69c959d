import BmsBridge.History.Life
import BmsBridge.Http.Info

/-! `HttpServer::handle_batteries`: the list of all batteries that the history knows. -/

namespace BmsBridge

/-- What batteries that are in no configuration any more have been. -/
def kLegacyLink : String := "bluetooth"

def kLegacyProtocol : String := "jk_bt"

structure BatteryJson where
  id : Int
  name : String
  link : String
  protocol : String
  monitored : Bool
  capacity : Int32
  legacy : Bool
  deriving DecidableEq, Repr

def BatteryRef.json (configs : List BatteryConfig) (ref : BatteryRef) : BatteryJson :=
  match configs.find? fun c => c.name = ref.name with
  | some c => {
      id := ref.id
      name := ref.name
      link := c.linkRaw
      protocol := c.protocol
      monitored := c.monitored
      capacity := c.capacity
      legacy := false }
  | none => {
      id := ref.id
      name := ref.name
      link := kLegacyLink
      protocol := kLegacyProtocol
      monitored := false
      capacity := 0
      legacy := true }

def HttpServer.handleBatteries (s : HttpServer) (b : Batteries) : List BatteryJson :=
  s.history.batteryList.map (BatteryRef.json b.configs)

end BmsBridge

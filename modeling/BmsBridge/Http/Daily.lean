import BmsBridge.History.Months
import BmsBridge.Http.Server

/-! `HttpServer::handle_daily`: the daily rows of a battery in a month. -/

namespace BmsBridge

/-- The parameters of a request, read as numbers; one that is absent is 0. -/
structure DailyParams where
  battery : Int := 0
  year : Int := 0
  month : Int := 0
  deriving DecidableEq, Repr

/-- The current month stands in for one that is not given in full. -/
def DailyParams.yearMonth (params : DailyParams) (now : Int) : Int × Int :=
  if params.year ≤ 0 ∨ params.month ≤ 0 then
    let gmt := Calendar.ofDays (now.tdiv 1000000000 / 86400)
    (gmt.year, gmt.month)
  else (params.year, params.month)

/-- What the JSON of a daily row holds. -/
structure DailyJson where
  date : String
  chargedWh : Rat
  dischargedWh : Rat
  deriving DecidableEq, Repr

def DailyEnergy.json (e : DailyEnergy) : DailyJson where
  date := e.date
  chargedWh := e.chargedWh
  dischargedWh := e.dischargedWh

structure DailyReply where
  batteryId : Int
  year : Int
  month : Int
  data : List DailyJson
  deriving DecidableEq, Repr

def HttpServer.handleDaily (s : HttpServer) (params : DailyParams) (now : Int) : Option DailyReply :=
  let yearMonth := params.yearMonth now
  (s.history.getDailyEnergy params.battery yearMonth.1 yearMonth.2).map fun data => {
    batteryId := params.battery
    year := yearMonth.1
    month := yearMonth.2
    data := data.map DailyEnergy.json }

end BmsBridge

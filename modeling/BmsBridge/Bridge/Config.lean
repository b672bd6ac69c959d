/-! The configuration: the tree that the parser of the configuration file builds, the validators that
it calls, and `load_config`. -/

namespace BmsBridge

inductive BatteryLink where
  | bluetooth
  | ttl
  | reserve
  deriving DecidableEq, Repr

structure BatteryConfig where
  name : String := ""
  link : BatteryLink
  linkRaw : String := ""
  address : String := ""
  capacity : Int32
  protocol : String := ""
  serviceUuid : String := "0000ffe0-0000-1000-8000-00805f9b34fb"
  charWriteUuid : String := "0000ffe1-0000-1000-8000-00805f9b34fb"
  charNotifyUuid : String := "0000ffe1-0000-1000-8000-00805f9b34fb"
  scanTimeoutMs : Int32 := 10000
  adapterPollMs : Int32 := 2000
  uartBaud : Int32 := 115200
  pylontechAddress : Int32 := 0
  mirror : String := ""
  reconnectMs : Int32 := 5000
  bmsPollPeriodMs : Int32 := 5000
  settingsRefreshPeriodMs : Int32 := 60000
  bmsStateUpdateIntervalMs : Int32 := 500
  deriving DecidableEq, Repr

def BatteryConfig.monitored (b : BatteryConfig) : Bool := b.link = .bluetooth ∨ b.link = .ttl

structure InverterConfig where
  uartDevice : String := ""
  uartBaud : Int32 := 115200
  deriving DecidableEq, Repr

structure HttpConfig where
  httpPort : Int32 := 80
  wwwRoot : String := "/usr/share/bms_bridge/www"
  deriving DecidableEq, Repr

structure HistoryConfig where
  dbPath : String := "/var/lib/bms_bridge/history.sqlite3"
  ramWindowS : Int32 := 86400
  deriving DecidableEq, Repr

structure AppConfig where
  logLevel : Int32 := 4
  logFile : String := ""
  batteries : List BatteryConfig := []
  inverter : InverterConfig := {}
  http : HttpConfig := {}
  history : HistoryConfig := {}
  deriving DecidableEq, Repr

/-! ### The parsed tree

An option that the file does not set is `none`; the accessors put the option's default there, which
is a null string or zero for the options declared without one. -/

structure BatteryOpts where
  title : Option String := none
  type : Option String := none
  address : Option String := none
  capacity : Option Int64 := none
  protocol : Option String := none
  serviceUuid : Option String := none
  charWriteUuid : Option String := none
  charNotifyUuid : Option String := none
  scanTimeoutMs : Option Int64 := none
  adapterPollMs : Option Int64 := none
  pylontechAddress : Option Int64 := none
  uartBaud : Option Int64 := none
  mirror : Option String := none
  reconnectMs : Option Int64 := none
  bmsPollPeriodMs : Option Int64 := none
  settingsRefreshPeriodMs : Option Int64 := none
  bmsStateUpdateIntervalMs : Option Int64 := none

structure InverterOpts where
  uart : Option String := none
  baud : Option Int64 := none

structure HttpOpts where
  port : Option Int64 := none
  wwwRoot : Option String := none

structure HistoryOpts where
  dbPath : Option String := none
  ramWindowS : Option Int64 := none

structure CfgTree where
  logLevel : Option Int64 := none
  logFile : Option String := none
  batteries : List BatteryOpts := []
  inverter : Option InverterOpts := none
  http : Option HttpOpts := none
  history : Option HistoryOpts := none

/-- What the parser makes of a file, before the validators have their say. -/
inductive CfgParse where
  | fileError (reason : String)
  | syntaxError
  | tree (cfg : CfgTree)

/-! ### Validators -/

def linkFromStr (s : String) : Option BatteryLink :=
  if s = "bluetooth" then some .bluetooth
  else if s = "ttl" then some .ttl
  else if s = "reserve" then some .reserve
  else none

def isSupportedProtocol (p : String) : Bool := p = "jk_bt" ∨ p = "pylontech"

def BatteryOpts.cfgTitle (b : BatteryOpts) : String := b.title.getD ""

def vfType (b : BatteryOpts) : Except String Unit :=
  match b.type.bind linkFromStr with
  | none => .error ("battery '" ++ b.cfgTitle ++ "': type must be bluetooth|ttl|reserve")
  | some _ => .ok ()

def vfProtocol (b : BatteryOpts) : Except String Unit :=
  let p := b.protocol.getD ""
  if p ≠ "" ∧ !isSupportedProtocol p then
    .error ("battery '" ++ b.cfgTitle ++ "': unsupported protocol '" ++ p ++ "'")
  else .ok ()

def vfBattery (b : BatteryOpts) : Except String Unit := do
  if b.protocol = some "pylontech" then
    let addr := b.pylontechAddress.getD 0
    if addr < 1 ∨ 16 < addr then
      throw ("battery '" ++ b.cfgTitle ++ "': 'pylontech_address' must be 1..16")
  if b.type = some "reserve" then
    if b.mirror.getD "" = "" then
      throw ("reserve battery '" ++ b.cfgTitle ++ "': 'mirror' is required")

/-- The validators of one section: an option's when the option appears, then the section's. -/
def validate (b : BatteryOpts) : Except String Unit := do
  if b.type.isSome then vfType b
  if b.protocol.isSome then vfProtocol b
  vfBattery b

/-! ### Loading -/

/-- `link` is not written when `type` names none: it keeps the indeterminate value `stale`. -/
def batteryConfig (b : BatteryOpts) (stale : BatteryLink) : BatteryConfig where
  name := b.cfgTitle
  link := (linkFromStr (b.type.getD "")).getD stale
  linkRaw := b.type.getD ""
  address := b.address.getD ""
  capacity := (b.capacity.getD 0).toInt32
  protocol := b.protocol.getD ""
  serviceUuid := b.serviceUuid.getD "0000ffe0-0000-1000-8000-00805f9b34fb"
  charWriteUuid := b.charWriteUuid.getD "0000ffe1-0000-1000-8000-00805f9b34fb"
  charNotifyUuid := b.charNotifyUuid.getD "0000ffe1-0000-1000-8000-00805f9b34fb"
  scanTimeoutMs := (b.scanTimeoutMs.getD 10000).toInt32
  adapterPollMs := (b.adapterPollMs.getD 2000).toInt32
  uartBaud := (b.uartBaud.getD 115200).toInt32
  pylontechAddress := (b.pylontechAddress.getD 0).toInt32
  mirror := b.mirror.getD ""
  reconnectMs := (b.reconnectMs.getD 5000).toInt32
  bmsPollPeriodMs := (b.bmsPollPeriodMs.getD 5000).toInt32
  settingsRefreshPeriodMs := (b.settingsRefreshPeriodMs.getD 60000).toInt32
  bmsStateUpdateIntervalMs := (b.bmsStateUpdateIntervalMs.getD 500).toInt32

def checkBattery (before : List BatteryConfig) (bc : BatteryConfig) : Except String Unit := do
  if bc.name = "" then throw "config: a 'batery' block is missing its name"
  if bc.name ∈ before.map BatteryConfig.name then
    throw ("config: duplicate battery name '" ++ bc.name ++ "'")
  if bc.address = "" then throw ("config: battery '" ++ bc.name ++ "': 'address' is required")
  if bc.monitored ∧ bc.protocol = "" then
    throw ("config: battery '" ++ bc.name ++ "': 'protocol' is required")
  if !bc.monitored ∧ bc.capacity ≤ 0 then
    throw ("config: reserve battery '" ++ bc.name ++ "': 'capacity' must be > 0")

def loadBatteries (stale : Nat → BatteryLink) (before : List BatteryConfig) :
    List BatteryOpts → Except String (List BatteryConfig)
  | [] => return before
  | b :: bs => do
    let bc := batteryConfig b (stale before.length)
    checkBattery before bc
    loadBatteries stale (before ++ [bc]) bs

def checkMirror (batteries : List BatteryConfig) (bc : BatteryConfig) : Except String Unit := do
  if !bc.monitored then
    match batteries.find? fun o => o.name = bc.mirror with
    | none => throw ("config: reserve battery '" ++ bc.name ++ "': mirror '" ++ bc.mirror ++
        "' is not a known battery")
    | some o =>
      if !o.monitored then
        throw ("config: reserve battery '" ++ bc.name ++ "': mirror '" ++ bc.mirror ++
          "' is not a monitored battery")

def loadTree (cfg : CfgTree) (stale : Nat → BatteryLink) : Except String AppConfig := do
  let some inv := cfg.inverter | throw "config: inverter { ... } block is required"
  let inverter : InverterConfig :=
    { uartDevice := inv.uart.getD "", uartBaud := (inv.baud.getD 115200).toInt32 }
  if inverter.uartDevice = "" then throw "config: inverter { uart = ... } is required"
  let http : HttpConfig := match cfg.http with
    | some s => { httpPort := (s.port.getD 80).toInt32
                  wwwRoot := s.wwwRoot.getD "/usr/share/bms_bridge/www" }
    | none => {}
  let history : HistoryConfig := match cfg.history with
    | some s => { dbPath := s.dbPath.getD "/var/lib/bms_bridge/history.sqlite3"
                  ramWindowS := (s.ramWindowS.getD 86400).toInt32 }
    | none => {}
  if cfg.batteries = [] then throw "config: at least one 'batery' block is required"
  let batteries ← loadBatteries stale [] cfg.batteries
  batteries.forM (checkMirror batteries)
  return {
    logLevel := (cfg.logLevel.getD 4).toInt32
    logFile := cfg.logFile.getD ""
    batteries, inverter, http, history }

def loadConfig (path : String) (parse : CfgParse) (stale : Nat → BatteryLink) :
    Except String AppConfig :=
  match parse with
  | .fileError reason => .error ("cannot open config file: " ++ path ++ " (" ++ reason ++ ")")
  | .syntaxError => .error ("parse/validation error in config file: " ++ path)
  | .tree cfg =>
    match cfg.batteries.forM validate with
    | .error _ => .error ("parse/validation error in config file: " ++ path)
    | .ok () => loadTree cfg stale

end BmsBridge

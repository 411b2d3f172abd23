import NatServer.Server.Handlers
/-!
# `threadhandle`: one pass of the timer thread

The sweep of the pending filtering checks, the eviction of silent nodes, the
tickers, the notification that follows a change, and `listMsgQueue`. A map is
only erased from at the entry a loop stands on, so each loop runs over the
listing it started with. There is no `try` here: a fault ends the process.
-/

namespace NatServer

open Effect Json

variable [Boost] (cfg : Config)

/-! ## Text of a pending check -/

/-- `isspace`. -/
def isSpace (c : Char) : Bool := c = ' ' || ('\t' ≤ c && c ≤ '\r')

/-- Whether a number is negative, and what follows its sign. -/
def sign : List Char → Bool × List Char
  | '-' :: cs => (true, cs)
  | '+' :: cs => (false, cs)
  | cs => (false, cs)

/-- `std::stoi`: leading white space, a sign and digits, up to the first other
character. It throws where there is no digit or the value is not an `int`. -/
def stoi (s : String) : Option Int :=
  let signed := sign (s.toList.dropWhile isSpace)
  let ds := signed.2.takeWhile Char.isDigit
  let n : Int := if signed.1 then -(ofDigits ds : Int) else ofDigits ds
  if ds ≠ [] ∧ -(2 ^ 31) ≤ n ∧ n < 2 ^ 31 then some n else none

/-- `v[i]` of a vector. -/
def indexed {α : Type} (x : Option α) : Handler α := orFail .badIndex x

/-! ## The sweep -/

/-- The loop over `fCkTimeMap`. The value is `needNotify`. -/
def sweep (curTimeForCh : Int) (needNotify : Bool) : List (String × String) → Handler Bool
  | [] => pure needNotify
  | (key, check) :: rest => do
    let results := Boost.split check
    let timePoint ← throwing (stoi (← indexed results[1]?))
    let hostKey ← indexed results[4]?
    if curTimeForCh - timePoint > 20 then
      if results[0]? = some "filtering" then
        match (← readState).hostList[hostKey]? with
        | some info =>
          let findmsg ← throwing (setFiltering "isFilter" info)
          setNode hostKey findmsg.dump
        | none => pure ()
        modifyState fun s => { s with fCkTimeMap := s.fCkTimeMap.erase key }
        sweep curTimeForCh true rest
      else
        -- the iterator is neither advanced nor erased
        fail .endless
    else
      sweep curTimeForCh needNotify rest

/-! ## Eviction -/

/-- `PACKAGENUM`. -/
def packageNum : UInt16 := 60

/-- The inner loop: the entries with the silent endpoint are erased. -/
def evictEndpoint (silent : String) : List (String × String) → Handler Unit
  | [] => pure ()
  | (id, info) :: rest => do
    let itxem ← throwing (parse info)
    let ip ← throwing (epIp itxem)
    let port ← throwing (epPort itxem)
    if tickerKey ⟨ip, port⟩ = silent then
      modifyState fun s => { s with hostList := s.hostList.erase id }
      evictEndpoint silent rest
    else
      evictEndpoint silent rest

/-- The loop over `tickerNum`. The value is `needNotify`. -/
def evict (needNotify : Bool) : List (String × UInt16) → Handler Bool
  | [] => pure needNotify
  | (key, num) :: rest => do
    if num ≥ packageNum then
      evictEndpoint key (← readState).hostList.toList
      modifyState fun s => { s with tickerNum := s.tickerNum.erase key }
      evict true rest
    else
      evict needNotify rest

/-! ## Tickers -/

def tickerMsg (localEpInfo : Json) : Json :=
  .obj [("msgtype", .string "ticker"), ("data", localEpInfo), ("msgid", .string ""), ("nodeID", .string cfg.nodeID)]

/-- `findticker->second++`, or a new counter of 1. -/
def countTicker (key : String) (tickerNum : StrMap UInt16) : StrMap UInt16 :=
  match tickerNum[key]? with
  | some num => tickerNum.insert key (num + 1)
  | none => tickerNum.insertIfNew key 1

/-- The loop that sends the tickers. -/
def tickAll : List (String × String) → Handler Unit
  | [] => pure ()
  | (id, info) :: rest => do
    let item ← throwing (parse info)
    let ip ← throwing (epIp item)
    let port ← throwing (epPort item)
    if cfg.nodeID = id then
      tickAll rest
    else
      sendTo ip port (tickerMsg cfg (← readState).localEpInfo)
      modifyState fun s => { s with tickerNum := countTicker (tickerKey ⟨ip, port⟩) s.tickerNum }
      tickAll rest

/-! ## The whole pass -/

/-- The detect a node sends again while it is alone. -/
def detectMsg (localPort : String) : Json :=
  .obj [("nodeID", .string cfg.nodeID), ("msgtype", .string "detect"),
    ("data", .obj [("localip", .string cfg.localIp), ("localport", .string localPort)])]

def listMsgQueue : Handler Unit := do
  if (← readState).hostList.size ≤ 1 then
    modifyState fun s => { s with count := s.count + 1 }
  if (← readState).count ≥ 10 then
    sendTo cfg.fromCli.ip cfg.fromCli.port (detectMsg cfg (portText cfg.localPort))
    modifyState fun s => { s with count := 0 }

def threadhandle (curTimeForCh : Int) : Handler Unit := do
  let needNotify ← sweep curTimeForCh false (← readState).fCkTimeMap.toList
  let needNotify ← evict needNotify (← readState).tickerNum.toList
  tickAll cfg (← readState).hostList.toList
  if needNotify then
    updateRouteInfo cfg
  listMsgQueue cfg

end NatServer

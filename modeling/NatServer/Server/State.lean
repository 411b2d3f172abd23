import NatServer.Json.Access
import NatServer.Lib.Effect
/-!
# The state of a `udpServer`

The members of `udpServer` and `managerHost` that its functions read, and the
outside world they call: the socket, the clock, the uuid generator and Boost.
-/

namespace NatServer

/-- What the server takes from Boost. -/
class Boost where
  /-- `boost::lexical_cast<unsigned short>`, `none` where it throws `bad_lexical_cast`. -/
  lexical_cast : String → Option UInt16
  /-- It reads back the decimal text of a number. -/
  lexical_cast_toString : ∀ p : UInt16, lexical_cast (toString p.toNat) = some p
  /-- `boost::algorithm::split(results, s, boost::is_any_of("_"))`. -/
  split : String → List String
  /-- It cuts at every underscore and keeps empty pieces. -/
  split_eq : ∀ s, split s = (s.toList.splitOn '_').map String.ofList
  /-- Whether `ip::address::from_string` reads an address. It throws where not. -/
  from_string : String → Bool

/-- The text of an unsigned short, `to_string(port)`. -/
def portText (p : UInt16) : String := toString p.toNat

structure Endpoint where
  ip : String
  port : UInt16
  deriving DecidableEq, Repr

/-- A call of `clientHandler->sendTo(ip, port, msg)`. -/
structure SendTo where
  dest : Endpoint
  msg : String
  deriving DecidableEq, Repr

/-- `client::sendTo` over all calls: where the address is none it catches the
exception, returns -1 and nothing is sent. -/
def transmitted [Boost] (sent : List SendTo) : List SendTo := sent.filter fun x => Boost.from_string x.dest.ip

theorem mem_transmitted [Boost] {sent : List SendTo} {x : SendTo} :
    x ∈ transmitted sent ↔ x ∈ sent ∧ Boost.from_string x.dest.ip = true := List.mem_filter

/-- The members that never change after construction. -/
structure Config where
  nodeID : String
  localIp : String
  localPort : UInt16
  publicFlag : Bool
  /-- `_fromCliIp` and `_fromCliPort`, the server that detects are sent to. -/
  fromCli : Endpoint

/-- What one call of `handleReceive` reads from outside: `std::time(nullptr)`
and the two `genUuid()` of a detect, the message id and the key of
`fCkTimeMap`. -/
structure Draws where
  curTime : Int
  msgID : String
  key : String

/-- `_recvBuffer.size()`. -/
def bufferSize : Nat := 10000

/-- `_recvBuffer.fill('\0')`. -/
def emptyBuffer : List UInt8 := List.replicate bufferSize 0

structure Server where
  /-- `manHost->_HostList`: the text of each node's record, by node id. -/
  hostList : StrMap String
  fCkTimeMap : StrMap String
  tickerNum : StrMap UInt16
  localEpInfo : Json
  /-- `_count`, a `uint` that stays below 10 (`Tallied.count`). -/
  count : Nat
  recvBuffer : List UInt8
  /-- An `async_receive_from` is pending. -/
  receiving : Bool
  /-- A pending receive has a zero-filled buffer. -/
  armed : receiving = true → recvBuffer = emptyBuffer

/-- How a call can fail. -/
inductive Fault where
  /-- A `std::exception`: `abort()` in the handler, `std::terminate` in the timer thread. -/
  | exception
  /-- An end iterator is dereferenced. -/
  | endIterator
  /-- A vector is indexed beyond its size. -/
  | badIndex
  /-- A loop that does not advance. -/
  | endless
  deriving DecidableEq, Repr

abbrev Handler := Effect Server SendTo Fault

open Effect

/-- A library call that may throw. -/
def throwing {α : Type} (x : Option α) : Handler α := orFail .exception x

/-- The call, whatever comes of it: no caller looks at what it returns. -/
def sendTo (ip : String) (port : UInt16) (msg : Json) : Handler Unit := emit ⟨⟨ip, port⟩, msg.dump⟩

/-- `sendTo` in a loop that runs `n` times. -/
def sendRepeatedly (n : Nat) (ip : String) (port : UInt16) (msg : Json) : Handler Unit :=
  match n with
  | 0 => pure ()
  | n + 1 => do
    sendTo ip port msg
    sendRepeatedly n ip port msg

/-- The buffer is filled with zeros and a receive is started. -/
def Server.rearm (s : Server) : Server :=
  { s with recvBuffer := emptyBuffer, receiving := true, armed := fun _ => rfl }

def startReceive : Handler Unit := modifyState Server.rearm

/-! ## Records -/

/-- `{{"ip", ip}, {"port", port}}`. -/
def endpointInfo (ip : String) (port : UInt16) : Json := .obj [("ip", .string ip), ("port", .ushort port)]

/-- `{{"natmapping", ..}, {"natfiltering", ..}, {"endpoint", ..}}`. -/
def nodeInfo (natmapping natfiltering : String) (endpoint : List Json) : Json :=
  .obj [("natmapping", .string natmapping), ("natfiltering", .string natfiltering), ("endpoint", .array endpoint)]

/-- `j["endpoint"][0][field]`. -/
def endpoint0 (field : String) (j : Json) : Option Json := do (← (← j.sub "endpoint").sub0).sub field

/-- `j["endpoint"][0]["ip"].get<std::string>()`. -/
def epIp (j : Json) : Option String := do (← endpoint0 "ip" j).getString

/-- `j["endpoint"][0]["port"].get<unsigned short>()`. -/
def epPort (j : Json) : Option UInt16 := do (← endpoint0 "port" j).getUShort

/-- `j["natmapping"].get<string>() == "Nonmap" && j["natfiltering"].get<string>() == "Nonfilter"`. -/
def isPublic (j : Json) : Option Bool := do
  if (← (← j.sub "natmapping").getString) = "Nonmap" then
    return (← (← j.sub "natfiltering").getString) = "Nonfilter"
  else
    return false

/-- The state the constructor leaves. -/
def init (cfg : Config) : Server where
  hostList := ∅
  fCkTimeMap := ∅
  tickerNum := ∅
  localEpInfo :=
    if cfg.publicFlag then nodeInfo "Nonmap" "Nonfilter" [endpointInfo cfg.localIp cfg.localPort] else .null
  count := 0
  recvBuffer := emptyBuffer
  receiving := true
  armed := fun _ => rfl

end NatServer

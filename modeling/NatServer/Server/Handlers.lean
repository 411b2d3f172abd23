import NatServer.Server.State
/-!
# `managerHost` and `udpServer::handleReceive`

One definition per function and per message branch, statement by statement.
Printing is left out except where what is printed can fail: `getself.value()`
in the update branch, and the two `get<std::string>()` before a connect.
-/

namespace NatServer

open Effect Json

/-! ## Message types -/

/-- The values of `msgtype` the handler knows. -/
inductive MsgType where
  | detect
  | update
  | proxyconnect
  | helpconnect
  | openconnect
  | filteringcheck
  | callclient
  | callclientRes
  | ticker
  | tickerRes
  deriving DecidableEq, Repr

/-- The comparisons of the `msgtype` chain, in its order. -/
def MsgType.ofText? (msgType : String) : Option MsgType :=
  if msgType = "detect" then some .detect
  else if msgType = "update" then some .update
  else if msgType = "proxyconnect" then some .proxyconnect
  else if msgType = "helpconnect" then some .helpconnect
  else if msgType = "openconnect" then some .openconnect
  else if msgType = "filteringcheck" then some .filteringcheck
  else if msgType = "callclient" then some .callclient
  else if msgType = "callclientRes" then some .callclientRes
  else if msgType = "ticker" then some .ticker
  else if msgType = "tickerRes" then some .tickerRes
  else none

/-- The text of each type. -/
def MsgType.text : MsgType → String
  | .detect => "detect"
  | .update => "update"
  | .proxyconnect => "proxyconnect"
  | .helpconnect => "helpconnect"
  | .openconnect => "openconnect"
  | .filteringcheck => "filteringcheck"
  | .callclient => "callclient"
  | .callclientRes => "callclientRes"
  | .ticker => "ticker"
  | .tickerRes => "tickerRes"

/-- The branch entered is the one of the text. -/
theorem MsgType.ofText?_eq_some {msgType : String} {t : MsgType} : ofText? msgType = some t ↔ msgType = t.text := by
  constructor
  · intro h
    unfold ofText? at h
    repeat' (split at h; · cases h; assumption)
    cases h
  · rintro rfl
    cases t <;> rfl

@[simp] theorem MsgType.ofText?_text (t : MsgType) : ofText? t.text = some t := ofText?_eq_some.2 rfl

theorem MsgType.text_inj {t t' : MsgType} (h : t.text = t'.text) : t = t' := by
  have h' := ofText?_text t
  rw [h, ofText?_text] at h'
  exact (Option.some.inj h').symm

variable [Boost] (cfg : Config)

/-! ## managerHost -/

/-- `addNewNode`: `std::map::insert` keeps an entry that exists. -/
def addNewNode (nodeID vhostInfo : String) : Handler Unit :=
  modifyState fun s => { s with hostList := s.hostList.insertIfNew nodeID vhostInfo }

/-- An entry is overwritten through an iterator to it. -/
def setNode (nodeID vhostInfo : String) : Handler Unit :=
  modifyState fun s => { s with hostList := s.hostList.insert nodeID vhostInfo }

/-- The loop of `getPublicNode`; `none` where reading an entry throws. -/
def findPublic (nodeID : String) : List (String × String) → Option String
  | [] => some ""
  | (id, info) :: rest => do
    let findPub ← parse info
    if (← isPublic findPub) ∧ nodeID ≠ id then some info else findPublic nodeID rest

def getPublicNode (nodeID : String) : Handler String := do
  throwing (findPublic nodeID (← readState).hostList.toList)

/-! ## updateRouteInfo -/

/-- `{{"msgtype", "update"}, {"nodeID", _NodeID}, {"data", json(_HostList)}}`. -/
def updateMsg (hostList : StrMap String) : Json :=
  .obj [("msgtype", .string "update"), ("nodeID", .string cfg.nodeID),
    ("data", .object (hostList.map fun _ info => .string info))]

/-- The loop of `updateRouteInfo`. -/
def notifyAll (msg : Json) : List (String × String) → Handler Unit
  | [] => pure ()
  | (id, info) :: rest => do
    let itemJson ← throwing (parse info)
    if id = cfg.nodeID then
      notifyAll msg rest
    else
      let ip ← throwing (epIp itemJson)
      let port ← throwing (epPort itemJson)
      sendTo ip port msg
      notifyAll msg rest

def updateRouteInfo : Handler Unit := do
  let s ← readState
  notifyAll cfg (updateMsg cfg s.hostList) s.hostList.toList

/-! ## detect -/

/-- The record of a detecting node behind a NAT. -/
def mappedInfo (seen : Endpoint) (localIp : String) (localPort : UInt16) : Json :=
  nodeInfo "mapping" "" [endpointInfo seen.ip seen.port, endpointInfo localIp localPort]

/-- The record of a node that is not mapped. -/
def publicInfo (e : Endpoint) : Json := nodeInfo "Nonmap" "Nonfilter" [endpointInfo e.ip e.port]

/-- The server's record of itself. -/
def selfInfo : Json := publicInfo ⟨cfg.localIp, cfg.localPort⟩

def filteringcheckMsg (seen : Endpoint) (msgID : String) : Json :=
  .obj [("msgtype", .string "filteringcheck"), ("ip", .string seen.ip), ("port", .ushort seen.port),
    ("msgid", .string msgID), ("nodeID", .string cfg.nodeID)]

/-- `"filtering_" + to_string(curTime) + "_" + seeRemoteIp + "_" + to_string(seeRemotePort) + "_" + seeNodeID`. -/
def keyStr (curTime : Int) (seen : Endpoint) (seeNodeID : String) : String :=
  "filtering_" ++ toString curTime ++ "_" ++ seen.ip ++ "_" ++ portText seen.port ++ "_" ++ seeNodeID

/-- The source differs from the address the node reports. -/
def detectMapped (draws : Draws) (seen : Endpoint) (seeNodeID localIp : String) (localPort : UInt16) :
    Handler Unit := do
  addNewNode seeNodeID (mappedInfo seen localIp localPort).dump
  addNewNode cfg.nodeID (selfInfo cfg).dump
  let publicNode ← getPublicNode cfg.nodeID
  let s ← readState
  let getNeighber := if publicNode = "" then s.localEpInfo.dump else publicNode
  let neighber ← throwing (parse getNeighber)
  let ip ← throwing (epIp neighber)
  let port ← throwing (epPort neighber)
  sendTo ip port (filteringcheckMsg cfg seen draws.msgID)
  modifyState fun s =>
    { s with fCkTimeMap := s.fCkTimeMap.insertIfNew draws.key (keyStr draws.curTime seen seeNodeID) }
  updateRouteInfo cfg

def detectPublic (seen : Endpoint) (seeNodeID : String) : Handler Unit := do
  addNewNode seeNodeID (publicInfo seen).dump
  addNewNode cfg.nodeID (selfInfo cfg).dump
  updateRouteInfo cfg

def detect (draws : Draws) (seen : Endpoint) (seeNodeID : String) (recvJson : Json) : Handler Unit := do
  let data ← throwing (recvJson.sub "data")
  let localIpStr ← throwing ((data.sub "localip").bind getString)
  let localPortStr ← throwing ((data.sub "localport").bind getString)
  let localPortInt ← throwing (Boost.lexical_cast localPortStr)
  if seen.ip ≠ localIpStr ∨ seen.port ≠ localPortInt then
    detectMapped cfg draws seen seeNodeID localIpStr localPortInt
  else
    detectPublic cfg seen seeNodeID

/-! ## update -/

/-- `{{"msgtype", msgtype}, {"nodeID", _NodeID}, {"data", data}}`. -/
def dataMsg (msgtype : String) (data : Json) : Json :=
  .obj [("msgtype", .string msgtype), ("nodeID", .string cfg.nodeID), ("data", data)]

/-- The search for a public node to relay through: the last one found, else
the address held so far. -/
def relayOf (see : Endpoint) : List (String × String) → Option Endpoint
  | [] => some see
  | (_, info) :: rest => do
    let body ← parse info
    if ← isPublic body then
      relayOf ⟨← epIp body, ← epPort body⟩ rest
    else
      relayOf see rest

/-- The body of the update loop. It returns `seeRemoteIp` and `seeRemotePort`,
which the relay search overwrites. -/
def updateEntry (seeNodeID : String) (see : Endpoint) (key : String) (value : Json) : Handler Endpoint := do
  let itemobj ← throwing (value.getString.bind parse)
  let tarIp ← throwing (epIp itemobj)
  let tarPort ← throwing (epPort itemobj)
  let s ← readState
  if tarIp ++ "_" ++ portText tarPort ∈ s.hostList then
    return see
  else if cfg.nodeID = key then
    addNewNode cfg.nodeID itemobj.dump
    return see
  else if tarIp = see.ip then
    addNewNode seeNodeID itemobj.dump
    return see
  else
    let msg := dataMsg cfg "openconnect" s.localEpInfo
    let natmapping ← throwing ((itemobj.sub "natmapping").bind getString)
    let natfiltering ← throwing ((itemobj.sub "natfiltering").bind getString)
    if natmapping = "Nonmap" ∧ natfiltering = "Nonfilter" then
      sendTo tarIp tarPort msg
      return see
    else
      let see ← throwing (relayOf see s.hostList.toList)
      sendTo see.ip see.port (dataMsg cfg "proxyconnect" itemobj)
      if ← throwing (isPublic s.localEpInfo) then
        return see
      else
        sendTo tarIp tarPort msg
        return see

def updateLoop (seeNodeID : String) : Endpoint → List (String × Json) → Handler Unit
  | _, [] => pure ()
  | see, (key, value) :: rest => do
    let see ← updateEntry cfg seeNodeID see key value
    updateLoop seeNodeID see rest

/-- `getself.value()`, printed whether the id was found or not: the members of
`updateInfo` and the receiver's own. On an object or array the iterator is at
its end if not, on other values `value()` throws. -/
def getself (updateInfo : Json) : Handler (StrMap Json × Json) :=
  match updateInfo.view with
  | .object m =>
    match m[cfg.nodeID]? with
    | some value => pure (m, value)
    | none => fail .endIterator
  | .array _ => fail .endIterator
  | _ => fail .exception

def update (seen : Endpoint) (seeNodeID : String) (recvJson : Json) : Handler Unit := do
  let updateInfo ← throwing (recvJson.sub "data")
  let (m, value) ← getself cfg updateInfo
  let own ← throwing (value.getString.bind parse)
  modifyState fun s => { s with localEpInfo := own }
  updateLoop cfg seeNodeID seen m.toList

/-! ## proxyconnect, helpconnect, openconnect -/

/-- The record a helpconnect carries: the NAT fields of the target's record,
the endpoint the requester was seen at. -/
def helpBody (natmapping natfiltering : Json) (seen : Endpoint) : Json :=
  .obj [("natmapping", natmapping), ("natfiltering", natfiltering),
    ("endpoint", .array [endpointInfo seen.ip seen.port])]

def proxyconnect (seen : Endpoint) (recvJson : Json) : Handler Unit := do
  let data ← throwing (recvJson.sub "data")
  let tarIp ← throwing (epIp data)
  let tarPort ← throwing (epPort data)
  let natmapping ← throwing (data.sub "natmapping")
  let natfiltering ← throwing (data.sub "natfiltering")
  sendTo tarIp tarPort (dataMsg cfg "helpconnect" (helpBody natmapping natfiltering seen))

def helpconnect (recvJson : Json) : Handler Unit := do
  let data ← throwing (recvJson.sub "data")
  let tarIp ← throwing (epIp data)
  let tarPort ← throwing (epPort data)
  sendRepeatedly 3 tarIp tarPort (dataMsg cfg "openconnect" (← readState).localEpInfo)

/-- `change["endpoint"][0]["ip"] = ip; change["endpoint"][0]["port"] = port`. -/
def withEndpoint0 (e : Endpoint) (data : Json) : Option Json := do
  let endpoint ← data.sub "endpoint"
  let first ← endpoint.sub0
  let first ← (← first.set "ip" (.string e.ip)).set "port" (.ushort e.port)
  data.set "endpoint" (← endpoint.set0 first)

/-- The reported endpoint is not the observed one; the port is read only where
the ip is the same. -/
def endpointDiffers (seen : Endpoint) (data : Json) : Option Bool := do
  if seen.ip ≠ (← epIp data) then return true else return seen.port ≠ (← epPort data)

def openconnect (seen : Endpoint) (seeNodeID : String) (recvJson : Json) : Handler Unit := do
  let data ← throwing (recvJson.sub "data")
  if ← throwing (endpointDiffers seen data) then
    let change ← throwing (withEndpoint0 seen data)
    if seeNodeID ∈ (← readState).hostList then
      setNode seeNodeID change.dump
    else
      addNewNode seeNodeID change.dump
  else
    addNewNode seeNodeID data.dump

/-! ## The filtering check -/

def callclientMsg (seen : Endpoint) (ip : String) (port : UInt16) (msgid : String) : Json :=
  .obj [("msgtype", .string "callclient"), ("ip", .string ip), ("port", .ushort port),
    ("originip", .string seen.ip), ("originport", .ushort seen.port), ("msgid", .string msgid),
    ("nodeID", .string cfg.nodeID)]

def filteringcheck (seen : Endpoint) (recvJson : Json) : Handler Unit := do
  let localIpStr ← throwing ((recvJson.sub "ip").bind getString)
  let localPortInt ← throwing ((recvJson.sub "port").bind getUShort)
  let msgid ← throwing ((recvJson.sub "msgid").bind getString)
  sendTo localIpStr localPortInt (callclientMsg cfg seen localIpStr localPortInt msgid)

def callclientResMsg (seen : Endpoint) (msgid : String) : Json :=
  .obj [("msgtype", .string "callclientRes"), ("nodeID", .string cfg.nodeID), ("ip", .string seen.ip),
    ("port", .ushort seen.port), ("msgid", .string msgid), ("nodeID", .string cfg.nodeID)]

def callclient (seen : Endpoint) (recvJson : Json) : Handler Unit := do
  let msgid ← throwing ((recvJson.sub "msgid").bind getString)
  let oIp ← throwing ((recvJson.sub "originip").bind getString)
  let oPort ← throwing ((recvJson.sub "originport").bind getUShort)
  sendRepeatedly 3 oIp oPort (callclientResMsg cfg seen msgid)

/-- The update of an entry's `natfiltering`. -/
def setFiltering (verdict info : String) : Option Json := do
  (← parse info).set "natfiltering" (.string verdict)

def callclientRes (recvJson : Json) : Handler Unit := do
  let _localIpStr ← throwing ((recvJson.sub "ip").bind getString)
  let _localPortInt ← throwing ((recvJson.sub "port").bind getUShort)
  let ipKey ← throwing ((recvJson.sub "nodeID").bind getString)
  match (← readState).hostList[ipKey]? with
  | some info =>
    let findmsg ← throwing (setFiltering "Nonfilter" info)
    setNode ipKey findmsg.dump
    let msgid ← throwing ((recvJson.sub "msgid").bind getString)
    modifyState fun s => { s with fCkTimeMap := s.fCkTimeMap.erase msgid }
    updateRouteInfo cfg
  | none => updateRouteInfo cfg

/-! ## ticker, tickerRes -/

/-- `"ticker_" + ip + "_" + to_string(port)`. -/
def tickerKey (e : Endpoint) : String := "ticker_" ++ e.ip ++ "_" ++ portText e.port

def tickerResMsg (msgid : String) : Json :=
  .obj [("msgtype", .string "tickerRes"), ("msgid", .string msgid), ("nodeID", .string cfg.nodeID)]

def ticker (seen : Endpoint) (recvJson : Json) : Handler Unit := do
  let data ← throwing (recvJson.sub "data")
  let msgID ← throwing ((recvJson.sub "msgid").bind getString)
  let epNodeID ← throwing ((recvJson.sub "nodeID").bind getString)
  if ¬ data.isNull then
    if epNodeID ∈ (← readState).hostList then
      setNode epNodeID data.dump
    else
      addNewNode epNodeID data.dump
  sendTo seen.ip seen.port (tickerResMsg cfg msgID)
  modifyState fun s => { s with tickerNum := s.tickerNum.erase (tickerKey seen) }

def tickerRes (seen : Endpoint) (recvJson : Json) : Handler Unit := do
  let _msgID ← throwing ((recvJson.sub "msgid").bind getString)
  modifyState fun s => { s with tickerNum := s.tickerNum.erase (tickerKey seen) }

/-! ## handleReceive -/

/-- The branches. The value says whether the branch returns from
`handleReceive` early. -/
def dispatch (draws : Draws) (seen : Endpoint) (seeNodeID : String) (recvJson : Json) : MsgType → Handler Bool
  | .detect => do detect cfg draws seen seeNodeID recvJson; return false
  | .update =>
    if seeNodeID = cfg.nodeID then return true
    else do update cfg seen seeNodeID recvJson; return false
  | .proxyconnect => do proxyconnect cfg seen recvJson; return false
  | .helpconnect => do helpconnect cfg recvJson; return false
  | .openconnect => do openconnect seen seeNodeID recvJson; return false
  | .filteringcheck => do filteringcheck cfg seen recvJson; return false
  | .callclient => do callclient cfg seen recvJson; return false
  | .callclientRes => do callclientRes cfg recvJson; return false
  | .ticker => do ticker cfg seen recvJson; return false
  | .tickerRes => do tickerRes seen recvJson; return false

/-- What is done with an accepted datagram: `msgtype` is looked up, `nodeID`
is read whatever the type. -/
def handleJson (draws : Draws) (seen : Endpoint) (recvJson : Json) : Handler Bool := do
  match recvJson.view with
  | .object m =>
    match m["msgtype"]? with
    | some t =>
      let msgType ← throwing t.getString
      let seeNodeID ← throwing ((recvJson.sub "nodeID").bind getString)
      match MsgType.ofText? msgType with
      | some msgType => dispatch cfg draws seen seeNodeID recvJson msgType
      | none => return false
    | none => return false
  | _ => return false

/-- The bytes of the buffer as text, up to the NUL that ends the input. -/
def bufferText (buf : List UInt8) : Option String :=
  String.fromUTF8? (buf.takeWhile (· ≠ 0)).toByteArray

/-- `json::accept` and `json::parse` of the buffer. -/
def recvJson? (buf : List UInt8) : Option Json := (bufferText buf).bind parse

inductive ErrorCode where
  | message_size
  | other
  deriving DecidableEq

def handleReceive (draws : Draws) (error : Option ErrorCode) (remoteEndpoint : Endpoint) : Handler Unit :=
  if error = none ∨ error = some .message_size then do
    let teststr := (← readState).recvBuffer
    let returned ←
      if remoteEndpoint.ip ≠ cfg.localIp then
        match recvJson? teststr with
        | some recvJson => handleJson cfg draws remoteEndpoint recvJson
        | none => pure false
      else pure false
    if returned then pure () else startReceive
  else pure ()

end NatServer

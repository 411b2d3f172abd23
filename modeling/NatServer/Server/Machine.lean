import NatServer.Server.Timer
import NatServer.Lib.Runs
/-!
# Runs of one server

A server takes turns: a datagram arrives and is handled, or the timer thread
makes a pass. Each is atomic. A turn that faults ends the process, so a run is
made of the turns that complete.
-/

namespace NatServer

open Effect Json

/-- The socket writes a datagram to the buffer and completes the receive. -/
def arrive (datagram : List UInt8) (s : Server) : Server :=
  { s with
    recvBuffer := datagram.take bufferSize ++ s.recvBuffer.drop datagram.length
    receiving := false
    armed := nofun }

section
variable (datagram : List UInt8) (s : Server)

@[simp] theorem arrive_hostList : (arrive datagram s).hostList = s.hostList := rfl
@[simp] theorem arrive_fCkTimeMap : (arrive datagram s).fCkTimeMap = s.fCkTimeMap := rfl
@[simp] theorem arrive_tickerNum : (arrive datagram s).tickerNum = s.tickerNum := rfl
@[simp] theorem arrive_localEpInfo : (arrive datagram s).localEpInfo = s.localEpInfo := rfl
@[simp] theorem arrive_count : (arrive datagram s).count = s.count := rfl

end

inductive Event where
  | receive (error : Option ErrorCode) (remote : Endpoint) (datagram : List UInt8) (draws : Draws)
  | timer (now : Int)

/-- A receive needs a pending `async_receive_from`. -/
def Event.enabled : Event → Server → Prop
  | .receive .., s => s.receiving = true
  | .timer _, _ => True

def Event.isTimer : Event → Bool
  | .receive .. => false
  | .timer _ => true

/-- An event and what the server sent in reaction to it. -/
structure Turn where
  event : Event
  sent : List SendTo

/-! ## The message a datagram is to the server that receives it -/

/-- What a zero-filled buffer holds after a datagram. -/
def received (datagram : List UInt8) : List UInt8 :=
  datagram.take bufferSize ++ emptyBuffer.drop datagram.length

theorem arrive_recvBuffer {s : Server} (h : s.receiving = true) (datagram : List UInt8) :
    (arrive datagram s).recvBuffer = received datagram := by
  simp only [arrive, received, s.armed h]

/-- The JSON the handler goes on with: datagrams from the own ip are dropped. -/
def heard (cfg : Config) (remote : Endpoint) (datagram : List UInt8) : Option Json :=
  if remote.ip ≠ cfg.localIp then recvJson? (received datagram) else none

/-- The field `nodeID` of a message. -/
def messageID (j : Json) : Option String := (j.sub "nodeID").bind getString

/-- The field `msgtype` of a message. -/
def messageType (j : Json) : Option String := (j.sub "msgtype").bind getString

/-- The event brings the message `j`, of type `t` and from `n`. -/
inductive Event.Carries (cfg : Config) (t : MsgType) (n : String) (j : Json) : Event → Prop
  | intro {error remote datagram draws} (he : error = none ∨ error = some .message_size)
      (hheard : heard cfg remote datagram = some j) (htype : messageType j = some t.text) (hid : messageID j = some n) :
      Carries cfg t n j (.receive error remote datagram draws)

/-- An event brings one message at most. -/
theorem Event.Carries.unique {cfg : Config} {event : Event} {t t' : MsgType} {n n' : String} {j j' : Json}
    (h : event.Carries cfg t n j) (h' : event.Carries cfg t' n' j') : t = t' ∧ n = n' ∧ j = j' := by
  cases h with
  | intro _ hheard htype hid =>
    cases h' with
    | intro _ hheard' htype' hid' =>
      cases hheard.symm.trans hheard'
      exact ⟨MsgType.text_inj (Option.some.inj (htype.symm.trans htype')), Option.some.inj (hid.symm.trans hid'), rfl⟩

/-- A detect handled in the event would draw this key for its check. -/
def Event.DrawsKey (key : String) : Event → Prop
  | .receive _ _ _ draws => draws.key = key
  | .timer _ => False

/-! ## Turns and runs -/

variable [Boost] (cfg : Config)

def react : Event → Handler Unit
  | .receive error remote datagram draws => do
    modifyState (arrive datagram)
    handleReceive cfg draws error remote
  | .timer now => threadhandle cfg now

structure Step (s : Server) (t : Turn) (s' : Server) : Prop where
  enabled : t.event.enabled s
  completes : Completes (react cfg t.event) s () s' t.sent

/-- The states a server comes to after it was started. -/
def Reachable (s : Server) : Prop := ∃ ts, Run (Step cfg) (init cfg) ts s

variable {cfg}

theorem Reachable.init : Reachable cfg (init cfg) := ⟨[], .nil _⟩

theorem Reachable.step {s s' : Server} {t : Turn} (h : Reachable cfg s) (hs : Step cfg s t s') :
    Reachable cfg s' := by
  obtain ⟨ts, hr⟩ := h
  exact ⟨_, hr.snoc hs⟩

theorem Reachable.run {s s' : Server} {ts : List Turn} (h : Reachable cfg s) (hr : Run (Step cfg) s ts s') :
    Reachable cfg s' := by
  obtain ⟨ts₀, hr₀⟩ := h
  exact ⟨_, hr₀.append hr⟩

end NatServer

import NatServer.Server.Wire
/-!
# Concrete steps

`boost::lexical_cast` on plain digits, and how the handling of one message a
server sends becomes a step of the receiver: what is needed to exhibit runs.
-/

namespace NatServer

open Json

/-- `lexical_cast<unsigned short>` of a text of digits. -/
def castDigits (s : String) : Option UInt16 :=
  if s.toList ≠ [] ∧ s.toList.all Char.isDigit ∧ ofDigits s.toList < 2 ^ 16 then
    some (UInt16.ofNat (ofDigits s.toList))
  else none

theorem castDigits_toString (p : UInt16) : castDigits (toString p.toNat) = some p := by
  have htext : (toString p.toNat).toList = Nat.toDigits 10 p.toNat := by
    rw [Nat.toString_eq_ofList_toDigits, String.toList_ofList]
  have hvalue : ofDigits (Nat.toDigits 10 p.toNat) = p.toNat := by simp [ofDigits]
  rw [castDigits, htext, hvalue, if_pos, UInt16.ofNat_toNat]
  refine ⟨Nat.toDigits_ne_nil, ?_, p.toNat_lt⟩
  rw [List.all_eq_true]
  exact fun c hc => Nat.isDigit_of_mem_toDigits (by decide) (by decide) hc

/-- A number from 0 to 255, without a leading zero. -/
def isOctet (ds : List Char) : Bool :=
  ds ≠ [] && ds.all Char.isDigit && ofDigits ds < 2 ^ 8 && (ds.head? ≠ some '0' || ds.length = 1)

/-- Four of them, with dots between. -/
def isDotted (s : String) : Bool :=
  let octets := s.toList.splitOn '.'
  octets.length = 4 && octets.all isOctet

/-- Boost on plain digits and IPv4 addresses. -/
abbrev digitsBoost : Boost where
  lexical_cast := castDigits
  lexical_cast_toString := castDigits_toString
  split s := (s.toList.splitOn '_').map String.ofList
  split_eq _ := rfl
  from_string := isDotted

/-- A node on the default port that reports to `server`. -/
def sampleNode (nodeID localIp : String) (publicFlag : Bool) : Config :=
  ⟨nodeID, localIp, 80, publicFlag, ⟨"10.0.0.1", 80⟩⟩

/-- The record of a node behind a NAT that maps it to `seen`. -/
def sampleMapped (seen : Endpoint) : Json := mappedInfo seen "192.168.0.2" 80

def natSender : Config := sampleNode "b" "192.168.0.3" false

def natReceiver : Config := sampleNode "r" "192.168.0.4" false

/-- A message that fits is carried to the server it is delivered to. -/
theorem carries_wire {cfg : Config} {remote : Endpoint} {j : Json} {t : MsgType} {n : String} (hip : remote.ip ≠ cfg.localIp)
    (hfit : (j.val.dump.flatMap String.utf8EncodeChar).length ≤ bufferSize) (hj : IsMessage j t n) (draws : Draws) :
    Event.Carries cfg t n j (.receive none remote (wire j.dump) draws) :=
  .intro (.inl rfl) (heard_wire hip (by rwa [wire_dump])) hj.type hj.id

variable [Boost] {cfg : Config} {s s' : Server}

/-- A message that is heard and whose branch completes is a step. -/
theorem step_of_heard {error : Option ErrorCode} {draws : Draws} {remote : Endpoint} {j : Json} {n : String} {t : MsgType}
    {o : List SendTo} (hs : s.receiving = true) (he : error = none ∨ error = some .message_size)
    (hheard : heard cfg remote (wire j.dump) = some j) (hj : IsMessage j t n)
    (h : Handled cfg draws remote n j (arrive (wire j.dump) s) t false s' o) :
    Step cfg s ⟨.receive error remote (wire j.dump) draws, o⟩ s'.rearm :=
  ⟨hs, receive_completes (arrive_recvBuffer hs _) he hheard hj.id hj.type t.ofText?_text h⟩

/-- A message on the wire that fits is heard. -/
theorem step_of_handled (draws : Draws) {remote : Endpoint} {j : Json} {n : String} {t : MsgType} {o : List SendTo}
    (hs : s.receiving = true) (hip : remote.ip ≠ cfg.localIp)
    (hfit : (j.val.dump.flatMap String.utf8EncodeChar).length ≤ bufferSize) (hj : IsMessage j t n)
    (h : Handled cfg draws remote n j (arrive (wire j.dump) s) t false s' o) :
    Step cfg s ⟨.receive none remote (wire j.dump) draws, o⟩ s'.rearm :=
  step_of_heard hs (.inl rfl) (heard_wire hip (by rwa [wire_dump])) hj h

end NatServer

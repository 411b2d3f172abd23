import NatServer.Server.Wire
/-!
# What a server sends

The messages a branch sends in answer to the one it handles, and those a timer
pass sends, also where the branch or the pass faults later: each with its type
and what it took over from the message handled.
-/

namespace NatServer

open Effect Json

/-- The text sent is that of a message `P` allows. -/
def Says (P : Json → Prop) (x : SendTo) : Prop := ∃ j, P j ∧ x.msg = j.dump

section
variable {P : Json → Prop} {cfg : Config} {j : Json}

theorem emits_sendTo (h : P j) (ip : String) (port : UInt16) : Emits (Says P) (sendTo ip port j) :=
  Emits.emit ⟨j, h, rfl⟩

theorem emits_sendRepeatedly (h : P j) (k : Nat) (ip : String) (port : UInt16) :
    Emits (Says P) (sendRepeatedly k ip port j) := by
  induction k with
  | zero => exact Emits.pure ()
  | succ k ih => exact (emits_sendTo h ip port).bind fun _ => ih

theorem emits_notifyAll (h : P j) (l : List (String × String)) : Emits (Says P) (notifyAll cfg j l) := by
  induction l with
  | nil => exact Emits.pure ()
  | cons p l ih =>
    refine (Emits.orFail _ _).bind fun item => Emits.ite (fun _ => ih) fun _ => ?_
    exact (Emits.orFail _ _).bind fun ip => (Emits.orFail _ _).bind fun port =>
      (emits_sendTo h ip port).bind fun _ => ih

theorem emits_updateRouteInfo (h : ∀ table, P (updateMsg cfg table)) : Emits (Says P) (updateRouteInfo cfg) :=
  Emits.readState.bind fun s => emits_notifyAll (h s.hostList) _

end

/-! ## Answers -/

/-- A message of the second type that a server sends in answer to `j`, of the
first type and seen from `seen`. -/
inductive Answer [Boost] (cfg : Config) (draws : Draws) (seen : Endpoint) (j : Json) : MsgType → MsgType → Json → Prop
  | detectUpdate (table : StrMap String) : Answer cfg draws seen j .detect .update (updateMsg cfg table)
  | filteringcheck {lip : String} {lport : UInt16} (hdata : detectData j = some (lip, lport))
      (hmapped : seen.ip ≠ lip ∨ seen.port ≠ lport) :
      Answer cfg draws seen j .detect .filteringcheck (filteringcheckMsg cfg seen draws.msgID)
  | opening (own : Json) : Answer cfg draws seen j .update .openconnect (dataMsg cfg "openconnect" own)
  | proxyconnect (item : Json) : Answer cfg draws seen j .update .proxyconnect (dataMsg cfg "proxyconnect" item)
  | helpconnect (body : Json) : Answer cfg draws seen j .proxyconnect .helpconnect (dataMsg cfg "helpconnect" body)
  | openconnect (own : Json) : Answer cfg draws seen j .helpconnect .openconnect (dataMsg cfg "openconnect" own)
  | callclient {ip msgid : String} {port : UInt16} (hmsgid : (j.sub "msgid").bind getString = some msgid) :
      Answer cfg draws seen j .filteringcheck .callclient (callclientMsg cfg seen ip port msgid)
  | callclientRes {msgid : String} (hmsgid : (j.sub "msgid").bind getString = some msgid) :
      Answer cfg draws seen j .callclient .callclientRes (callclientResMsg cfg seen msgid)
  | resUpdate (table : StrMap String) : Answer cfg draws seen j .callclientRes .update (updateMsg cfg table)
  | tickerRes (msgid : String) : Answer cfg draws seen j .ticker .tickerRes (tickerResMsg cfg msgid)

/-- The answer to a message of type `t`. -/
def Answers [Boost] (cfg : Config) (draws : Draws) (seen : Endpoint) (j : Json) (t : MsgType) : SendTo → Prop :=
  Says fun j' => ∃ t', Answer cfg draws seen j t t' j'

section
variable [Boost] {cfg : Config} {draws : Draws} {seen : Endpoint} {j : Json}

theorem Answer.isMessage {t t' : MsgType} {j' : Json} (h : Answer cfg draws seen j t t' j') :
    IsMessage j' t' cfg.nodeID := by
  cases h with
  | detectUpdate | resUpdate => exact isMessage_update ..
  | filteringcheck => exact isMessage_filteringcheck ..
  | opening | openconnect => exact isMessage_data cfg .openconnect _
  | proxyconnect => exact isMessage_data cfg .proxyconnect _
  | helpconnect => exact isMessage_data cfg .helpconnect _
  | callclient => exact isMessage_callclient ..
  | callclientRes => exact isMessage_callclientRes ..
  | tickerRes => exact isMessage_tickerRes ..

theorem emits_updateEntry (seeNodeID : String) (see : Endpoint) (key : String) (value : Json) :
    Emits (Answers cfg draws seen j .update) (updateEntry cfg seeNodeID see key value) := by
  unfold updateEntry
  refine (Emits.orFail _ _).bind fun item => (Emits.orFail _ _).bind fun tarIp => (Emits.orFail _ _).bind fun tarPort =>
    Emits.readState.bind fun s => ?_
  refine Emits.ite (fun _ => Emits.pure _) fun _ => Emits.ite (fun _ => ?_) fun _ => Emits.ite (fun _ => ?_) fun _ => ?_
  · exact (Emits.modifyState _).bind fun _ => Emits.pure _
  · exact (Emits.modifyState _).bind fun _ => Emits.pure _
  · refine (Emits.orFail _ _).bind fun natmapping => (Emits.orFail _ _).bind fun natfiltering => ?_
    refine Emits.ite (fun _ => ?_) fun _ => ?_
    · exact (emits_sendTo ⟨_, .opening _⟩ _ _).bind fun _ => Emits.pure _
    · refine (Emits.orFail _ _).bind fun relay => (emits_sendTo ⟨_, .proxyconnect _⟩ _ _).bind fun _ => ?_
      refine (Emits.orFail _ _).bind fun pub => Emits.ite (fun _ => Emits.pure _) fun _ => ?_
      exact (emits_sendTo ⟨_, .opening _⟩ _ _).bind fun _ => Emits.pure _

theorem emits_updateLoop (seeNodeID : String) (see : Endpoint) (l : List (String × Json)) :
    Emits (Answers cfg draws seen j .update) (updateLoop cfg seeNodeID see l) := by
  induction l generalizing see with
  | nil => exact Emits.pure ()
  | cons p l ih => exact (emits_updateEntry seeNodeID see p.1 p.2).bind fun see => ih see

theorem emits_update (seeNodeID : String) :
    Emits (Answers cfg draws seen j .update) (update cfg seen seeNodeID j) := by
  have hgetself (updateInfo : Json) : Emits (Answers cfg draws seen j .update) (getself cfg updateInfo) := by
    unfold getself
    split
    · split
      · exact Emits.pure _
      · exact Emits.fail _
    · exact Emits.fail _
    · exact Emits.fail _
  exact (Emits.orFail _ _).bind fun updateInfo => (hgetself updateInfo).bind fun _ =>
    (Emits.orFail _ _).bind fun own => (Emits.modifyState _).bind fun _ => emits_updateLoop _ _ _

theorem emits_openconnect (seeNodeID : String) :
    Emits (Answers cfg draws seen j .openconnect) (openconnect seen seeNodeID j) := by
  refine (Emits.orFail _ _).bind fun data => (Emits.orFail _ _).bind fun differs => Emits.ite (fun _ => ?_) fun _ => ?_
  · refine (Emits.orFail _ _).bind fun change => Emits.readState.bind fun s => ?_
    exact Emits.ite (fun _ => Emits.modifyState _) fun _ => Emits.modifyState _
  · exact Emits.modifyState _

theorem emits_callclientRes : Emits (Answers cfg draws seen j .callclientRes) (callclientRes cfg j) := by
  have hroute : Emits (Answers cfg draws seen j .callclientRes) (updateRouteInfo cfg) :=
    emits_updateRouteInfo fun table => ⟨_, .resUpdate table⟩
  refine (Emits.orFail _ _).bind fun ip => (Emits.orFail _ _).bind fun port => (Emits.orFail _ _).bind fun ipKey =>
    Emits.readState.bind fun s => ?_
  split
  · refine (Emits.orFail _ _).bind fun findmsg => (Emits.modifyState _).bind fun _ => ?_
    exact (Emits.orFail _ _).bind fun msgid => (Emits.modifyState _).bind fun _ => hroute
  · exact hroute

theorem emits_ticker : Emits (Answers cfg draws seen j .ticker) (ticker cfg seen j) := by
  refine (Emits.orFail _ _).bind fun data => (Emits.orFail _ _).bind fun msgID =>
    (Emits.orFail _ _).bind fun epNodeID => ?_
  have hreply : Emits (Answers cfg draws seen j .ticker) (do
      sendTo seen.ip seen.port (tickerResMsg cfg msgID)
      modifyState fun s => { s with tickerNum := s.tickerNum.erase (tickerKey seen) }) :=
    (emits_sendTo ⟨_, .tickerRes msgID⟩ _ _).bind fun _ => Emits.modifyState _
  refine Emits.ite (fun _ => Emits.readState.bind fun s => ?_) fun _ => hreply
  exact Emits.ite (fun _ => (Emits.modifyState _).bind fun _ => hreply) fun _ =>
    (Emits.modifyState _).bind fun _ => hreply

theorem emits_detect (seeNodeID : String) :
    Emits (Answers cfg draws seen j .detect) (detect cfg draws seen seeNodeID j) := by
  have hroute : Emits (Answers cfg draws seen j .detect) (updateRouteInfo cfg) :=
    emits_updateRouteInfo fun table => ⟨_, .detectUpdate table⟩
  refine Emits.orFail_bind fun data hdata => Emits.orFail_bind fun lip hlip => Emits.orFail_bind fun text htext =>
    Emits.orFail_bind fun lport hport => Emits.ite (fun hmapped => ?_) fun _ => ?_
  · have hd : detectData j = some (lip, lport) := by simp [detectData, hdata, hlip, htext, hport]
    refine (Emits.modifyState _).bind fun _ => (Emits.modifyState _).bind fun _ => ?_
    refine Emits.bind (Emits.readState.bind fun s => Emits.orFail _ _) fun info => Emits.readState.bind fun s => ?_
    refine (Emits.orFail _ _).bind fun neighber => (Emits.orFail _ _).bind fun ip =>
      (Emits.orFail _ _).bind fun port => ?_
    exact (emits_sendTo ⟨_, .filteringcheck hd hmapped⟩ _ _).bind fun _ => (Emits.modifyState _).bind fun _ => hroute
  · exact (Emits.modifyState _).bind fun _ => (Emits.modifyState _).bind fun _ => hroute

/-- Every branch sends answers to its type. -/
theorem emits_dispatch (seeNodeID : String) (t : MsgType) :
    Emits (Answers cfg draws seen j t) (dispatch cfg draws seen seeNodeID j t) := by
  cases t with
  | detect => exact (emits_detect _).bind fun _ => Emits.pure _
  | update => exact Emits.ite (fun _ => Emits.pure _) fun _ => (emits_update _).bind fun _ => Emits.pure _
  | proxyconnect =>
    refine Emits.bind ?_ fun _ => Emits.pure _
    refine (Emits.orFail _ _).bind fun data => (Emits.orFail _ _).bind fun ip => (Emits.orFail _ _).bind fun port => ?_
    exact (Emits.orFail _ _).bind fun natmapping => (Emits.orFail _ _).bind fun natfiltering =>
      emits_sendTo ⟨_, .helpconnect _⟩ _ _
  | helpconnect =>
    refine Emits.bind ?_ fun _ => Emits.pure _
    refine (Emits.orFail _ _).bind fun data => (Emits.orFail _ _).bind fun ip => (Emits.orFail _ _).bind fun port => ?_
    exact Emits.readState.bind fun s => emits_sendRepeatedly ⟨_, .openconnect _⟩ _ _ _
  | openconnect => exact (emits_openconnect _).bind fun _ => Emits.pure _
  | filteringcheck =>
    refine Emits.bind ?_ fun _ => Emits.pure _
    refine (Emits.orFail _ _).bind fun ip => (Emits.orFail _ _).bind fun port => Emits.orFail_bind fun msgid hmsgid => ?_
    exact emits_sendTo ⟨_, .callclient hmsgid⟩ _ _
  | callclient =>
    refine Emits.bind ?_ fun _ => Emits.pure _
    refine Emits.orFail_bind fun msgid hmsgid => (Emits.orFail _ _).bind fun ip => (Emits.orFail _ _).bind fun port => ?_
    exact emits_sendRepeatedly ⟨_, .callclientRes hmsgid⟩ _ _ _
  | callclientRes => exact emits_callclientRes.bind fun _ => Emits.pure _
  | ticker => exact emits_ticker.bind fun _ => Emits.pure _
  | tickerRes => exact ((Emits.orFail _ _).bind fun msgID => Emits.modifyState _).bind fun _ => Emits.pure _

/-- What is sent on account of a value answers the message it is. -/
theorem emits_handleJson : Emits (fun x => ∃ t n, messageType j = some t.text ∧ messageID j = some n ∧
    Answers cfg draws seen j t x) (handleJson cfg draws seen j) := by
  unfold handleJson
  rcases hv : j.view with _ | _ | _ | _ | _ | _ | m
  case object =>
    have htype : messageType j = ((m["msgtype"]?).getD .null).getString := by
      rw [messageType, eq_of_view hv]
      simp [View.toJson]
    rcases hm : m["msgtype"]? with _ | x <;> simp only [hm]
    · exact Emits.pure _
    rw [hm, Option.getD_some] at htype
    refine Emits.orFail_bind fun type hx => Emits.orFail_bind fun n hn => ?_
    rcases ht : MsgType.ofText? type with _ | t
    · exact Emits.pure _
    · obtain rfl := MsgType.ofText?_eq_some.1 ht
      exact (emits_dispatch n t).mono fun x hx' => ⟨t, n, htype.trans hx, hn, hx'⟩
  all_goals exact Emits.pure _

/-- What is sent in reaction to a datagram answers the message it brings. -/
theorem answers_of_receive {s : Server} {error : Option ErrorCode} {datagram : List UInt8} (hs : s.receiving = true)
    {x : SendTo} (hx : x ∈ (react cfg (.receive error seen datagram draws) s).out) :
    ∃ t n j, Event.Carries cfg t n j (.receive error seen datagram draws) ∧ Answers cfg draws seen j t x := by
  have hb := arrive_recvBuffer hs datagram
  by_cases he : error = none ∨ error = some .message_size
  · rcases hheard : heard cfg seen datagram with _ | j
    · rw [react_dropped hb he hheard] at hx
      cases hx
    · rw [react_heard hb he hheard, out_rearmUnless] at hx
      obtain ⟨t, n, htype, hid, h⟩ := emits_handleJson _ x hx
      exact ⟨t, n, j, .intro he hheard htype hid, h⟩
  · rw [react_failed he] at hx
    cases hx

end

/-! ## Timer passes -/

/-- A message of the type that a timer pass sends. -/
inductive Notice (cfg : Config) : MsgType → Json → Prop
  | ticker (own : Json) : Notice cfg .ticker (tickerMsg cfg own)
  | update (table : StrMap String) : Notice cfg .update (updateMsg cfg table)
  | detect (localPort : String) : Notice cfg .detect (detectMsg cfg localPort)

section
variable {cfg : Config}

theorem Notice.isMessage {t : MsgType} {j : Json} (h : Notice cfg t j) : IsMessage j t cfg.nodeID := by
  cases h with
  | ticker => exact isMessage_ticker ..
  | update => exact isMessage_update ..
  | detect => exact isMessage_detect ..

theorem emits_sweep [Boost] {P : SendTo → Prop} (now : Int) (b : Bool) (l : List (String × String)) :
    Emits P (sweep now b l) := by
  induction l generalizing b with
  | nil => exact Emits.pure _
  | cons p l ih =>
    refine (Emits.orFail _ _).bind fun _ => (Emits.orFail _ _).bind fun timePoint => (Emits.orFail _ _).bind fun hostKey => ?_
    refine Emits.ite (fun _ => Emits.ite (fun _ => Emits.readState.bind fun s => ?_) fun _ => Emits.fail _) fun _ => ih b
    split
    · refine (Emits.orFail _ _).bind fun findmsg => (Emits.modifyState _).bind fun _ => ?_
      exact (Emits.modifyState _).bind fun _ => ih true
    · exact (Emits.modifyState _).bind fun _ => ih true

theorem emits_evictEndpoint {P : SendTo → Prop} (silent : String) (l : List (String × String)) :
    Emits P (evictEndpoint silent l) := by
  induction l with
  | nil => exact Emits.pure _
  | cons p l ih =>
    refine (Emits.orFail _ _).bind fun item => (Emits.orFail _ _).bind fun ip => (Emits.orFail _ _).bind fun port => ?_
    exact Emits.ite (fun _ => (Emits.modifyState _).bind fun _ => ih) fun _ => ih

theorem emits_evict {P : SendTo → Prop} (b : Bool) (l : List (String × UInt16)) : Emits P (evict b l) := by
  induction l generalizing b with
  | nil => exact Emits.pure _
  | cons p l ih =>
    refine Emits.ite (fun _ => ?_) fun _ => ih b
    exact Emits.readState.bind fun s => (emits_evictEndpoint _ _).bind fun _ => (Emits.modifyState _).bind fun _ => ih true

theorem emits_tickAll (l : List (String × String)) :
    Emits (Says fun j => ∃ t, Notice cfg t j) (tickAll cfg l) := by
  induction l with
  | nil => exact Emits.pure _
  | cons p l ih =>
    refine (Emits.orFail _ _).bind fun item => (Emits.orFail _ _).bind fun ip => (Emits.orFail _ _).bind fun port => ?_
    refine Emits.ite (fun _ => ih) fun _ => Emits.readState.bind fun s => ?_
    exact (emits_sendTo ⟨_, .ticker _⟩ _ _).bind fun _ => (Emits.modifyState _).bind fun _ => ih

theorem emits_listMsgQueue : Emits (Says fun j => ∃ t, Notice cfg t j) (listMsgQueue cfg) := by
  have hdetect : Emits (Says fun j => ∃ t, Notice cfg t j) (do
      if (← readState).count ≥ 10 then
        sendTo cfg.fromCli.ip cfg.fromCli.port (detectMsg cfg (portText cfg.localPort))
        modifyState fun s => { s with count := 0 }) := by
    refine Emits.readState.bind fun s => Emits.ite (fun _ => ?_) fun _ => Emits.pure _
    exact (emits_sendTo ⟨_, .detect _⟩ _ _).bind fun _ => Emits.modifyState _
  exact Emits.readState.bind fun s => Emits.ite (fun _ => (Emits.modifyState _).bind fun _ => hdetect) fun _ => hdetect

/-- What a pass sends. -/
theorem emits_threadhandle [Boost] (now : Int) : Emits (Says fun j => ∃ t, Notice cfg t j) (threadhandle cfg now) := by
  refine Emits.readState.bind fun s => (emits_sweep _ _ _).bind fun b => Emits.readState.bind fun s => ?_
  refine (emits_evict _ _).bind fun b => Emits.readState.bind fun s => (emits_tickAll _).bind fun _ => ?_
  refine Emits.ite (fun _ => Emits.bind ?_ fun _ => emits_listMsgQueue) fun _ => emits_listMsgQueue
  exact emits_updateRouteInfo fun table => ⟨_, .update table⟩

end

end NatServer

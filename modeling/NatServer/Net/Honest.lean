import NatServer.Net.Network
import NatServer.Server.Listed
/-!
# A network of honest nodes

Every node runs this program, so what is in flight was built by one of its
handlers. `Sent` says what that can be, `Sound` what a server that hears
nothing else holds: its table and its own record are records, if it has one.
A turn of such a server faults for three reasons only, which `Careful` rules
out: an update that does not list it, an openconnect of a node that has no
record of itself, a detect that stores a check whose time is no `int`.
-/

namespace NatServer

open Effect Json

/-- A node's record of itself: it has none before the first update. -/
def WfOwn (own : Json) : Prop := own = null ∨ WfRecord own

/-- What a server holds that hears honest nodes only. -/
structure Sound (cfg : Config) (s : Server) : Prop where
  table : WfTable s.hostList
  own : WfOwn s.localEpInfo
  publicOwn : cfg.publicFlag = true → WfRecord s.localEpInfo
  checks : ∀ key check : String, s.fCkTimeMap[key]? = some check → ∃ t e n, check = keyStr t e n ∧ IsInt t

theorem Sound.init (cfg : Config) : Sound cfg (init cfg) := by
  refine ⟨WfTable.empty, ?_, fun h => ?_, fun key check hc => ?_⟩
  · unfold NatServer.init
    split
    · exact .inr ⟨_, record?_nodeInfo ..⟩
    · exact .inl rfl
  · rw [NatServer.init, if_pos h]
    exact ⟨_, record?_nodeInfo ..⟩
  · simp [NatServer.init] at hc

theorem Sound.arrive {cfg : Config} {s : Server} (hs : Sound cfg s) (datagram : List UInt8) :
    Sound cfg (arrive datagram s) :=
  ⟨hs.table, hs.own, hs.publicOwn, hs.checks⟩

theorem Sound.rearm {cfg : Config} {s : Server} (hs : Sound cfg s) : Sound cfg s.rearm :=
  ⟨hs.table, hs.own, hs.publicOwn, hs.checks⟩

section
variable [Boost]

/-- The messages of a node, by what they carry. -/
inductive Sent (cfg : Config) : Endpoint → Json → Prop
  | detect {text port} (h : Boost.lexical_cast text = some port) : Sent cfg cfg.fromCli (detectMsg cfg text)
  | update {dest table} (h : WfTable table) : Sent cfg dest (updateMsg cfg table)
  | proxyconnect {dest item} (h : WfRecord item) : Sent cfg dest (dataMsg cfg "proxyconnect" item)
  | helpconnect {dest body} (h : WfRecord body) : Sent cfg dest (dataMsg cfg "helpconnect" body)
  | openconnect {dest own} (h : WfOwn own) : Sent cfg dest (dataMsg cfg "openconnect" own)
  | filteringcheck {dest seen msgID} : Sent cfg dest (filteringcheckMsg cfg seen msgID)
  | callclient {dest seen ip port msgid} : Sent cfg dest (callclientMsg cfg seen ip port msgid)
  | callclientRes {dest seen msgid} : Sent cfg dest (callclientResMsg cfg seen msgid)
  | ticker {dest own} (h : WfOwn own) : Sent cfg dest (tickerMsg cfg own)
  | tickerRes {dest msgid} : Sent cfg dest (tickerResMsg cfg msgid)

/-- All that a turn sent is of these. -/
def AllSent (cfg : Config) (o : List SendTo) : Prop := ∀ x ∈ o, ∃ j, Sent cfg x.dest j ∧ x.msg = j.dump

/-- A message that is none of those the handlers fail at. -/
structure CarefulMessage (cfg : Config) (remote : Endpoint) (draws : Draws) (j : Json) : Prop where
  detect : messageType j = some "detect" → ∀ lip lport, detectData j = some (lip, lport) →
    remote.ip ≠ lip ∨ remote.port ≠ lport → IsInt draws.curTime
  update : messageType j = some "update" → messageID j ≠ some cfg.nodeID →
    ∀ data, j.sub "data" = some (.object data) → cfg.nodeID ∈ data
  openconnect : messageType j = some "openconnect" → j.sub "data" ≠ some null

/-- An event whose message, if one is handled, is careful. -/
def Careful (cfg : Config) : Event → Prop
  | .receive error remote datagram draws => error = none ∨ error = some .message_size →
      ∀ j, heard cfg remote datagram = some j → CarefulMessage cfg remote draws j
  | .timer _ => True

variable {cfg : Config} {s s' : Server} {o : List SendTo}

theorem AllSent.nil : AllSent cfg [] := fun _ hx => absurd hx List.not_mem_nil

theorem AllSent.cons {x : SendTo} {j : Json} (hj : Sent cfg x.dest j) (hx : x.msg = j.dump) (ho : AllSent cfg o) :
    AllSent cfg (x :: o) := by
  intro y hy
  rcases List.mem_cons.1 hy with rfl | hy
  · exact ⟨j, hj, hx⟩
  · exact ho y hy

theorem AllSent.append {o' : List SendTo} (h : AllSent cfg o) (h' : AllSent cfg o') : AllSent cfg (o ++ o') := by
  intro x hx
  rcases List.mem_append.1 hx with hx | hx
  · exact h x hx
  · exact h' x hx

theorem AllSent.replicate {k : Nat} {x : SendTo} {j : Json} (hj : Sent cfg x.dest j) (hx : x.msg = j.dump) :
    AllSent cfg (List.replicate k x) := by
  intro y hy
  obtain rfl := List.eq_of_mem_replicate hy
  exact ⟨j, hj, hx⟩

theorem AllSent.routeUpdate {table : StrMap String} (hw : WfTable table) (ho : routeUpdate cfg table = some o) :
    AllSent cfg o :=
  fun x hx => ⟨_, .update hw, notifications_msg ho x hx⟩

theorem Sent.isMessage {dest : Endpoint} {j : Json} (h : Sent cfg dest j) : ∃ t, IsMessage j t cfg.nodeID := by
  cases h with
  | detect => exact ⟨_, isMessage_detect cfg _⟩
  | update => exact ⟨_, isMessage_update cfg _⟩
  | proxyconnect => exact ⟨_, isMessage_data cfg .proxyconnect _⟩
  | helpconnect => exact ⟨_, isMessage_data cfg .helpconnect _⟩
  | openconnect => exact ⟨_, isMessage_data cfg .openconnect _⟩
  | filteringcheck => exact ⟨_, isMessage_filteringcheck cfg _ _⟩
  | callclient => exact ⟨_, isMessage_callclient cfg _ _ _ _⟩
  | callclientRes => exact ⟨_, isMessage_callclientRes cfg _ _⟩
  | ticker => exact ⟨_, isMessage_ticker cfg _⟩
  | tickerRes => exact ⟨_, isMessage_tickerRes cfg _⟩

/-! ## The update loop -/

/-- One round of the loop over records. -/
theorem EntryRan.allSent {n key info : String} {r : Record} {see see' : Endpoint}
    (h : EntryRan cfg n see key (.string info) s ⟨.ok see', s', o⟩) (hown : WfOwn s.localEpInfo)
    (hr : textRecord info = some r) : AllSent cfg o := by
  obtain ⟨item, hitem, hread⟩ := readEntry_of_text hr
  cases h with
  | known | own | sameIp => exact .nil
  | direct => exact .cons (.openconnect hown) rfl .nil
  | proxied hv =>
    cases hread.symm.trans hv
    exact .cons (.proxyconnect ⟨r, hitem⟩) rfl .nil
  | punched hv =>
    cases hread.symm.trans hv
    exact .cons (.proxyconnect ⟨r, hitem⟩) rfl (.cons (.openconnect hown) rfl .nil)

theorem LoopRan.allSent {n : String} {l : List (String × Json)} {see : Endpoint}
    (h : LoopRan cfg n see s l ⟨.ok (), s', o⟩) (hown : WfOwn s.localEpInfo)
    (hl : ∀ p ∈ l, ∃ info r, p.2 = .string info ∧ textRecord info = some r) : AllSent cfg o := by
  induction l generalizing see s o with
  | nil =>
    cases h
    exact .nil
  | cons p l ih =>
    obtain ⟨key, value⟩ := p
    obtain ⟨info, r, rfl, hr⟩ := hl (key, value) List.mem_cons_self
    cases h with
    | @cons see see₁ s s₁ s₂ _ _ _ o₁ o₂ _ entry loop =>
      have hlocal : s₁.localEpInfo = s.localEpInfo := entry.localEpInfo
      refine (entry.allSent hown hr).append (ih loop ?_ fun p hp => hl p (List.mem_cons_of_mem _ hp))
      rwa [hlocal]

/-! ## The branches -/

theorem relays_record {sender : Config} {draws : Draws} (remote : Endpoint) {item : Json} (hitem : WfRecord item) :
    ∃ o, Handled cfg draws remote sender.nodeID (dataMsg sender "proxyconnect" item) s .proxyconnect false s o ∧
      AllSent cfg o := by
  obtain ⟨r, hr⟩ := hitem
  obtain ⟨natmapping, natfiltering, hm, hf, hmt, hft⟩ := natFields_of_record hr
  have hbody : WfRecord (helpBody natmapping natfiltering remote) := ⟨_, record?_helpBody hmt hft remote⟩
  exact ⟨_, .proxyconnect (data_dataMsg ..) (firstEndpoint_of_record hr) hm hf, .cons (.helpconnect hbody) rfl .nil⟩

section branches
variable {sender : Config} {draws : Draws} (hs : Sound cfg s) (remote : Endpoint)
include hs

theorem Sound.detect {text : String} {port : UInt16} (hcast : Boost.lexical_cast text = some port)
    (hpublic : cfg.publicFlag = true)
    (htime : remote.ip ≠ sender.localIp ∨ remote.port ≠ port → IsInt draws.curTime) :
    ∃ s' o, Handled cfg draws remote sender.nodeID (detectMsg sender text) s .detect false s' o ∧ Sound cfg s' ∧
      AllSent cfg o := by
  have hdata := detectData_detectMsg sender hcast
  by_cases hmapped : remote.ip ≠ sender.localIp ∨ remote.port ≠ port
  · have hw := hs.table.registered cfg sender.nodeID
      (record?_nodeInfo "mapping" "" remote.ip remote.port [endpointInfo sender.localIp port])
    obtain ⟨target, htarget⟩ := hw.probeTarget cfg (hs.publicOwn hpublic)
    obtain ⟨o, ho⟩ := hw.routeUpdate cfg
    refine ⟨_, _, .detectMapped hdata hmapped htarget ho, ⟨hw, hs.own, hs.publicOwn, fun key check hc => ?_⟩,
      .cons .filteringcheck rfl (.routeUpdate hw ho)⟩
    dsimp only at hc
    rw [StrMap.getElem?_insertIfNew] at hc
    split at hc
    · cases hc
      exact ⟨_, _, _, rfl, htime hmapped⟩
    · exact hs.checks key check hc
  · have hw := hs.table.registered cfg sender.nodeID (record?_nodeInfo "Nonmap" "Nonfilter" remote.ip remote.port [])
    obtain ⟨o, ho⟩ := hw.routeUpdate cfg
    exact ⟨_, _, .detectPublic hdata hmapped ho, ⟨hw, hs.own, hs.publicOwn, hs.checks⟩, .routeUpdate hw ho⟩

theorem Sound.update {table : StrMap String} (hw : WfTable table)
    (hlisted : sender.nodeID ≠ cfg.nodeID → cfg.nodeID ∈ table) :
    ∃ b s' o, Handled cfg draws remote sender.nodeID (updateMsg sender table) s .update b s' o ∧ Sound cfg s' ∧
      AllSent cfg o := by
  by_cases hself : sender.nodeID = cfg.nodeID
  · exact ⟨true, s, [], .updateSelf hself, hs, .nil⟩
  obtain ⟨info, hinfo⟩ := StrMap.mem_iff.1 (hlisted hself)
  obtain ⟨r, hr⟩ := hw _ _ hinfo
  obtain ⟨own, hown, hownr⟩ := parse_of_textRecord hr
  have hl : ∀ p ∈ (table.map fun _ info => Json.string info).toList,
      ∃ info r, p.2 = .string info ∧ textRecord info = some r := fun p hp => by
    have hget := Std.ExtTreeMap.mem_toList_iff_getElem?_eq_some.1 hp
    rw [Std.ExtTreeMap.getElem?_map, Option.map_eq_some_iff] at hget
    obtain ⟨info, hinfo, hp⟩ := hget
    obtain ⟨r, hr⟩ := hw _ _ hinfo
    exact ⟨info, r, hp.symm, hr⟩
  -- the loop reads records only, so it gets through
  obtain ⟨s', o, loop, hw'⟩ := loop_of_records (s := { s with localEpInfo := own }) cfg sender.nodeID remote
    hs.table ⟨r, hownr⟩ hl
  have ho : AllSent cfg o := loop.allSent (.inr ⟨r, hownr⟩) hl
  have hvalue : (table.map fun _ info => Json.string info)[cfg.nodeID]? = some (.string info) := by
    rw [Std.ExtTreeMap.getElem?_map, hinfo, Option.map_some]
  have hlocal : s'.localEpInfo = own := loop.localEpInfo
  have hchecks : s'.fCkTimeMap = s.fCkTimeMap := loop.fCkTimeMap
  refine ⟨false, s', o, .update hself (data_updateMsg _ _) hvalue hown loop, ⟨hw', ?_, fun _ => ?_, ?_⟩, ho⟩
  · rw [hlocal]
    exact .inr ⟨r, hownr⟩
  · rw [hlocal]
    exact ⟨r, hownr⟩
  · rw [hchecks]
    exact hs.checks

theorem Sound.helpconnect {body : Json} (hbody : WfRecord body) :
    ∃ o, Handled cfg draws remote sender.nodeID (dataMsg sender "helpconnect" body) s .helpconnect false s o ∧
      AllSent cfg o := by
  obtain ⟨r, hr⟩ := hbody
  exact ⟨_, .helpconnect (data_dataMsg ..) (firstEndpoint_of_record hr), .replicate (.openconnect hs.own) rfl⟩

theorem Sound.openconnect {own : Json} (hown : WfRecord own) :
    ∃ s', Handled cfg draws remote sender.nodeID (dataMsg sender "openconnect" own) s .openconnect false s' [] ∧
      Sound cfg s' := by
  obtain ⟨r, hr⟩ := hown
  obtain ⟨change, hchange, hcr⟩ := withEndpoint0_of_record hr remote
  have hdiff := endpointDiffers_of_record hr remote
  cases hd : decide (remote ≠ r.endpoint) <;> rw [hd] at hdiff
  · exact ⟨_, .openSame (data_dataMsg ..) hdiff,
      ⟨hs.table.insertIfNew _ fun _ => ⟨r, by rwa [textRecord_dump]⟩, hs.own, hs.publicOwn, hs.checks⟩⟩
  · exact ⟨_, .openChanged (data_dataMsg ..) hdiff hchange,
      ⟨hs.table.insert (by rwa [textRecord_dump]) _, hs.own, hs.publicOwn, hs.checks⟩⟩

theorem Sound.callclientRes (seen : Endpoint) (msgid : String) :
    ∃ s' o, Handled cfg draws remote sender.nodeID (callclientResMsg sender seen msgid) s .callclientRes false s' o ∧
      Sound cfg s' ∧ AllSent cfg o := by
  rcases hinfo : s.hostList[sender.nodeID]? with _ | info
  · obtain ⟨o, ho⟩ := hs.table.routeUpdate cfg
    exact ⟨s, o, .callclientResUnknown (ip_callclientResMsg ..) (port_callclientResMsg ..) hinfo ho, hs,
      .routeUpdate hs.table ho⟩
  · obtain ⟨r, hr⟩ := hs.table _ _ hinfo
    obtain ⟨change, hchange, hcr⟩ := record?_setFiltering hr "Nonfilter"
    have hw := hs.table.insert (by rwa [textRecord_dump] : textRecord change.dump = _) sender.nodeID
    obtain ⟨o, ho⟩ := hw.routeUpdate cfg
    refine ⟨_, o, .callclientRes (ip_callclientResMsg ..) (port_callclientResMsg ..) hinfo hchange
      (msgid_callclientResMsg ..) ho, ⟨hw, hs.own, hs.publicOwn, fun key check hc => ?_⟩, .routeUpdate hw ho⟩
    exact hs.checks key check (getElem?_of_erase hc)

theorem Sound.ticker {own : Json} (hown : WfOwn own) :
    ∃ s' o, Handled cfg draws remote sender.nodeID (tickerMsg sender own) s .ticker false s' o ∧ Sound cfg s' ∧
      AllSent cfg o := by
  rcases hown with rfl | ⟨r, hr⟩
  · exact ⟨_, _, .tickerEmpty (data_tickerMsg _ _) (msgid_tickerMsg _ _), ⟨hs.table, hs.own, hs.publicOwn, hs.checks⟩,
      .cons .tickerRes rfl .nil⟩
  · have hnull : own.isNull = false := by
      rw [Bool.eq_false_iff]
      exact fun h => ne_null_of_record hr (isNull_iff.1 h)
    exact ⟨_, _, .ticker (data_tickerMsg _ _) (msgid_tickerMsg _ _) hnull,
      ⟨hs.table.insert (by rwa [textRecord_dump]) _, hs.own, hs.publicOwn, hs.checks⟩, .cons .tickerRes rfl .nil⟩

/-- A sound server handles every careful message of an honest node. -/
theorem Sound.handles {dest : Endpoint} {j : Json} (hj : Sent sender dest j)
    (hpublic : dest = sender.fromCli → cfg.publicFlag = true) (hc : CarefulMessage cfg remote draws j) :
    ∃ t b s' o, IsMessage j t sender.nodeID ∧ Handled cfg draws remote sender.nodeID j s t b s' o ∧ Sound cfg s' ∧
      AllSent cfg o := by
  cases hj with
  | @detect text _ hcast =>
    have hm := isMessage_detect sender text
    obtain ⟨s', o, hh, hs', ho⟩ := hs.detect remote hcast (hpublic rfl)
      (hc.detect hm.type _ _ (detectData_detectMsg sender hcast))
    exact ⟨_, _, s', o, hm, hh, hs', ho⟩
  | @update _ table hw =>
    have hm := isMessage_update sender table
    obtain ⟨b, s', o, hh, hs', ho⟩ := hs.update remote hw fun hne => by
      simpa using hc.update hm.type (by rw [hm.id]; simpa using hne) _ (data_updateMsg _ _)
    exact ⟨_, b, s', o, hm, hh, hs', ho⟩
  | proxyconnect hitem =>
    obtain ⟨o, hh, ho⟩ := relays_record remote hitem
    exact ⟨_, _, s, o, isMessage_data sender .proxyconnect _, hh, hs, ho⟩
  | helpconnect hbody =>
    obtain ⟨o, hh, ho⟩ := hs.helpconnect remote hbody
    exact ⟨_, _, s, o, isMessage_data sender .helpconnect _, hh, hs, ho⟩
  | @openconnect _ own hown =>
    have hm : IsMessage (dataMsg sender "openconnect" own) .openconnect sender.nodeID :=
      isMessage_data sender .openconnect own
    have hne : own ≠ null := fun h => hc.openconnect hm.type (by rw [data_dataMsg, h])
    obtain ⟨s', hh, hs'⟩ := hs.openconnect remote (hown.resolve_left hne)
    exact ⟨_, _, s', [], hm, hh, hs', .nil⟩
  | filteringcheck =>
    exact ⟨_, _, s, _, isMessage_filteringcheck .., .filteringcheck (ip_filteringcheckMsg ..)
      (port_filteringcheckMsg ..) (msgid_filteringcheckMsg ..), hs, .cons .callclient rfl .nil⟩
  | callclient =>
    exact ⟨_, _, s, _, isMessage_callclient .., .callclient (msgid_callclientMsg ..) (originip_callclientMsg ..)
      (originport_callclientMsg ..), hs, .replicate .callclientRes rfl⟩
  | callclientRes =>
    obtain ⟨s', o, hh, hs', ho⟩ := hs.callclientRes remote _ _
    exact ⟨_, _, s', o, isMessage_callclientRes .., hh, hs', ho⟩
  | ticker hown =>
    obtain ⟨s', o, hh, hs', ho⟩ := hs.ticker remote hown
    exact ⟨_, _, s', o, isMessage_ticker .., hh, hs', ho⟩
  | tickerRes =>
    exact ⟨_, _, _, _, isMessage_tickerRes .., .tickerRes (msgid_tickerResMsg ..),
      ⟨hs.table, hs.own, hs.publicOwn, hs.checks⟩, .nil⟩

end branches

/-! ## The turns -/

/-- A pass over records and readable checks completes. -/
theorem Sound.passes (hs : Sound cfg s) (now : Int) : ∃ s' o, Passed cfg now s s' o ∧ Sound cfg s' ∧ AllSent cfg o := by
  obtain ⟨s', o, hp⟩ := passes_of_records cfg now hs.table fun key check hc => by
    obtain ⟨t, e, n, rfl, ht⟩ := hs.checks key check hc
    obtain ⟨k, hk⟩ := readCheck_keyStr ht e n
    exact ⟨⟨_, hk⟩, split_keyStr_zero t e n⟩
  refine ⟨s', o, hp, ⟨hp.wfTable hs.table, ?_, ?_, fun key check hc => hs.checks key check (hp.checks hc)⟩, ?_⟩
  · rw [hp.localEpInfo]
    exact hs.own
  · rw [hp.localEpInfo]
    exact hs.publicOwn
  · obtain ⟨hsweep, hevict, -, hnotify, hlist⟩ := hp
    have hw := hevict.wfTable (hsweep.wfTable hs.table)
    refine AllSent.append (AllSent.append (fun x hx => ?_) ?_) ?_
    · obtain ⟨e, -, rfl⟩ := List.mem_map.1 hx
      refine ⟨_, .ticker ?_, rfl⟩
      rw [hevict.frame.localEpInfo, hsweep.frame.localEpInfo]
      exact hs.own
    · split at hnotify
      · exact .routeUpdate hw hnotify
      · rw [hnotify]
        exact .nil
    · rcases completes_listMsgQueue.1 hlist with ⟨-, -, rfl⟩ | ⟨-, -, rfl⟩
      · exact .cons (.detect (Boost.lexical_cast_toString cfg.localPort)) rfl .nil
      · exact .nil

/-- A sound server gets through a careful datagram of an honest node. -/
theorem Sound.receives {sender : Config} {dest remote : Endpoint} {j : Json} {error : Option ErrorCode} {draws : Draws}
    (hs : Sound cfg s) (hrecv : s.receiving = true) (hj : Sent sender dest j)
    (hpublic : dest = sender.fromCli → cfg.publicFlag = true)
    (hc : Careful cfg (.receive error remote (wire j.dump) draws)) :
    ∃ s' o, react cfg (.receive error remote (wire j.dump) draws) s = ⟨.ok (), s', o⟩ ∧ Sound cfg s' ∧ AllSent cfg o := by
  have hb := arrive_recvBuffer hrecv (wire j.dump)
  by_cases he : error = none ∨ error = some .message_size
  · rcases hheard : heard cfg remote (wire j.dump) with _ | j'
    · exact ⟨_, _, react_dropped hb he hheard, (hs.arrive _).rearm, .nil⟩
    · obtain ⟨_, ⟨m, hm⟩, -, -⟩ := hj.isMessage
      obtain rfl : j' = j := by
        rw [hm] at hheard ⊢
        exact eq_of_heard_wire hheard
      obtain ⟨t, b, s', o, hmsg, hh, hs', ho⟩ := (hs.arrive _).handles remote hj hpublic (hc he _ hheard)
      refine ⟨_, o, receive_completes hb he hheard hmsg.id hmsg.type t.ofText?_text hh, ?_, ho⟩
      cases b
      · exact hs'.rearm
      · exact hs'
  · exact ⟨_, _, react_failed he, hs.arrive _, .nil⟩

end

/-! ## The network -/

section
variable {ι : Type} [Boost] {cfg : ι → Config}

/-- Every node runs soundly and what is in flight was sent by one of them. -/
structure HonestNet (cfg : ι → Config) (N : Network ι) : Prop where
  nodes : ∀ i, ∃ s, N.node i = some s ∧ Sound (cfg i) s
  flight : ∀ p ∈ N.flight, ∃ i j, Sent (cfg i) p.dest j ∧ p.datagram = wire j.dump

/-- The nodes were just started; what is in flight are the detects `main` sent,
with the port as it was given on the command line. -/
structure Started (cfg : ι → Config) (N : Network ι) : Prop where
  nodes : ∀ i, N.node i = some (init (cfg i))
  flight : ∀ p ∈ N.flight, ∃ i text, Boost.lexical_cast text = some (cfg i).localPort ∧
    p = ⟨(cfg i).fromCli, wire (detectMsg (cfg i) text).dump⟩

theorem Started.honest {N : Network ι} (h : Started cfg N) : HonestNet cfg N := by
  refine ⟨fun i => ⟨_, h.nodes i, Sound.init _⟩, fun p hp => ?_⟩
  obtain ⟨i, text, hcast, hp⟩ := h.flight p hp
  have hdest : p.dest = (cfg i).fromCli := by rw [hp]
  have hdatagram : p.datagram = wire (detectMsg (cfg i) text).dump := by rw [hp]
  exact ⟨i, _, hdest ▸ .detect hcast, hdatagram⟩

variable [DecidableEq ι] {route : Endpoint → ι → Prop}

/-- A turn that completes leaves the network honest. -/
theorem HonestNet.turn {node : ι → Option Server} {rest : Multiset Packet} {i : ι} {s' : Server} {o : List SendTo}
    (hnodes : ∀ k, ∃ s, node k = some s ∧ Sound (cfg k) s)
    (hrest : ∀ p ∈ rest, ∃ i j, Sent (cfg i) p.dest j ∧ p.datagram = wire j.dump)
    (hs' : Sound (cfg i) s') (ho : AllSent (cfg i) o) :
    HonestNet cfg ⟨Function.update node i (some s'), packets o + rest⟩ := by
  refine ⟨fun k => ?_, fun p hp => ?_⟩
  · by_cases hk : k = i
    · subst hk
      exact ⟨s', Function.update_self .., hs'⟩
    · obtain ⟨s, hs, hsound⟩ := hnodes k
      exact ⟨s, (Function.update_of_ne hk ..).trans hs, hsound⟩
  · rcases Multiset.mem_add.1 hp with hp | hp
    · obtain ⟨x, hx, rfl⟩ := mem_packets.1 hp
      obtain ⟨j, hj, hmsg⟩ := ho x (mem_transmitted.1 hx).1
      exact ⟨i, j, hj, by rw [hmsg]⟩
    · exact hrest p hp

end

end NatServer

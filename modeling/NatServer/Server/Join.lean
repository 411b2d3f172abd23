import NatServer.Server.Frame
import NatServer.Server.Relay
import NatServer.Server.Rendezvous
/-!
# A node joins

A node behind a NAT detects itself to a public server; the server registers it
and sends it the table; the node takes from it what the server knows of it,
and has the server in its own table. That the server comes up in the middle of
the table does not matter: whoever the node may relay through before that has
the server's ip.
-/

namespace NatServer

open Effect Json

variable {cfg : Config} {s s' : Server} {n key ip : String} {see see' : Endpoint} {l : List (String × Json)}
  {table : StrMap String} {o : List SendTo}

/-! ## The loop of a node with nobody but the server -/

/-- Where the loop is while the node has heard of no other ip than `ip`. -/
structure Joining (ip : String) (see : Endpoint) (table : StrMap String) : Prop where
  records : WfTable table
  address : see.ip = ip
  relays : ∀ k e, (k, e) ∈ publicNodes table.toList → e.ip = ip
  ids : ∀ k ∈ table, '_' ∉ k.toList

theorem Joining.lastPublic (h : Joining ip see table) : (lastPublic see table.toList).ip = ip := by
  rw [NatServer.lastPublic]
  rcases hlast : (publicNodes table.toList).getLast? with _ | ⟨k, e⟩
  · exact h.address
  · exact h.relays k e (List.mem_of_getLast? hlast)

theorem Joining.checkKey_notMem (h : Joining ip see table) (tar : Endpoint) : checkKey tar ∉ table := fun hin =>
  checkKey_ne (h.ids _ hin) tar rfl

theorem Joining.insertIfNew (h : Joining ip see table) {k info : String} {r : Record} (hk : '_' ∉ k.toList)
    (hr : textRecord info = some r) (hip : r.isPublic = true → r.endpoint.ip = ip) :
    Joining ip see (table.insertIfNew k info) where
  records := h.records.insertIfNew k fun _ => ⟨r, hr⟩
  address := h.address
  relays k' e hmem := by
    obtain ⟨info', r', hinfo', hr', hpublic, rfl⟩ := mem_publicNodes.1 hmem
    rw [StrMap.getElem?_insertIfNew] at hinfo'
    split at hinfo'
    · cases hinfo'
      cases hr.symm.trans hr'
      exact hip hpublic
    · exact h.relays k' _ (mem_publicNodes.2 ⟨info', r', hinfo', hr', hpublic, rfl⟩)
  ids k' hk' := by
    rcases Std.ExtTreeMap.mem_insertIfNew.1 hk' with hk' | hk'
    · rw [Std.LawfulEqCmp.compare_eq_iff_eq] at hk'
      exact hk' ▸ hk
    · exact h.ids k' hk'

/-- A round keeps to the server's ip, and adds what it is about. -/
theorem EntryRan.joining {info : String} {r : Record} (h : EntryRan cfg n see key (.string info) s ⟨.ok see', s', o⟩)
    (hs : Joining ip see s.hostList) (hr : textRecord info = some r) (hown : key = cfg.nodeID → r.isPublic = false)
    (hid : '_' ∉ cfg.nodeID.toList) (hn : '_' ∉ n.toList) :
    Joining ip see' s'.hostList ∧ (key = cfg.nodeID → cfg.nodeID ∈ s'.hostList) ∧
      (key ≠ cfg.nodeID → r.endpoint.ip = ip → n ∈ s'.hostList) := by
  obtain ⟨item, hitem, hread⟩ := readEntry_of_text hr
  have hdump : textRecord item.dump = some r := (textRecord_dump _).trans hitem
  have htar {item' tar} (hv : readEntry (.string info) = some (item', tar)) : tar = r.endpoint := by
    cases hread.symm.trans hv
    rfl
  cases h with
  | known hv hknown => exact absurd hknown (hs.checkKey_notMem _)
  | own hv _ ho =>
    cases hread.symm.trans hv
    refine ⟨hs.insertIfNew hid hdump fun hp => ?_, fun _ => by simp, fun hne => absurd ho.symm hne⟩
    rw [hown ho.symm] at hp
    cases hp
  | sameIp hv _ ho hip =>
    cases hread.symm.trans hv
    exact ⟨hs.insertIfNew hn hdump fun _ => hip.trans hs.address, fun hk => absurd hk.symm ho, fun _ _ => by simp⟩
  | direct hv _ ho hip =>
    refine ⟨hs, fun hk => absurd hk.symm ho, fun _ hr => ?_⟩
    rw [htar hv, hs.address] at hip
    exact absurd hr hip
  | proxied hv _ ho hip _ hrelay | punched hv _ ho hip _ hrelay =>
    rw [relayOf_eq hs.records.mem_toList] at hrelay
    refine ⟨⟨hs.records, ?_, hs.relays, hs.ids⟩, fun hk => absurd hk.symm ho, fun _ hr => ?_⟩
    · rw [← Option.some.inj hrelay]
      exact hs.lastPublic
    · rw [htar hv, hs.address] at hip
      exact absurd hr hip

/-- The loop adds the node itself and the sender, where the update has an entry
for each of them. -/
theorem LoopRan.joining (h : LoopRan cfg n see s l ⟨.ok (), s', o⟩) (hs : Joining ip see s.hostList)
    (hl : ∀ p ∈ l, ∃ info r, p.2 = .string info ∧ textRecord info = some r ∧ (p.1 = cfg.nodeID → r.isPublic = false))
    (hid : '_' ∉ cfg.nodeID.toList) (hn : '_' ∉ n.toList) :
    (∀ value, (cfg.nodeID, value) ∈ l → cfg.nodeID ∈ s'.hostList) ∧
      ∀ k info r, (k, .string info) ∈ l → k ≠ cfg.nodeID → textRecord info = some r → r.endpoint.ip = ip →
        n ∈ s'.hostList := by
  induction l generalizing see s o with
  | nil => simp
  | cons p l ih =>
    obtain ⟨key, value⟩ := p
    obtain ⟨info, r, rfl, hr, hpublic⟩ := hl (key, value) List.mem_cons_self
    cases h with
    | cons entry loop =>
      obtain ⟨hs₁, hself, hsender⟩ := entry.joining hs hr hpublic hid hn
      obtain ⟨hself', hsender'⟩ := ih loop hs₁ fun p hp => hl p (List.mem_cons_of_mem _ hp)
      have hkeep := loop.framed.keys
      constructor
      · intro value hin
        rcases List.mem_cons.1 hin with heq | hin
        · cases heq
          exact hkeep _ (hself rfl)
        · exact hself' value hin
      · intro k info' r' hin hk hr' hip
        rcases List.mem_cons.1 hin with heq | hin
        · cases heq
          cases hr.symm.trans hr'
          exact hkeep _ (hsender hk hip)
        · exact hsender' k info' r' hin hk hr' hip

/-! ## The two turns -/

theorem mem_sentEntries {k : String} {value : Json} :
    (k, value) ∈ (table.map fun _ info => Json.string info).toList ↔ ∃ info, table[k]? = some info ∧ .string info = value := by
  rw [Std.ExtTreeMap.mem_toList_iff_getElem?_eq_some, Std.ExtTreeMap.getElem?_map, Option.map_eq_some_iff]

section
variable [Boost] {server node : Config} {r : Server} {seen home : Endpoint} {port : UInt16} {text : String}

/-- The node's record and table after the server's update. -/
theorem update_joins (draws : Draws) (hempty : r.hostList = ∅) (hw : WfTable table)
    (hne : server.nodeID ≠ node.nodeID) (hid : '_' ∉ node.nodeID.toList) (hserver : '_' ∉ server.nodeID.toList)
    {info : String} {own : Json} {rec rec' : Record} (hown : table[node.nodeID]? = some own.dump)
    (hrec : record? own = some rec) (hmapped : rec.isPublic = false) (hinfo : table[server.nodeID]? = some info)
    (hrec' : textRecord info = some rec') (hhome : rec'.endpoint.ip = home.ip) :
    ∃ sent r', Handled node draws home server.nodeID (updateMsg server table) r .update false r' sent ∧
      r'.localEpInfo = own ∧ node.nodeID ∈ r'.hostList ∧ server.nodeID ∈ r'.hostList := by
  have hl : ∀ p ∈ (table.map fun _ info => Json.string info).toList, ∃ info r, p.2 = .string info ∧
      textRecord info = some r ∧ (p.1 = node.nodeID → r.isPublic = false) := by
    rintro ⟨k, value⟩ hp
    obtain ⟨info, hinfo, rfl⟩ := mem_sentEntries.1 hp
    obtain ⟨r, hr⟩ := hw _ _ hinfo
    refine ⟨info, r, rfl, hr, fun hk => ?_⟩
    rw [show k = node.nodeID from hk, hown] at hinfo
    rw [← Option.some.inj hinfo, textRecord_dump, hrec] at hr
    rw [← Option.some.inj hr]
    exact hmapped
  have hrecords : ∀ p ∈ (table.map fun _ info => Json.string info).toList, ∃ info r, p.2 = .string info ∧
      textRecord info = some r := fun p hp => by
    obtain ⟨info, r, hv, hr, -⟩ := hl p hp
    exact ⟨info, r, hv, hr⟩
  have hjoining : Joining home.ip home r.hostList := by
    rw [hempty]
    exact ⟨WfTable.empty, rfl, fun k e hmem => by simp [mem_publicNodes] at hmem, by simp⟩
  obtain ⟨s', o, loop, -⟩ := loop_of_records (s := { r with localEpInfo := own }) node server.nodeID home
    hjoining.records ⟨rec, hrec⟩ hrecords
  obtain ⟨hself, hsender⟩ := loop.joining hjoining hl hid hserver
  have hvalue : (table.map fun _ info => Json.string info)[node.nodeID]? = some (.string own.dump) := by
    rw [Std.ExtTreeMap.getElem?_map, hown, Option.map_some]
  have hread : (Json.string own.dump).getString.bind parse = some own := by
    rw [getString_string, Option.bind_some, parse_dump]
  exact ⟨o, s', .update hne (data_updateMsg ..) hvalue hread loop, loop.localEpInfo,
    hself _ (mem_sentEntries.2 ⟨_, hown, rfl⟩), hsender _ info rec' (mem_sentEntries.2 ⟨_, hinfo, rfl⟩) hne hrec' hhome⟩

/-- A node behind a NAT that a public server does not know detects itself there,
and the update that the server sends to the address it saw comes through: then
each has the other in its table, and the node has for itself the record the
server has of it. -/
theorem join (draws draws' : Draws) (hs : s.receiving = true) (hw : WfTable s.hostList) (hl : WfRecord s.localEpInfo)
    (hr : r.receiving = true) (hempty : r.hostList = ∅) (hnew : node.nodeID ∉ s.hostList)
    (hne : server.nodeID ≠ node.nodeID) (hid : '_' ∉ node.nodeID.toList) (hserver : '_' ∉ server.nodeID.toList)
    (hcast : Boost.lexical_cast text = some port) (hmapped : seen.ip ≠ node.localIp ∨ seen.port ≠ port)
    (hhome : server.localIp = home.ip)
    (hself : ∀ info r, s.hostList[server.nodeID]? = some info → textRecord info = some r → r.endpoint.ip = home.ip)
    (hip : seen.ip ≠ server.localIp) (hdetect : ((detectMsg node text).val.dump.flatMap String.utf8EncodeChar).length ≤
      bufferSize)
    (hupdate : GetsThrough node home
      (updateMsg server (registered server node.nodeID (mappedInfo seen node.localIp port) s.hostList))) :
    ∃ sent s' sent' r',
      Step server s ⟨.receive none seen (wire (detectMsg node text).dump) draws, sent⟩ s' ∧
      ⟨seen, (updateMsg server s'.hostList).dump⟩ ∈ sent ∧
      Step node r ⟨.receive none home (wire (updateMsg server s'.hostList).dump) draws', sent'⟩ r' ∧
      s'.hostList[node.nodeID]? = some r'.localEpInfo.dump ∧ server.nodeID ∈ s'.hostList ∧
      node.nodeID ∈ r'.hostList ∧ server.nodeID ∈ r'.hostList := by
  have hrec := record?_mappedInfo seen node.localIp port
  generalize htable : registered server node.nodeID (mappedInfo seen node.localIp port) s.hostList = table at hupdate
  have hw' : WfTable table := htable ▸ hw.registered server node.nodeID hrec
  have hown : table[node.nodeID]? = some (mappedInfo seen node.localIp port).dump := by
    rw [← htable, registered, StrMap.getElem?_insertIfNew_of_ne _ _ (Ne.symm hne), StrMap.getElem?_insertIfNew_self,
      StrMap.notMem_iff.1 hnew, Option.none_or]
  obtain ⟨sent, _, -, -, hsent, s', hstep, hleft, -⟩ := detectMapped_step draws hs hw hl hip hdetect
    (isMessage_detect node text) (detectData_detectMsg node hcast) hmapped htable.symm
  -- the server's entry is its own, old or new
  obtain ⟨info, hinfo⟩ : ∃ info, table[server.nodeID]? = some info := by
    refine StrMap.mem_iff.1 ?_
    rw [← htable]
    simp [registered]
  obtain ⟨rec', hrec'⟩ := hw' _ _ hinfo
  have hhome' : rec'.endpoint.ip = home.ip := by
    rw [← htable, registered, StrMap.getElem?_insertIfNew_self, StrMap.getElem?_insertIfNew_of_ne _ _ hne] at hinfo
    rcases hold : s.hostList[server.nodeID]? with _ | info'
    · rw [hold, Option.none_or] at hinfo
      rw [← Option.some.inj hinfo, textRecord_dump, record?_selfInfo] at hrec'
      rw [← Option.some.inj hrec']
      exact hhome
    · rw [hold, Option.some_or] at hinfo
      exact hself _ _ (hold.trans hinfo) hrec'
  obtain ⟨sent', r', hh, hlocal, hnode, hserver'⟩ := update_joins (r := arrive (wire (updateMsg server table).dump) r) draws'
    (by rw [arrive_hostList, hempty]) hw' hne hid hserver hown hrec rfl hinfo hrec' hhome'
  refine ⟨sent, s', sent', r'.rearm, hstep, ?_⟩
  rw [hleft.hostList]
  exact ⟨hsent _ _ _ hown (Ne.symm hne) ((textRecord_dump _).trans hrec),
    step_of_heard hr (.inl rfl) hupdate (isMessage_update server table) hh, hown.trans (by rw [rearm_localEpInfo, hlocal]),
    StrMap.mem_iff.2 ⟨_, hinfo⟩, hnode, hserver'⟩

end

/-! The node of the check scenario joins its server, which knows one node already. -/

theorem join_sample : ∃ (s : Server) (sent sent' : List SendTo) (s' r' : Server), "p" ∈ s.hostList ∧
    @Step digitsBoost checkServer s
      ⟨.receive none ⟨"30.0.0.1", 5555⟩ (wire (detectMsg checkNode "80").dump) checkDraws, sent⟩ s' ∧
    @Step digitsBoost checkNode (init checkNode)
      ⟨.receive none ⟨"10.0.0.1", 80⟩ (wire (updateMsg checkServer s'.hostList).dump) checkDraws, sent'⟩ r' ∧
    s'.hostList["n"]? = some r'.localEpInfo.dump ∧ "s" ∈ r'.hostList := by
  let _ := digitsBoost
  obtain ⟨_, s, -, hhost, -, -, hw, hl, hs⟩ := checkProbe_registers
  have hcast : Boost.lexical_cast "80" = some 80 := rfl
  have hself : ∀ info r, s.hostList[checkServer.nodeID]? = some info → textRecord info = some r →
      r.endpoint.ip = "10.0.0.1" := by
    intro info r hinfo hr
    have hown : s.hostList[checkServer.nodeID]? = some (selfInfo checkServer).dump := by
      rw [hhost]
      rfl
    cases hown.symm.trans hinfo
    rw [textRecord_dump, record?_selfInfo] at hr
    rw [← Option.some.inj hr]
    rfl
  have hnew : checkNode.nodeID ∉ s.hostList := by
    rw [hhost]
    simp [registered, checkNode, checkServer, sampleNode]
  have hne : checkServer.nodeID ≠ checkNode.nodeID := by decide
  have hupdate : GetsThrough checkNode ⟨"10.0.0.1", 80⟩ (updateMsg checkServer
      (registered checkServer checkNode.nodeID (mappedInfo ⟨"30.0.0.1", 5555⟩ checkNode.localIp 80) s.hostList)) :=
    getsThrough_of_fits (by decide) (by rw [hhost]; decide +kernel)
  obtain ⟨sent, s', sent', r', hstep, -, hstep', hown, -, -, hserver⟩ := join (r := init checkNode) checkDraws checkDraws
    hs hw hl rfl rfl hnew hne (by decide) (by decide) hcast (by decide) rfl hself (by decide) (by decide +kernel) hupdate
  exact ⟨s, sent, sent', s', r', by rw [hhost]; simp [registered], hstep, hstep', hown, hserver⟩

end NatServer

import NatServer.Server.Listed
import NatServer.Server.Probe
/-!
# Whom a proxyconnect goes to

For a peer behind a NAT the update loop looks for a public node that relays.
It takes the last one of the table, the server among them, and puts its
endpoint in the place of the update's source; the table grows from round to
round.
-/

namespace NatServer

open Effect Json

variable {cfg : Config} {s s' : Server} {n key k : String} {see see' remote e : Endpoint} {own value : Json}
  {table table' : StrMap String} {l : List (String × Json)} {data : StrMap Json}

/-! ## The search for a relay -/

/-- The endpoint of the last public node, or the address held so far. -/
def lastPublic (see : Endpoint) (l : List (String × String)) : Endpoint :=
  ((publicNodes l).getLast?.map Prod.snd).getD see

theorem lastPublic_of_nil {l : List (String × String)} (h : publicNodes l = []) (see : Endpoint) : lastPublic see l = see := by
  rw [lastPublic, h]
  rfl

theorem relayOf_eq {l : List (String × String)} (h : ∀ p ∈ l, ∃ r, textRecord p.2 = some r) (see : Endpoint) :
    relayOf see l = some (lastPublic see l) := by
  induction l generalizing see with
  | nil => rfl
  | cons p l ih =>
    obtain ⟨k, info⟩ := p
    obtain ⟨r, hr⟩ := h (k, info) List.mem_cons_self
    obtain ⟨j, hj, hjr⟩ := parse_of_textRecord hr
    have ih' := ih fun p hp => h p (List.mem_cons_of_mem _ hp)
    rw [lastPublic, publicNodes_cons hr, relayOf, hj, Option.bind_eq_bind, Option.bind_some, isPublic_of_record hjr]
    by_cases hp : r.isPublic = true
    · rw [if_pos hp, List.getLast?_cons]
      -- what this entry writes lasts where no public node follows
      rcases hlast : (publicNodes l).getLast? with _ | p <;>
        simp [hp, epIp_of_record hjr, epPort_of_record hjr, ih', lastPublic, hlast]
    · rw [if_neg hp]
      simp [hp, ih', lastPublic]

/-! ## The table and the address from round to round -/

/-- Entries that stay keep their nodes public. -/
theorem publicNodes_of_grown (hkeep : ∀ k ∈ table, table'[k]? = table[k]?) (hnone : publicNodes table'.toList = []) :
    publicNodes table.toList = [] := by
  refine List.eq_nil_iff_forall_not_mem.2 fun ⟨k, e⟩ hp => ?_
  obtain ⟨info, r, hinfo, hr, hpublic, he⟩ := mem_publicNodes.1 hp
  have hp' : (k, e) ∈ publicNodes table'.toList :=
    mem_publicNodes.2 ⟨info, r, (hkeep k (StrMap.mem_iff.2 ⟨_, hinfo⟩)).trans hinfo, hr, hpublic, he⟩
  simp [hnone] at hp'

theorem EntryRan.source {info : String} {r : Record} {o : List SendTo}
    (h : EntryRan cfg n see key (.string info) s ⟨.ok see', s', o⟩) (hw : WfTable s.hostList)
    (hr : textRecord info = some r) :
    WfTable s'.hostList ∧ (publicNodes s'.hostList.toList = [] → publicNodes s.hostList.toList = [] ∧ see' = see) := by
  have hgrown : publicNodes s'.hostList.toList = [] → publicNodes s.hostList.toList = [] :=
    publicNodes_of_grown fun _ hk => h.keeps hk
  obtain ⟨item, hitem, hread⟩ := readEntry_of_text hr
  have hdump : textRecord item.dump = some r := (textRecord_dump _).trans hitem
  cases h with
  | own hv | sameIp hv =>
    cases hread.symm.trans hv
    exact ⟨hw.insertIfNew _ fun _ => ⟨r, hdump⟩, fun hnone => ⟨hgrown hnone, rfl⟩⟩
  | known hv | direct hv => exact ⟨hw, fun hnone => ⟨hnone, rfl⟩⟩
  | proxied hv hnew ho hip hnat hrelay | punched hv hnew ho hip hnat hrelay =>
    refine ⟨hw, fun hnone => ⟨hnone, ?_⟩⟩
    rw [relayOf_eq hw.mem_toList, lastPublic_of_nil hnone] at hrelay
    exact (Option.some.inj hrelay).symm

/-- Until a public node is in the table the address is the update's source. -/
theorem LoopTo.source (h : LoopTo cfg n see s l see' s') (hw : WfTable s.hostList)
    (hl : ∀ p ∈ l, ∃ info r, p.2 = .string info ∧ textRecord info = some r) :
    WfTable s'.hostList ∧ (publicNodes s'.hostList.toList = [] → publicNodes s.hostList.toList = [] ∧ see' = see) := by
  induction h with
  | nil => exact ⟨hw, fun hnone => ⟨hnone, rfl⟩⟩
  | @cons see see' see'' s s₁ s₂ key value rest o entry loop ih =>
    obtain ⟨info, r, rfl, hr⟩ := hl _ List.mem_cons_self
    obtain ⟨hw₁, hfirst⟩ := entry.source hw hr
    obtain ⟨hw₂, hrest⟩ := ih hw₁ fun p hp => hl p (List.mem_cons_of_mem _ hp)
    refine ⟨hw₂, fun hnone => ?_⟩
    obtain ⟨hnone₁, rfl⟩ := hrest hnone
    exact hfirst hnone₁

/-- The relay a round finds. -/
theorem relayOf_walk (hself : (isPublic own).isSome) (hw : WfTable s.hostList)
    (hl : ∀ p ∈ l, ∃ info r, p.2 = .string info ∧ textRecord info = some r)
    (h : walk cfg n (remote, s.hostList) l = some (see, table)) :
    relayOf see table.toList = some (lastPublic remote table.toList) := by
  obtain ⟨s', loop, rfl, -⟩ := loopTo_of_walk (s := { s with localEpInfo := own }) hself h
  obtain ⟨hw', hsource⟩ := loop.source hw hl
  rw [relayOf_eq hw'.mem_toList]
  rcases hlast : (publicNodes s'.hostList.toList).getLast? with _ | p
  · rw [(hsource (List.getLast?_eq_none_iff.1 hlast)).2]
  · rw [lastPublic, lastPublic, hlast]
    rfl

/-! ## Where a proxyconnect goes -/

/-- A proxyconnect goes to a neighbour if the server has one, else to the
source of the update, and not to the server itself. -/
structure Relayed (cfg : Config) (remote : Endpoint) (own : Json) (table : StrMap String) (dest : Endpoint) : Prop where
  neighbour : neighbours cfg.nodeID table ≠ [] → ∃ k, (k, dest) ∈ neighbours cfg.nodeID table
  source : neighbours cfg.nodeID table = [] → dest = remote
  other : ¬ OwnAddress cfg table own dest

/-- The last public node of the table is not the server and not at its
address; where no node is public, the source is not at its address. -/
def LastOther (cfg : Config) (remote : Endpoint) (own : Json) (table : StrMap String) : Prop :=
  match (publicNodes table.toList).getLast? with
  | none => ¬ OwnAddress cfg table own remote
  | some p => p.1 ≠ cfg.nodeID ∧ ¬ OwnAddress cfg table own p.2

theorem relayed_iff :
    Relayed cfg remote own table (lastPublic remote table.toList) ↔ LastOther cfg remote own table := by
  unfold LastOther lastPublic
  rcases hlast : (publicNodes table.toList).getLast? with _ | ⟨k, e⟩
  · have hnone : neighbours cfg.nodeID table = [] := by rw [neighbours, List.getLast?_eq_none_iff.1 hlast, List.filter_nil]
    exact ⟨fun h => h.other, fun h => ⟨fun hne => absurd hnone hne, fun _ => rfl, h⟩⟩
  · have hin : (k, e) ∈ publicNodes table.toList := List.mem_of_getLast? hlast
    rw [Option.map_some, Option.getD_some]
    constructor
    · intro h
      refine ⟨?_, h.other⟩
      rintro rfl
      -- the last one is the server, and the message goes to its entry
      obtain ⟨info, r, hinfo, hr, -, he⟩ := mem_publicNodes.1 hin
      exact h.other (.inr (.inl (by rw [HasEndpoint, hinfo, Option.bind_some, textEndpoint_of_record hr, he])))
    · rintro ⟨hk, hother⟩
      have hneighbour : (k, e) ∈ neighbours cfg.nodeID table := List.mem_filter.2 ⟨hin, by simpa using hk⟩
      exact ⟨fun _ => ⟨k, hneighbour⟩, fun hnone => by simp [hnone] at hneighbour, hother⟩

/-- The proxyconnect of a round. -/
theorem proxyconnect_contacts_iff {x : SendTo} : x ∈ contacts cfg own see table key value ∧ x.IsType .proxyconnect ↔
    ∃ item tar relay, readEntry value = some (item, tar) ∧ Pursued cfg see table key tar ∧ natPublic item = some false ∧
      relayOf see table.toList = some relay ∧ x = ⟨relay, (dataMsg cfg "proxyconnect" item).dump⟩ := by
  constructor
  · rintro ⟨hx, htype⟩
    obtain ⟨item, tar, hread, hpursued, ⟨rfl, -⟩ | ⟨relay, rfl, hnat, hrelay⟩⟩ := mem_contacts_iff.1 hx
    · cases htype.unique ⟨_, _, isMessage_data cfg .openconnect own, rfl⟩
    · exact ⟨item, tar, relay, hread, hpursued, hnat, hrelay, rfl⟩
  · rintro ⟨item, tar, relay, hread, hpursued, hnat, hrelay, rfl⟩
    exact ⟨mem_contacts_iff.2 ⟨item, tar, hread, hpursued, .inr ⟨relay, rfl, hnat, hrelay⟩⟩,
      _, _, isMessage_data cfg .proxyconnect item, rfl⟩

theorem entriesBefore_records
    (hwf : ∀ (k : String) value, data[k]? = some value → ∃ item, givenRecord data k = some item ∧ WfRecord item)
    (key : String) : ∀ p ∈ StrMap.entriesBefore data key, ∃ info r, p.2 = .string info ∧ textRecord info = some r :=
  fun p hp => records_of_given hwf p ((List.takeWhile_prefix _).subset hp)

section
variable [Boost] {error : Option ErrorCode} {datagram : List UInt8} {draws : Draws} {j : Json}

/-- Every proxyconnect of an update of records goes the right way exactly
where, in each round that asks for a relay, the last public node is not the
server. -/
theorem proxyconnects_relayed_iff (draws : Draws) (hs : s.receiving = true)
    (he : error = none ∨ error = some .message_size) (hheard : heard cfg remote datagram = some j)
    (htype : messageType j = some "update") (hn : messageID j = some n) (hdata : j.sub "data" = some (.object data))
    (hw : WfTable s.hostList)
    (hwf : ∀ (k : String) value, data[k]? = some value → ∃ item, givenRecord data k = some item ∧ WfRecord item) :
    (∀ x, x ∈ (react cfg (.receive error remote datagram draws) s).out ↔
      ∃ key table, SentIn cfg (arrive datagram s) remote n data key table x) ∧
    ((∀ key table x, SentIn cfg (arrive datagram s) remote n data key table x → x.IsType .proxyconnect →
        Relayed cfg remote ((givenRecord data cfg.nodeID).getD s.localEpInfo) table x.dest) ↔
      n = cfg.nodeID ∨ cfg.nodeID ∉ data ∨ ∀ (key : String) item tar see table, givenRecord data key = some item →
        firstEndpoint item = some tar → walk cfg n (remote, s.hostList) (StrMap.entriesBefore data key) = some (see, table) →
          Pursued cfg see table key tar → natPublic item = some false →
            LastOther cfg remote ((givenRecord data cfg.nodeID).getD s.localEpInfo) table) := by
  refine ⟨fun x => by simp only [mem_update_out_iff hs he hheard htype hn hdata, sentFor_iff_sentIn], ?_⟩
  by_cases hlisted : n ≠ cfg.nodeID ∧ cfg.nodeID ∈ data
  · obtain ⟨hself, hmem⟩ := hlisted
    obtain ⟨own, r, hown, hr⟩ := given_of_mem hwf hmem
    have hpublic : (isPublic own).isSome := by rw [isPublic_of_record hr]; rfl
    simp only [hself, hmem, not_true_eq_false, false_or, sentIn_iff hself hown hpublic, arrive_hostList, hown,
      Option.getD_some]
    constructor
    · intro h key item tar see table hitem htar hwalk hpursued hnat
      obtain ⟨value, hvalue, hparse⟩ := Option.bind_eq_some_iff.1 hitem
      have hread : readEntry value = some (item, tar) := readEntry_eq_some.2 ⟨item, hparse, tar, htar, rfl⟩
      obtain ⟨hx, hproxy⟩ := proxyconnect_contacts_iff.2 ⟨item, tar, _, hread, hpursued, hnat,
        relayOf_walk hpublic hw (entriesBefore_records hwf key) hwalk, rfl⟩
      exact relayed_iff.1 (h key table _ ⟨value, see, hvalue, hwalk, hx⟩ hproxy)
    · rintro h key table x ⟨value, see, hvalue, hwalk, hx⟩ hproxy
      obtain ⟨item, tar, relay, hread, hpursued, hnat, hrelay, rfl⟩ := proxyconnect_contacts_iff.1 ⟨hx, hproxy⟩
      obtain ⟨item', hparse, tar', htar, hp⟩ := readEntry_eq_some.1 hread
      cases hp
      cases (relayOf_walk hpublic hw (entriesBefore_records hwf key) hwalk).symm.trans hrelay
      exact relayed_iff.2 (h key item tar see table (by rw [givenRecord, hvalue, Option.bind_some, hparse]) htar hwalk
        hpursued hnat)
  · rw [not_and_or, not_not] at hlisted
    -- the loop is not reached
    constructor
    · intro _
      rcases hlisted with hself | hmem
      · exact .inl hself
      · exact .inr (.inl hmem)
    · intro _ key table x hx
      obtain ⟨hself, hmem⟩ := (sentFor_iff_sentIn.2 ⟨table, hx⟩).listed
      rcases hlisted with hself' | hmem'
      · exact absurd hself' hself
      · exact absurd hmem hmem'

end

/-! The update of `b` with `a` in it: `r` knows no public node and asks `b`;
`s` knows `p` and asks itself. -/

theorem proxyconnects_relayed_iff_peers : ∃ table x,
    SentIn peersReceiver (arrive (wire (updateMsg natSender peersTable).dump) (init peersReceiver)) ⟨"7.7.7.7", 2000⟩ "b"
      peersData "a" table x ∧ x.IsType .proxyconnect ∧
    Relayed peersReceiver ⟨"7.7.7.7", 2000⟩ (selfInfo peersReceiver) table x.dest := by
  let _ := digitsBoost
  have hj := isMessage_update natSender peersTable
  have hown : givenRecord (peersTable.map fun _ info => .string info) peersReceiver.nodeID = some (selfInfo peersReceiver) :=
    givenRecord_peersData_r
  have hkeys (tar : Endpoint) : checkKey tar ∉ (∅ : StrMap String) := by simp
  have entry := peers_loop_proxied (s := { arrive (wire (updateMsg natSender peersTable).dump) (init peersReceiver) with
    localEpInfo := selfInfo peersReceiver }) rfl rfl hkeys rfl
  have hsent : SentIn peersReceiver (arrive (wire (updateMsg natSender peersTable).dump) (init peersReceiver))
      ⟨"7.7.7.7", 2000⟩ "b" peersData "a" ∅ ⟨⟨"7.7.7.7", 2000⟩, (dataMsg peersReceiver "proxyconnect" peersInfo).dump⟩ :=
    .intro (by decide) givenRecord_peersData_r peersData_toList .nil rfl (by
      rw [updateEntry_eq entry]
      exact List.mem_cons_self)
  have htype : SendTo.IsType ⟨⟨"7.7.7.7", 2000⟩, (dataMsg peersReceiver "proxyconnect" peersInfo).dump⟩ .proxyconnect :=
    ⟨_, _, isMessage_data peersReceiver .proxyconnect peersInfo, rfl⟩
  refine ⟨∅, _, hsent, htype, ?_⟩
  have hright := (proxyconnects_relayed_iff (s := init peersReceiver) ⟨0, "m", "k"⟩ rfl (.inl rfl)
    (peersUpdate_heard (by decide : "7.7.7.7" ≠ "6.6.6.6") 2000) hj.type hj.id (data_updateMsg _ _) WfTable.empty
    peersData_wf).2.2 (.inr (.inr fun key item tar see table hitem htar hwalk hpursued hnat => ?_)) "a" ∅ _ hsent htype
  · rwa [hown] at hright
  · obtain ⟨value, hvalue, -⟩ := Option.bind_eq_some_iff.1 hitem
    have hlisted : (key, value) ∈ peersData.toList := Std.ExtTreeMap.mem_toList_iff_getElem?_eq_some.2 hvalue
    rw [peersData_toList] at hlisted
    rcases List.mem_cons.1 hlisted with hp | hp
    · cases hp
      cases (peers_walk _ _).symm.trans hwalk
      rw [hown]
      exact peersSource_other
    · cases List.mem_singleton.1 hp
      exact absurd rfl hpursued.other

/-- What `p` knows. -/
def checkTable : StrMap String :=
  ((∅ : StrMap String).insert "a" peersInfo.dump).insert "s" (selfInfo checkServer).dump

def checkData : StrMap Json := checkTable.map fun _ info => .string info

theorem checkData_wf (k : String) (value : Json) (hk : checkData[k]? = some value) :
    ∃ item, givenRecord checkData k = some item ∧ WfRecord item := by
  have hwf : WfTable checkTable := (WfTable.empty.insert ((textRecord_dump _).trans record?_peersInfo) _).insert
    ((textRecord_dump _).trans (record?_selfInfo _)) _
  exact hwf.given k value hk

/-- The server is the last public node of its table. -/
theorem server_asks_itself : ∃ s table x, @Reachable digitsBoost checkServer s ∧ WfTable s.hostList ∧
    (∀ (k : String) value, checkData[k]? = some value → ∃ item, givenRecord checkData k = some item ∧ WfRecord item) ∧
    x ∈ (@react digitsBoost checkServer (.receive none ⟨"20.0.0.1", 80⟩ (wire (updateMsg checkProbe checkTable).dump)
      ⟨1001, "m", "k"⟩) s).out ∧
    SentIn checkServer (arrive (wire (updateMsg checkProbe checkTable).dump) s) ⟨"20.0.0.1", 80⟩ "p" checkData "a" table x ∧
    x.IsType .proxyconnect ∧ ("p", ⟨"20.0.0.1", 80⟩) ∈ neighbours checkServer.nodeID table ∧
    x.dest = ⟨checkServer.localIp, checkServer.localPort⟩ ∧
    ¬ Relayed checkServer ⟨"20.0.0.1", 80⟩ (selfInfo checkServer) table x.dest := by
  let _ := digitsBoost
  obtain ⟨sent, s, hstep, hhost, -, -, hw, -, hs⟩ := checkProbe_registers
  have hj := isMessage_update checkProbe checkTable
  have hheard : heard checkServer ⟨"20.0.0.1", 80⟩ (wire (updateMsg checkProbe checkTable).dump) =
      some (updateMsg checkProbe checkTable) := heard_wire (by decide) (by rw [wire_dump]; decide +kernel)
  have hlist : checkData.toList = [] ++ [("a", .string peersInfo.dump), ("s", .string (selfInfo checkServer).dump)] := rfl
  have hown : givenRecord checkData "s" = some (selfInfo checkServer) := by
    rw [checkData, givenRecord_map, show checkTable["s"]? = some (selfInfo checkServer).dump from rfl, Option.bind_some,
      parse_dump]
  have hpublic := checkProbe_publicNodes
  rw [← hhost] at hpublic
  have hrelay : relayOf ⟨"20.0.0.1", 80⟩ s.hostList.toList = some ⟨"10.0.0.1", 80⟩ := by
    rw [relayOf_eq hw.mem_toList, lastPublic, hpublic]
    rfl
  have hkeys (tar : Endpoint) : checkKey tar ∉ s.hostList := by
    rw [hhost]
    simp [registered, (checkKey_ne (k := "p") (by decide) tar).symm, (checkKey_ne (k := "s") (by decide) tar).symm,
      checkServer, sampleNode]
  have hsent : SentIn checkServer (arrive (wire (updateMsg checkProbe checkTable).dump) s) ⟨"20.0.0.1", 80⟩ "p" checkData
      "a" s.hostList ⟨⟨"10.0.0.1", 80⟩, (dataMsg checkServer "proxyconnect" peersInfo).dump⟩ := by
    refine (sentIn_iff (by decide) hown (by rw [isPublic_of_record (record?_selfInfo _)]; rfl)).2
      ⟨.string peersInfo.dump, ⟨"20.0.0.1", 80⟩, rfl, by rw [StrMap.entriesBefore_eq hlist, walk, arrive_hostList], ?_⟩
    exact (proxyconnect_contacts_iff.2 ⟨peersInfo, ⟨"5.5.5.5", 1000⟩, _, readEntry_of_record record?_peersInfo,
      ⟨hkeys _, by decide, by decide⟩, by rw [natPublic_of_record record?_peersInfo]; rfl, hrelay, rfl⟩).1
  refine ⟨s, s.hostList, _, Reachable.init.step hstep, hw, checkData_wf, ?_, hsent,
    ⟨_, _, isMessage_data checkServer .proxyconnect peersInfo, rfl⟩, ?_, rfl, fun h => h.other (.inl rfl)⟩
  · exact (mem_update_out_iff hs (.inl rfl) hheard hj.type hj.id (data_updateMsg _ _)).2
      ⟨"a", sentFor_iff_sentIn.2 ⟨_, hsent⟩⟩
  · exact List.mem_filter.2 ⟨by rw [hpublic]; exact List.mem_cons_self, by decide⟩

end NatServer

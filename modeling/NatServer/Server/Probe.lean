import NatServer.Server.Observed
/-!
# Who probes a detecting node

A mapped detect is to be probed by a public node of the table, from another
address than the server's; a check is stored that a timer pass turns into
`isFilter`. The search leaves out the server but not the detecting node, and
where it finds nobody the server's own record takes the place.
-/

namespace NatServer

open Effect Json

variable {cfg : Config} {s : Server} {n k : String} {remote e : Endpoint} {table : StrMap String}

/-! ## Public nodes -/

/-- The public nodes of a listing, with their first endpoints. -/
def publicNodes (l : List (String × String)) : List (String × Endpoint) :=
  l.filterMap fun p => ((textRecord p.2).filter Record.isPublic).map fun r => (p.1, r.endpoint)

theorem publicNodes_cons {info : String} {r : Record} (hr : textRecord info = some r) (l : List (String × String)) :
    publicNodes ((k, info) :: l) = if r.isPublic then (k, r.endpoint) :: publicNodes l else publicNodes l := by
  unfold publicNodes
  rw [List.filterMap_cons, hr]
  by_cases hp : r.isPublic <;> simp [Option.filter, hp]

theorem mem_publicNodes : (k, e) ∈ publicNodes table.toList ↔
    ∃ info r, table[k]? = some info ∧ textRecord info = some r ∧ r.isPublic ∧ r.endpoint = e := by
  simp only [publicNodes, List.mem_filterMap, Option.map_eq_some_iff, Option.filter_eq_some_iff, Prod.mk.injEq]
  constructor
  · rintro ⟨⟨_, info⟩, hp, r, ⟨hr, hpublic⟩, rfl, rfl⟩
    exact ⟨info, r, Std.ExtTreeMap.mem_toList_iff_getElem?_eq_some.1 hp, hr, hpublic, rfl⟩
  · rintro ⟨info, r, hinfo, hr, hpublic, rfl⟩
    exact ⟨(k, info), Std.ExtTreeMap.mem_toList_iff_getElem?_eq_some.2 hinfo, r, ⟨hr, hpublic⟩, rfl, rfl⟩

theorem publicNodes_keySorted (table : StrMap String) : KeySorted (publicNodes table.toList) := by
  refine (KeySorted.toList table).filterMap _ fun a b hab a' ha' b' hb' => ?_
  obtain ⟨_, -, rfl⟩ := Option.map_eq_some_iff.1 ha'
  obtain ⟨_, -, rfl⟩ := Option.map_eq_some_iff.1 hb'
  exact hab

/-- The public nodes that `getPublicNode` chooses from. -/
def neighbours (id : String) (table : StrMap String) : List (String × Endpoint) :=
  (publicNodes table.toList).filter fun p => p.1 ≠ id

/-- `getPublicNode` finds the first of them, or nothing. -/
theorem findPublic_neighbour {l : List (String × String)} (h : ∀ p ∈ l, ∃ r, textRecord p.2 = some r) (id : String) :
    ∃ info, findPublic id l = some info ∧ match ((publicNodes l).filter fun p => p.1 ≠ id).head? with
      | none => info = ""
      | some p => ∃ r, textRecord info = some r ∧ r.endpoint = p.2 := by
  induction l with
  | nil => exact ⟨"", rfl, rfl⟩
  | cons p l ih =>
    obtain ⟨k, info⟩ := p
    obtain ⟨r, hr⟩ := h (k, info) List.mem_cons_self
    obtain ⟨j, hj, hjr⟩ := parse_of_textRecord hr
    obtain ⟨info', hfind, hinfo'⟩ := ih fun p hp => h p (List.mem_cons_of_mem _ hp)
    rw [publicNodes_cons hr]
    by_cases hc : r.isPublic = true ∧ id ≠ k
    · refine ⟨info, by simp [findPublic, hj, isPublic_of_record hjr, hc.1, hc.2], ?_⟩
      rw [if_pos hc.1, List.filter_cons_of_pos (by simpa using hc.2.symm)]
      exact ⟨r, hr, rfl⟩
    · refine ⟨info', by simp [findPublic, hj, isPublic_of_record hjr, hc, hfind], ?_⟩
      by_cases hp : r.isPublic = true
      · obtain rfl : id = k := by simpa [hp] using hc
        rwa [if_pos hp, List.filter_cons_of_neg (by simp)]
      · rwa [if_neg hp]

/-- Where a probe goes. -/
theorem WfTable.probeTarget_eq (h : WfTable table) (cfg : Config) (localEpInfo : Json) :
    NatServer.probeTarget cfg table localEpInfo =
      match (neighbours cfg.nodeID table).head? with
      | none => firstEndpoint localEpInfo
      | some p => some p.2 := by
  obtain ⟨info, hfind, hinfo⟩ := findPublic_neighbour h.mem_toList cfg.nodeID
  unfold NatServer.probeTarget neighbours
  rw [hfind]
  split <;> rename_i hhead <;> rw [hhead] at hinfo
  · subst hinfo
    simp [firstEndpoint]
  · obtain ⟨r, hr, hend⟩ := hinfo
    obtain ⟨j, hj, hjr⟩ := parse_of_textRecord hr
    have hempty : parse "" = none := by decide
    have hne : info ≠ "" := by
      rintro rfl
      cases hempty.symm.trans hj
    simp [hne, hj, epIp_of_record hjr, epPort_of_record hjr, hend]

/-! ## The probe of a mapped detect -/

/-- The registration adds no public node but the server. -/
theorem neighbours_registered (cfg : Config) (n : String) (seen : Endpoint) (lip : String) (lport : UInt16)
    (table : StrMap String) :
    neighbours cfg.nodeID (registered cfg n (mappedInfo seen lip lport) table) = neighbours cfg.nodeID table := by
  refine KeySorted.ext ((publicNodes_keySorted _).filter _) ((publicNodes_keySorted _).filter _) fun ⟨k, e⟩ => ?_
  simp only [neighbours, List.mem_filter, decide_eq_true_eq, mem_publicNodes]
  refine and_congr_left fun ho => ?_
  by_cases hk : k = n ∧ n ∉ table
  · obtain ⟨rfl, hout⟩ := hk
    -- the new entry of `n` is a mapped one
    rw [getElem?_registered_self, if_neg hout, StrMap.notMem_iff.1 hout]
    have hmapped : textRecord (mappedInfo seen lip lport).dump = some ⟨"mapping", "", seen⟩ :=
      (textRecord_dump _).trans (record?_mappedInfo ..)
    constructor
    · rintro ⟨_, r, ⟨⟩, hr, hpublic, -⟩
      cases hmapped.symm.trans hr
      cases hpublic
    · rintro ⟨_, _, ⟨⟩, -⟩
  · have hsame : (registered cfg n (mappedInfo seen lip lport) table)[k]? = table[k]? := by
      by_cases hkn : k = n
      · subst hkn
        rw [getElem?_registered_self, if_pos (by simpa using hk)]
      · exact (Framed.registered n table _).rest k hkn ho
    rw [hsame]

/-- Where the probe of a mapped detect goes: to the first neighbour, or to the
server's own record. -/
theorem WfTable.probeTarget_registered (h : WfTable table) (cfg : Config) (n : String) (seen : Endpoint) (lip : String)
    (lport : UInt16) (localEpInfo : Json) :
    NatServer.probeTarget cfg (NatServer.registered cfg n (mappedInfo seen lip lport) table) localEpInfo =
      match (neighbours cfg.nodeID table).head? with
      | none => firstEndpoint localEpInfo
      | some p => some p.2 := by
  rw [(h.registered cfg n (record?_mappedInfo seen lip lport)).probeTarget_eq, neighbours_registered]

/-- A public node other than the server and `n` is at `e`. -/
def ThirdParty (cfg : Config) (n : String) (table : StrMap String) (e : Endpoint) : Prop :=
  ∃ k, k ≠ cfg.nodeID ∧ k ≠ n ∧ (k, e) ∈ publicNodes table.toList

/-- A handler without a target faults before it stores a check. -/
theorem detectMapped_untargeted (draws : Draws) {lip : String} {lport : UInt16}
    (hw : WfTable (registered cfg n (mappedInfo remote lip lport) s.hostList))
    (htarget : probeTarget cfg (registered cfg n (mappedInfo remote lip lport) s.hostList) s.localEpInfo = none) :
    detectMapped cfg draws remote n lip lport s =
      ⟨.error .exception, { s with hostList := registered cfg n (mappedInfo remote lip lport) s.hostList }, []⟩ := by
  obtain ⟨info, hfind⟩ := hw.findPublic cfg.nodeID
  simp only [probeTarget, hfind, Option.bind_eq_bind, Option.bind_some] at htarget
  have hfound (s₁ : Server) (hs : s₁.hostList = registered cfg n (mappedInfo remote lip lport) s.hostList) :
      getPublicNode cfg.nodeID s₁ = ⟨.ok info, s₁, []⟩ := by
    simp only [getPublicNode, run_readState_bind, hs, hfind]
    rfl
  rw [detectMapped, addNewNode, addNewNode, run_modifyState_bind, run_modifyState_bind, run_bind, hfound _ rfl]
  simp only [run_readState_bind, throwing]
  rcases hparse : parse (if info = "" then s.localEpInfo.dump else info) with _ | neighber
  · rfl
  rcases hip : epIp neighber with _ | ip
  · simp [hip, registered]
  rcases hport : epPort neighber with _ | port
  · simp [hip, hport, registered]
  · simp [hparse, hip, hport] at htarget

section
variable [Boost] {error : Option ErrorCode} {datagram : List UInt8} {draws : Draws} {j : Json} {lip : String}
  {lport : UInt16}

/-- A check that was stored comes with a probe, and probes are sent to third
parties only. Where there is no third party nothing is stored, and nothing
ever comes due. -/
structure Probed (cfg : Config) (n : String) (draws : Draws) (table : StrMap String) (r : Ran Server SendTo Fault Unit) :
    Prop where
  probe : draws.key ∈ r.state.fCkTimeMap → (∃ x ∈ r.out, x.IsType .filteringcheck) ∧
    ∀ x ∈ r.out, x.IsType .filteringcheck → ThirdParty cfg n table x.dest
  unprobed : (∀ e, ¬ ThirdParty cfg n table e) → draws.key ∉ r.state.fCkTimeMap ∧ ∀ ts s' now,
    Run (Step cfg) r.state ts s' → (∀ t ∈ ts, ¬ t.event.DrawsKey draws.key) → ¬ Blames now s' draws.key n

/-- What a mapped detect does to the checks, and what it sends. -/
theorem detectMapped_react (draws : Draws) (hs : s.receiving = true) (he : error = none ∨ error = some .message_size)
    (hheard : heard cfg remote datagram = some j) (htype : messageType j = some "detect") (hn : messageID j = some n)
    (hdata : detectData j = some (lip, lport)) (hmapped : remote.ip ≠ lip ∨ remote.port ≠ lport)
    (hw : WfTable s.hostList) {r : Ran Server SendTo Fault Unit}
    (hr : react cfg (.receive error remote datagram draws) s = r) :
    match probeTarget cfg (registered cfg n (mappedInfo remote lip lport) s.hostList) s.localEpInfo with
    | none => r.state.fCkTimeMap = s.fCkTimeMap
    | some target => r.state.fCkTimeMap = s.fCkTimeMap.insertIfNew draws.key (keyStr draws.curTime remote n) ∧
        ∃ o, r.out = ⟨target, (filteringcheckMsg cfg remote draws.msgID).dump⟩ :: o ∧
          routeUpdate cfg (registered cfg n (mappedInfo remote lip lport) s.hostList) = some o := by
  subst hr
  have hw' := hw.registered cfg n (record?_mappedInfo remote lip lport)
  split
  · next htarget =>
    have hfault := detectMapped_untargeted (s := arrive datagram s) draws hw' htarget
    obtain ⟨data, hdata', lip', hlip, text, htext, lport', hport, hp⟩ := detectData_eq_some.1 hdata
    cases hp
    rw [react_heard (arrive_recvBuffer hs datagram) he hheard, handleJson_eq hn htype rfl, dispatch]
    simp only [detect, hdata', hlip, htext, hport, throwing, orFail_some_bind, if_pos hmapped, run_bind, hfault,
      arrive_fCkTimeMap]
  · next target htarget =>
    obtain ⟨o, ho⟩ := hw'.routeUpdate cfg
    have hrun : Completes (react cfg (.receive error remote datagram draws)) s () _ _ :=
      receive_completes (arrive_recvBuffer hs datagram) he hheard hn htype (MsgType.ofText?_text .detect)
        (.detectMapped hdata hmapped htarget ho)
    rw [Completes] at hrun
    rw [hrun]
    exact ⟨rfl, o, rfl, ho⟩

/-- Without the check nothing has to be probed. -/
theorem Probed.of_notMem {r : Ran Server SendTo Fault Unit} (h : draws.key ∉ r.state.fCkTimeMap) :
    Probed cfg n draws table r := by
  refine ⟨fun hin => absurd hin h, fun _ => ⟨h, fun ts s' now hrun hdraw => ?_⟩⟩
  rintro ⟨-, check, hcheck, -⟩
  exact key_notMem_of_run hrun h hdraw (StrMap.mem_iff.2 ⟨_, hcheck⟩)

/-- With the check it depends on where the probe went. -/
theorem Probed.iff_of_mem {r : Ran Server SendTo Fault Unit} {target : Endpoint} {o : List SendTo} {table' : StrMap String}
    (h : draws.key ∈ r.state.fCkTimeMap)
    (hout : r.out = ⟨target, (filteringcheckMsg cfg remote draws.msgID).dump⟩ :: o)
    (ho : routeUpdate cfg table' = some o) : Probed cfg n draws table r ↔ ThirdParty cfg n table target := by
  have hprobe : SendTo.IsType ⟨target, (filteringcheckMsg cfg remote draws.msgID).dump⟩ .filteringcheck :=
    ⟨_, _, isMessage_filteringcheck cfg remote draws.msgID, rfl⟩
  constructor
  · intro hp
    exact (hp.probe h).2 _ (hout ▸ List.mem_cons_self) hprobe
  · intro hthird
    refine ⟨fun _ => ⟨⟨_, hout ▸ List.mem_cons_self, hprobe⟩, fun x hx htype => ?_⟩, fun hnone => absurd hthird (hnone _)⟩
    rw [hout] at hx
    rcases List.mem_cons.1 hx with rfl | hx
    · exact hthird
    · cases htype.unique (routeUpdate_isType cfg ho x hx)

/-- The probe of a mapped detect that stores a check comes from a third party
exactly where the first neighbour of the server is one. The detecting node may
be the first, and where there is none the server asks itself. -/
theorem probed_iff (draws : Draws) (hs : s.receiving = true) (he : error = none ∨ error = some .message_size)
    (hheard : heard cfg remote datagram = some j) (htype : messageType j = some "detect") (hn : messageID j = some n)
    (hdata : detectData j = some (lip, lport)) (hmapped : remote.ip ≠ lip ∨ remote.port ≠ lport)
    (hw : WfTable s.hostList) :
    (draws.key ∉ s.fCkTimeMap → Probed cfg n draws s.hostList (react cfg (.receive error remote datagram draws) s)) ↔
      draws.key ∈ s.fCkTimeMap ∨ (neighbours cfg.nodeID s.hostList = [] ∧ firstEndpoint s.localEpInfo = none) ∨
        ∃ p, (neighbours cfg.nodeID s.hostList).head? = some p ∧ ThirdParty cfg n s.hostList p.2 := by
  by_cases hkey : draws.key ∈ s.fCkTimeMap
  · simp [hkey]
  obtain ⟨r, hr⟩ : ∃ r, react cfg (.receive error remote datagram draws) s = r := ⟨_, rfl⟩
  have hdid := detectMapped_react draws hs he hheard htype hn hdata hmapped hw hr
  rw [hw.probeTarget_registered] at hdid
  simp only [hr, hkey, not_false_eq_true, forall_const, false_or]
  -- what was drawn is stored where there is a target
  have hstored (h : r.state.fCkTimeMap = s.fCkTimeMap.insertIfNew draws.key (keyStr draws.curTime remote n)) :
      draws.key ∈ r.state.fCkTimeMap := by simp [h]
  rcases hhead : (neighbours cfg.nodeID s.hostList).head? with _ | p
  · have hnone : neighbours cfg.nodeID s.hostList = [] := List.head?_eq_none_iff.1 hhead
    rcases hlocal : firstEndpoint s.localEpInfo with _ | target <;> simp only [hhead, hlocal] at hdid
    · exact ⟨fun _ => .inl ⟨hnone, rfl⟩, fun _ => .of_notMem (by rwa [hdid])⟩
    · obtain ⟨hchecks, o, hout, ho⟩ := hdid
      rw [Probed.iff_of_mem (hstored hchecks) hout ho]
      -- the server's own endpoint, and no third party
      constructor
      · rintro ⟨k, hself, -, hk⟩
        have hin : (k, target) ∈ neighbours cfg.nodeID s.hostList := List.mem_filter.2 ⟨hk, by simpa using hself⟩
        simp [hnone] at hin
      · rintro (⟨-, ⟨⟩⟩ | ⟨_, ⟨⟩, -⟩)
  · simp only [hhead] at hdid
    obtain ⟨hchecks, o, hout, ho⟩ := hdid
    rw [Probed.iff_of_mem (hstored hchecks) hout ho]
    constructor
    · exact fun h => .inr ⟨p, rfl, h⟩
    · rintro (⟨hnone, -⟩ | ⟨_, ⟨⟩, h⟩)
      · simp [hnone] at hhead
      · exact h

end

/-! The server `s` has `p` probe the node `n`; before it has heard of `p`, it
sends the probe to itself. -/

theorem checkDetect_heard : heard checkServer ⟨"30.0.0.1", 5555⟩ (wire (detectMsg checkNode "80").dump) =
    some (detectMsg checkNode "80") :=
  heard_wire (by decide) (by rw [wire_dump]; decide +kernel)

/-- The public nodes `s` knows when it has heard of `p`. -/
theorem checkProbe_publicNodes : publicNodes (registered checkServer "p" (publicInfo ⟨"20.0.0.1", 80⟩) ∅).toList =
    [("p", ⟨"20.0.0.1", 80⟩), ("s", ⟨"10.0.0.1", 80⟩)] := by
  have hlist : (registered checkServer "p" (publicInfo ⟨"20.0.0.1", 80⟩) ∅).toList =
      [("p", (publicInfo ⟨"20.0.0.1", 80⟩).dump), ("s", (selfInfo checkServer).dump)] := rfl
  rw [hlist, publicNodes_cons ((textRecord_dump _).trans (record?_publicInfo _)),
    publicNodes_cons ((textRecord_dump _).trans (record?_selfInfo _))]
  rfl

theorem probed_iff_neighbour : ∃ s, @Reachable digitsBoost checkServer s ∧
    @Probed digitsBoost checkServer "n" checkDraws s.hostList (@react digitsBoost checkServer
      (.receive none ⟨"30.0.0.1", 5555⟩ (wire (detectMsg checkNode "80").dump) checkDraws) s) := by
  let _ := digitsBoost
  obtain ⟨sent, s, hstep, hhost, hchecks, -, hw, -, hs⟩ := checkProbe_registers
  have hj := isMessage_detect checkNode "80"
  have hpublic := checkProbe_publicNodes
  rw [← hhost] at hpublic
  have hfirst : (neighbours "s" s.hostList).head? = some ("p", ⟨"20.0.0.1", 80⟩) := by
    rw [neighbours, hpublic]
    rfl
  refine ⟨s, Reachable.init.step hstep, (probed_iff checkDraws hs (.inl rfl) checkDetect_heard hj.type hj.id
    (detectData_detectMsg _ rfl) (by decide) hw).2 (.inr (.inr ⟨_, hfirst, "p", by decide, by decide, ?_⟩)) ?_⟩
  · rw [hpublic]
    exact List.mem_cons_self
  · simp [hchecks]

/-- The probe goes to the server itself, which drops it, and 25 seconds later
`n` is blamed. -/
theorem server_probes_itself : ∃ sent s, @Step digitsBoost checkServer (init checkServer)
      ⟨.receive none ⟨"30.0.0.1", 5555⟩ (wire (detectMsg checkNode "80").dump) checkDraws, sent⟩ s ∧
    checkServer.publicFlag = true ∧ WfTable (init checkServer).hostList ∧ checkDraws.key ∉ (init checkServer).fCkTimeMap ∧
    (∀ e, ¬ ThirdParty checkServer "n" (init checkServer).hostList e) ∧
    ⟨⟨checkServer.localIp, checkServer.localPort⟩,
      (filteringcheckMsg checkServer ⟨"30.0.0.1", 5555⟩ checkDraws.msgID).dump⟩ ∈ sent ∧
    @Blames digitsBoost 1025 s checkDraws.key "n" ∧
    ¬ @Probed digitsBoost checkServer "n" checkDraws (init checkServer).hostList (@react digitsBoost checkServer
      (.receive none ⟨"30.0.0.1", 5555⟩ (wire (detectMsg checkNode "80").dump) checkDraws) (init checkServer)) := by
  let _ := digitsBoost
  have hnobody (e : Endpoint) : ¬ ThirdParty checkServer "n" (init checkServer).hostList e := by
    rintro ⟨_, -, -, h⟩
    cases h
  have htarget : probeTarget checkServer (registered checkServer "n" (mappedInfo ⟨"30.0.0.1", 5555⟩ checkNode.localIp 80) ∅)
      (init checkServer).localEpInfo = some ⟨"10.0.0.1", 80⟩ := by
    rw [WfTable.empty.probeTarget_registered]
    exact firstEndpoint_of_record (record?_selfInfo checkServer)
  obtain ⟨o, ho⟩ := (WfTable.empty.registered checkServer "n"
    (record?_mappedInfo ⟨"30.0.0.1", 5555⟩ checkNode.localIp 80)).routeUpdate checkServer
  have hstep := step_of_handled (s := init checkServer) checkDraws rfl
    (by decide : (⟨"30.0.0.1", 5555⟩ : Endpoint).ip ≠ checkServer.localIp) (by decide +kernel)
    (isMessage_detect checkNode "80") (.detectMapped (detectData_detectMsg _ rfl) (by decide) htarget ho)
  have hread : readCheck (keyStr 1000 ⟨"30.0.0.1", 5555⟩ "n") = some ⟨1000, "n"⟩ := by decide +kernel
  refine ⟨_, _, hstep, rfl, WfTable.empty, by simp [init], hnobody, List.mem_cons_self,
    ⟨?_, _, ?_, (due_iff hread).2 ⟨by decide, rfl⟩⟩, fun hp => ?_⟩
  · exact StrMap.mem_iff.2 ⟨_, (getElem?_registered_self ..).trans (if_neg (by simp [init]))⟩
  · exact (StrMap.getElem?_insertIfNew ..).trans (if_pos ⟨rfl, by simp [init]⟩)
  · have hin := (hp.unprobed hnobody).1
    rw [show @react digitsBoost checkServer _ _ = _ from hstep.completes] at hin
    exact hin (by simp)

end NatServer

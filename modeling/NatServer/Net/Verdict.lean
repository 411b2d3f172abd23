import NatServer.Net.Crash
import NatServer.Server.Verdict
/-!
# Verdicts in a network

A verdict stays as long as no message with a record from before it comes in.
Such a message need not be forged: the server tells `r` of itself when it has
registered it, and again when it has found it filtering, and the first update
may be the last to arrive.
-/

namespace NatServer

open Effect Json

section
variable {ι : Type} [Boost] {cfg : ι → Config} [DecidableEq ι] {route : Endpoint → ι → Prop} {i : ι} {c : Copy}

/-- The node `i` runs and has the copy. -/
def Keeps (i : ι) (c : Copy) (N : Network ι) : Prop := ∃ s, N.node i = some s ∧ c.In s

/-- The copy that the node `i` has is not undecided. -/
def KeepsVerdict (i : ι) (c : Copy) (N : Network ι) : Prop :=
  ∃ s, N.node i = some s ∧ c.In s ∧ c.verdict s ≠ some ""

/-- The node `i` is not told of the copy by a record without a verdict. -/
def SparesVerdict (cfg : ι → Config) (i : ι) (c : Copy) (a : Action ι) : Prop :=
  ∀ event, a.turn? = some (i, event) → ¬ Undoes (cfg i) c event

theorem NetStep.verdict_iff {N N' : Network ι} {a : Action ι} (h : NetStep cfg route N a N') (hN : KeepsVerdict i c N)
    (hin : Keeps i c N') : KeepsVerdict i c N' ↔ SparesVerdict cfg i c a := by
  obtain ⟨s, hs, hins, hv⟩ := hN
  obtain ⟨s', hs', hins'⟩ := hin
  have hafter : KeepsVerdict i c N' ↔ c.verdict s' ≠ some "" := by
    constructor
    · rintro ⟨s₁, hs₁, -, hv₁⟩
      cases hs'.symm.trans hs₁
      exact hv₁
    · exact fun hv' => ⟨s', hs', hins', hv'⟩
  rw [hafter]
  rcases NetStep.node_cases _ _ h hs' with ⟨hnot, hs₁⟩ | ⟨s₁, event, sent, hs₁, ha, hstep⟩
  · cases hs.symm.trans hs₁
    exact ⟨fun _ event ha => absurd ha (hnot event), fun _ => hv⟩
  · cases hs.symm.trans hs₁
    rw [hstep.verdict_iff hins hins' hv]
    constructor
    · intro hspares event' ha'
      cases ha.symm.trans ha'
      exact hspares
    · exact fun hspares => hspares event ha

/-- While a node keeps a copy that has a verdict, the copy is never undecided
again exactly where no message brings a record without a verdict that takes its
place. -/
theorem verdict_kept_iff {N N' : Network ι} {as : List (Action ι)} {s : Server} (hs : N.node i = some s)
    (hd : c.Decided s) :
    Run (Into (Into (NetStep cfg route) (Keeps i c)) (KeepsVerdict i c)) N as N' ↔
      Run (Restrict (Into (NetStep cfg route) (Keeps i c)) fun _ a => SparesVerdict cfg i c a) N as N' := by
  refine Run.into_iff ?_ ⟨s, hs, hd.isIn, hd.ne⟩
  intro N a N' hN h
  exact h.1.verdict_iff hN h.2

end

/-! ## A late update -/

/-- What the server has of the requester, with a verdict. -/
def requesterInfo (verdict : String) : Json :=
  nodeInfo "mapping" verdict [endpointInfo "30.0.0.1" 1000, endpointInfo "192.168.0.2" 80]

/-- The server's table, the requester with a verdict. -/
def verdictTable (verdict : String) : StrMap String :=
  ((∅ : StrMap String).insert "r" (requesterInfo verdict).dump).insert "s" (selfInfo checkServer).dump

theorem detectTable_eq : detectTable = verdictTable "" := rfl

theorem verdictTable_toList (verdict : String) : ((verdictTable verdict).map fun _ info => Json.string info).toList =
    [("r", .string (requesterInfo verdict).dump), ("s", .string (selfInfo checkServer).dump)] := rfl

theorem record?_requesterInfo (verdict : String) :
    record? (requesterInfo verdict) = some ⟨"mapping", verdict, partyAddress .requester⟩ := record?_nodeInfo ..

theorem filtering_requesterInfo (verdict : String) : filtering (requesterInfo verdict) = some verdict :=
  (record?_eq_some.1 (record?_requesterInfo verdict)).2.1

theorem verdictTable_records (verdict : String) : WfTable (verdictTable verdict) :=
  (WfTable.empty.insert ((textRecord_dump _).trans (record?_requesterInfo verdict)) _).insert
    ((textRecord_dump _).trans (record?_selfInfo _)) _

theorem givenRecord_verdictTable (verdict : String) :
    givenRecord ((verdictTable verdict).map fun _ info => .string info) "r" = some (requesterInfo verdict) := by
  rw [givenRecord_map, show (verdictTable verdict)["r"]? = some (requesterInfo verdict).dump from rfl, Option.bind_some,
    parse_dump]

theorem blame_requester : setFiltering "isFilter" (requesterInfo "").dump = some (requesterInfo "isFilter") := by
  rw [setFiltering, parse_dump]
  rfl

/-- The two updates differ. -/
theorem verdict_packets_ne : packetTo .requester (updateMsg checkServer (verdictTable "")) ≠
    packetTo .requester (updateMsg checkServer (verdictTable "isFilter")) := by
  intro h
  have hdata := data_updateMsg checkServer (verdictTable "")
  rw [packetTo_inj h, data_updateMsg] at hdata
  have hrecord := congrArg (fun m => givenRecord m "r") (object_inj (Option.some.inj hdata))
  rw [givenRecord_verdictTable, givenRecord_verdictTable] at hrecord
  have hverdict := congrArg filtering (Option.some.inj hrecord)
  rw [filtering_requesterInfo, filtering_requesterInfo] at hverdict
  exact absurd hverdict (by decide)

variable {N : Network Party}

/-- The check was not answered in time: the server blames the requester, and
tells it so. -/
theorem server_blames {s : Server} (hs : N.node .server = some s) (hhost : s.hostList = verdictTable "")
    (hcheck : s.fCkTimeMap = (∅ : StrMap String).insertIfNew "k₁" (keyStr 1000 (partyAddress .requester) "r"))
    (hnum : s.tickerNum = ∅) : ∃ N' s', @NetStep _ digitsBoost _ partyConfig partyRoute N (.tick .server 1025) N' ∧
      N'.node = Function.update N.node .server (some s') ∧
      packetTo .requester (updateMsg checkServer (verdictTable "isFilter")) ∈ N'.flight ∧
      ∀ q ∈ N.flight, q ∈ N'.flight := by
  let _ := digitsBoost
  have hread : readCheck (keyStr 1000 (partyAddress .requester) "r") = some ⟨1000, "r"⟩ := by decide +kernel
  have hinfo : s.hostList["r"]? = some (requesterInfo "").dump := by
    rw [hhost]
    rfl
  have hlist : s.fCkTimeMap.toList = [("k₁", keyStr 1000 (partyAddress .requester) "r")] := by
    rw [hcheck]
    rfl
  -- the check is due, and `r` has not answered it
  have hsweep : Swept 1025 s false s.fCkTimeMap.toList true { s with
      hostList := s.hostList.insert "r" (requesterInfo "isFilter").dump, fCkTimeMap := s.fCkTimeMap.erase "k₁" } := by
    rw [hlist]
    exact .due hread (by decide) (split_keyStr_zero ..) hinfo blame_requester .nil
  have htable : s.hostList.insert "r" (requesterInfo "isFilter").dump = verdictTable "isFilter" := by
    rw [hhost]
    rfl
  rw [htable] at hsweep
  have hw := verdictTable_records "isFilter"
  obtain ⟨es, hes⟩ := tickerTargets_of_records hw.mem_toList checkServer
  obtain ⟨o, ho⟩ := hw.routeUpdate checkServer
  have hevict (s : Server) (h : s.tickerNum = ∅) : Evicted s true s.tickerNum.toList true s := by
    rw [h]
    exact .nil
  obtain ⟨s', o₂, hend⟩ := listMsgQueue_completes checkServer { s with
    hostList := verdictTable "isFilter", fCkTimeMap := s.fCkTimeMap.erase "k₁", tickerNum := countTickers es s.tickerNum }
  have hpass := Passed.intro hsweep (hevict _ hnum) hes ho hend
  obtain ⟨N', hnet, hnode, hsent, hold⟩ := NetStep.of_tick partyConfig partyRoute hs hpass.step
  refine ⟨N', s', hnet, hnode, hsent ⟨partyAddress .requester, _⟩ (party_transmitted ?_), hold⟩
  refine List.mem_append_left _ (List.mem_append_right _ ?_)
  have hentry : (verdictTable "isFilter")["r"]? = some (requesterInfo "isFilter").dump := rfl
  exact routeUpdate_mem ho hentry (by decide) ((textRecord_dump _).trans (record?_requesterInfo _))

/-- The loop of the requester over such an update. -/
theorem verdict_loop {s : Server} (hkeys : ∀ e : Endpoint, checkKey e ∉ s.hostList) (verdict : String) :
    ∃ s', LoopRan (partyConfig .requester) "s" (partyAddress .server) { s with localEpInfo := requesterInfo verdict }
        ((verdictTable verdict).map fun _ info => Json.string info).toList ⟨.ok (), s', []⟩ ∧
      (∀ e : Endpoint, checkKey e ∉ s'.hostList) ∧ s'.localEpInfo = requesterInfo verdict := by
  have hr : ∀ e : Endpoint, checkKey e ∉ s.hostList.insertIfNew "r" (requesterInfo verdict).dump := fun e => by
    simp [Std.ExtTreeMap.mem_insertIfNew, hkeys, (checkKey_ne (k := "r") (by decide) e).symm]
  have hs : ∀ e : Endpoint, checkKey e ∉ (s.hostList.insertIfNew "r" (requesterInfo verdict).dump).insertIfNew "s"
      (selfInfo checkServer).dump := fun e => by
    simp [Std.ExtTreeMap.mem_insertIfNew, hkeys, (checkKey_ne (k := "r") (by decide) e).symm,
      (checkKey_ne (k := "s") (by decide) e).symm]
  have own : EntryRan (partyConfig .requester) "s" (partyAddress .server) "r" (.string (requesterInfo verdict).dump)
      { s with localEpInfo := requesterInfo verdict } ⟨.ok (partyAddress .server), { s with
        hostList := s.hostList.insertIfNew "r" (requesterInfo verdict).dump
        localEpInfo := requesterInfo verdict }, []⟩ :=
    .own (readEntry_of_record (record?_requesterInfo verdict)) (hkeys _) rfl
  have server : EntryRan (partyConfig .requester) "s" (partyAddress .server) "s" (.string (selfInfo checkServer).dump)
      { s with
        hostList := s.hostList.insertIfNew "r" (requesterInfo verdict).dump
        localEpInfo := requesterInfo verdict } ⟨.ok (partyAddress .server), { s with
        hostList := (s.hostList.insertIfNew "r" (requesterInfo verdict).dump).insertIfNew "s" (selfInfo checkServer).dump
        localEpInfo := requesterInfo verdict }, []⟩ :=
    .sameIp (readEntry_of_record (record?_selfInfo checkServer)) (hr _) (by decide) rfl
  rw [verdictTable_toList]
  exact ⟨_, .cons own (.cons server .nil), hs, rfl⟩

/-- The requester takes over what an update says of it. -/
theorem requester_told {s : Server} {verdict : String} (draws : Draws) (hs : N.node .requester = some s)
    (hrecv : s.receiving = true) (hkeys : ∀ e : Endpoint, checkKey e ∉ s.hostList)
    (hfit : ((updateMsg checkServer (verdictTable verdict)).val.dump.flatMap String.utf8EncodeChar).length ≤ bufferSize)
    (hp : packetTo .requester (updateMsg checkServer (verdictTable verdict)) ∈ N.flight) :
    ∃ N' s', @NetStep _ digitsBoost _ partyConfig partyRoute N
        (hears .requester .server (updateMsg checkServer (verdictTable verdict)) draws) N' ∧
      N'.node .requester = some s' ∧ s'.receiving = true ∧ (∀ e : Endpoint, checkKey e ∉ s'.hostList) ∧
      Copy.own.verdict s' = some verdict ∧
      ∀ q ∈ N.flight, q = packetTo .requester (updateMsg checkServer (verdictTable verdict)) ∨ q ∈ N'.flight := by
  let _ := digitsBoost
  obtain ⟨s', loop, hkeys', hown⟩ := verdict_loop
    (s := arrive (wire (updateMsg checkServer (verdictTable verdict)).dump) s) (by rwa [arrive_hostList]) verdict
  have hself : ((verdictTable verdict).map fun _ info => Json.string info)["r"]? =
      some (.string (requesterInfo verdict).dump) := rfl
  have hstep : Step (partyConfig .requester) s
      ⟨.receive none (partyAddress .server) (wire (updateMsg checkServer (verdictTable verdict)).dump) draws, []⟩ s'.rearm :=
    step_of_handled draws hrecv (by decide) hfit (isMessage_update checkServer (verdictTable verdict))
      (.update (by decide) (data_updateMsg _ _) hself (by simp) loop)
  obtain ⟨N', hnet, hnode, -, hold⟩ := NetStep.of_step partyConfig partyRoute hs hp rfl hstep
  refine ⟨N', s'.rearm, hnet, by rw [hnode, Function.update_self], rfl, hkeys', ?_, hold⟩
  rw [Copy.verdict, rearm_localEpInfo, hown, filtering_requesterInfo]

/-- The update that tells the requester of its verdict arrives first. -/
theorem requester_decided : ∃ N s,
    Run (@NetStep _ digitsBoost _ partyConfig partyRoute) startNet
      [hears .server .requester (startDetect .requester) ⟨1000, "m₁", "k₁"⟩, .tick .server 1025,
        hears .requester .server (updateMsg checkServer (verdictTable "isFilter")) ⟨1026, "", ""⟩] N ∧
    N.node .requester = some s ∧ s.receiving = true ∧ (∀ e : Endpoint, checkKey e ∉ s.hostList) ∧ Copy.own.Decided s ∧
    packetTo .requester (updateMsg checkServer (verdictTable "")) ∈ N.flight := by
  let _ := digitsBoost
  obtain ⟨N₁, s₁, h₁, hnode₁, -, hleft₁, hp₁, -⟩ := startNet_detect
  obtain ⟨N₂, s₂, h₂, hnode₂, hp₂, hold₂⟩ := server_blames (by rw [hnode₁, Function.update_self])
    (hleft₁.hostList.trans detectTable_eq) hleft₁.fCkTimeMap hleft₁.tickerNum
  have hs₂ : N₂.node .requester = some (init (partyConfig .requester)) := by
    rw [hnode₂, Function.update_of_ne (by decide), hnode₁, Function.update_of_ne (by decide)]
    rfl
  obtain ⟨N₃, s₃, h₃, hs₃, hrecv₃, hkeys₃, hverdict₃, hold₃⟩ := requester_told ⟨1026, "", ""⟩ hs₂ rfl
    (by simp [init]) (by decide +kernel) hp₂
  have hp₃ : packetTo .requester (updateMsg checkServer (verdictTable "")) ∈ N₃.flight :=
    (hold₃ _ (hold₂ _ hp₁)).resolve_left verdict_packets_ne
  exact ⟨N₃, s₃, .cons h₁ (.cons h₂ (.cons h₃ (.nil _))), hs₃, hrecv₃, hkeys₃, .inr hverdict₃, hp₃⟩

/-- If the first update is lost the verdict stays. -/
theorem verdict_kept_iff_lost : ∃ N N' s, N.node .requester = some s ∧ Copy.own.Decided s ∧
    Run (Into (Into (@NetStep _ digitsBoost _ partyConfig partyRoute) (Keeps .requester .own))
      (KeepsVerdict .requester .own)) N [.lose (packetTo .requester (updateMsg checkServer (verdictTable "")))] N' := by
  let _ := digitsBoost
  obtain ⟨⟨node, flight⟩, s, -, hs, -, -, hd, hp⟩ := requester_decided
  obtain ⟨rest, rfl⟩ := Multiset.exists_cons_of_mem hp
  refine ⟨_, ⟨node, rest⟩, s, hs, hd, (verdict_kept_iff hs hd).2 (.single ⟨⟨.lose, s, hs, hd.isIn⟩, ?_⟩)⟩
  rintro event ⟨⟩

/-- If it arrives the verdict is gone. -/
theorem late_update_undoes : ∃ N s N' s',
    @Started Party digitsBoost partyConfig startNet ∧
    Run (@NetStep _ digitsBoost _ partyConfig partyRoute) startNet
      [hears .server .requester (startDetect .requester) ⟨1000, "m₁", "k₁"⟩, .tick .server 1025,
        hears .requester .server (updateMsg checkServer (verdictTable "isFilter")) ⟨1026, "", ""⟩] N ∧
    N.node .requester = some s ∧ Copy.own.Decided s ∧
    @NetStep _ digitsBoost _ partyConfig partyRoute N
      (hears .requester .server (updateMsg checkServer (verdictTable "")) ⟨1026, "", ""⟩) N' ∧
    N'.node .requester = some s' ∧ Copy.own.verdict s' = some "" := by
  let _ := digitsBoost
  obtain ⟨N, s, hrun, hs, hrecv, hkeys, hd, hp⟩ := requester_decided
  obtain ⟨N', s', h, hs', -, -, hverdict, -⟩ := requester_told ⟨1026, "", ""⟩ hs hrecv hkeys (by decide +kernel) hp
  exact ⟨N, s, N', s', startNet_started, hrun, hs, hd, h, hs', hverdict⟩

end NatServer

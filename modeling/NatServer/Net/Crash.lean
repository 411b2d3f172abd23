import NatServer.Net.Honest
import NatServer.Server.Check
/-!
# A network that keeps running

Where every delivery is careful no node of an honest network ends. The
condition is needed: behind their NATs the nodes `r` and `t` report to the
server `s`, the updates to `t` are lost, the one to `r` is not. Then `r` has
the server ask `t` for an openconnect, and `t` sends the record of itself that
it does not have.
-/

namespace NatServer

open Effect Json

section
variable {ι : Type} [Boost] {cfg : ι → Config} [DecidableEq ι] {route : Endpoint → ι → Prop}

/-- An action in which the node that takes a turn is careful. -/
def CarefulAction (cfg : ι → Config) (a : Action ι) : Prop :=
  ∀ i event, a.turn? = some (i, event) → Careful (cfg i) event

theorem NetStep.honest (htarget : ∀ i k, route (cfg i).fromCli k → (cfg k).publicFlag = true) {N N' : Network ι}
    {a : Action ι} (h : NetStep cfg route N a N') (hN : HonestNet cfg N) (ha : CarefulAction cfg a) :
    HonestNet cfg N' := by
  cases h with
  | @deliver node rest i s packet error remote draws r hs hrecv hroute hr =>
    have hrest : ∀ p ∈ rest, ∃ i j, Sent (cfg i) p.dest j ∧ p.datagram = wire j.dump := fun p hp =>
      hN.flight p (Multiset.mem_cons_of_mem hp)
    obtain ⟨s₀, hs₀, hsound⟩ := hN.nodes i
    cases hs.symm.trans hs₀
    obtain ⟨k, j, hj, hdatagram⟩ := hN.flight packet (Multiset.mem_cons_self _ _)
    rw [hdatagram] at hr
    have hc : Careful (cfg i) (.receive error remote (wire j.dump) draws) := hdatagram ▸ ha i _ rfl
    obtain ⟨s', o, hreact, hs', ho⟩ := hsound.receives hrecv hj (fun hdest => htarget k i (hdest ▸ hroute)) hc
    rw [hreact] at hr
    subst hr
    exact HonestNet.turn hN.nodes hrest hs' ho
  | lose => exact ⟨hN.nodes, fun p hp => hN.flight p (Multiset.mem_cons_of_mem hp)⟩
  | @tick node flight i s now r hs hr =>
    obtain ⟨s₀, hs₀, hsound⟩ := hN.nodes i
    cases hs.symm.trans hs₀
    obtain ⟨s', o, hp, hs', ho⟩ := hsound.passes now
    rw [show react (cfg i) (.timer now) s = ⟨.ok (), s', o⟩ from completes_threadhandle.2 hp] at hr
    subst hr
    exact HonestNet.turn hN.nodes hN.flight hs' ho

/-- In every run whose deliveries are careful, no node of a network ever ends:
no handler throws or reads past an end, and no timer pass throws. -/
theorem network_runs_on (htarget : ∀ i k, route (cfg i).fromCli k → (cfg k).publicFlag = true) {N N' : Network ι}
    {as : List (Action ι)} (hstart : Started cfg N)
    (hrun : Run (Restrict (NetStep cfg route) fun _ a => CarefulAction cfg a) N as N') :
    ∀ i, ∃ s, N'.node i = some s := by
  have hN' : HonestNet cfg N' :=
    hrun.invariant (I := HonestNet cfg) (fun hN h => h.1.honest htarget hN h.2) hstart.honest
  intro i
  obtain ⟨s, hs, -⟩ := hN'.nodes i
  exact ⟨s, hs⟩

end

/-! ## Three parties -/

inductive Party where
  | server
  | requester
  | target
  deriving DecidableEq

def partyConfig : Party → Config
  | .server => checkServer
  | .requester => sampleNode "r" "192.168.0.2" false
  | .target => sampleNode "t" "192.168.0.3" false

/-- The address a party is seen at, and under which it is reached. -/
def partyAddress : Party → Endpoint
  | .server => ⟨"10.0.0.1", 80⟩
  | .requester => ⟨"30.0.0.1", 1000⟩
  | .target => ⟨"40.0.0.1", 2000⟩

def partyRoute (e : Endpoint) (i : Party) : Prop := e = partyAddress i

theorem party_transmitted {i : Party} {msg : String} {o : List SendTo} (h : ⟨partyAddress i, msg⟩ ∈ o) :
    ⟨partyAddress i, msg⟩ ∈ @transmitted digitsBoost o := by
  have hip : isDotted (partyAddress i).ip = true := by cases i <;> decide
  exact (@mem_transmitted digitsBoost _ _).2 ⟨h, hip⟩

/-- The message `j` on its way to `i`. -/
def packetTo (i : Party) (j : Json) : Packet := ⟨partyAddress i, wire j.dump⟩

theorem packetTo_inj {i k : Party} {j j' : Json} (h : packetTo i j = packetTo k j') : j = j' :=
  Json.dump_inj (wire_inj (congrArg Packet.datagram h))

/-- The party `i` gets the message `j` from `k`. -/
def hears (i k : Party) (j : Json) (draws : Draws) : Action Party :=
  .deliver i (packetTo i j) none (partyAddress k) draws

/-- The detect a party sends at its start. -/
def startDetect (i : Party) : Json := detectMsg (partyConfig i) "80"

/-- The record the server makes of it. -/
def partyInfo (i : Party) : Json := mappedInfo (partyAddress i) (partyConfig i).localIp 80

def startNet : Network Party :=
  ⟨fun i => some (init (partyConfig i)),
    packetTo .server (startDetect .requester) ::ₘ {packetTo .server (startDetect .target)}⟩

theorem startNet_flight : startNet.flight =
    packetTo .server (startDetect .requester) ::ₘ {packetTo .server (startDetect .target)} := rfl

theorem startNet_started : @Started Party digitsBoost partyConfig startNet := by
  refine @Started.mk Party digitsBoost _ _ (fun i => rfl) fun p hp => ?_
  have hcast (i : Party) : castDigits "80" = some (partyConfig i).localPort := by cases i <;> rfl
  have hfrom (i : Party) : (partyConfig i).fromCli = partyAddress .server := by cases i <;> rfl
  rw [startNet_flight] at hp
  rcases Multiset.mem_cons.1 hp with hp | hp
  · exact ⟨.requester, "80", hcast _, hp⟩
  · exact ⟨.target, "80", hcast _, Multiset.mem_singleton.1 hp⟩

theorem partyRoute_public (i k : Party) (h : partyRoute (partyConfig i).fromCli k) :
    (partyConfig k).publicFlag = true := by
  revert h
  unfold partyRoute
  cases i <;> cases k <;> decide

theorem record?_partyInfo (i : Party) : record? (partyInfo i) = some ⟨"mapping", "", partyAddress i⟩ :=
  record?_nodeInfo ..

variable {N : Network Party}

/-- A detect handled by the server of the three. -/
theorem server_detect {i : Party} {s : Server} (draws : Draws) (hi : i ≠ .server)
    (hfit : ((startDetect i).val.dump.flatMap String.utf8EncodeChar).length ≤ bufferSize)
    (hs : N.node .server = some s) (hrecv : s.receiving = true) (hw : WfTable s.hostList) (hl : WfRecord s.localEpInfo)
    (hp : packetTo .server (startDetect i) ∈ N.flight) {table : StrMap String}
    (htable : table = registered checkServer (partyConfig i).nodeID (partyInfo i) s.hostList) :
    ∃ N' s', @NetStep _ digitsBoost _ partyConfig partyRoute N (hears .server i (startDetect i) draws) N' ∧
      N'.node = Function.update N.node .server (some s') ∧ s'.receiving = true ∧
      Left s' table (s.fCkTimeMap.insertIfNew draws.key (keyStr draws.curTime (partyAddress i) (partyConfig i).nodeID)) s ∧
      (∀ k : Party, k ≠ .server → table[(partyConfig k).nodeID]? = some (partyInfo k).dump →
        packetTo k (updateMsg checkServer table) ∈ N'.flight) ∧
      ∀ q ∈ N.flight, q = packetTo .server (startDetect i) ∨ q ∈ N'.flight := by
  let _ := digitsBoost
  have hcast : Boost.lexical_cast "80" = some 80 := rfl
  have hip : (partyAddress i).ip ≠ checkServer.localIp := by
    revert hi
    cases i <;> decide
  have hmapped : (partyAddress i).ip ≠ (partyConfig i).localIp ∨ (partyAddress i).port ≠ 80 := by
    revert hi
    cases i <;> decide
  obtain ⟨sent, target, -, -, hsent, s', hstep, hleft, hrecv'⟩ := detectMapped_step draws hrecv hw hl hip hfit
    (isMessage_detect (partyConfig i) "80") (detectData_detectMsg _ hcast) hmapped htable
  obtain ⟨N', hnet, hnode, hnew, hold⟩ := NetStep.of_step partyConfig partyRoute hs hp rfl hstep
  refine ⟨N', s', hnet, hnode, hrecv', hleft, fun k hk hinfo => ?_, hold⟩
  have hid : (partyConfig k).nodeID ≠ checkServer.nodeID := by
    revert hk
    cases k <;> decide
  exact hnew ⟨partyAddress k, (updateMsg checkServer table).dump⟩
    (party_transmitted (hsent _ _ _ hinfo hid ((textRecord_dump _).trans (record?_partyInfo k))))

/-- The server's table after the detect of the requester. -/
def detectTable : StrMap String := registered checkServer "r" (partyInfo .requester) ∅

/-- The server handles the detect of the requester. -/
theorem startNet_detect : ∃ N s,
    @NetStep _ digitsBoost _ partyConfig partyRoute startNet
      (hears .server .requester (startDetect .requester) ⟨1000, "m₁", "k₁"⟩) N ∧
    N.node = Function.update startNet.node .server (some s) ∧ s.receiving = true ∧
    Left s detectTable ((∅ : StrMap String).insertIfNew "k₁" (keyStr 1000 (partyAddress .requester) "r"))
      (init checkServer) ∧
    packetTo .requester (updateMsg checkServer detectTable) ∈ N.flight ∧
    ∀ q ∈ startNet.flight, q = packetTo .server (startDetect .requester) ∨ q ∈ N.flight := by
  obtain ⟨N, s, h, hnode, hrecv, hleft, hupdate, hflight⟩ := server_detect (N := startNet) (i := .requester)
    ⟨1000, "m₁", "k₁"⟩ (by decide) (by decide +kernel) rfl rfl WfTable.empty ⟨_, record?_selfInfo checkServer⟩
    (by rw [startNet_flight]; exact Multiset.mem_cons_self _ _) rfl
  exact ⟨N, s, h, hnode, hrecv, hleft, hupdate .requester (by decide) rfl, hflight⟩

theorem network_runs_on_startNet : ∃ N,
    Run (Restrict (@NetStep _ digitsBoost _ partyConfig partyRoute) fun _ a => @CarefulAction _ digitsBoost partyConfig a)
      startNet [hears .server .requester (startDetect .requester) ⟨1000, "m₁", "k₁"⟩] N ∧ ∀ i, ∃ s, N.node i = some s := by
  let _ := digitsBoost
  obtain ⟨N, s, h, -⟩ := startNet_detect
  have hj : IsMessage (startDetect .requester) .detect "r" := isMessage_detect _ _
  have hcareful : CarefulAction partyConfig (hears .server .requester (startDetect .requester) ⟨1000, "m₁", "k₁"⟩) := by
    rintro _ _ ⟨⟩ - j hheard
    obtain ⟨m, hm⟩ := hj.object
    obtain rfl : j = startDetect .requester := by
      rw [hm] at hheard ⊢
      exact eq_of_heard_wire hheard
    refine ⟨fun _ _ _ _ _ => ⟨by decide, by decide⟩, fun htype => ?_, fun htype => ?_⟩
    · rw [hj.type] at htype
      exact absurd (Option.some.inj htype) (by decide)
    · rw [hj.type] at htype
      exact absurd (Option.some.inj htype) (by decide)
  have hrun : Run (Restrict (NetStep partyConfig partyRoute) fun _ a => CarefulAction partyConfig a) startNet
      [hears .server .requester (startDetect .requester) ⟨1000, "m₁", "k₁"⟩] N := .single ⟨h, hcareful⟩
  exact ⟨N, hrun, network_runs_on partyRoute_public startNet_started hrun⟩

/-! ## A punch -/

/-- The server's table after both detects. -/
def punchTable : StrMap String :=
  registered checkServer "t" (partyInfo .target) (registered checkServer "r" (partyInfo .requester) ∅)

theorem punchTable_toList : (punchTable.map fun _ info => Json.string info).toList =
    [("r", .string (partyInfo .requester).dump), ("s", .string (selfInfo checkServer).dump),
      ("t", .string (partyInfo .target).dump)] := rfl

/-- The record a helpconnect for the target carries. -/
def punchBody : Json := helpBody (.string "mapping") (.string "") (partyAddress .requester)

/-- What the requester makes of the update. -/
theorem requester_loop {s : Server} (hs : s.hostList = ∅) :
    ∃ s' o, LoopRan (partyConfig .requester) "s" (partyAddress .server) { s with localEpInfo := partyInfo .requester }
      (punchTable.map fun _ info => Json.string info).toList ⟨.ok (), s', o⟩ ∧
      ⟨partyAddress .server, (dataMsg (partyConfig .requester) "proxyconnect" (partyInfo .target)).dump⟩ ∈ o := by
  have hinfo (i : Party) := readEntry_of_record (record?_partyInfo i)
  have hkey {k : String} (hk : '_' ∉ k.toList) (tar : Endpoint) : k ≠ checkKey tar := (checkKey_ne hk tar).symm
  have hempty (k : String) : k ∉ s.hostList := by simp [hs]
  have hrelay : relayOf (partyAddress .server) ((s.hostList.insertIfNew "r" (partyInfo .requester).dump).insertIfNew "s"
      (selfInfo checkServer).dump).toList = some (partyAddress .server) := by
    rw [hs, show (((∅ : StrMap String).insertIfNew "r" (partyInfo .requester).dump).insertIfNew "s"
      (selfInfo checkServer).dump).toList =
        [("r", (partyInfo .requester).dump), ("s", (selfInfo checkServer).dump)] from rfl]
    simp only [relayOf, parse_dump, Option.bind_eq_bind, Option.bind_some, isPublic_of_record (record?_partyInfo _),
      isPublic_of_record (record?_selfInfo _), epIp_of_record (record?_selfInfo _),
      epPort_of_record (record?_selfInfo _)]
    rfl
  rw [punchTable_toList]
  refine ⟨_, _, .cons (.own (hinfo .requester) (hempty _) rfl)
    (.cons (.sameIp (readEntry_of_record (record?_selfInfo _)) ?_ (by decide) rfl)
      (.cons (.punched (hinfo .target) ?_ (by decide) (by decide) (natPublic_of_record (record?_partyInfo _)) hrelay
        (isPublic_of_record (record?_partyInfo _))) .nil)), by simp⟩
  · simp [Std.ExtTreeMap.mem_insertIfNew, hs, partyConfig, sampleNode, hkey (k := "r") (by decide)]
  · simp [Std.ExtTreeMap.mem_insertIfNew, hs, partyConfig, sampleNode, hkey (k := "r") (by decide),
      hkey (k := "s") (by decide)]

/-- The requester asks the server for help with the target. -/
theorem requester_update {s : Server} (draws : Draws) (hs : N.node .requester = some s) (hrecv : s.receiving = true)
    (hhost : s.hostList = ∅) (hp : packetTo .requester (updateMsg checkServer punchTable) ∈ N.flight) :
    ∃ N' s', @NetStep _ digitsBoost _ partyConfig partyRoute N
        (hears .requester .server (updateMsg checkServer punchTable) draws) N' ∧
      N'.node = Function.update N.node .requester (some s') ∧ s'.receiving = true ∧
      packetTo .server (dataMsg (partyConfig .requester) "proxyconnect" (partyInfo .target)) ∈ N'.flight := by
  let _ := digitsBoost
  have hfit : ((updateMsg checkServer punchTable).val.dump.flatMap String.utf8EncodeChar).length ≤ bufferSize := by
    decide +kernel
  obtain ⟨s', o, loop, hproxy⟩ := requester_loop ((arrive_hostList (wire (updateMsg checkServer punchTable).dump) s).trans
    hhost)
  have hown : (punchTable.map fun _ info => Json.string info)["r"]? = some (.string (partyInfo .requester).dump) := rfl
  have hstep : Step (partyConfig .requester) s
      ⟨.receive none (partyAddress .server) (wire (updateMsg checkServer punchTable).dump) draws, o⟩ s'.rearm :=
    step_of_handled draws hrecv (by decide) hfit (isMessage_update checkServer punchTable)
      (.update (by decide) (data_updateMsg _ _) hown (by simp) loop)
  obtain ⟨N', hnet, hnode, hnew, -⟩ := NetStep.of_step partyConfig partyRoute hs hp rfl hstep
  exact ⟨N', _, hnet, hnode, rfl, hnew ⟨partyAddress .server, _⟩ (party_transmitted hproxy)⟩

/-- A party answers a message and stays as it is. -/
theorem party_answers {i k : Party} {j : Json} {t : MsgType} {s : Server} {o : List SendTo} (draws : Draws)
    (hip : (partyAddress k).ip ≠ (partyConfig i).localIp)
    (hfit : (j.val.dump.flatMap String.utf8EncodeChar).length ≤ bufferSize)
    (hj : IsMessage j t (partyConfig k).nodeID) (hs : N.node i = some s) (hrecv : s.receiving = true)
    (hp : packetTo i j ∈ N.flight)
    (h : ∀ s₁ : Server, s₁.localEpInfo = s.localEpInfo →
      @Handled digitsBoost (partyConfig i) draws (partyAddress k) (partyConfig k).nodeID j s₁ t false s₁ o) :
    ∃ N' s', @NetStep _ digitsBoost _ partyConfig partyRoute N (hears i k j draws) N' ∧
      N'.node = Function.update N.node i (some s') ∧ ∀ x ∈ @transmitted digitsBoost o, ⟨x.dest, wire x.msg⟩ ∈ N'.flight := by
  let _ := digitsBoost
  obtain ⟨s', hstep, -⟩ := step_of_left draws hrecv hip hfit hj fun s₁ hleft => ⟨s₁, h s₁ hleft.localEpInfo, hleft⟩
  obtain ⟨N', hnet, hnode, hnew, -⟩ := NetStep.of_step partyConfig partyRoute hs hp rfl hstep
  exact ⟨N', s', hnet, hnode, hnew⟩

theorem server_proxyconnect {s : Server} (draws : Draws) (hs : N.node .server = some s) (hrecv : s.receiving = true)
    (hp : packetTo .server (dataMsg (partyConfig .requester) "proxyconnect" (partyInfo .target)) ∈ N.flight) :
    ∃ N' s', @NetStep _ digitsBoost _ partyConfig partyRoute N
        (hears .server .requester (dataMsg (partyConfig .requester) "proxyconnect" (partyInfo .target)) draws) N' ∧
      N'.node = Function.update N.node .server (some s') ∧
      packetTo .target (dataMsg checkServer "helpconnect" punchBody) ∈ N'.flight := by
  let _ := digitsBoost
  have hh (s₁ : Server) : Handled checkServer draws (partyAddress .requester) "r"
      (dataMsg (partyConfig .requester) "proxyconnect" (partyInfo .target)) s₁ .proxyconnect false s₁
      [⟨partyAddress .target, (dataMsg checkServer "helpconnect" punchBody).dump⟩] :=
    .proxyconnect (data_dataMsg ..) (firstEndpoint_of_record (record?_partyInfo .target))
      (by simp [partyInfo, mappedInfo, nodeInfo]) (by simp [partyInfo, mappedInfo, nodeInfo, List.lookup_cons])
  obtain ⟨N', s', hnet, hnode, hnew⟩ := party_answers draws (by decide) (by decide +kernel)
    (isMessage_data (partyConfig .requester) .proxyconnect _) hs hrecv hp fun s₁ _ => hh s₁
  exact ⟨N', s', hnet, hnode, hnew ⟨partyAddress .target, _⟩ (party_transmitted List.mem_cons_self)⟩

theorem target_helpconnect {s : Server} (draws : Draws) (hs : N.node .target = some s) (hrecv : s.receiving = true)
    (hown : s.localEpInfo = null) (hp : packetTo .target (dataMsg checkServer "helpconnect" punchBody) ∈ N.flight) :
    ∃ N' s', @NetStep _ digitsBoost _ partyConfig partyRoute N
        (hears .target .server (dataMsg checkServer "helpconnect" punchBody) draws) N' ∧
      N'.node = Function.update N.node .target (some s') ∧
      packetTo .requester (dataMsg (partyConfig .target) "openconnect" null) ∈ N'.flight := by
  let _ := digitsBoost
  have hbody : record? punchBody = some ⟨"mapping", "", partyAddress .requester⟩ := record?_helpBody rfl rfl _
  have hh (s₁ : Server) (h : s₁.localEpInfo = s.localEpInfo) : Handled (partyConfig .target) draws
      (partyAddress .server) "s" (dataMsg checkServer "helpconnect" punchBody) s₁ .helpconnect false s₁
      (List.replicate 3 ⟨partyAddress .requester, (dataMsg (partyConfig .target) "openconnect" null).dump⟩) := by
    rw [← hown, ← h]
    exact .helpconnect (data_dataMsg ..) (firstEndpoint_of_record hbody)
  obtain ⟨N', s', hnet, hnode, hnew⟩ := party_answers draws (by decide) (by decide +kernel)
    (isMessage_data checkServer .helpconnect _) hs hrecv hp hh
  exact ⟨N', s', hnet, hnode, hnew ⟨partyAddress .requester, (dataMsg (partyConfig .target) "openconnect" null).dump⟩
    (party_transmitted (List.mem_replicate.2 ⟨by decide, rfl⟩))⟩

/-- The record that is null is read and the requester ends. -/
theorem requester_openconnect {s : Server} (draws : Draws) (hs : N.node .requester = some s) (hrecv : s.receiving = true)
    (hp : packetTo .requester (dataMsg (partyConfig .target) "openconnect" null) ∈ N.flight) :
    ∃ N', @NetStep _ digitsBoost _ partyConfig partyRoute N
        (hears .requester .target (dataMsg (partyConfig .target) "openconnect" null) draws) N' ∧
      N'.node .requester = none := by
  let _ := digitsBoost
  have hj : IsMessage (dataMsg (partyConfig .target) "openconnect" null) .openconnect "t" :=
    isMessage_data (partyConfig .target) .openconnect null
  have hheard : heard (partyConfig .requester) (partyAddress .target)
      (wire (dataMsg (partyConfig .target) "openconnect" null).dump) =
        some (dataMsg (partyConfig .target) "openconnect" null) :=
    heard_wire (by decide) (by rw [wire_dump]; decide +kernel)
  have hopen (s : Server) : openconnect (partyAddress .target) "t" (dataMsg (partyConfig .target) "openconnect" null) s =
      ⟨.error .exception, s, []⟩ := by
    rw [openconnect, data_dataMsg]
    rfl
  have he : (react (partyConfig .requester) (.receive none (partyAddress .target)
      (wire (dataMsg (partyConfig .target) "openconnect" null).dump) draws) s).result = .error .exception := by
    rw [react_heard (arrive_recvBuffer hrecv _) (.inl rfl) hheard, run_bind, handleJson_eq hj.id hj.type rfl, dispatch,
      run_bind, hopen]
  exact NetStep.of_fault partyConfig partyRoute hs hrecv hp rfl he

/-- Every node was started with the program, every detect goes to a public
node and every message was sent by the node it is seen to come from; still `r`
ends. -/
theorem null_openconnect_ends_node : ∃ N,
    @Started Party digitsBoost partyConfig startNet ∧
    (∀ i k, partyRoute (partyConfig i).fromCli k → (partyConfig k).publicFlag = true) ∧
    Run (@NetStep _ digitsBoost _ partyConfig partyRoute) startNet
      [hears .server .requester (startDetect .requester) ⟨1000, "m₁", "k₁"⟩,
        hears .server .target (startDetect .target) ⟨1001, "m₂", "k₂"⟩,
        hears .requester .server (updateMsg checkServer punchTable) ⟨1002, "", ""⟩,
        hears .server .requester (dataMsg (partyConfig .requester) "proxyconnect" (partyInfo .target)) ⟨1002, "", ""⟩,
        hears .target .server (dataMsg checkServer "helpconnect" punchBody) ⟨1002, "", ""⟩,
        hears .requester .target (dataMsg (partyConfig .target) "openconnect" null) ⟨1003, "", ""⟩] N ∧
    N.node .requester = none := by
  let _ := digitsBoost
  obtain ⟨N₁, s₁, h₁, hnode₁, hrecv₁, hleft₁, -, hflight₁⟩ := startNet_detect
  have hw₁ : WfTable s₁.hostList := by
    rw [hleft₁.hostList]
    exact WfTable.empty.registered _ _ (record?_partyInfo .requester)
  have hl₁ : WfRecord s₁.localEpInfo := by
    rw [hleft₁.localEpInfo]
    exact ⟨_, record?_selfInfo checkServer⟩
  -- the other detect is still in flight
  have hp₂ : packetTo .server (startDetect .target) ∈ N₁.flight := by
    have hp : packetTo .server (startDetect .target) ∈ startNet.flight := by
      rw [startNet_flight]
      exact Multiset.mem_cons_of_mem (Multiset.mem_singleton_self _)
    rcases hflight₁ _ hp with h | h
    · have hid := congrArg messageID (packetTo_inj h)
      rw [startDetect, startDetect, (isMessage_detect _ _).id, (isMessage_detect _ _).id] at hid
      exact absurd hid (by decide)
    · exact h
  obtain ⟨N₂, s₂, h₂, hnode₂, hrecv₂, -, hupdate, -⟩ := server_detect (N := N₁) (i := .target)
    ⟨1001, "m₂", "k₂"⟩ (by decide) (by decide +kernel) (by rw [hnode₁, Function.update_self]) hrecv₁ hw₁ hl₁ hp₂
    (show punchTable = _ by rw [hleft₁.hostList]; rfl)
  have hstart (i : Party) (hi : i ≠ .server) : N₂.node i = some (init (partyConfig i)) := by
    rw [hnode₂, Function.update_of_ne hi, hnode₁, Function.update_of_ne hi]
    rfl
  -- `r` asks the server, the server asks `t`, and `t` has no record of itself to answer with
  obtain ⟨N₃, s₃, h₃, hnode₃, hrecv₃, hp₃⟩ := requester_update ⟨1002, "", ""⟩ (hstart .requester (by decide)) rfl rfl
    (hupdate .requester (by decide) rfl)
  obtain ⟨N₄, s₄, h₄, hnode₄, hp₄⟩ := server_proxyconnect (N := N₃) ⟨1002, "", ""⟩
    (by rw [hnode₃, Function.update_of_ne (by decide), hnode₂, Function.update_self]) hrecv₂ hp₃
  obtain ⟨N₅, s₅, h₅, hnode₅, hp₅⟩ := target_helpconnect (N := N₄) ⟨1002, "", ""⟩
    (by rw [hnode₄, Function.update_of_ne (by decide), hnode₃, Function.update_of_ne (by decide),
      hstart .target (by decide)]) rfl rfl hp₄
  obtain ⟨N₆, h₆, hend⟩ := requester_openconnect (N := N₅) ⟨1003, "", ""⟩
    (by rw [hnode₅, Function.update_of_ne (by decide), hnode₄, Function.update_of_ne (by decide), hnode₃,
      Function.update_self]) hrecv₃ hp₅
  exact ⟨N₆, startNet_started, partyRoute_public,
    .cons h₁ (.cons h₂ (.cons h₃ (.cons h₄ (.cons h₅ (.cons h₆ (.nil _)))))), hend⟩

end NatServer

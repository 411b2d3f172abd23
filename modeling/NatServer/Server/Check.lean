import NatServer.Server.Table
/-!
# Filtering checks

A detect from behind a NAT has a neighbour probe the node, and stores a check
that a timer pass turns into the verdict `isFilter` where no answer came. The
answer brings back the message id of the probe, and the check is erased under
it; the check was stored under a key drawn on its own.
-/

namespace NatServer

open Effect Json

variable {cfg : Config} {now : Int} {s s' : Server} {o : List SendTo} {n key : String}

/-! ## What a pass blames a node for -/

/-- A check about `n` that has had no answer for too long. -/
def Due [Boost] (now : Int) (check n : String) : Prop :=
  ∃ c, readCheck check = some c ∧ now - c.timePoint > 20 ∧ c.hostKey = n

theorem due_iff [Boost] {check : String} {c : Check} (h : readCheck check = some c) :
    Due now check n ↔ now - c.timePoint > 20 ∧ c.hostKey = n := by
  constructor
  · rintro ⟨c', hc', hdue⟩
    cases h.symm.trans hc'
    exact hdue
  · rintro hdue
    exact ⟨c, h, hdue⟩

/-- A pass would set the entry of `n` to `isFilter` for the check under `key`. -/
def Blames [Boost] (now : Int) (s : Server) (key n : String) : Prop :=
  n ∈ s.hostList ∧ ∃ check : String, s.fCkTimeMap[key]? = some check ∧ Due now check n

/-- What the sweep wrote into an entry once stays. -/
theorem Swept.keeps [Boost] {b b' : Bool} {l : List (String × String)} (h : Swept now s b l b' s') {change : Json}
    (hk : s.hostList[n]? = some change.dump) (hfix : setFiltering "isFilter" change.dump = some change) :
    s'.hostList[n]? = some change.dump := by
  induction h with
  | nil => exact hk
  | @due s b key check rest b' s' c info change' hcheck hdue hfilter hinfo hchange hrest ih =>
    refine ih ?_
    by_cases hn : n = c.hostKey
    · subst hn
      cases hk.symm.trans hinfo
      cases hfix.symm.trans hchange
      exact StrMap.getElem?_insert_self ..
    · rw [← hk]
      exact StrMap.getElem?_insert_of_ne _ _ hn
  | dueUnknown hcheck hdue hfilter hinfo hrest ih => exact ih hk
  | young hcheck hyoung hrest ih => exact ih hk

/-- The sweep gives a node with a due check the verdict. -/
theorem Swept.blamed [Boost] {b b' : Bool} {l : List (String × String)} (h : Swept now s b l b' s')
    (hdue : ∃ p ∈ l, Due now p.2 n) {info : String} (hinfo : s.hostList[n]? = some info) :
    ∃ change, setFiltering "isFilter" info = some change ∧ s'.hostList[n]? = some change.dump := by
  induction h with
  | nil => obtain ⟨p, hp, -⟩ := hdue; cases hp
  | @due s b key check rest b' s' c info' change hcheck hnow hfilter hinfo' hchange hrest ih =>
    -- once blamed, later checks write the same verdict again
    by_cases hn : n = c.hostKey
    · subst hn
      cases hinfo.symm.trans hinfo'
      exact ⟨change, hchange, hrest.keeps (StrMap.getElem?_insert_self ..) (setFiltering_setFiltering hchange)⟩
    · simp only [List.exists_mem_cons_iff, due_iff hcheck, Ne.symm hn, and_false, false_or] at hdue
      exact ih hdue ((StrMap.getElem?_insert_of_ne _ _ hn).trans hinfo)
  | dueUnknown hcheck hnow hfilter hinfo' hrest ih =>
    simp only [List.exists_mem_cons_iff, due_iff hcheck] at hdue
    rcases hdue with ⟨-, rfl⟩ | hdue
    · cases hinfo.symm.trans hinfo'
    · exact ih hdue hinfo
  | young hcheck hyoung hrest ih =>
    simp only [List.exists_mem_cons_iff, due_iff hcheck, hyoung, false_and, false_or] at hdue
    exact ih hdue hinfo

section
variable [Boost]

/-! ## Answered checks -/

/-- A key that is drawn no more comes back no more. -/
theorem Step.key_notMem {t : Turn} (hs : Step cfg s t s') (hkey : key ∉ s.fCkTimeMap)
    (hdraw : ¬ t.event.DrawsKey key) : key ∉ s'.fCkTimeMap := by
  obtain ⟨event, sent⟩ := t
  cases event with
  | receive error remote datagram draws =>
    cases completes_receive hs.enabled hs.completes with
    | failed | ignored => exact hkey
    | @handled j n type t b s₁ _ _ hheard hn htype ht hh =>
      have h₁ : key ∉ s₁.fCkTimeMap := by
        have hne : draws.key ≠ key := hdraw
        rcases hh.checks with hsame | hnew | ⟨msgid, herase⟩
        · rw [hsame]
          exact hkey
        · rw [hnew]
          simp [Std.ExtTreeMap.mem_insertIfNew, hne, hkey]
        · rw [herase]
          simp [hkey]
      cases b <;> exact h₁
  | timer now =>
    intro hin
    obtain ⟨check, hc⟩ := StrMap.mem_iff.1 hin
    have hold := (completes_threadhandle.1 hs.completes).checks hc
    exact hkey (StrMap.mem_iff.2 ⟨_, hold⟩)

theorem key_notMem_of_run {ts : List Turn} (h : Run (Step cfg) s ts s') (hkey : key ∉ s.fCkTimeMap)
    (hdraw : ∀ t ∈ ts, ¬ t.event.DrawsKey key) : key ∉ s'.fCkTimeMap :=
  h.invariant_of_mem (I := fun s => key ∉ s.fCkTimeMap) (fun ht hk hs => hs.key_notMem hk (hdraw _ ht)) hkey

/-- A check about `n` that is answered in time: a mapped detect from `n` has a
filteringcheck sent with the message id drawn, the turns `ts` follow, and
before the check is 20 seconds old a callclientRes from `n` brings the message
id back while `n` is known. -/
structure Answered (cfg : Config) (n : String) (seen : Endpoint) (draws : Draws) (s₀ s₁ s₂ s₃ : Server)
    (ts : List Turn) : Prop where
  detect : ∃ error datagram sent j lip lport target, Step cfg s₀ ⟨.receive error seen datagram draws, sent⟩ s₁ ∧
    Event.Carries cfg .detect n j (.receive error seen datagram draws) ∧ detectData j = some (lip, lport) ∧
    (seen.ip ≠ lip ∨ seen.port ≠ lport) ∧ ⟨target, (filteringcheckMsg cfg seen draws.msgID).dump⟩ ∈ sent
  between : Run (Step cfg) s₁ ts s₂
  inTime : ∀ now sent, ⟨.timer now, sent⟩ ∈ ts → now - draws.curTime ≤ 20
  known : n ∈ s₂.hostList
  reply : ∃ event sent j, Step cfg s₂ ⟨event, sent⟩ s₃ ∧ event.Carries cfg .callclientRes n j ∧
    (j.sub "msgid").bind getString = some draws.msgID

/-- The answer erases what is stored under the message id. -/
theorem Answered.erased {seen : Endpoint} {draws : Draws} {s₀ s₁ s₂ s₃ : Server} {ts : List Turn}
    (h : Answered cfg n seen draws s₀ s₁ s₂ s₃ ts) : s₃.fCkTimeMap = s₂.fCkTimeMap.erase draws.msgID := by
  obtain ⟨event, sent, j, hstep, hc, hmsgid⟩ := h.reply
  obtain ⟨_, _, _, _, b, s', rfl, hh, rfl⟩ := completes_carried hstep.enabled hc hstep.completes
  cases hh with
  | callclientRes hip hport hinfo hchange hmsgid' hroute =>
    cases hmsgid.symm.trans hmsgid'
    rfl
  | callclientResUnknown hip hport hinfo hroute =>
    exact absurd h.known (StrMap.notMem_iff.2 hinfo)

/-- An answered check is gone for good, and nobody is blamed for it, exactly
where its key is the message id or was erased before. -/
theorem answered_check_gone_iff {seen : Endpoint} {draws : Draws} {s₀ s₁ s₂ s₃ : Server} {ts : List Turn}
    (h : Answered cfg n seen draws s₀ s₁ s₂ s₃ ts) :
    (draws.key ∉ s₃.fCkTimeMap ∧ ∀ ts' s₄ now, Run (Step cfg) s₃ ts' s₄ →
      (∀ t ∈ ts', ¬ t.event.DrawsKey draws.key) → ¬ Blames now s₄ draws.key n) ↔
    draws.key = draws.msgID ∨ draws.key ∉ s₂.fCkTimeMap := by
  have hgone : draws.key ∉ s₃.fCkTimeMap ↔ draws.key = draws.msgID ∨ draws.key ∉ s₂.fCkTimeMap := by
    rw [h.erased]
    by_cases hk : draws.key = draws.msgID
    · simp [hk]
    · simp [hk, Ne.symm hk]
  refine ⟨fun hp => hgone.1 hp.1, fun hc => ⟨hgone.2 hc, fun ts' s₄ now hrun hdraw => ?_⟩⟩
  rintro ⟨-, check, hcheck, -⟩
  exact key_notMem_of_run hrun (hgone.2 hc) hdraw (StrMap.mem_iff.2 ⟨_, hcheck⟩)

/-! ## Handlers that complete on a table of records -/

/-- The tables of `s'` where those of `s` are changed to these. -/
structure Left (s' : Server) (hostList fCkTimeMap : StrMap String) (s : Server) : Prop where
  hostList : s'.hostList = hostList
  fCkTimeMap : s'.fCkTimeMap = fCkTimeMap
  tickerNum : s'.tickerNum = s.tickerNum
  localEpInfo : s'.localEpInfo = s.localEpInfo

/-- What a branch does with the tables of a server is what the turn does. -/
theorem step_of_left (draws : Draws) {remote : Endpoint} {j : Json} {t : MsgType} {hostList fCkTimeMap : StrMap String}
    (hs : s.receiving = true) (hip : remote.ip ≠ cfg.localIp)
    (hfit : (j.val.dump.flatMap String.utf8EncodeChar).length ≤ bufferSize) (hj : IsMessage j t n)
    (h : ∀ s₁, Left s₁ s.hostList s.fCkTimeMap s →
      ∃ s', Handled cfg draws remote n j s₁ t false s' o ∧ Left s' hostList fCkTimeMap s) :
    ∃ s', Step cfg s ⟨.receive none remote (wire j.dump) draws, o⟩ s' ∧ Left s' hostList fCkTimeMap s ∧
      s'.receiving = true := by
  obtain ⟨s', hh, hleft⟩ := h (arrive (wire j.dump) s)
    ⟨arrive_hostList .., arrive_fCkTimeMap .., arrive_tickerNum .., arrive_localEpInfo ..⟩
  exact ⟨s'.rearm, step_of_handled draws hs hip hfit hj hh,
    ⟨hleft.hostList, hleft.fCkTimeMap, hleft.tickerNum, hleft.localEpInfo⟩, rfl⟩

variable {remote : Endpoint} {j : Json} {lip : String} {lport : UInt16}

theorem detectPublic_step (draws : Draws) (hs : s.receiving = true) (hw : WfTable s.hostList)
    (hip : remote.ip ≠ cfg.localIp) (hfit : (j.val.dump.flatMap String.utf8EncodeChar).length ≤ bufferSize)
    (hj : IsMessage j .detect n) (hdata : detectData j = some (lip, lport))
    (hpublic : ¬ (remote.ip ≠ lip ∨ remote.port ≠ lport)) :
    ∃ sent s', Step cfg s ⟨.receive none remote (wire j.dump) draws, sent⟩ s' ∧
      Left s' (registered cfg n (publicInfo remote) s.hostList) s.fCkTimeMap s ∧ s'.receiving = true := by
  obtain ⟨o, ho⟩ := (hw.registered cfg n (record?_nodeInfo "Nonmap" "Nonfilter" remote.ip remote.port [])).routeUpdate cfg
  refine ⟨o, step_of_left draws hs hip hfit hj ?_⟩
  rintro s₁ ⟨hhost, hcheck, hticker, hlocal⟩
  exact ⟨_, .detectPublic hdata hpublic (by rw [hhost]; exact ho), by rw [hhost], hcheck, hticker, hlocal⟩

theorem detectMapped_step (draws : Draws) (hs : s.receiving = true) (hw : WfTable s.hostList)
    (hl : WfRecord s.localEpInfo) (hip : remote.ip ≠ cfg.localIp)
    (hfit : (j.val.dump.flatMap String.utf8EncodeChar).length ≤ bufferSize)
    (hj : IsMessage j .detect n) (hdata : detectData j = some (lip, lport))
    (hmapped : remote.ip ≠ lip ∨ remote.port ≠ lport) {table : StrMap String}
    (htable : table = registered cfg n (mappedInfo remote lip lport) s.hostList) :
    ∃ sent target, probeTarget cfg table s.localEpInfo = some target ∧
      ⟨target, (filteringcheckMsg cfg remote draws.msgID).dump⟩ ∈ sent ∧
      (∀ (id info : String) r, table[id]? = some info → id ≠ cfg.nodeID → textRecord info = some r →
        ⟨r.endpoint, (updateMsg cfg table).dump⟩ ∈ sent) ∧
      ∃ s', Step cfg s ⟨.receive none remote (wire j.dump) draws, sent⟩ s' ∧
        Left s' table (s.fCkTimeMap.insertIfNew draws.key (keyStr draws.curTime remote n)) s ∧ s'.receiving = true := by
  subst htable
  have hw' := hw.registered cfg n (record?_nodeInfo "mapping" "" remote.ip remote.port [endpointInfo lip lport])
  obtain ⟨target, htarget⟩ := hw'.probeTarget cfg hl
  obtain ⟨o, ho⟩ := hw'.routeUpdate cfg
  refine ⟨⟨target, _⟩ :: o, target, htarget, List.mem_cons_self, fun id info r hinfo hid hr =>
    List.mem_cons_of_mem _ (routeUpdate_mem ho hinfo hid hr), step_of_left draws hs hip hfit hj ?_⟩
  rintro s₁ ⟨hhost, hcheck, hticker, hlocal⟩
  exact ⟨_, .detectMapped hdata hmapped (by rw [hhost, hlocal]; exact htarget) (by rw [hhost]; exact ho),
    by rw [hhost], by rw [hcheck], hticker, hlocal⟩

theorem callclientRes_step (draws : Draws) (hs : s.receiving = true) (hw : WfTable s.hostList)
    (hip : remote.ip ≠ cfg.localIp) (node : Config) (seen : Endpoint) (msgid : String)
    (hfit : ((callclientResMsg node seen msgid).val.dump.flatMap String.utf8EncodeChar).length ≤ bufferSize)
    {info : String} (hinfo : s.hostList[node.nodeID]? = some info) :
    ∃ sent change, setFiltering "Nonfilter" info = some change ∧
      ∃ s', Step cfg s ⟨.receive none remote (wire (callclientResMsg node seen msgid).dump) draws, sent⟩ s' ∧
        Left s' (s.hostList.insert node.nodeID change.dump) (s.fCkTimeMap.erase msgid) s ∧ s'.receiving = true := by
  obtain ⟨r, hr⟩ := hw _ _ hinfo
  obtain ⟨change, hchange, hcr⟩ := record?_setFiltering hr "Nonfilter"
  obtain ⟨o, ho⟩ := (hw.insert (by rwa [textRecord_dump]) node.nodeID).routeUpdate cfg
  refine ⟨o, change, hchange, step_of_left draws hs hip hfit (isMessage_callclientRes node seen msgid) ?_⟩
  rintro s₁ ⟨hhost, hcheck, hticker, hlocal⟩
  exact ⟨_, .callclientRes (ip_callclientResMsg ..) (port_callclientResMsg ..) (by rw [hhost]; exact hinfo) hchange
    (msgid_callclientResMsg ..) (by rw [hhost]; exact ho), by rw [hhost], by rw [hcheck], hticker, hlocal⟩

/-- A ticker with a record, as its sender takes it to be. -/
theorem ticker_step (draws : Draws) (hs : s.receiving = true) (hip : remote.ip ≠ cfg.localIp) (node : Config) (own : Json)
    (hnull : own.isNull = false)
    (hfit : ((tickerMsg node own).val.dump.flatMap String.utf8EncodeChar).length ≤ bufferSize) :
    ∃ sent s', Step cfg s ⟨.receive none remote (wire (tickerMsg node own).dump) draws, sent⟩ s' ∧
      s'.hostList = s.hostList.insert node.nodeID own.dump ∧ s'.fCkTimeMap = s.fCkTimeMap ∧
      s'.tickerNum = s.tickerNum.erase (tickerKey remote) ∧ s'.localEpInfo = s.localEpInfo ∧ s'.receiving = true := by
  refine ⟨_, _, step_of_handled draws hs hip hfit (isMessage_ticker node own)
    (.ticker (data_tickerMsg _ _) (msgid_tickerMsg _ _) hnull), ?_⟩
  simp only [rearm_hostList, rearm_fCkTimeMap, rearm_tickerNum, rearm_localEpInfo, rearm_receiving, arrive_hostList,
    arrive_fCkTimeMap, arrive_tickerNum, arrive_localEpInfo, and_self]

end

/-! The server `s` has `p` probe the node `n`, which answers in time. -/

def checkServer : Config := sampleNode "s" "10.0.0.1" true

def checkProbe : Config := sampleNode "p" "20.0.0.1" true

def checkNode : Config := sampleNode "n" "192.168.0.2" false

/-- The draws of the detect from `n`. -/
def checkDraws : Draws := ⟨1000, "m", "k"⟩

/-- `s` has heard of `p`. -/
theorem checkProbe_registers : ∃ sent s, @Step digitsBoost checkServer (init checkServer)
      ⟨.receive none ⟨"20.0.0.1", 80⟩ (wire (detectMsg checkProbe "80").dump) ⟨1000, "m0", "k0"⟩, sent⟩ s ∧
    s.hostList = registered checkServer "p" (publicInfo ⟨"20.0.0.1", 80⟩) ∅ ∧ s.fCkTimeMap = ∅ ∧ s.tickerNum = ∅ ∧
    WfTable s.hostList ∧ WfRecord s.localEpInfo ∧ s.receiving = true := by
  let _ := digitsBoost
  obtain ⟨sent, s, hstep, hleft, hs⟩ := detectPublic_step (s := init checkServer) ⟨1000, "m0", "k0"⟩ rfl WfTable.empty
    (by decide : (⟨"20.0.0.1", 80⟩ : Endpoint).ip ≠ checkServer.localIp) (by decide +kernel)
    (isMessage_detect checkProbe "80") (detectData_detectMsg _ rfl) (by decide)
  refine ⟨sent, s, hstep, hleft.hostList, hleft.fCkTimeMap, hleft.tickerNum, ?_, ?_, hs⟩
  · rw [hleft.hostList]
    exact WfTable.empty.registered _ _ (record?_publicInfo _)
  · rw [hleft.localEpInfo]
    exact ⟨_, record?_selfInfo checkServer⟩

theorem answered_sample : ∃ s₀ s₁ s₂ : Server,
    @Reachable digitsBoost checkServer s₀ ∧
    @Answered digitsBoost checkServer "n" ⟨"30.0.0.1", 5555⟩ checkDraws s₀ s₁ s₁ s₂ [] ∧
    s₂.fCkTimeMap = (∅ : StrMap String).insert "k" (keyStr 1000 ⟨"30.0.0.1", 5555⟩ "n") ∧ s₂.tickerNum = ∅ ∧
    WfTable s₂.hostList ∧ ∃ info, s₂.hostList["n"]? = some info := by
  let _ := digitsBoost
  have hcast : Boost.lexical_cast "80" = some 80 := rfl
  have hremote : (⟨"30.0.0.1", 5555⟩ : Endpoint).ip ≠ checkServer.localIp := by decide
  have hfit₁ : ((detectMsg checkNode "80").val.dump.flatMap String.utf8EncodeChar).length ≤ bufferSize := by
    decide +kernel
  have hfit₂ : ((callclientResMsg checkNode ⟨"20.0.0.1", 80⟩ "m").val.dump.flatMap
      String.utf8EncodeChar).length ≤ bufferSize := by decide +kernel
  have hmapped : (⟨"30.0.0.1", 5555⟩ : Endpoint).ip ≠ checkNode.localIp ∨
      (⟨"30.0.0.1", 5555⟩ : Endpoint).port ≠ 80 := by decide
  -- a public node first: the probe needs somewhere to go
  obtain ⟨o₀, s₀, hstep₀, -, hchecks₀, hnum₀, hw₀, hl₀, hs₀⟩ := checkProbe_registers
  obtain ⟨o₁, target, -, hprobe, -, s₁, hstep₁, hleft₁, hs₁⟩ := detectMapped_step checkDraws hs₀ hw₀ hl₀ hremote
    hfit₁ (isMessage_detect checkNode "80") (detectData_detectMsg _ hcast) hmapped rfl
  have hw₁ : WfTable s₁.hostList := by
    rw [hleft₁.hostList]
    exact hw₀.registered _ _ (record?_nodeInfo ..)
  have hknown : "n" ∈ s₁.hostList := by
    rw [hleft₁.hostList]
    simp [registered, checkNode, sampleNode]
  obtain ⟨info, hinfo⟩ := StrMap.mem_iff.1 hknown
  obtain ⟨o₂, change, hchange, s₂, hstep₂, hleft₂, hs₂⟩ := callclientRes_step ⟨1005, "m2", "k2"⟩ hs₁ hw₁
    hremote checkNode ⟨"20.0.0.1", 80⟩ "m" hfit₂ hinfo
  have hcheck : s₂.fCkTimeMap = (∅ : StrMap String).insert "k" (keyStr 1000 ⟨"30.0.0.1", 5555⟩ "n") := by
    rw [hleft₂.fCkTimeMap, hleft₁.fCkTimeMap, hchecks₀, StrMap.erase_of_notMem]
    · exact StrMap.insertIfNew_of_notMem _ (by simp)
    · simp [Std.ExtTreeMap.mem_insertIfNew, checkDraws]
  have hw₂ : WfTable s₂.hostList := by
    obtain ⟨r, hr⟩ := hw₁ _ _ hinfo
    obtain ⟨change', hchange', hcr⟩ := record?_setFiltering hr "Nonfilter"
    cases hchange.symm.trans hchange'
    rw [hleft₂.hostList]
    exact hw₁.insert (by rwa [textRecord_dump]) _
  refine ⟨s₀, s₁, s₂, Reachable.init.step hstep₀, ⟨⟨_, _, _, _, _, _, target, hstep₁,
    carries_wire hremote hfit₁ (isMessage_detect ..) _, detectData_detectMsg _ hcast, hmapped, hprobe⟩, .nil _, by simp,
    hknown, _, _, _, hstep₂, carries_wire hremote hfit₂ (isMessage_callclientRes ..) _, msgid_callclientResMsg ..⟩,
    hcheck, ?_, hw₂, change.dump, ?_⟩
  · rw [hleft₂.tickerNum, hleft₁.tickerNum, hnum₀]
  · rw [hleft₂.hostList]
    exact StrMap.getElem?_insert_self ..

theorem answered_check_gone_iff_sample : ∃ s₁ s₂ : Server,
    ¬ (checkDraws.key ∉ s₂.fCkTimeMap ∧ ∀ ts' s₄ now, Run (@Step digitsBoost checkServer) s₂ ts' s₄ →
      (∀ t ∈ ts', ¬ t.event.DrawsKey checkDraws.key) → ¬ @Blames digitsBoost now s₄ checkDraws.key "n") ∧
    checkDraws.key ≠ checkDraws.msgID ∧ checkDraws.key ∈ s₁.fCkTimeMap := by
  let _ := digitsBoost
  obtain ⟨s₀, s₁, s₂, -, h, hcheck, -⟩ := answered_sample
  have hkey : checkDraws.key ∈ s₂.fCkTimeMap := by simp [hcheck, checkDraws]
  have hbefore : checkDraws.key ∈ s₁.fCkTimeMap := by
    rw [h.erased] at hkey
    simpa using (Std.ExtTreeMap.mem_erase.1 hkey).2
  refine ⟨s₁, s₂, fun hgone => ?_, by decide, hbefore⟩
  rcases (answered_check_gone_iff h).1 hgone with hne | hout
  · exact absurd hne (by decide)
  · exact hout hbefore

/-- The answer came in time; 25 seconds after the detect a pass makes `n` a
filtering node all the same. -/
theorem answered_node_is_blamed : ∃ s₀ s₁ s₂ s₃ : Server, ∃ sent,
    @Reachable digitsBoost checkServer s₀ ∧
    @Answered digitsBoost checkServer "n" ⟨"30.0.0.1", 5555⟩ checkDraws s₀ s₁ s₁ s₂ [] ∧
    checkDraws.key ∈ s₂.fCkTimeMap ∧ @Blames digitsBoost 1025 s₂ checkDraws.key "n" ∧
    @Step digitsBoost checkServer s₂ ⟨.timer 1025, sent⟩ s₃ ∧
    ∃ info j, s₃.hostList["n"]? = some info ∧ parse info = some j ∧
      (j.sub "natfiltering").bind getString = some "isFilter" := by
  let _ := digitsBoost
  obtain ⟨s₀, s₁, s₂, hs₀, h, hcheck, hcount, hw, info, hinfo⟩ := answered_sample
  have hread : readCheck (keyStr 1000 ⟨"30.0.0.1", 5555⟩ "n") = some ⟨1000, "n"⟩ := by decide +kernel
  have hdue : Due 1025 (keyStr 1000 ⟨"30.0.0.1", 5555⟩ "n") "n" := ⟨_, hread, by decide, rfl⟩
  have hk : s₂.fCkTimeMap["k"]? = some (keyStr 1000 ⟨"30.0.0.1", 5555⟩ "n") := by simp [hcheck]
  have hn : "n" ∈ s₂.hostList := StrMap.mem_iff.2 ⟨_, hinfo⟩
  obtain ⟨s₃, sent, hp⟩ := passes_of_records checkServer 1025 hw fun key check hc => by
    rw [hcheck] at hc
    have hmem := StrMap.mem_iff.2 ⟨_, hc⟩
    obtain rfl : "k" = key := by simpa using hmem
    rw [StrMap.getElem?_insert_self] at hc
    cases hc
    exact ⟨⟨_, hread⟩, split_keyStr_zero ..⟩
  refine ⟨s₀, s₁, s₂, s₃, sent, hs₀, h, StrMap.mem_iff.2 ⟨_, hk⟩,
    ⟨hn, _, hk, hdue⟩, ⟨trivial, completes_threadhandle.2 hp⟩, ?_⟩
  obtain ⟨hsweep, hevict, -, -, hlist⟩ := hp
  obtain ⟨change, hchange, hswept⟩ := hsweep.blamed ⟨_, Std.ExtTreeMap.mem_toList_iff_getElem?_eq_some.2 hk, hdue⟩ hinfo
  obtain ⟨j, -, hset⟩ := Option.bind_eq_some_iff.1 hchange
  rw [hsweep.frame.tickerNum, hcount] at hevict
  refine ⟨change.dump, change, ?_, parse_dump _, by simp [sub_set hset]⟩
  rw [← hswept]
  cases hevict
  rcases completes_listMsgQueue.1 hlist with ⟨-, rfl, -⟩ | ⟨-, rfl, -⟩ <;> rfl

end NatServer

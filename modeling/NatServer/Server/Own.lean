import NatServer.Server.Check
import NatServer.Server.Silence
/-!
# The node's own entry

A node has its own record twice: in `localEpInfo`, which every update
replaces, and in the table under its own id, where the first one stays. The
timer thread removes entries by their endpoint, the node's own as well.
-/

namespace NatServer

open Effect Json

variable {cfg : Config} {s s' : Server} {t : Turn} {n : String}

/-! ## Two copies -/

/-- What the table says of the node is what the node says of itself. -/
def CopiesAgree (cfg : Config) (s : Server) : Prop :=
  ∀ info : String, s.hostList[cfg.nodeID]? = some info → parse info = some s.localEpInfo

/-- Then what a route update gives for the node is what its tickers carry. -/
theorem CopiesAgree.broadcast (h : CopiesAgree cfg s) {item : Json}
    (hitem : givenRecord (s.hostList.map fun _ info => .string info) cfg.nodeID = some item) :
    (tickerMsg cfg s.localEpInfo).sub "data" = some item := by
  rw [givenRecord_map] at hitem
  obtain ⟨info, hinfo, hparse⟩ := Option.bind_eq_some_iff.1 hitem
  rw [data_tickerMsg, ← hparse, h info hinfo]

section
variable [Boost]

/-- After an update that lists the node the copies agree exactly where the
table had no entry for the node or one with the same record. -/
theorem own_copies_agree_iff {j own : Json} {data : StrMap Json} (hs : Step cfg s t s')
    (hc : t.event.Carries cfg .update n j) (hn : n ≠ cfg.nodeID) (hdata : j.sub "data" = some (.object data))
    (hown : givenRecord data cfg.nodeID = some own) :
    CopiesAgree cfg s' ↔ ∀ info : String, s.hostList[cfg.nodeID]? = some info → parse info = some own := by
  obtain ⟨error, remote, datagram, draws, b, s₁, -, hh, rfl⟩ := completes_carried hs.enabled hc hs.completes
  obtain ⟨rfl, value, own', hself, hparse, loop⟩ := hh.update_loop hn hdata
  obtain ⟨value', hself', hparse'⟩ := Option.bind_eq_some_iff.1 hown
  cases hself.symm.trans hself'
  cases hparse.symm.trans hparse'
  have hlocal : s₁.localEpInfo = own := loop.localEpInfo
  rw [if_neg Bool.false_ne_true, CopiesAgree, rearm_hostList, rearm_localEpInfo, hlocal]
  by_cases hin : cfg.nodeID ∈ s.hostList
  · have hkeep : s₁.hostList[cfg.nodeID]? = s.hostList[cfg.nodeID]? := loop.keeps hin
    rw [hkeep]
  · -- the entry is new: it is the one the loop wrote from the update
    constructor
    · intro _ info hinfo
      rw [Std.ExtTreeMap.getElem?_eq_none hin] at hinfo
      cases hinfo
    · intro _ info hinfo
      obtain ⟨value', item, tar, hmem, hread, -, rfl⟩ := loop.own hn hin hinfo
      cases hself.symm.trans (Std.ExtTreeMap.mem_toList_iff_getElem?_eq_some.1 hmem)
      obtain ⟨item', hitem, _, -, hp⟩ := readEntry_eq_some.1 hread
      cases hp
      rw [parse_dump, ← hitem, hparse]

end

/-! The verdict on `r` changes between two updates. -/

/-- What the server tells `r` of itself. -/
def ownInfo (verdict : String) : Json := nodeInfo "mapping" verdict [endpointInfo "6.6.6.6" 3000]

def ownTable (verdict : String) : StrMap String := (∅ : StrMap String).insert "r" (ownInfo verdict).dump

theorem record?_ownInfo (verdict : String) :
    record? (ownInfo verdict) = some ⟨"mapping", verdict, ⟨"6.6.6.6", 3000⟩⟩ := record?_nodeInfo ..

theorem givenRecord_ownTable (verdict : String) :
    givenRecord ((ownTable verdict).map fun _ info => .string info) natReceiver.nodeID = some (ownInfo verdict) := by
  rw [givenRecord_map, ownTable, show natReceiver.nodeID = "r" from rfl, StrMap.getElem?_insert_self, Option.bind_some,
    parse_dump]

/-- The update comes from `b`. -/
def ownUpdate (verdict : String) : Event :=
  .receive none ⟨"5.5.5.5", 2000⟩ (wire (updateMsg natSender (ownTable verdict)).dump) ⟨0, "m", "k"⟩

theorem ownTable_loop (s : Server) (verdict : String) (hknown : checkKey ⟨"6.6.6.6", 3000⟩ ∉ s.hostList) :
    LoopRan natReceiver "b" ⟨"5.5.5.5", 2000⟩ { s with localEpInfo := ownInfo verdict }
      ((ownTable verdict).map fun _ info => Json.string info).toList
      ⟨.ok (), { s with
        hostList := s.hostList.insertIfNew "r" (ownInfo verdict).dump, localEpInfo := ownInfo verdict }, []⟩ := by
  rw [show ((ownTable verdict).map fun _ info => Json.string info).toList = [("r", .string (ownInfo verdict).dump)]
    from rfl]
  have entry : EntryRan natReceiver "b" ⟨"5.5.5.5", 2000⟩ "r" (.string (ownInfo verdict).dump)
      { s with localEpInfo := ownInfo verdict } ⟨.ok ⟨"5.5.5.5", 2000⟩, { s with
        hostList := s.hostList.insertIfNew "r" (ownInfo verdict).dump, localEpInfo := ownInfo verdict }, []⟩ :=
    .own (readEntry_of_record (record?_ownInfo verdict)) hknown rfl
  exact .cons entry .nil

theorem ownUpdate_step (verdict : String) (hs : s.receiving = true) (hknown : checkKey ⟨"6.6.6.6", 3000⟩ ∉ s.hostList)
    (hfit : ((updateMsg natSender (ownTable verdict)).val.dump.flatMap String.utf8EncodeChar).length ≤ bufferSize) :
    ∃ s', @Step digitsBoost natReceiver s ⟨ownUpdate verdict, []⟩ s' ∧ s'.receiving = true ∧
      s'.hostList = s.hostList.insertIfNew "r" (ownInfo verdict).dump ∧ s'.localEpInfo = ownInfo verdict := by
  let _ := digitsBoost
  have loop := ownTable_loop (arrive (wire (updateMsg natSender (ownTable verdict)).dump) s) verdict
    (by rwa [arrive_hostList])
  have hown : ((ownTable verdict).map fun _ info => Json.string info)["r"]? = some (.string (ownInfo verdict).dump) :=
    rfl
  refine ⟨_, step_of_handled ⟨0, "m", "k"⟩ hs (by decide) hfit (isMessage_update _ _)
    (.update (by decide) (data_updateMsg _ _) hown (by simp) loop), ?_⟩
  simp only [rearm_receiving, rearm_hostList, rearm_localEpInfo, arrive_hostList, and_self]

theorem own_copies_differ : ∃ s₁ s₂ : Server, @Reachable digitsBoost natReceiver s₁ ∧
    @Step digitsBoost natReceiver s₁ ⟨ownUpdate "Nonfilter", []⟩ s₂ ∧
    s₂.hostList["r"]? = some (ownInfo "").dump ∧ s₂.localEpInfo = ownInfo "Nonfilter" ∧ ¬ CopiesAgree natReceiver s₂ := by
  let _ := digitsBoost
  obtain ⟨s₁, h₁, hrecv₁, hhost₁, -⟩ := ownUpdate_step "" (s := init natReceiver) rfl (by simp [init])
    (by decide +kernel)
  have hknown : checkKey ⟨"6.6.6.6", 3000⟩ ∉ s₁.hostList := by
    rw [hhost₁]
    simp [Std.ExtTreeMap.mem_insertIfNew, init, (checkKey_ne (k := "r") (by decide) _).symm]
  obtain ⟨s₂, h₂, -, hhost₂, hlocal₂⟩ := ownUpdate_step "Nonfilter" hrecv₁ hknown (by decide +kernel)
  have hown : s₂.hostList["r"]? = some (ownInfo "").dump := by
    have hin : "r" ∈ s₁.hostList := by
      rw [hhost₁]
      simp
    rw [hhost₂, StrMap.insertIfNew_of_mem _ hin, hhost₁, StrMap.insertIfNew_of_notMem _ (by simp [init]),
      StrMap.getElem?_insert_self]
  refine ⟨s₁, s₂, Reachable.init.step h₁, h₂, hown, hlocal₂, fun h => ?_⟩
  have hsame := congrArg (fun j => j.bind record?) (h _ hown)
  simp [hlocal₂, record?_ownInfo] at hsame

theorem own_copies_agree_iff_first : ∃ s : Server,
    @Step digitsBoost natReceiver (init natReceiver) ⟨ownUpdate "", []⟩ s ∧ CopiesAgree natReceiver s := by
  let _ := digitsBoost
  have hfit : ((updateMsg natSender (ownTable "")).val.dump.flatMap String.utf8EncodeChar).length ≤ bufferSize := by
    decide +kernel
  obtain ⟨s, h, -⟩ := ownUpdate_step "" (s := init natReceiver) rfl (by simp [init]) hfit
  refine ⟨s, h, (own_copies_agree_iff h (carries_wire (by decide) hfit (isMessage_update _ _) _) (by decide)
    (data_updateMsg _ _) (givenRecord_ownTable "")).2 fun info hinfo => ?_⟩
  simp [init] at hinfo

/-! ## The node's own entry stays -/

section
variable [Boost]

/-- At a timer pass no counter of the own entry's endpoint has run out. -/
def SparesOwn (cfg : Config) (s : Server) (t : Turn) : Prop :=
  t.event.isTimer = true → ∀ e num, (s.hostList[cfg.nodeID]?).bind textEndpoint = some e →
    s.tickerNum[tickerKey e]? = some num → num < packageNum

theorem Step.own_entry_iff (hin : cfg.nodeID ∈ s.hostList) (hs : Step cfg s t s') :
    cfg.nodeID ∈ s'.hostList ↔ SparesOwn cfg s t := by
  obtain ⟨event, sent⟩ := t
  cases event with
  | receive error remote datagram draws =>
    have hkeep := (handling_keeps_table hs).1 _ hin
    exact ⟨fun _ htimer => absurd htimer Bool.false_ne_true, fun _ => hkeep⟩
  | timer now =>
    rw [(completes_threadhandle.1 hs.completes).mem_iff hin]
    exact ⟨fun h _ => h, fun h => h rfl⟩

/-- A run keeps the own entry throughout exactly where all its passes spare it. -/
theorem own_entry_stays_iff {ts : List Turn} (hin : cfg.nodeID ∈ s.hostList) :
    Run (Into (Step cfg) fun s => cfg.nodeID ∈ s.hostList) s ts s' ↔ Run (Restrict (Step cfg) (SparesOwn cfg)) s ts s' := by
  refine Run.into_iff ?_ hin
  intro s t s' hin hs
  exact hs.own_entry_iff hin

end

/-! The node `p` reports the endpoint of the server `s` for its own. -/

def stolenTable : StrMap String :=
  (registered checkServer "p" (publicInfo ⟨"20.0.0.1", 80⟩) ∅).insert "p" (selfInfo checkServer).dump

theorem stolenTable_toList :
    stolenTable.toList = [("p", (selfInfo checkServer).dump), ("s", (selfInfo checkServer).dump)] := rfl

theorem stolenTable_records : WfTable stolenTable :=
  (WfTable.empty.registered _ _ (record?_nodeInfo ..)).insert ((textRecord_dump _).trans (record?_selfInfo checkServer)) _

theorem stolenTable_targets : tickerTargets checkServer stolenTable.toList = some (List.replicate 1 ⟨"10.0.0.1", 80⟩) := by
  rw [stolenTable_toList]
  simp only [tickerTargets, textEndpoint_selfInfo, Option.bind_eq_bind, Option.bind_some, Option.pure_def]
  rfl

theorem stolenTable_reachable : ∃ s, @Reachable digitsBoost checkServer s ∧ s.hostList = stolenTable ∧
    s.fCkTimeMap = ∅ ∧ s.tickerNum = ∅ ∧ s.receiving = true := by
  let _ := digitsBoost
  have hcast : Boost.lexical_cast "80" = some 80 := rfl
  have hip : (⟨"20.0.0.1", 80⟩ : Endpoint).ip ≠ checkServer.localIp := by decide
  obtain ⟨o₁, s₁, hstep₁, hleft₁, hs₁⟩ := detectPublic_step (s := init checkServer) ⟨1000, "m", "k"⟩ rfl WfTable.empty hip
    (by decide +kernel) (isMessage_detect checkProbe "80") (detectData_detectMsg _ hcast) (by decide)
  obtain ⟨o₂, s₂, hstep₂, hhost₂, hchecks₂, hnum₂, -, hs₂⟩ := ticker_step ⟨1005, "m", "k"⟩ hs₁ hip checkProbe
    (selfInfo checkServer) rfl (by decide +kernel)
  refine ⟨s₂, (Reachable.init.step hstep₁).step hstep₂, ?_, ?_, ?_, hs₂⟩
  · rw [hhost₂, hleft₁.hostList]
    rfl
  · rw [hchecks₂, hleft₁.fCkTimeMap]
    rfl
  · rw [hnum₂, hleft₁.tickerNum]
    exact StrMap.erase_of_notMem (by simp [init])

theorem own_entry_stays_iff_pass : ∃ s s' sent, checkServer.nodeID ∈ s.hostList ∧
    Run (Into (@Step digitsBoost checkServer) fun s => checkServer.nodeID ∈ s.hostList) s [⟨.timer 1010, sent⟩] s' := by
  let _ := digitsBoost
  obtain ⟨s, -, hhost, hchecks, hnum, hrecv⟩ := stolenTable_reachable
  have hin : checkServer.nodeID ∈ s.hostList := by
    rw [hhost]
    decide +kernel
  have hquiet : Quiet s := ⟨by rw [hhost]; exact stolenTable_records, hchecks, fun key num h => by simp [hnum] at h, hrecv⟩
  obtain ⟨s', sent, _, hpass, -⟩ := hquiet.pass checkServer 1010
  refine ⟨s, s', sent, hin, (own_entry_stays_iff hin).2 (.single ⟨hpass.step, ?_⟩)⟩
  intro _ e num _ hget
  simp [hnum] at hget

/-- Nothing is heard from that endpoint for 60 passes; the next one removes
the server's own entry. -/
theorem own_entry_evicted : ∃ s ts s₁ sent s₂, @Reachable digitsBoost checkServer s ∧
    checkServer.nodeID ∈ s.hostList ∧ Run (@Step digitsBoost checkServer) s ts s₁ ∧ ts.length = 60 ∧
    @Step digitsBoost checkServer s₁ ⟨.timer 1010, sent⟩ s₂ ∧ checkServer.nodeID ∉ s₂.hostList := by
  let _ := digitsBoost
  obtain ⟨s, hs, hhost, hchecks, hnum, hrecv⟩ := stolenTable_reachable
  have hin : checkServer.nodeID ∈ stolenTable := by decide +kernel
  have hw : WfTable s.hostList := by
    rw [hhost]
    exact stolenTable_records
  obtain ⟨s₁, ts, hrun, hlen, -, hhost₁, hchecks₁, -, -, hkeys, hcount⟩ := silent_passes checkServer hw hchecks
    hnum hrecv (by rw [hhost]; exact stolenTable_targets) 1010 60 (by omega)
  obtain ⟨s₂, sent, hpass⟩ := passes_without_checks checkServer 1010 (by rwa [hhost₁] : WfTable s₁.hostList) hchecks₁
  refine ⟨s, ts, s₁, sent, s₂, hs, by rwa [hhost], hrun, hlen, hpass.step, fun hstay => ?_⟩
  have hin₁ : checkServer.nodeID ∈ s₁.hostList := by rwa [hhost₁, hhost]
  have hend : (s₁.hostList[checkServer.nodeID]?).bind textEndpoint = some ⟨"10.0.0.1", 80⟩ := by
    rw [hhost₁, hhost, show stolenTable[checkServer.nodeID]? = some (selfInfo checkServer).dump from rfl, Option.bind_some]
    exact textEndpoint_selfInfo checkServer
  have hnum₁ := getElem?_of_counter hcount (by decide)
  exact absurd ((hpass.mem_iff hin₁).1 hstay _ _ hend hnum₁) (by decide)

end NatServer

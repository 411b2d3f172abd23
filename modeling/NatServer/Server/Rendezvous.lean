import NatServer.Server.Record
import NatServer.Server.Sample
/-!
# A requester, a relay and a target

The requester asks the relay for the target; the relay tells the target where
it saw the requester; the target opens a connection to there, in three copies.
What the requester has in the end is what the target knows of itself, at the
address it saw the target at.
-/

namespace NatServer

open Effect Json

/-- The message gets through to the server: it fits the buffer and comes from
another ip. -/
def GetsThrough (cfg : Config) (remote : Endpoint) (j : Json) : Prop := heard cfg remote (wire j.dump) = some j

theorem getsThrough_of_fits {cfg : Config} {remote : Endpoint} {j : Json} (hip : remote.ip ≠ cfg.localIp)
    (hfit : (j.val.dump.flatMap String.utf8EncodeChar).length ≤ bufferSize) : GetsThrough cfg remote j :=
  heard_wire hip (by rwa [wire_dump])

/-- The helpconnect a relay makes of a request. -/
def helpMsg (relay : Config) (item : Json) (seen : Endpoint) : Json :=
  dataMsg relay "helpconnect" (helpBody ((item.sub "natmapping").getD null) ((item.sub "natfiltering").getD null) seen)

theorem firstEndpoint_helpBody (natmapping natfiltering : Json) (seen : Endpoint) :
    firstEndpoint (helpBody natmapping natfiltering seen) = some seen := by
  simp [firstEndpoint, helpBody, endpointInfo, epIp, epPort, endpoint0, List.lookup_cons]

section
variable [Boost] {cfg : Config} {s s' : Server} {remote : Endpoint} {error : Option ErrorCode} {draws : Draws}

/-- The relay passes the request on to the target, with the address it saw the
requester at. -/
theorem proxyconnect_step (requester : Config) {item : Json} {tar : Endpoint} (hs : s.receiving = true)
    (he : error = none ∨ error = some .message_size)
    (hthrough : GetsThrough cfg remote (dataMsg requester "proxyconnect" item)) (htar : firstEndpoint item = some tar) :
    ∃ s', Step cfg s ⟨.receive error remote (wire (dataMsg requester "proxyconnect" item).dump) draws,
        [⟨tar, (helpMsg cfg item remote).dump⟩]⟩ s' ∧ s'.hostList = s.hostList := by
  obtain ⟨ip, hip, -⟩ := firstEndpoint_eq_some.1 htar
  obtain ⟨x, hx, -⟩ := Option.bind_eq_some_iff.1 hip
  obtain ⟨y, hy, -⟩ := Option.bind_eq_some_iff.1 hx
  obtain ⟨natmapping, hmapping⟩ := sub_of_sub hy "natmapping"
  obtain ⟨natfiltering, hfiltering⟩ := sub_of_sub hy "natfiltering"
  rw [helpMsg, hmapping, hfiltering, Option.getD_some, Option.getD_some]
  refine ⟨_, step_of_heard hs he hthrough (isMessage_data requester .proxyconnect item)
    (.proxyconnect (data_dataMsg ..) htar hmapping hfiltering), ?_⟩
  rw [rearm_hostList, arrive_hostList]

/-- The target opens a connection to the address it is given. -/
theorem helpconnect_step (relay : Config) {body : Json} {tar : Endpoint} (hs : s.receiving = true)
    (he : error = none ∨ error = some .message_size)
    (hthrough : GetsThrough cfg remote (dataMsg relay "helpconnect" body)) (htar : firstEndpoint body = some tar) :
    ∃ s', Step cfg s ⟨.receive error remote (wire (dataMsg relay "helpconnect" body).dump) draws,
        List.replicate 3 ⟨tar, (dataMsg cfg "openconnect" s.localEpInfo).dump⟩⟩ s' ∧
      s'.hostList = s.hostList := by
  have h : Handled cfg draws remote relay.nodeID (dataMsg relay "helpconnect" body)
      (arrive (wire (dataMsg relay "helpconnect" body).dump) s) .helpconnect false _ _ :=
    .helpconnect (data_dataMsg ..) htar
  rw [arrive_localEpInfo] at h
  refine ⟨_, step_of_heard hs he hthrough (isMessage_data relay .helpconnect body) h, ?_⟩
  rw [rearm_hostList, arrive_hostList]

/-- An openconnect stores the record at the address it was seen at, if the
table has nothing else under the node. -/
theorem openconnect_stores (draws : Draws) (target : Config) {own change : Json} (hs : s.receiving = true)
    (he : error = none ∨ error = some .message_size)
    (hthrough : GetsThrough cfg remote (dataMsg target "openconnect" own)) (hown : WfRecord own)
    (hchange : withEndpoint0 remote own = some change)
    (hfree : ∀ info, s.hostList[target.nodeID]? = some info → info = change.dump) :
    ∃ s', Step cfg s ⟨.receive error remote (wire (dataMsg target "openconnect" own).dump) draws, []⟩ s' ∧
      s'.receiving = true ∧ s'.hostList = s.hostList.insert target.nodeID change.dump := by
  obtain ⟨r, hr⟩ := hown
  by_cases hdiff : remote = r.endpoint
  · subst hdiff
    cases (withEndpoint0_self hr).symm.trans hchange
    have hd : endpointDiffers r.endpoint own = some false := by rw [endpointDiffers_of_record hr]; simp
    refine ⟨_, step_of_heard hs he hthrough (isMessage_data target .openconnect own)
      (.openSame (data_dataMsg ..) hd), rfl, ?_⟩
    rw [rearm_hostList, arrive_hostList]
    rcases hold : s.hostList[target.nodeID]? with _ | info
    · exact StrMap.insertIfNew_of_notMem _ (StrMap.notMem_iff.2 hold)
    · have hin : target.nodeID ∈ s.hostList := StrMap.mem_iff.2 ⟨_, hold⟩
      rw [hfree info hold] at hold
      exact (StrMap.insertIfNew_of_mem _ hin).trans (StrMap.insert_of_getElem? hold).symm
  · have hd : endpointDiffers remote own = some true := by rw [endpointDiffers_of_record hr, decide_eq_true hdiff]
    refine ⟨_, step_of_heard hs he hthrough (isMessage_data target .openconnect own)
      (.openChanged (data_dataMsg ..) hd hchange), rfl, ?_⟩
    rw [rearm_hostList, arrive_hostList]

/-- So do all copies of it that arrive. -/
theorem openconnects_store (target : Config) {own change : Json} (hs : s.receiving = true)
    (hthrough : GetsThrough cfg remote (dataMsg target "openconnect" own)) (hown : WfRecord own)
    (hchange : withEndpoint0 remote own = some change) {copies : List (Option ErrorCode × Draws)} (hne : copies ≠ [])
    (he : ∀ c ∈ copies, c.1 = none ∨ c.1 = some .message_size)
    (hfree : ∀ info, s.hostList[target.nodeID]? = some info → info = change.dump) :
    ∃ s', Run (Step cfg) s
        (copies.map fun c => ⟨.receive c.1 remote (wire (dataMsg target "openconnect" own).dump) c.2, []⟩) s' ∧
      s'.hostList = s.hostList.insert target.nodeID change.dump := by
  induction copies generalizing s with
  | nil => exact absurd rfl hne
  | cons c copies ih =>
    obtain ⟨s₁, hstep, hs₁, hhost₁⟩ := openconnect_stores c.2 target hs (he c List.mem_cons_self) hthrough hown
      hchange hfree
    rcases copies with _ | ⟨c', copies⟩
    · exact ⟨s₁, .single hstep, hhost₁⟩
    · obtain ⟨s', hrun, hhost⟩ := ih hs₁ (by simp) (fun c hc => he c (List.mem_cons_of_mem _ hc)) fun info hinfo => by
        rw [hhost₁, StrMap.getElem?_insert_self] at hinfo
        exact (Option.some.inj hinfo).symm
      exact ⟨s', .cons hstep hrun, by rw [hhost, hhost₁, StrMap.insert_insert]⟩

/-- The relay sends one helpconnect, to the target; the target three
openconnects, to where the relay saw the requester; and whichever of these
arrive, the requester's table has under the target's id the target's record,
at the address the requester saw the target at. -/
theorem rendezvous (draws draws' : Draws) {requester relay target : Config} {r h t : Server}
    {atRelay atTarget atRequester tar : Endpoint} {item : Json} {rec : Record} {error error' : Option ErrorCode}
    {copies : List (Option ErrorCode × Draws)}
    (hr : r.receiving = true) (hh : h.receiving = true) (ht : t.receiving = true) (htar : firstEndpoint item = some tar)
    (hown : record? t.localEpInfo = some rec) (hnew : target.nodeID ∉ r.hostList)
    (he : error = none ∨ error = some .message_size) (he' : error' = none ∨ error' = some .message_size)
    (hcopies : ∀ c ∈ copies, c.1 = none ∨ c.1 = some .message_size) (hne : copies ≠ [])
    (hask : GetsThrough relay atRelay (dataMsg requester "proxyconnect" item))
    (hhelp : GetsThrough target atTarget (helpMsg relay item atRelay))
    (hopen : GetsThrough requester atRequester (dataMsg target "openconnect" t.localEpInfo)) :
    ∃ h' t' r' change,
      Step relay h ⟨.receive error atRelay (wire (dataMsg requester "proxyconnect" item).dump) draws,
        [⟨tar, (helpMsg relay item atRelay).dump⟩]⟩ h' ∧
      Step target t ⟨.receive error' atTarget (wire (helpMsg relay item atRelay).dump) draws',
        List.replicate 3 ⟨atRelay, (dataMsg target "openconnect" t.localEpInfo).dump⟩⟩ t' ∧
      Run (Step requester) r (copies.map fun c =>
        ⟨.receive c.1 atRequester (wire (dataMsg target "openconnect" t.localEpInfo).dump) c.2, []⟩) r' ∧
      h'.hostList = h.hostList ∧ t'.hostList = t.hostList ∧ withEndpoint0 atRequester t.localEpInfo = some change ∧
      record? change = some { rec with endpoint := atRequester } ∧ r'.hostList = r.hostList.insert target.nodeID change.dump := by
  obtain ⟨change, hchange, hrecord⟩ := withEndpoint0_of_record hown atRequester
  obtain ⟨h', hstepRelay, hhostRelay⟩ := proxyconnect_step requester hh he hask htar
  obtain ⟨t', hstepTarget, hhostTarget⟩ := helpconnect_step relay ht he' hhelp (firstEndpoint_helpBody ..)
  -- the first copy stores the entry, the others store it again
  obtain ⟨r', hrun, hhost⟩ := openconnects_store target hr hopen ⟨rec, hown⟩ hchange hne hcopies fun info hinfo => by
    rw [Std.ExtTreeMap.getElem?_eq_none hnew] at hinfo
    cases hinfo
  exact ⟨h', t', r', change, hstepRelay, hstepTarget, hrun, hhostRelay, hhostTarget, hchange, hrecord, hhost⟩

end

/-! The public server has `t` open a connection to `r`; one of the copies is lost. -/

def meetRequester : Config := sampleNode "r" "192.168.0.2" false

def meetTarget : Config := sampleNode "t" "192.168.0.3" false

def meetRelay : Config := sampleNode "s" "10.0.0.1" true

/-- What the relay and the target have for the target. -/
def meetInfo : Json := sampleMapped ⟨"40.0.0.1", 2000⟩

theorem rendezvous_two_copies : ∃ (r' : Server) (change : Json),
    Run (@Step digitsBoost meetRequester) (init meetRequester)
      (List.replicate 2 ⟨.receive none ⟨"40.0.0.1", 7000⟩ (wire (dataMsg meetTarget "openconnect" meetInfo).dump)
        ⟨0, "m", "k"⟩, []⟩) r' ∧
    withEndpoint0 ⟨"40.0.0.1", 7000⟩ meetInfo = some change ∧
    record? change = some ⟨"mapping", "", ⟨"40.0.0.1", 7000⟩⟩ ∧
    r'.hostList = (∅ : StrMap String).insert "t" change.dump := by
  let _ := digitsBoost
  have hrec : record? meetInfo = some ⟨"mapping", "", ⟨"40.0.0.1", 2000⟩⟩ := record?_nodeInfo ..
  have hask : GetsThrough meetRelay ⟨"30.0.0.1", 1000⟩ (dataMsg meetRequester "proxyconnect" meetInfo) :=
    getsThrough_of_fits (by decide) (by decide +kernel)
  have hhelp : GetsThrough meetTarget ⟨"10.0.0.1", 80⟩ (helpMsg meetRelay meetInfo ⟨"30.0.0.1", 1000⟩) :=
    getsThrough_of_fits (by decide) (by decide +kernel)
  have hopen : GetsThrough meetRequester ⟨"40.0.0.1", 7000⟩ (dataMsg meetTarget "openconnect" meetInfo) :=
    getsThrough_of_fits (by decide) (by decide +kernel)
  have hcopies : ∀ c ∈ List.replicate 2 ((none : Option ErrorCode), (⟨0, "m", "k"⟩ : Draws)),
      c.1 = none ∨ c.1 = some .message_size := by simp
  obtain ⟨_, _, r', change, -, -, hrun, -, -, hchange, hrecord, hhost⟩ := rendezvous ⟨0, "m", "k"⟩ ⟨0, "m", "k"⟩
    (r := init meetRequester) (h := init meetRelay) (t := { init meetTarget with localEpInfo := meetInfo }) rfl rfl rfl
    (firstEndpoint_of_record hrec) hrec (by simp [init]) (.inl rfl) (.inl rfl) hcopies (by simp) hask hhelp hopen
  exact ⟨r', change, hrun, hchange, hrecord, hhost⟩

end NatServer

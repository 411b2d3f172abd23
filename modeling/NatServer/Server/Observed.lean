import NatServer.Server.Check
import NatServer.Server.Silence
/-!
# Observed endpoints

A node is seen at an endpoint that its NAT chose and that it cannot know. A
detect and an openconnect bring the observed endpoint, a ticker what the node
says of itself; which of them the table has depends on what was there before.
-/

namespace NatServer

open Effect Json

variable {cfg : Config} {s s' : Server} {t : MsgType} {n k : String} {e seen : Endpoint} {j data : Json}

/-- The observed endpoint is the one that was reported. -/
theorem firstEndpoint_of_same (h : endpointDiffers seen data = some false) : firstEndpoint data = some seen := by
  unfold endpointDiffers at h
  obtain ⟨ip, hip, h⟩ := Option.bind_eq_some_iff.1 h
  split at h
  · cases h
  · next hsame =>
    obtain ⟨port, hport, h⟩ := Option.bind_eq_some_iff.1 h
    have hp : seen.port = port := by simpa using h
    exact firstEndpoint_eq_some.2 ⟨ip, hip, port, hport, by rw [← hp, ← not_not.1 hsame]⟩

theorem firstEndpoint_withEndpoint0 {change : Json} (h : withEndpoint0 e data = some change) :
    firstEndpoint change = some e := by
  obtain ⟨endpoint, first, first₁, first₂, endpoint₁, -, -, h₁, h₂, h₀, hset⟩ := withEndpoint0_eq_some h
  refine firstEndpoint_eq_some.2 ⟨e.ip, ?_, e.port, ?_, rfl⟩
  · simp [epIp, endpoint0, sub_set hset, sub0_set0 h₀, sub_set h₂, sub_set h₁]
  · simp [epPort, endpoint0, sub_set hset, sub0_set0 h₀, sub_set h₂]

theorem epIp_of_differs {b : Bool} (h : endpointDiffers seen data = some b) : ∃ ip, epIp data = some ip := by
  obtain ⟨ip, hip, -⟩ := Option.bind_eq_some_iff.1 h
  exact ⟨ip, hip⟩

theorem getElem?_registered_self (cfg : Config) (n : String) (info : Json) (table : StrMap String) :
    (registered cfg n info table)[n]? = if n ∈ table then table[n]? else some info.dump := by
  have hin : n ∈ table.insertIfNew n info.dump := by simp
  rw [registered, StrMap.getElem?_insertIfNew, if_neg (fun h => h.2 (h.1 ▸ hin)), StrMap.getElem?_insertIfNew]
  by_cases h : n ∈ table
  · rw [if_neg (fun h' => h'.2 h), if_pos h]
  · rw [if_pos ⟨rfl, h⟩, if_neg h]

section
variable [Boost]

/-! ## Registration -/

/-- An openconnect that reports another endpoint than the observed one. -/
def ReportsOther (t : MsgType) (seen : Endpoint) (j : Json) : Prop :=
  t = .openconnect ∧ (j.sub "data").bind (endpointDiffers seen) = some true

/-- After a detect or an openconnect the entry of its node has the observed
endpoint exactly where the node was not known, or known at that endpoint, or
the message is an openconnect that reports another one. -/
theorem observed_endpoint_iff {error : Option ErrorCode} {remote : Endpoint} {datagram : List UInt8} {draws : Draws}
    {sent : List SendTo} (hs : Step cfg s ⟨.receive error remote datagram draws, sent⟩ s')
    (hc : Event.Carries cfg t n j (.receive error remote datagram draws)) (ht : t = .detect ∨ t = .openconnect) :
    HasEndpoint s'.hostList n remote ↔
      n ∉ s.hostList ∨ HasEndpoint s.hostList n remote ∨ ReportsOther t remote j := by
  obtain ⟨_, _, _, _, b, s₁, he, hh, rfl⟩ := completes_carried hs.enabled hc hs.completes
  cases he
  -- a branch that keeps an entry and else stores `info`
  have hkept {info : Json} (hinfo : firstEndpoint info = some remote)
      (hget : s₁.hostList[n]? = if n ∈ s.hostList then s.hostList[n]? else some info.dump) (hnot : ¬ ReportsOther t remote j) :
      HasEndpoint s₁.hostList n remote ↔ n ∉ s.hostList ∨ HasEndpoint s.hostList n remote ∨ ReportsOther t remote j := by
    unfold HasEndpoint
    rw [hget]
    by_cases hin : n ∈ s.hostList
    · simp [hin, hnot]
    · simp [hin, textEndpoint_dump, hinfo]
  rw [rearmed_hostList]
  cases hh with
  | detectMapped hdata hmapped htarget hroute =>
    exact hkept (firstEndpoint_of_record (record?_nodeInfo ..)) (getElem?_registered_self ..) fun h => nomatch h.1
  | detectPublic hdata hpublic hroute =>
    exact hkept (firstEndpoint_of_record (record?_nodeInfo ..)) (getElem?_registered_self ..) fun h => nomatch h.1
  | @openChanged data change hdata hdiff hchange =>
    have hend : HasEndpoint (s.hostList.insert n change.dump) n remote :=
      hasEndpoint_insert.2 (firstEndpoint_withEndpoint0 hchange)
    exact ⟨fun _ => .inr (.inr ⟨rfl, by rw [hdata, Option.bind_some, hdiff]⟩), fun _ => hend⟩
  | @openSame data hdata hdiff =>
    refine hkept (firstEndpoint_of_same hdiff) ?_ fun h => ?_
    · show (s.hostList.insertIfNew n data.dump)[n]? = _
      rw [StrMap.getElem?_insertIfNew]
      by_cases hin : n ∈ s.hostList <;> simp [hin]
    · rw [ReportsOther, hdata, Option.bind_some, hdiff] at h
      cases h.2
  | _ => simp at ht

end

/-! The NAT of `n` gives it another port. -/

theorem observed_endpoint_iff_first : ∃ sent s, @Step digitsBoost checkServer (init checkServer)
      ⟨.receive none ⟨"30.0.0.1", 5555⟩ (wire (detectMsg checkNode "80").dump) ⟨1000, "m", "k"⟩, sent⟩ s ∧
    HasEndpoint s.hostList "n" ⟨"30.0.0.1", 5555⟩ := by
  let _ := digitsBoost
  have hcast : Boost.lexical_cast "80" = some 80 := rfl
  have hip : (⟨"30.0.0.1", 5555⟩ : Endpoint).ip ≠ checkServer.localIp := by decide
  have hfit : ((detectMsg checkNode "80").val.dump.flatMap String.utf8EncodeChar).length ≤ bufferSize := by
    decide +kernel
  obtain ⟨sent, -, -, -, -, s, hstep, -⟩ := detectMapped_step (s := init checkServer) ⟨1000, "m", "k"⟩ rfl WfTable.empty
    ⟨_, record?_selfInfo checkServer⟩ hip hfit (isMessage_detect checkNode "80") (detectData_detectMsg _ hcast) (by decide) rfl
  exact ⟨sent, s, hstep, (observed_endpoint_iff hstep (carries_wire hip hfit (isMessage_detect ..) _) (.inl rfl)).2
    (.inl (by simp [init]))⟩

theorem rebinding_ignored : ∃ sent₁ s₁ sent₂ s₂,
    @Step digitsBoost checkServer (init checkServer)
      ⟨.receive none ⟨"30.0.0.1", 5555⟩ (wire (detectMsg checkNode "80").dump) ⟨1000, "m", "k"⟩, sent₁⟩ s₁ ∧
    WfTable s₁.hostList ∧
    @Step digitsBoost checkServer s₁
      ⟨.receive none ⟨"30.0.0.1", 6666⟩ (wire (detectMsg checkNode "80").dump) ⟨1001, "m'", "k'"⟩, sent₂⟩ s₂ ∧
    HasEndpoint s₂.hostList "n" ⟨"30.0.0.1", 5555⟩ ∧ ¬ HasEndpoint s₂.hostList "n" ⟨"30.0.0.1", 6666⟩ := by
  let _ := digitsBoost
  have hcast : Boost.lexical_cast "80" = some 80 := rfl
  have hfit : ((detectMsg checkNode "80").val.dump.flatMap String.utf8EncodeChar).length ≤ bufferSize := by
    decide +kernel
  have hrec (e : Endpoint) : record? (mappedInfo e checkNode.localIp 80) = some ⟨"mapping", "", e⟩ := record?_nodeInfo ..
  have hself := record?_selfInfo checkServer
  obtain ⟨sent₁, -, -, -, -, s₁, hstep₁, hleft₁, hs₁⟩ := detectMapped_step (s := init checkServer) ⟨1000, "m", "k"⟩ rfl
    WfTable.empty ⟨_, hself⟩ (by decide : (⟨"30.0.0.1", 5555⟩ : Endpoint).ip ≠ checkServer.localIp) hfit
    (isMessage_detect checkNode "80") (detectData_detectMsg _ hcast) (by decide) rfl
  have hw₁ : WfTable s₁.hostList := by
    rw [hleft₁.hostList]
    exact WfTable.empty.registered _ _ (hrec _)
  have hl₁ : WfRecord s₁.localEpInfo := by
    rw [hleft₁.localEpInfo]
    exact ⟨_, hself⟩
  -- the second detect is from another port of the same node
  obtain ⟨sent₂, -, -, -, -, s₂, hstep₂, hleft₂, -⟩ := detectMapped_step ⟨1001, "m'", "k'"⟩ hs₁ hw₁ hl₁
    (by decide : (⟨"30.0.0.1", 6666⟩ : Endpoint).ip ≠ checkServer.localIp) hfit
    (isMessage_detect checkNode "80") (detectData_detectMsg _ hcast) (by decide) rfl
  have hfirst : s₁.hostList["n"]? = some (mappedInfo ⟨"30.0.0.1", 5555⟩ checkNode.localIp 80).dump := by
    rw [hleft₁.hostList]
    exact (getElem?_registered_self ..).trans (if_neg (by simp [init]))
  have hend : HasEndpoint s₂.hostList "n" ⟨"30.0.0.1", 5555⟩ := by
    have hin : "n" ∈ s₁.hostList := StrMap.mem_iff.2 ⟨_, hfirst⟩
    have hkept : s₂.hostList["n"]? = s₁.hostList["n"]? := by
      rw [hleft₂.hostList]
      exact (getElem?_registered_self ..).trans (if_pos hin)
    rw [HasEndpoint, hkept, hfirst, Option.bind_some, textEndpoint_dump, firstEndpoint_of_record (hrec _)]
  refine ⟨sent₁, s₁, sent₂, s₂, hstep₁, hw₁, hstep₂, hend, fun h => ?_⟩
  have hne : (⟨"30.0.0.1", 5555⟩ : Endpoint) = ⟨"30.0.0.1", 6666⟩ := Option.some.inj (hend.symm.trans h)
  exact absurd hne (by decide)

/-! ## Heartbeats -/

section
variable [Boost]

/-- What a message from a known node writes over the entry of the node. -/
inductive Overwrites (seen : Endpoint) (j : Json) (old : Option String) : MsgType → Json → Prop
  | openconnect {data change : Json} (hdata : j.sub "data" = some data) (hdiff : endpointDiffers seen data = some true)
      (hchange : withEndpoint0 seen data = some change) : Overwrites seen j old .openconnect change
  | callclientRes {info : String} {change : Json} (hinfo : old = some info)
      (hchange : setFiltering "Nonfilter" info = some change) : Overwrites seen j old .callclientRes change
  | ticker {data : Json} (hdata : j.sub "data" = some data) (hnull : data.isNull = false) :
      Overwrites seen j old .ticker data

/-- A handled message writes over the entry of its node, or leaves a known
entry as it is. -/
theorem Handled.known_entry {draws : Draws} {b : Bool} {o : List SendTo} (hh : Handled cfg draws seen n j s t b s' o)
    (hk : k ∈ s.hostList) :
    (k = n ∧ ∃ v, Overwrites seen j s.hostList[k]? t v ∧ s'.hostList[k]? = some v.dump) ∨
      (k = n → ∀ v, ¬ Overwrites seen j s.hostList[k]? t v) ∧ s'.hostList[k]? = s.hostList[k]? := by
  -- `addNewNode` leaves a known entry as it is
  have hnew (k' info : String) : (s.hostList.insertIfNew k' info)[k]? = s.hostList[k]? := by
    rw [StrMap.getElem?_insertIfNew, if_neg]
    rintro ⟨rfl, hnot⟩
    exact hnot hk
  have hregistered (info : Json) : (registered cfg n info s.hostList)[k]? = s.hostList[k]? := by
    rw [registered, StrMap.getElem?_insertIfNew, if_neg, hnew]
    rintro ⟨rfl, hnot⟩
    exact hnot (by simp [hk])
  cases hh with
  | detectMapped | detectPublic => exact .inr ⟨by rintro - v ⟨⟩, hregistered _⟩
  | update hn hdata hself hown loop => exact .inr ⟨by rintro - v ⟨⟩, loop.keeps hk⟩
  | openChanged hdata hdiff hchange =>
    by_cases hkn : k = n
    · subst hkn
      exact .inl ⟨rfl, _, .openconnect hdata hdiff hchange, StrMap.getElem?_insert_self ..⟩
    · exact .inr ⟨fun h => absurd h hkn, StrMap.getElem?_insert_of_ne _ _ hkn⟩
  | openSame hdata hdiff =>
    refine .inr ⟨?_, hnew _ _⟩
    intro _ v hv
    cases hv with
    | openconnect hdata' hdiff' =>
      cases hdata.symm.trans hdata'
      cases hdiff.symm.trans hdiff'
  | callclientRes hip hport hinfo hchange hmsgid hroute =>
    by_cases hkn : k = n
    · subst hkn
      exact .inl ⟨rfl, _, .callclientRes hinfo hchange, StrMap.getElem?_insert_self ..⟩
    · exact .inr ⟨fun h => absurd h hkn, StrMap.getElem?_insert_of_ne _ _ hkn⟩
  | callclientResUnknown hip hport hinfo hroute =>
    refine .inr ⟨?_, rfl⟩
    rintro rfl v hv
    cases hv with
    | callclientRes hinfo' => cases hinfo.symm.trans hinfo'
  | ticker hdata hmsgid hnull =>
    by_cases hkn : k = n
    · subst hkn
      exact .inl ⟨rfl, _, .ticker hdata hnull, StrMap.getElem?_insert_self ..⟩
    · exact .inr ⟨fun h => absurd h hkn, StrMap.getElem?_insert_of_ne _ _ hkn⟩
  | tickerEmpty hdata hmsgid =>
    refine .inr ⟨?_, rfl⟩
    intro _ v hv
    cases hv with
    | ticker hdata' hnull =>
      cases hdata.symm.trans hdata'
      cases hnull
  | _ => exact .inr ⟨by rintro - v ⟨⟩, rfl⟩

/-- Every heartbeat and openconnect of `n` comes from `e`. -/
def HeardFrom (cfg : Config) (n : String) (e : Endpoint) : Event → Prop
  | .receive error remote datagram draws => ∀ t j, Event.Carries cfg t n j (.receive error remote datagram draws) →
      t = .ticker ∨ t = .tickerRes ∨ t = .openconnect → remote = e
  | .timer _ => True

/-- A ticker of `n` reports the endpoint `e`, or nothing. -/
def Reports (cfg : Config) (n : String) (e : Endpoint) (event : Event) : Prop :=
  ∀ j data, event.Carries cfg .ticker n j → j.sub "data" = some data → data.isNull = false → firstEndpoint data = some e

/-- A step in which `n` is heard from `e` only and is not removed. -/
def Kept (cfg : Config) (n : String) (e : Endpoint) : Server → Turn → Server → Prop :=
  Into (Restrict (Step cfg) fun _ t => HeardFrom cfg n e t.event) fun s => n ∈ s.hostList

theorem Kept.endpoint_iff {t : Turn} (hs : Kept cfg n e s t s') (h : HasEndpoint s.hostList n e) :
    HasEndpoint s'.hostList n e ↔ Reports cfg n e t.event := by
  obtain ⟨⟨hstep, hfrom⟩, hin'⟩ := hs
  have hin : n ∈ s.hostList := h.mem
  obtain ⟨event, sent⟩ := t
  cases event with
  | timer now =>
    -- a pass does not touch the endpoint of what it keeps
    have hsame := ((completes_threadhandle.1 hstep.completes).endpoint hin').2
    refine ⟨fun _ j data hc => ?_, fun _ => hsame.trans h⟩
    cases hc
  | receive error remote datagram draws =>
    rcases receive_cases hstep.enabled hstep.completes with ⟨hnone, hend⟩ | ⟨t, m, j, b, s₁, hc, hh, rfl⟩
    · have hhost : s'.hostList = s.hostList := by rcases hend with rfl | rfl <;> rfl
      rw [hhost]
      exact ⟨fun _ j data hc => absurd hc (hnone _ _ _), fun _ => h⟩
    · rw [rearmed_hostList]
      have hk : n ∈ (arrive datagram s).hostList := hin
      rcases hh.known_entry hk with ⟨rfl, v, hv, hget⟩ | ⟨hnot, hsame⟩
      · have hend : HasEndpoint s₁.hostList n e ↔ firstEndpoint v = some e := by
          rw [HasEndpoint, hget, Option.bind_some, textEndpoint_dump]
        rw [hend]
        cases hv with
        | ticker hdata hnull =>
          refine ⟨fun he j' data' hc' hdata' _ => ?_, fun hreports => hreports j v hc hdata hnull⟩
          obtain ⟨-, -, rfl⟩ := hc.unique hc'
          cases hdata.symm.trans hdata'
          exact he
        | openconnect hdata hdiff hchange =>
          refine ⟨fun _ j' data hc' => ?_, fun _ => ?_⟩
          · cases (hc.unique hc').1
          · rw [firstEndpoint_withEndpoint0 hchange, hfrom .openconnect j hc (.inr (.inr rfl))]
        | callclientRes hinfo hchange =>
          have hsame := setFiltering_endpoint hchange
          rw [arrive_hostList] at hinfo
          rw [HasEndpoint, hinfo, Option.bind_some, ← hsame, textEndpoint_dump] at h
          refine ⟨fun _ j' data hc' => ?_, fun _ => h⟩
          cases (hc.unique hc').1
      · rw [HasEndpoint, hsame, arrive_hostList]
        refine ⟨fun _ j' data hc' hdata hnull => ?_, fun _ => h⟩
        obtain ⟨rfl, rfl, rfl⟩ := hc.unique hc'
        exact absurd (.ticker hdata hnull) (hnot rfl data)

/-- While `n` is heard from `e` only and stays, its entry keeps the endpoint
`e` exactly where all its tickers report it. -/
theorem learned_endpoint_stays_iff {ts : List Turn} (h : HasEndpoint s.hostList n e) :
    Run (Into (Kept cfg n e) fun s => HasEndpoint s.hostList n e) s ts s' ↔
      Run (Restrict (Kept cfg n e) fun _ t => Reports cfg n e t.event) s ts s' := by
  refine Run.into_iff ?_ h
  intro s t s' h hs
  exact hs.endpoint_iff h

/-- An openconnect that reports another endpoint than it comes from. -/
theorem openconnect_step {remote : Endpoint} (draws : Draws) (hs : s.receiving = true) (hip : remote.ip ≠ cfg.localIp)
    (node : Config) {own : Json} {r : Record} (hr : record? own = some r) (hdiff : remote ≠ r.endpoint)
    (hfit : ((dataMsg node "openconnect" own).val.dump.flatMap String.utf8EncodeChar).length ≤ bufferSize) :
    ∃ s' change, Step cfg s ⟨.receive none remote (wire (dataMsg node "openconnect" own).dump) draws, []⟩ s' ∧
      record? change = some { r with endpoint := remote } ∧ s'.hostList = s.hostList.insert node.nodeID change.dump ∧
      s'.receiving = true := by
  obtain ⟨change, hchange, hcr⟩ := withEndpoint0_of_record hr remote
  have hd : endpointDiffers remote own = some true := by rw [endpointDiffers_of_record hr, decide_eq_true hdiff]
  refine ⟨_, change, step_of_handled draws hs hip hfit (isMessage_data node .openconnect own)
    (.openChanged (data_dataMsg ..) hd hchange), hcr, ?_⟩
  simp only [rearm_hostList, rearm_receiving, arrive_hostList, and_self]

end

/-! The server has learned that `n` is at port 5555; `n` was told 4444. -/

/-- The openconnect of `n`. -/
def learnOpen : Event := .receive none ⟨"30.0.0.1", 5555⟩
  (wire (dataMsg checkNode "openconnect" (sampleMapped ⟨"30.0.0.1", 4444⟩)).dump) ⟨1000, "m", "k"⟩

theorem learnOpen_step : ∃ s, @Step digitsBoost checkServer (init checkServer) ⟨learnOpen, []⟩ s ∧ s.receiving = true ∧
    HasEndpoint s.hostList "n" ⟨"30.0.0.1", 5555⟩ := by
  let _ := digitsBoost
  obtain ⟨s, change, hstep, hchange, hhost, hrecv⟩ := openconnect_step (s := init checkServer)
    ⟨1000, "m", "k"⟩ rfl (by decide : (⟨"30.0.0.1", 5555⟩ : Endpoint).ip ≠ checkServer.localIp) checkNode
    (record?_sampleMapped ⟨"30.0.0.1", 4444⟩) (by decide) (by decide +kernel)
  refine ⟨s, hstep, hrecv, ?_⟩
  rw [hhost]
  exact hasEndpoint_insert.2 (firstEndpoint_of_record hchange)

/-- A ticker of `n` that reports `reported`. -/
def reportTicker (reported : Endpoint) : Event :=
  .receive none ⟨"30.0.0.1", 5555⟩ (wire (tickerMsg checkNode (sampleMapped reported)).dump) ⟨1005, "m", "k"⟩

theorem reportTicker_step (reported : Endpoint) (hs : s.receiving = true)
    (hfit : ((tickerMsg checkNode (sampleMapped reported)).val.dump.flatMap String.utf8EncodeChar).length ≤ bufferSize) :
    ∃ sent s', @Kept digitsBoost checkServer "n" ⟨"30.0.0.1", 5555⟩ s ⟨reportTicker reported, sent⟩ s' ∧
      HasEndpoint s'.hostList "n" reported := by
  let _ := digitsBoost
  obtain ⟨sent, s', hstep, hhost, -⟩ := ticker_step ⟨1005, "m", "k"⟩ hs
    (by decide : (⟨"30.0.0.1", 5555⟩ : Endpoint).ip ≠ checkServer.localIp) checkNode (sampleMapped reported) rfl hfit
  refine ⟨sent, s', ⟨⟨hstep, fun _ _ _ _ => rfl⟩, ?_⟩, ?_⟩
  · show "n" ∈ s'.hostList
    rw [hhost]
    exact Std.ExtTreeMap.mem_insert_self
  · rw [hhost]
    exact hasEndpoint_insert.2 (firstEndpoint_of_record (record?_sampleMapped reported))

theorem learned_endpoint_stays_iff_ticker : ∃ s s' sent, HasEndpoint s.hostList "n" ⟨"30.0.0.1", 5555⟩ ∧
    Run (Restrict (@Kept digitsBoost checkServer "n" ⟨"30.0.0.1", 5555⟩) fun _ t =>
      Reports checkServer "n" ⟨"30.0.0.1", 5555⟩ t.event) s [⟨reportTicker ⟨"30.0.0.1", 5555⟩, sent⟩] s' := by
  let _ := digitsBoost
  obtain ⟨s, -, hrecv, hend⟩ := learnOpen_step
  obtain ⟨sent, s', hstep, hend'⟩ := reportTicker_step ⟨"30.0.0.1", 5555⟩ hrecv (by decide +kernel)
  exact ⟨s, s', sent, hend, (learned_endpoint_stays_iff hend).1 (.single ⟨hstep, hend'⟩)⟩

theorem heartbeat_moves_node : ∃ s s' sent, @Step digitsBoost checkServer (init checkServer) ⟨learnOpen, []⟩ s ∧
    HasEndpoint s.hostList "n" ⟨"30.0.0.1", 5555⟩ ∧
    @Kept digitsBoost checkServer "n" ⟨"30.0.0.1", 5555⟩ s ⟨reportTicker ⟨"30.0.0.1", 4444⟩, sent⟩ s' ∧
    ¬ HasEndpoint s'.hostList "n" ⟨"30.0.0.1", 5555⟩ := by
  let _ := digitsBoost
  obtain ⟨s, hs, hrecv, hend⟩ := learnOpen_step
  obtain ⟨sent, s', hstep, hend'⟩ := reportTicker_step ⟨"30.0.0.1", 4444⟩ hrecv (by decide +kernel)
  refine ⟨s, s', sent, hs, hend, hstep, fun h => ?_⟩
  have hne : (⟨"30.0.0.1", 4444⟩ : Endpoint) = ⟨"30.0.0.1", 5555⟩ := Option.some.inj (hend'.symm.trans h)
  exact absurd hne (by decide)

end NatServer

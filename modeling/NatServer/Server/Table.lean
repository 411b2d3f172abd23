import NatServer.Server.Pass
import NatServer.Server.Update
/-!
# The table holds records

Every text in `_HostList` is written by a branch that got it from a message or
built it. What is built is a record; what comes from a message is stored with
the fields the branch happened to read. `Guarded` says which messages those
are: where they carry records, the table holds records in every run, and its
readers never throw.
-/

namespace NatServer

open Effect Json

variable {cfg : Config} {now : Int} {s s' : Server} {o : List SendTo} {n : String}

/-! ## The readers do not throw -/

theorem WfTable.findPublic {table : StrMap String} (h : WfTable table) (id : String) :
    ∃ info, findPublic id table.toList = some info := by
  obtain ⟨info, hinfo, -⟩ := findPublic_of_records h.mem_toList id
  exact ⟨info, hinfo⟩

/-- A probe has a target where the server has a record of its own. -/
theorem WfTable.probeTarget {table : StrMap String} (h : WfTable table) (cfg : Config) {localEpInfo : Json}
    (hl : WfRecord localEpInfo) : ∃ target, probeTarget cfg table localEpInfo = some target := by
  obtain ⟨info, hfind, hinfo⟩ := findPublic_of_records h.mem_toList cfg.nodeID
  obtain ⟨r, hr⟩ : ∃ r, textRecord (if info = "" then localEpInfo.dump else info) = some r := by
    split
    · obtain ⟨r, hr⟩ := hl
      exact ⟨r, by simpa using hr⟩
    · next hne =>
      obtain ⟨r, hr, -⟩ := hinfo.resolve_left hne
      exact ⟨r, hr⟩
  obtain ⟨j, hj, hjr⟩ := parse_of_textRecord hr
  exact ⟨r.endpoint, by simp [NatServer.probeTarget, hfind, hj, epIp_of_record hjr, epPort_of_record hjr]⟩

theorem textEndpoint_of_record {info : String} {r : Record} (h : textRecord info = some r) :
    textEndpoint info = some r.endpoint := by
  obtain ⟨j, hj, hr⟩ := parse_of_textRecord h
  rw [textEndpoint, hj, Option.bind_some, firstEndpoint_of_record hr]

theorem textEndpoint_publicInfo (e : Endpoint) : textEndpoint (publicInfo e).dump = some e :=
  textEndpoint_of_record ((textRecord_dump _).trans (record?_publicInfo e))

theorem textEndpoint_selfInfo (cfg : Config) : textEndpoint (selfInfo cfg).dump = some ⟨cfg.localIp, cfg.localPort⟩ :=
  textEndpoint_publicInfo _

theorem tickerTargets_of_records {l : List (String × String)} (h : ∀ p ∈ l, ∃ r, textRecord p.2 = some r)
    (cfg : Config) : ∃ es, tickerTargets cfg l = some es := by
  induction l with
  | nil => exact ⟨[], rfl⟩
  | cons p l ih =>
    obtain ⟨r, hr⟩ := h p List.mem_cons_self
    obtain ⟨es, hes⟩ := ih fun p hp => h p (List.mem_cons_of_mem _ hp)
    exact ⟨_, by simp [tickerTargets, textEndpoint_of_record hr, hes]; rfl⟩

/-- The sweep gets through checks it can read, and leaves records. -/
theorem swept_of_records [Boost] {l : List (String × String)} (h : WfTable s.hostList)
    (hl : ∀ p ∈ l, (∃ c, readCheck p.2 = some c) ∧ (Boost.split p.2)[0]? = some "filtering") (now : Int) (b : Bool) :
    ∃ b' s', Swept now s b l b' s' := by
  induction l generalizing s b with
  | nil => exact ⟨b, s, .nil⟩
  | cons p l ih =>
    obtain ⟨key, check⟩ := p
    obtain ⟨⟨c, hc⟩, hfilter⟩ := hl (key, check) List.mem_cons_self
    have hl' : ∀ p ∈ l, (∃ c, readCheck p.2 = some c) ∧ (Boost.split p.2)[0]? = some "filtering" :=
      fun p hp => hl p (List.mem_cons_of_mem _ hp)
    by_cases hdue : now - c.timePoint > 20
    · rcases hinfo : s.hostList[c.hostKey]? with _ | info
      · obtain ⟨b', s', hrest⟩ := ih (s := { s with fCkTimeMap := s.fCkTimeMap.erase key }) h hl' true
        exact ⟨b', s', .dueUnknown hc hdue hfilter hinfo hrest⟩
      · obtain ⟨r, hr⟩ := h _ _ hinfo
        obtain ⟨change, hchange, hcr⟩ := record?_setFiltering hr "isFilter"
        obtain ⟨b', s', hrest⟩ := ih (s := { s with
          hostList := s.hostList.insert c.hostKey change.dump, fCkTimeMap := s.fCkTimeMap.erase key })
          (h.insert (by simpa using hcr) _) hl' true
        exact ⟨b', s', .due hc hdue hfilter hinfo hchange hrest⟩
    · obtain ⟨b', s', hrest⟩ := ih h hl' b
      exact ⟨b', s', .young hc hdue hrest⟩

theorem Swept.wfTable [Boost] {b b' : Bool} {l : List (String × String)} (hs : Swept now s b l b' s') (h : WfTable s.hostList) :
    WfTable s'.hostList := by
  induction hs with
  | nil => exact h
  | due hcheck hdue hfilter hinfo hchange hrest ih =>
    obtain ⟨r, hr⟩ := h _ _ hinfo
    obtain ⟨change, hchange', hcr⟩ := record?_setFiltering hr "isFilter"
    cases hchange.symm.trans hchange'
    exact ih (h.insert (by simpa using hcr) _)
  | dueUnknown hcheck hdue hfilter hinfo hrest ih => exact ih h
  | young hcheck hyoung hrest ih => exact ih h

theorem evicted_of_records {l : List (String × UInt16)} (h : WfTable s.hostList) (b : Bool) :
    ∃ b' s', Evicted s b l b' s' := by
  induction l generalizing s b with
  | nil => exact ⟨b, s, .nil⟩
  | cons p l ih =>
    obtain ⟨key, num⟩ := p
    by_cases hnum : num ≥ packageNum
    · have hsub : WfTable (survivors key s.hostList) := fun k info hk => by
        rw [getElem?_survivors] at hk
        exact h k info (Option.filter_eq_some_iff.1 hk).1
      obtain ⟨b', s', hrest⟩ := ih
        (s := { s with hostList := survivors key s.hostList, tickerNum := s.tickerNum.erase key }) hsub true
      refine ⟨b', s', .silent hnum (fun p hp => ?_) hrest⟩
      obtain ⟨r, hr⟩ := h.mem_toList p hp
      rw [textEndpoint_of_record hr]
      rfl
    · obtain ⟨b', s', hrest⟩ := ih h b
      exact ⟨b', s', .heard hnum hrest⟩

theorem Evicted.wfTable {b b' : Bool} {l : List (String × UInt16)} (he : Evicted s b l b' s') (h : WfTable s.hostList) :
    WfTable s'.hostList :=
  fun k info hk => h k info (he.frame.entries k info hk)

theorem listMsgQueue_completes (cfg : Config) (s : Server) : ∃ s' o, Completes (listMsgQueue cfg) s () s' o := by
  by_cases h : alone s ≥ 10
  · exact ⟨_, _, completes_listMsgQueue.2 (.inl ⟨h, rfl, rfl⟩)⟩
  · exact ⟨_, _, completes_listMsgQueue.2 (.inr ⟨h, rfl, rfl⟩)⟩

/-- A pass gets through a table of records and checks it can read. -/
theorem passes_of_records [Boost] (cfg : Config) (now : Int) (h : WfTable s.hostList)
    (hchecks : ∀ (key check : String), s.fCkTimeMap[key]? = some check →
      (∃ c, readCheck check = some c) ∧ (Boost.split check)[0]? = some "filtering") :
    ∃ s' o, Passed cfg now s s' o := by
  obtain ⟨b₁, s₁, hsweep⟩ := swept_of_records (l := s.fCkTimeMap.toList) h
    (fun p hp => hchecks p.1 p.2 (Std.ExtTreeMap.mem_toList_iff_getElem?_eq_some.1 hp)) now false
  have h₁ := hsweep.wfTable h
  obtain ⟨b₂, s₂, hevict⟩ := evicted_of_records (l := s₁.tickerNum.toList) h₁ b₁
  have h₂ := hevict.wfTable h₁
  obtain ⟨es, hes⟩ := tickerTargets_of_records h₂.mem_toList cfg
  obtain ⟨o₁, ho₁⟩ := h₂.routeUpdate cfg
  obtain ⟨s', o₂, hlist⟩ := listMsgQueue_completes cfg { s₂ with tickerNum := countTickers es s₂.tickerNum }
  cases b₂
  · exact ⟨s', _, .intro hsweep hevict hes rfl hlist⟩
  · exact ⟨s', _, .intro hsweep hevict hes ho₁ hlist⟩

/-- With no check pending the records suffice. -/
theorem passes_without_checks [Boost] (cfg : Config) (now : Int) (h : WfTable s.hostList) (hchecks : s.fCkTimeMap = ∅) :
    ∃ s' o, Passed cfg now s s' o :=
  passes_of_records cfg now h fun key check hk => by
    simp [hchecks] at hk

theorem Passed.wfTable [Boost] (hp : Passed cfg now s s' o) (h : WfTable s.hostList) : WfTable s'.hostList := by
  obtain ⟨hsweep, hevict, -, -, hlist⟩ := hp
  have h₂ := hevict.wfTable (hsweep.wfTable h)
  rcases completes_listMsgQueue.1 hlist with ⟨-, rfl, -⟩ | ⟨-, rfl, -⟩ <;> exact h₂

/-! ## Messages that carry records -/

/-- What an update stores under the ids it is about is a record. -/
structure GuardedUpdate (cfg : Config) (seen : Endpoint) (n : String) (data : StrMap Json) (table : StrMap String) : Prop where
  own : cfg.nodeID ∉ table → ∀ value item tar, data[cfg.nodeID]? = some value → readEntry value = some (item, tar) →
    checkKey tar ∉ table → WfRecord item
  sender : n ∉ table → ∀ p, takenForSender cfg seen table data.toList = some p → WfRecord p.2

/-- What an openconnect stores is a record: the NAT fields are strings, and
where the endpoint is kept it is an endpoint. -/
structure GuardedOpen (seen : Endpoint) (n : String) (data : Json) (table : StrMap String) : Prop where
  changed : endpointDiffers seen data = some true →
    ((data.sub "natmapping").bind getString).isSome ∧ ((data.sub "natfiltering").bind getString).isSome
  same : endpointDiffers seen data = some false → n ∉ table → WfRecord data

/-- What a message makes the table hold is a record. -/
def GuardedMessage (cfg : Config) (seen : Endpoint) (n : String) (j : Json) (table : StrMap String) : MsgType → Prop
  | .update => n ≠ cfg.nodeID → ∀ data, j.sub "data" = some (.object data) → GuardedUpdate cfg seen n data table
  | .openconnect => ∀ data, j.sub "data" = some data → GuardedOpen seen n data table
  | .ticker => ∀ data, j.sub "data" = some data → data ≠ null → WfRecord data
  | _ => True

/-- An event whose message, if it has one, is guarded. -/
def Guarded (cfg : Config) (s : Server) : Event → Prop
  | .receive _ remote datagram _ => ∀ j n t, heard cfg remote datagram = some j → messageID j = some n →
      (messageType j).bind MsgType.ofText? = some t → GuardedMessage cfg remote n j s.hostList t
  | .timer _ => True

/-- A loop that completes leaves records where what it stores is one. -/
theorem LoopRan.wfTable {seen : Endpoint} {data : StrMap Json}
    (loop : LoopRan cfg n seen s data.toList ⟨.ok (), s', o⟩) (h : WfTable s.hostList) (hn : n ≠ cfg.nodeID)
    (hg : GuardedUpdate cfg seen n data s.hostList) : WfTable s'.hostList := by
  intro k info hk
  have hold (hin : k ∈ s.hostList) : ∃ r, textRecord info = some r := h k info ((loop.keeps hin).symm.trans hk)
  by_cases hkn : k = n
  · subst hkn
    by_cases hin : k ∈ s.hostList
    · exact hold hin
    · have hsender := loop.sender (.inr rfl) hn hin
      rw [show Ran.state _ = s' from rfl, hk] at hsender
      obtain ⟨p, hp, rfl⟩ := Option.map_eq_some_iff.1 hsender.symm
      obtain ⟨r, hr⟩ := hg.sender hin p hp
      exact ⟨r, by simpa using hr⟩
  · by_cases hko : k = cfg.nodeID
    · subst hko
      by_cases hin : cfg.nodeID ∈ s.hostList
      · exact hold hin
      · obtain ⟨value, item, tar, hmem, hread, hnew, rfl⟩ := loop.own hn hin hk
        obtain ⟨r, hr⟩ := hg.own hin value item tar (Std.ExtTreeMap.mem_toList_iff_getElem?_eq_some.1 hmem) hread hnew
        exact ⟨r, by simpa using hr⟩
    · exact h k info ((loop.framed.rest k hkn hko).symm.trans hk)

section
variable [Boost]

theorem Handled.wfTable {draws : Draws} {seen : Endpoint} {j : Json} {t : MsgType} {b : Bool}
    (hh : Handled cfg draws seen n j s t b s' o) (h : WfTable s.hostList)
    (hg : GuardedMessage cfg seen n j s.hostList t) : WfTable s'.hostList := by
  cases hh with
  | detectMapped => exact h.registered cfg n (record?_nodeInfo ..)
  | detectPublic => exact h.registered cfg n (record?_nodeInfo ..)
  | @update data value own _ _ hn hdata hself hown loop =>
    exact loop.wfTable h hn (hg hn data hdata)
  | @openChanged data change hdata hdiff hchange =>
    obtain ⟨hm, hf⟩ := (hg data hdata).changed hdiff
    obtain ⟨m, hm⟩ := Option.isSome_iff_exists.1 hm
    obtain ⟨f, hf⟩ := Option.isSome_iff_exists.1 hf
    exact h.insert (by simpa using record?_withEndpoint0 hchange hm hf) n
  | @openSame data hdata hdiff =>
    refine h.insertIfNew n fun hn => ?_
    obtain ⟨r, hr⟩ := (hg data hdata).same hdiff hn
    exact ⟨r, by simpa using hr⟩
  | @callclientRes _ _ info change _ _ hip hport hinfo hchange hmsgid hroute =>
    obtain ⟨r, hr⟩ := h _ _ hinfo
    obtain ⟨change', hchange', hcr⟩ := record?_setFiltering hr "Nonfilter"
    cases hchange.symm.trans hchange'
    exact h.insert (by simpa using hcr) n
  | @ticker data _ hdata hmsgid hnull =>
    obtain ⟨r, hr⟩ := hg data hdata (by rintro rfl; cases hnull)
    exact h.insert (by simpa using hr) n
  | _ => exact h

/-- Texts in the table stay records over a guarded step. -/
theorem Step.wfTable {t : Turn} (hs : Step cfg s t s') (h : WfTable s.hostList) (hg : Guarded cfg s t.event) :
    WfTable s'.hostList := by
  obtain ⟨event, sent⟩ := t
  cases event with
  | receive error remote datagram draws =>
    cases completes_receive hs.enabled hs.completes with
    | failed | ignored => exact h
    | @handled j n type t b s₁ _ _ hheard hn htype ht hh =>
      have h₁ := hh.wfTable h (hg j n t hheard hn (by rw [htype, Option.bind_some, ht]))
      cases b <;> exact h₁
  | timer now => exact (completes_threadhandle.1 hs.completes).wfTable h

/-! ## The pending checks -/

/-- Every pending check is one a detect stored. -/
def WfChecks (s : Server) : Prop :=
  ∀ key check : String, s.fCkTimeMap[key]? = some check → ∃ t e n, check = keyStr t e n

theorem Step.wfChecks {t : Turn} (hs : Step cfg s t s') (h : WfChecks s) : WfChecks s' := by
  obtain ⟨event, sent⟩ := t
  cases event with
  | receive error remote datagram draws =>
    cases completes_receive hs.enabled hs.completes with
    | failed | ignored => exact h
    | @handled j n type t b s₁ _ _ hheard hn htype ht hh =>
      have h₁ : WfChecks s₁ := by
        intro key check hc
        rcases hh.checks with hsame | hnew | ⟨msgid, herase⟩
        · rw [hsame] at hc
          exact h key check hc
        · rw [hnew, StrMap.getElem?_insertIfNew] at hc
          split at hc
          · cases hc
            exact ⟨_, _, _, rfl⟩
          · exact h key check hc
        · rw [herase] at hc
          exact h key check (getElem?_of_erase hc)
      cases b <;> exact h₁
  | timer now =>
    intro key check hc
    exact h key check ((completes_threadhandle.1 hs.completes).checks hc)

/-! ## Runs -/

/-- In every run whose messages are guarded the table holds records, so that
`updateRouteInfo` and `getPublicNode` do not throw, and a timer pass throws
only at a pending check whose time is no `int`. -/
theorem table_holds_records {ts : List Turn}
    (h : Run (Restrict (Step cfg) fun s t => Guarded cfg s t.event) (init cfg) ts s) :
    WfTable s.hostList ∧ (∃ o, routeUpdate cfg s.hostList = some o) ∧
      (∀ id, ∃ info, NatServer.findPublic id s.hostList.toList = some info) ∧
      ∀ now, (∃ s' sent, Step cfg s ⟨.timer now, sent⟩ s') ∨
        ∃ key check : String, s.fCkTimeMap[key]? = some check ∧ readCheck check = none := by
  have hw : WfTable s.hostList := by
    refine h.invariant (I := fun s => WfTable s.hostList) (fun hw hs => hs.1.wfTable hw hs.2) ?_
    exact WfTable.empty
  have hc : WfChecks s := by
    refine h.invariant (I := WfChecks) (fun hw hs => hs.1.wfChecks hw) fun key check hc => ?_
    simp [init] at hc
  refine ⟨hw, hw.routeUpdate cfg, hw.findPublic, fun now => ?_⟩
  by_cases hread : ∃ key check : String, s.fCkTimeMap[key]? = some check ∧ readCheck check = none
  · exact .inr hread
  · refine .inl ?_
    obtain ⟨s', o, hp⟩ := passes_of_records cfg now hw fun key check hk => by
      obtain ⟨t, e, n, rfl⟩ := hc key check hk
      refine ⟨?_, split_keyStr_zero t e n⟩
      exact Option.ne_none_iff_exists'.1 fun hnone => hread ⟨key, _, hk, hnone⟩
    exact ⟨s', o, trivial, completes_threadhandle.2 hp⟩

end

/-! A ticker with a record, and one with an object that is none. -/

/-- A ticker handled by the server that was just started. -/
theorem step_ticker (data : Json) (hnull : data.isNull = false)
    (hfit : ((tickerMsg natSender data).val.dump.flatMap String.utf8EncodeChar).length ≤ bufferSize) :
    ∃ sent, @Step digitsBoost natReceiver (init natReceiver)
      ⟨.receive none ⟨"5.5.5.5", 2000⟩ (wire (tickerMsg natSender data).dump) ⟨0, "m", "k"⟩, sent⟩
      { init natReceiver with hostList := (∅ : StrMap String).insert "b" data.dump } := by
  let _ := digitsBoost
  exact ⟨_, step_of_handled ⟨0, "m", "k"⟩ rfl (by decide) hfit (isMessage_ticker natSender data)
    (.ticker (data_tickerMsg _ _) (msgid_tickerMsg _ _) hnull)⟩

theorem table_holds_records_ticker :
    WfTable ((∅ : StrMap String).insert "b" (sampleMapped ⟨"5.5.5.5", 2000⟩).dump) := by
  let _ := digitsBoost
  have hfit : ((tickerMsg natSender (sampleMapped ⟨"5.5.5.5", 2000⟩)).val.dump.flatMap
      String.utf8EncodeChar).length ≤ bufferSize := by decide +kernel
  obtain ⟨sent, hstep⟩ := step_ticker _ rfl hfit
  refine (table_holds_records (.single ⟨hstep, fun j n t hj hn ht => ?_⟩)).1
  rw [heard_wire (by decide) (by rwa [wire_dump])] at hj
  cases hj
  rw [(isMessage_ticker _ _).type, Option.bind_some, MsgType.ofText?_text] at ht
  cases ht
  intro data hdata _
  cases (data_tickerMsg _ _).symm.trans hdata
  exact ⟨_, record?_sampleMapped _⟩

theorem ticker_stops_timer :
    ∃ sent s', @Step digitsBoost natReceiver (init natReceiver)
        ⟨.receive none ⟨"5.5.5.5", 2000⟩ (wire (tickerMsg natSender (.object ∅)).dump) ⟨0, "m", "k"⟩, sent⟩ s' ∧
      ¬ WfTable s'.hostList ∧
      ∀ now, (@react digitsBoost natReceiver (.timer now) s').result = .error .exception := by
  let _ := digitsBoost
  obtain ⟨sent, hstep⟩ := step_ticker (.object ∅) rfl (by decide +kernel)
  refine ⟨sent, _, hstep, fun h => ?_, fun now => ?_⟩
  · obtain ⟨r, hr⟩ := h "b" (Json.object ∅).dump (by simp)
    rw [textRecord_dump] at hr
    cases hr
  · have hep : epIp (Json.object ∅) = none := rfl
    have hlist : ((∅ : StrMap String).insert "b" (Json.object ∅).dump).toList = [("b", (Json.object ∅).dump)] := rfl
    have hsweep (s : Server) : sweep now false [] s = ⟨.ok false, s, []⟩ := rfl
    have hevict (s : Server) : evict false [] s = ⟨.ok false, s, []⟩ := rfl
    have hchecks : (init natReceiver).fCkTimeMap.toList = [] := rfl
    have hcounters : (init natReceiver).tickerNum.toList = [] := rfl
    show (threadhandle natReceiver now _).result = _
    rw [threadhandle, run_readState_bind, hchecks, run_bind, hsweep]
    dsimp only
    rw [run_readState_bind, hcounters, run_bind, hevict]
    dsimp only
    rw [run_readState_bind, hlist, run_bind]
    simp [tickAll, throwing, hep]

end NatServer

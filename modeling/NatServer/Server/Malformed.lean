import NatServer.Server.Contact
/-!
# Messages that lack a field

Text that is not JSON, and a type the handler does not know, are dropped. A
known message that lacks a field its branch reads is not: the read throws, the
handler calls `abort()`, and what the branch did before stays done. Only where
the source is the own ip is it dropped, before it is read.
-/

namespace NatServer

open Effect Json

variable {cfg : Config} {s s' : Server} {o : List SendTo} {n : String} {j : Json} {t : MsgType} {remote : Endpoint}
  {draws : Draws} {b : Bool}

/-! ## The fields a branch reads -/

/-- Some entry of an update lacks what its round reads: the text of a record
with an endpoint, and the NAT fields where the round gets to them. -/
inductive LacksEntry (cfg : Config) (table : StrMap String) (remote : Endpoint) (n : String) (data : StrMap Json) : Prop
  | unreadable {key : String} {value : Json} (hvalue : data[key]? = some value) (hread : readEntry value = none)
  | unclassified {key : String} {value item : Json} {tar see : Endpoint} {table' : StrMap String}
      (hvalue : data[key]? = some value) (hread : readEntry value = some (item, tar))
      (hwalk : walk cfg n (remote, table) (StrMap.entriesBefore data key) = some (see, table'))
      (hpursued : Pursued cfg see table' key tar) (hnat : natPublic item = none)

/-- In a loop that completes the rounds of all entries did. -/
theorem LoopRan.entry {see : Endpoint} {key : String} {value : Json} {pre post : List (String × Json)}
    (h : LoopRan cfg n see s (pre ++ (key, value) :: post) ⟨.ok (), s', o⟩) :
    ∃ see' s₁ see'' s₂ o', LoopTo cfg n see s pre see' s₁ ∧ EntryRan cfg n see' key value s₁ ⟨.ok see'', s₂, o'⟩ := by
  induction pre generalizing see s o with
  | nil =>
    cases h with
    | cons entry _ => exact ⟨see, s, _, _, _, .nil, entry⟩
  | cons p pre ih =>
    cases h with
    | cons entry loop =>
      obtain ⟨see', s₁, see'', s₂, o', loop, hentry⟩ := ih loop
      exact ⟨see', s₁, see'', s₂, o', .cons entry loop, hentry⟩

/-- A loop that completes found what it read. -/
theorem LoopRan.not_lacksEntry {own : Json} {data : StrMap Json}
    (h : LoopRan cfg n remote { s with localEpInfo := own } data.toList ⟨.ok (), s', o⟩) :
    ¬ LacksEntry cfg s.hostList remote n data := by
  have hentry {key : String} {value : Json} (hvalue : data[key]? = some value) :
      ∃ see s₁ see' s₂ o', walk cfg n (remote, s.hostList) (StrMap.entriesBefore data key) = some (see, s₁.hostList) ∧
        EntryRan cfg n see key value s₁ ⟨.ok see', s₂, o'⟩ := by
    obtain ⟨post, hl⟩ := StrMap.toList_eq_append hvalue
    rw [hl] at h
    obtain ⟨see, s₁, see', s₂, o', loop, entry⟩ := h.entry
    exact ⟨see, s₁, see', s₂, o', loop.walk.1, entry⟩
  rintro (⟨hvalue, hread⟩ | ⟨hvalue, hread, hwalk, hpursued, hnat⟩)
  · obtain ⟨see, s₁, see', s₂, o', -, entry⟩ := hentry hvalue
    cases entry <;> simp_all
  · obtain ⟨see, s₁, see', s₂, o', hwalk', entry⟩ := hentry hvalue
    cases hwalk.symm.trans hwalk'
    obtain ⟨hk, ho, hip⟩ := hpursued
    cases entry <;> simp_all

/-- What has an endpoint is an object. -/
theorem sub_of_firstEndpoint {data : Json} {tar : Endpoint} (h : firstEndpoint data = some tar) (key : String) :
    ∃ x, data.sub key = some x := by
  obtain ⟨ip, hip, -⟩ := firstEndpoint_eq_some.1 h
  obtain ⟨x, hx, -⟩ := Option.bind_eq_some_iff.1 hip
  obtain ⟨y, hy, -⟩ := Option.bind_eq_some_iff.1 hx
  exact sub_of_sub hy key

section
variable [Boost]

/-- A field that the branch reads is missing or of another type. -/
def LacksField (cfg : Config) (table : StrMap String) (remote : Endpoint) (n : String) (j : Json) : MsgType → Prop
  | .detect => detectData j = none
  | .update => n ≠ cfg.nodeID ∧ ∀ data, j.sub "data" = some (.object data) → LacksEntry cfg table remote n data
  | .proxyconnect | .helpconnect => (j.sub "data").bind firstEndpoint = none
  | .openconnect => (j.sub "data").bind (endpointDiffers remote) = none
  | .filteringcheck => (j.sub "ip").bind getString = none ∨ (j.sub "port").bind getUShort = none ∨
      (j.sub "msgid").bind getString = none
  | .callclient => (j.sub "msgid").bind getString = none ∨ (j.sub "originip").bind getString = none ∨
      (j.sub "originport").bind getUShort = none
  | .callclientRes => (j.sub "ip").bind getString = none ∨ (j.sub "port").bind getUShort = none ∨
      n ∈ table ∧ (j.sub "msgid").bind getString = none
  | .ticker | .tickerRes => (j.sub "msgid").bind getString = none

/-- A message with a `msgtype` that lacks a field the handler reads. -/
inductive Malformed (cfg : Config) (table : StrMap String) (remote : Endpoint) (j : Json) : Prop
  | type {m : StrMap Json} (hj : j = object m) (hmem : "msgtype" ∈ m) (htype : messageType j = none)
  | id {type : String} (htype : messageType j = some type) (hid : messageID j = none)
  | field {t : MsgType} {n : String} (htype : messageType j = some t.text) (hid : messageID j = some n)
      (hlacks : LacksField cfg table remote n j t)

/-- A branch that completes found what it reads. -/
theorem Handled.not_lacksField (h : Handled cfg draws remote n j s t b s' o) : ¬ LacksField cfg s.hostList remote n j t := by
  cases h with
  | detectMapped hdata | detectPublic hdata => simp [LacksField, hdata]
  | updateSelf hn => exact fun h => h.1 hn
  | update hn hdata _ _ loop => exact fun h => loop.not_lacksEntry (h.2 _ hdata)
  | proxyconnect hdata htar | helpconnect hdata htar => simp [LacksField, hdata, htar]
  | openChanged hdata hdiff | openSame hdata hdiff => simp [LacksField, hdata, hdiff]
  | filteringcheck hip hport hmsgid => simp [LacksField, hip, hport, hmsgid]
  | callclient hmsgid hip hport => simp [LacksField, hip, hport, hmsgid]
  | callclientRes hip hport _ _ hmsgid => simp [LacksField, hip, hport, hmsgid]
  | callclientResUnknown hip hport hinfo =>
    have hnot : n ∉ s.hostList := StrMap.notMem_iff.2 hinfo
    simp [LacksField, hip, hport, hnot]
  | ticker _ hmsgid | tickerEmpty _ hmsgid | tickerRes hmsgid => simp [LacksField, hmsgid]

/-- Where the table holds records, the other branches complete if they find
what they read. -/
theorem handled_iff_fields (hw : WfTable s.hostList) (hl : WfRecord s.localEpInfo) (hid : messageID j = some n)
    (ht : t ≠ .update) : (∃ b s' o, Handled cfg draws remote n j s t b s' o) ↔ ¬ LacksField cfg s.hostList remote n j t := by
  constructor
  · rintro ⟨b, s', o, h⟩
    exact h.not_lacksField
  · intro h
    cases t with
    | update => exact absurd rfl ht
    | detect =>
      obtain ⟨⟨lip, lport⟩, hdata⟩ := Option.ne_none_iff_exists'.1 h
      -- once the node is in, the table has a record to probe and to send
      by_cases hmapped : remote.ip ≠ lip ∨ remote.port ≠ lport
      · have hw' := hw.registered cfg n (record?_nodeInfo "mapping" "" remote.ip remote.port [endpointInfo lip lport])
        obtain ⟨target, htarget⟩ := hw'.probeTarget cfg hl
        obtain ⟨o, ho⟩ := hw'.routeUpdate cfg
        exact ⟨_, _, _, .detectMapped hdata hmapped htarget ho⟩
      · have hw' := hw.registered cfg n (record?_nodeInfo "Nonmap" "Nonfilter" remote.ip remote.port [])
        obtain ⟨o, ho⟩ := hw'.routeUpdate cfg
        exact ⟨_, _, _, .detectPublic hdata hmapped ho⟩
    | proxyconnect =>
      obtain ⟨tar, htar⟩ := Option.ne_none_iff_exists'.1 h
      obtain ⟨data, hdata, htar⟩ := Option.bind_eq_some_iff.1 htar
      -- the endpoint was read, so `data` is an object; a missing verdict reads as null
      obtain ⟨_, hmapping⟩ := sub_of_firstEndpoint htar "natmapping"
      obtain ⟨_, hfiltering⟩ := sub_of_firstEndpoint htar "natfiltering"
      exact ⟨_, _, _, .proxyconnect hdata htar hmapping hfiltering⟩
    | helpconnect =>
      obtain ⟨tar, htar⟩ := Option.ne_none_iff_exists'.1 h
      obtain ⟨data, hdata, htar⟩ := Option.bind_eq_some_iff.1 htar
      exact ⟨_, _, _, .helpconnect hdata htar⟩
    | openconnect =>
      obtain ⟨differs, hdiffers⟩ := Option.ne_none_iff_exists'.1 h
      obtain ⟨data, hdata, hdiff⟩ := Option.bind_eq_some_iff.1 hdiffers
      cases differs
      · exact ⟨_, _, _, .openSame hdata hdiff⟩
      · obtain ⟨ip, hip, -⟩ := Option.bind_eq_some_iff.1 hdiff
        obtain ⟨change, hchange⟩ := withEndpoint0_of_epIp hip remote
        exact ⟨_, _, _, .openChanged hdata hdiff hchange⟩
    | filteringcheck =>
      simp only [LacksField, not_or] at h
      obtain ⟨hip, hport, hmsgid⟩ := h
      obtain ⟨ip, hip⟩ := Option.ne_none_iff_exists'.1 hip
      obtain ⟨port, hport⟩ := Option.ne_none_iff_exists'.1 hport
      obtain ⟨msgid, hmsgid⟩ := Option.ne_none_iff_exists'.1 hmsgid
      exact ⟨_, _, _, .filteringcheck hip hport hmsgid⟩
    | callclient =>
      simp only [LacksField, not_or] at h
      obtain ⟨hmsgid, hip, hport⟩ := h
      obtain ⟨msgid, hmsgid⟩ := Option.ne_none_iff_exists'.1 hmsgid
      obtain ⟨ip, hip⟩ := Option.ne_none_iff_exists'.1 hip
      obtain ⟨port, hport⟩ := Option.ne_none_iff_exists'.1 hport
      exact ⟨_, _, _, .callclient hmsgid hip hport⟩
    | callclientRes =>
      simp only [LacksField, not_or, not_and] at h
      obtain ⟨hip, hport, hmsgid⟩ := h
      obtain ⟨ip, hip⟩ := Option.ne_none_iff_exists'.1 hip
      obtain ⟨port, hport⟩ := Option.ne_none_iff_exists'.1 hport
      rcases hinfo : s.hostList[n]? with _ | info
      · obtain ⟨o, ho⟩ := hw.routeUpdate cfg
        exact ⟨_, _, _, .callclientResUnknown hip hport hinfo ho⟩
      · have hin : n ∈ s.hostList := StrMap.mem_iff.2 ⟨_, hinfo⟩
        obtain ⟨msgid, hmsgid⟩ := Option.ne_none_iff_exists'.1 (hmsgid hin)
        obtain ⟨r, hr⟩ := hw n info hinfo
        obtain ⟨change, hchange, hcr⟩ := record?_setFiltering hr "Nonfilter"
        obtain ⟨o, ho⟩ := (hw.insert ((textRecord_dump change).trans hcr) n).routeUpdate cfg
        exact ⟨_, _, _, .callclientRes hip hport hinfo hchange hmsgid ho⟩
    | ticker =>
      obtain ⟨msgid, hmsgid⟩ := Option.ne_none_iff_exists'.1 h
      obtain ⟨x, hx, -⟩ := Option.bind_eq_some_iff.1 hid
      obtain ⟨data, hdata⟩ := sub_of_sub hx "data"
      cases hnull : data.isNull
      · exact ⟨_, _, _, .ticker hdata hmsgid hnull⟩
      · rw [isNull_iff.1 hnull] at hdata
        exact ⟨_, _, _, .tickerEmpty hdata hmsgid⟩
    | tickerRes =>
      obtain ⟨msgid, hmsgid⟩ := Option.ne_none_iff_exists'.1 h
      exact ⟨_, _, _, .tickerRes hmsgid⟩

end

/-! ## What is dropped -/

/-- The tables and the own record are as they were, nothing was sent, and a
receive is pending. -/
structure Dropped (s s' : Server) (o : List SendTo) : Prop where
  hostList : s'.hostList = s.hostList
  localEpInfo : s'.localEpInfo = s.localEpInfo
  fCkTimeMap : s'.fCkTimeMap = s.fCkTimeMap
  tickerNum : s'.tickerNum = s.tickerNum
  sent : o = []
  receiving : s'.receiving = true

theorem Dropped.rearm (s : Server) (datagram : List UInt8) : Dropped s (arrive datagram s).rearm [] :=
  ⟨rfl, rfl, rfl, rfl, rfl, rfl⟩

section
variable [Boost] {error : Option ErrorCode} {datagram : List UInt8}

/-- What is no message of a known type is dropped. -/
theorem unknown_dropped (hs : s.receiving = true) (he : error = none ∨ error = some .message_size)
    (h : ∀ j, heard cfg remote datagram = some j → Skipped cfg remote j) : ∃ s',
      Step cfg s ⟨.receive error remote datagram draws, []⟩ s' ∧ Dropped s s' [] := by
  refine ⟨_, ⟨hs, ?_⟩, Dropped.rearm s datagram⟩
  rcases hheard : heard cfg remote datagram with _ | j
  · exact react_dropped (arrive_recvBuffer hs datagram) he hheard
  · exact react_skipped (arrive_recvBuffer hs datagram) he hheard (h j hheard)

/-- A message without the text `msgtype` or the text `nodeID` ends the handler. -/
theorem handleJson_malformed {m : StrMap Json} (hmem : "msgtype" ∈ m)
    (h : messageType (object m) = none ∨ messageID (object m) = none) (s : Server) :
    handleJson cfg draws remote (object m) s = ⟨.error .exception, s, []⟩ := by
  obtain ⟨x, hx⟩ := StrMap.mem_iff.1 hmem
  have htype : messageType (object m) = x.getString := by simp [messageType, hx]
  simp only [handleJson, view_object, hx]
  rcases hg : x.getString with _ | type
  · rfl
  · rcases h with h | h
    · rw [htype, hg] at h
      cases h
    · rw [messageID] at h
      simp only [throwing, orFail_some_bind, h]
      rfl

theorem Malformed.not_completes (h : Malformed cfg s.hostList remote j) (hs : s.receiving = true)
    (he : error = none ∨ error = some .message_size) (hheard : heard cfg remote datagram = some j) :
    ¬ Completes (react cfg (.receive error remote datagram draws)) s () s' o := by
  intro hrun
  cases h with
  | @type m hj hmem htype =>
    subst hj
    rw [Completes, react_heard (arrive_recvBuffer hs datagram) he hheard, run_bind,
      handleJson_malformed hmem (.inl htype)] at hrun
    cases hrun
  | id htype hid =>
    obtain ⟨x, hx, hxt⟩ := Option.bind_eq_some_iff.1 htype
    obtain ⟨m, rfl, hm⟩ := sub_eq_some hx (by rintro rfl; cases hxt)
    have hmem : "msgtype" ∈ m := StrMap.mem_iff.2 ⟨_, hm⟩
    rw [Completes, react_heard (arrive_recvBuffer hs datagram) he hheard, run_bind,
      handleJson_malformed hmem (.inr hid)] at hrun
    cases hrun
  | field htype hid hlacks =>
    obtain ⟨_, _, _, _, _, _, hevent, hh, -⟩ := completes_carried
      (show (Event.receive error remote datagram draws).enabled s from hs) (.intro he hheard htype hid) hrun
    cases hevent
    exact hh.not_lacksField hlacks

theorem Malformed.faults (h : Malformed cfg s.hostList remote j) (hs : s.receiving = true)
    (he : error = none ∨ error = some .message_size) (hheard : heard cfg remote datagram = some j) :
    ∃ e, (react cfg (.receive error remote datagram draws) s).result = .error e := by
  rcases hr : react cfg (.receive error remote datagram draws) s with ⟨e | u, s', o⟩
  · exact ⟨e, rfl⟩
  · exact absurd hr (h.not_completes hs he hheard)

/-- What comes from the own ip is dropped, whatever it is. -/
theorem own_ip_dropped (hs : s.receiving = true) (he : error = none ∨ error = some .message_size)
    (hip : remote.ip = cfg.localIp) : ∃ s',
      Step cfg s ⟨.receive error remote datagram draws, []⟩ s' ∧ Dropped s s' [] := by
  refine unknown_dropped hs he fun j hj => ?_
  rw [heard, if_neg (not_not_intro hip)] at hj
  cases hj

end

/-! The detect that the `bind` subcommand sends. -/

/-- `msgj2` of `main`. -/
def bindMsg (localPort : String) : Json :=
  .obj [("msgtype", .string "detect"), ("data", .obj [("localip", .string "10.0.0.1"), ("localport", .string localPort)])]

theorem bindMsg_malformed (localPort : String) (table : StrMap String) (remote : Endpoint) :
    @Malformed digitsBoost checkServer table remote (bindMsg localPort) := by
  let _ := digitsBoost
  have htype : messageType (bindMsg localPort) = some "detect" := by simp [messageType, bindMsg]
  have hid : messageID (bindMsg localPort) = none := by simp [messageID, bindMsg, List.lookup_cons]
  exact .id htype hid

theorem bindMsg_read : recvJson? (received (wire (bindMsg "80").dump)) = some (bindMsg "80") := by
  refine recvJson?_wire ?_
  rw [wire_dump]
  decide +kernel

end NatServer

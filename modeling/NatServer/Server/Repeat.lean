import NatServer.Server.Settle
/-!
# The same datagram twice

Every branch but one is idempotent: it overwrites with the same value, inserts
what is there, or changes nothing. The update loop reads the table it writes,
so its second pass may compare with another address than the first; what the
table before and the update must be like for it to do no harm is `Repeats`.
-/

namespace NatServer

open Effect Json

variable {cfg : Config} {n : String} {remote : Endpoint} {s s' : Server} {o : List SendTo}

/-! ## The other branches -/

/-- The three tables are the same. -/
structure SameTables (s s' : Server) : Prop where
  hostList : s'.hostList = s.hostList
  localEpInfo : s'.localEpInfo = s.localEpInfo
  tickerNum : s'.tickerNum = s.tickerNum

theorem registered_registered (cfg : Config) (n : String) (info : Json) (table : StrMap String) :
    registered cfg n info (registered cfg n info table) = registered cfg n info table := by
  have hn : n ∈ registered cfg n info table := by simp [registered]
  have ho : cfg.nodeID ∈ registered cfg n info table := by simp [registered]
  rw [registered.eq_def cfg n info (registered cfg n info table), StrMap.insertIfNew_of_mem _ hn,
    StrMap.insertIfNew_of_mem _ ho]

/-- A buffer that still holds a datagram holds it after it arrives again. -/
theorem received_drop (datagram : List UInt8) :
    datagram.take bufferSize ++ (received datagram).drop datagram.length = received datagram := by
  rw [received_eq]
  by_cases h : datagram.length ≤ bufferSize
  · rw [List.take_of_length_le h, List.drop_left]
  · rw [List.drop_of_length_le (by simp; omega), Nat.sub_eq_zero_of_le (by omega), List.replicate_zero]

/-! ## Updates for the loop -/

/-- The datagram is an update of `data` from `n` that the loop is run over; the
receiver's entry in it is `value`, the record `own`. -/
inductive LoopsOver (cfg : Config) (error : Option ErrorCode) (remote : Endpoint) (datagram : List UInt8) (n : String)
    (data : StrMap Json) (value own : Json) : Prop
  | intro {j : Json} (he : error = none ∨ error = some .message_size) (hheard : heard cfg remote datagram = some j)
      (htype : messageType j = some "update") (hn : messageID j = some n) (hne : n ≠ cfg.nodeID)
      (hdata : j.sub "data" = some (.object data)) (hself : data[cfg.nodeID]? = some value)
      (hown : value.getString.bind parse = some own) : LoopsOver cfg error remote datagram n data value own

/-- What makes the second handling of a datagram harmless: it is no update for
the loop, or each of its entries is harmless in the table before with what the
update adds. -/
def Repeats (cfg : Config) (error : Option ErrorCode) (remote : Endpoint) (datagram : List UInt8) (s : Server) : Prop :=
  ∀ n data value own, LoopsOver cfg error remote datagram n data value own →
    ∀ pre key entry post, data.toList = pre ++ (key, entry) :: post →
      Harmless cfg n own (sourceAfter cfg remote (withUpdate cfg n remote s.hostList data value) pre)
        (withUpdate cfg n remote s.hostList data value) key entry

/-- There is at most one such update. -/
theorem LoopsOver.repeats_iff {error : Option ErrorCode} {datagram : List UInt8} {data : StrMap Json} {value own : Json}
    (h : LoopsOver cfg error remote datagram n data value own) : Repeats cfg error remote datagram s ↔
      ∀ pre key entry post, data.toList = pre ++ (key, entry) :: post →
        Harmless cfg n own (sourceAfter cfg remote (withUpdate cfg n remote s.hostList data value) pre)
          (withUpdate cfg n remote s.hostList data value) key entry := by
  refine ⟨fun hrepeats => hrepeats n data value own h, fun hall n' data' value' own' h' => ?_⟩
  cases h with
  | intro _ hheard _ hn _ hdata hself hown =>
    cases h' with
    | intro _ hheard' _ hn' _ hdata' hself' hown' =>
      cases hheard.symm.trans hheard'
      cases hn.symm.trans hn'
      obtain rfl := object_inj (Option.some.inj (hdata.symm.trans hdata'))
      cases hself.symm.trans hself'
      cases hown.symm.trans hown'
      exact hall

/-! ## The second time -/

section
variable [Boost]

/-- A branch other than the update loop does the same again, whatever is drawn. -/
theorem Handled.again {draws : Draws} {seen : Endpoint} {j : Json} {t : MsgType} {b : Bool} {s₁ : Server}
    (h : Handled cfg draws seen n j s t b s' o) (draws' : Draws) (ht : t = .update → b = true) (h₁ : SameTables s' s₁) :
    ∃ s₂ o₂, Handled cfg draws' seen n j s₁ t b s₂ o₂ ∧ SameTables s₁ s₂ := by
  obtain ⟨hhost, hlocal, hticker⟩ := h₁
  cases h with
  | @detectMapped lip lport _ _ hdata hmapped htarget hroute =>
    have e := registered_registered cfg n (mappedInfo seen lip lport) s.hostList
    exact ⟨_, _, .detectMapped hdata hmapped (by rw [hhost, hlocal, e]; exact htarget) (by rw [hhost, e]; exact hroute),
      ⟨by rw [hhost, e], rfl, rfl⟩⟩
  | detectPublic hdata hpublic hroute =>
    have e := registered_registered cfg n (publicInfo seen) s.hostList
    exact ⟨_, _, .detectPublic hdata hpublic (by rw [hhost, e]; exact hroute), ⟨by rw [hhost, e], rfl, rfl⟩⟩
  | updateSelf hn => exact ⟨_, _, .updateSelf hn, ⟨rfl, rfl, rfl⟩⟩
  | update => cases ht rfl
  | proxyconnect hdata htar hm hf => exact ⟨_, _, .proxyconnect hdata htar hm hf, ⟨rfl, rfl, rfl⟩⟩
  | helpconnect hdata htar => exact ⟨_, _, .helpconnect hdata htar, ⟨rfl, rfl, rfl⟩⟩
  | openChanged hdata hdiff hchange =>
    exact ⟨_, _, .openChanged hdata hdiff hchange, ⟨by rw [hhost, StrMap.insert_insert], rfl, rfl⟩⟩
  | openSame hdata hdiff =>
    exact ⟨_, _, .openSame hdata hdiff, ⟨by rw [hhost, StrMap.insertIfNew_of_mem _ (by simp)], rfl, rfl⟩⟩
  | filteringcheck hip hport hmsgid => exact ⟨_, _, .filteringcheck hip hport hmsgid, ⟨rfl, rfl, rfl⟩⟩
  | callclient hmsgid hip hport => exact ⟨_, _, .callclient hmsgid hip hport, ⟨rfl, rfl, rfl⟩⟩
  | callclientRes hip hport hinfo hchange hmsgid hroute =>
    exact ⟨_, _, .callclientRes hip hport (by rw [hhost, StrMap.getElem?_insert_self])
      (setFiltering_setFiltering hchange) hmsgid (by rw [hhost, StrMap.insert_insert]; exact hroute),
      ⟨by rw [hhost, StrMap.insert_insert], rfl, rfl⟩⟩
  | callclientResUnknown hip hport hinfo hroute =>
    exact ⟨_, _, .callclientResUnknown hip hport (by rw [hhost, hinfo]) (by rw [hhost]; exact hroute),
      ⟨rfl, rfl, rfl⟩⟩
  | ticker hdata hmsgid hnull =>
    exact ⟨_, _, .ticker hdata hmsgid hnull,
      ⟨by rw [hhost, StrMap.insert_insert], rfl, by rw [hticker, StrMap.erase_erase]⟩⟩
  | tickerEmpty hdata hmsgid =>
    exact ⟨_, _, .tickerEmpty hdata hmsgid, ⟨rfl, rfl, by rw [hticker, StrMap.erase_erase]⟩⟩
  | tickerRes hmsgid => exact ⟨_, _, .tickerRes hmsgid, ⟨rfl, rfl, by rw [hticker, StrMap.erase_erase]⟩⟩

/-- An update handled in a state that has its own record from it already. -/
theorem update_settled_iff {error : Option ErrorCode} {datagram : List UInt8} {draws : Draws} {j : Json}
    (hs : s.receiving = true) (he : error = none ∨ error = some .message_size)
    (hheard : heard cfg remote datagram = some j) (htype : messageType j = some "update") (hn : messageID j = some n)
    (hne : n ≠ cfg.nodeID) (hdata : j.sub "data" = some (.object data))
    (hown : givenRecord data cfg.nodeID = some s.localEpInfo) :
    (∃ s₂ sent₂, Completes (react cfg (.receive error remote datagram draws)) s () s₂ sent₂ ∧
      s₂.hostList = s.hostList ∧ s₂.localEpInfo = s.localEpInfo ∧ s₂.tickerNum = s.tickerNum) ↔
    ∃ s₂ o, LoopRan cfg n remote (arrive datagram s) data.toList ⟨.ok (), s₂, o⟩ ∧ s₂.hostList = s.hostList := by
  constructor
  · rintro ⟨s₂, sent₂, h, hhost, -, -⟩
    obtain ⟨s₁, loop, rfl⟩ := (update_completes_iff hs he hheard htype hn hne hdata hown).1 h
    exact ⟨s₁, sent₂, loop, hhost⟩
  · rintro ⟨s₂, o, loop, hhost⟩
    have hlocal : s₂.localEpInfo = s.localEpInfo := loop.localEpInfo
    have hticker : s₂.tickerNum = s.tickerNum := loop.tickerNum
    exact ⟨_, _, (update_completes_iff hs he hheard htype hn hne hdata hown).2 ⟨s₂, loop, rfl⟩, hhost, hlocal, hticker⟩

/-- The same update again, after a pass. -/
theorem update_twice_iff {error : Option ErrorCode} {datagram : List UInt8} {draws : Draws} {j : Json}
    {data : StrMap Json} {value own : Json} {s₁ : Server} (he : error = none ∨ error = some .message_size)
    (hheard : heard cfg remote datagram = some j) (htype : messageType j = some "update") (hn : messageID j = some n)
    (hne : n ≠ cfg.nodeID) (hdata : j.sub "data" = some (.object data)) (hself : data[cfg.nodeID]? = some value)
    (hown : value.getString.bind parse = some own)
    (loop : LoopRan cfg n remote { arrive datagram s with localEpInfo := own } data.toList ⟨.ok (), s₁, o⟩) :
    (∃ s₂ sent₂, Completes (react cfg (.receive error remote datagram draws)) s₁.rearm () s₂ sent₂ ∧
      s₂.hostList = s₁.hostList ∧ s₂.localEpInfo = s₁.localEpInfo ∧ s₂.tickerNum = s₁.tickerNum) ↔
    ∀ pre key entry post, data.toList = pre ++ (key, entry) :: post →
      Harmless cfg n own (sourceAfter cfg remote (withUpdate cfg n remote s.hostList data value) pre)
        (withUpdate cfg n remote s.hostList data value) key entry := by
  have hlocal : s₁.localEpInfo = own := loop.localEpInfo
  have htable : s₁.hostList = withUpdate cfg n remote s.hostList data value := loop.hostList_eq hne hself
  have hstored (p : String × Json) (hp : p ∈ data.toList) (see : Endpoint) (item : Json)
      (hitem : classify cfg see s₁.hostList p.1 p.2 = .own item) : cfg.nodeID ∈ s₁.hostList := by
    obtain ⟨hkey, tar, hread, hnew⟩ := own_of_classify hitem
    refine (loop.own_known ?_ hread).resolve_left hnew
    rwa [hkey]
  have hpass := pass_settles_iff (n := n) remote (arrive datagram s₁.rearm) [] hstored
  rw [arrive_hostList, rearm_hostList, arrive_localEpInfo, rearm_localEpInfo, hlocal, htable] at hpass
  rw [← htable, ← rearm_hostList s₁, ← rearm_localEpInfo s₁, ← rearm_tickerNum s₁,
    update_settled_iff rfl he hheard htype hn hne hdata (by
      rw [givenRecord, hself, Option.bind_some, hown, rearm_localEpInfo, hlocal]), rearm_hostList, htable]
  exact hpass

/-- What is no update for the loop is handled as before. -/
theorem handled_again {error : Option ErrorCode} {datagram : List UInt8} {draws : Draws} (draws' : Draws)
    {sent : List SendTo} (h : Step cfg s ⟨.receive error remote datagram draws, sent⟩ s')
    (hloop : ∀ n data value own, ¬ LoopsOver cfg error remote datagram n data value own) :
    ∃ s₂ sent₂, Completes (react cfg (.receive error remote datagram draws')) s' () s₂ sent₂ ∧
      s₂.hostList = s'.hostList ∧ s₂.localEpInfo = s'.localEpInfo ∧ s₂.tickerNum = s'.tickerNum := by
  cases completes_receive h.enabled h.completes with
  | failed he => exact ⟨_, _, react_failed he, rfl, rfl, rfl⟩
  | ignored he hskip =>
    have hb : (arrive datagram (arrive datagram s).rearm).recvBuffer = received datagram := arrive_recvBuffer rfl _
    rcases hheard : heard cfg remote datagram with _ | j
    · exact ⟨_, _, react_dropped hb he hheard, rfl, rfl, rfl⟩
    · exact ⟨_, _, react_skipped hb he hheard (hskip j hheard), rfl, rfl, rfl⟩
  | @handled j n type t b s₁ o he hheard hn htype ht hh =>
    have hb : (arrive datagram (if b then s₁ else s₁.rearm)).recvBuffer = received datagram := by
      cases b
      · exact arrive_recvBuffer rfl datagram
      · cases hh
        rw [← received_drop datagram, ← arrive_recvBuffer h.enabled datagram]
        rfl
    have hsame : SameTables s₁ (arrive datagram (if b then s₁ else s₁.rearm)) := by cases b <;> exact ⟨rfl, rfl, rfl⟩
    obtain rfl := MsgType.ofText?_eq_some.1 ht
    have hself : t = .update → b = true := by
      rintro rfl
      cases hh with
      | updateSelf => rfl
      | update hne hdata hself hown => exact (hloop _ _ _ _ (.intro he hheard htype hn hne hdata hself hown)).elim
    obtain ⟨s₂, o₂, hh₂, htables⟩ := hh.again draws' hself hsame
    refine ⟨_, _, receive_completes hb he hheard hn htype ht hh₂, ?_⟩
    cases b <;> exact ⟨htables.hostList, htables.localEpInfo, htables.tickerNum⟩

/-- Handling a datagram a second time completes and leaves the tables as they
are, exactly where the state before the first and the datagram are such that a
second pass is harmless. -/
theorem handled_twice_iff {error : Option ErrorCode} {datagram : List UInt8} {draws : Draws} (draws' : Draws)
    {sent : List SendTo} (h : Step cfg s ⟨.receive error remote datagram draws, sent⟩ s') :
    (∃ s₂ sent₂, Completes (react cfg (.receive error remote datagram draws')) s' () s₂ sent₂ ∧
      s₂.hostList = s'.hostList ∧ s₂.localEpInfo = s'.localEpInfo ∧ s₂.tickerNum = s'.tickerNum) ↔
    Repeats cfg error remote datagram s := by
  by_cases hloop : ∃ n data value own, LoopsOver cfg error remote datagram n data value own
  · obtain ⟨n, data, value, own, hover⟩ := hloop
    rw [hover.repeats_iff]
    cases hover with
    | intro he hheard htype hn hne hdata hself hown =>
      have hgiven : givenRecord data cfg.nodeID = some own := by rw [givenRecord, hself, Option.bind_some, hown]
      obtain ⟨s₁, loop, rfl⟩ :=
        (update_completes_iff h.enabled he hheard htype hn hne hdata hgiven).1 h.completes
      exact update_twice_iff he hheard htype hn hne hdata hself hown loop
  · simp only [not_exists] at hloop
    exact ⟨fun _ n data value own hover => absurd hover (hloop n data value own), fun _ => handled_again draws' h hloop⟩

end

/-! A public receiver `r` whose own record the first pass inserts: the second
pass relays through itself, and goes on with its own ip. -/

def publicReceiver : Config := sampleNode "r" "7.7.7.7" true

def relaySender : Config := sampleNode "s" "1.1.1.1" true

/-- The sender's table, with a node `b` at the given endpoint. -/
def relayTable (b : Endpoint) : StrMap String :=
  ((∅ : StrMap String).insert "a" (sampleMapped ⟨"5.5.5.5", 1000⟩).dump).insert "b" (sampleMapped b).dump
    |>.insert "r" (selfInfo publicReceiver).dump

def relayData (b : Endpoint) : StrMap Json := (relayTable b).map fun _ info => .string info

theorem relayData_toList (b : Endpoint) : (relayData b).toList =
    [("a", .string (sampleMapped ⟨"5.5.5.5", 1000⟩).dump), ("b", .string (sampleMapped b).dump),
      ("r", .string (selfInfo publicReceiver).dump)] := rfl

/-- The update handled, given its loop. -/
theorem relayTable_step [Boost] {b : Endpoint} {s s' : Server} {o : List SendTo} (draws : Draws)
    (hs : s.receiving = true)
    (hfit : ((updateMsg relaySender (relayTable b)).val.dump.flatMap String.utf8EncodeChar).length ≤ bufferSize)
    (loop : LoopRan publicReceiver "s" ⟨"1.1.1.1", 80⟩
      { arrive (wire (updateMsg relaySender (relayTable b)).dump) s with localEpInfo := selfInfo publicReceiver }
      (relayData b).toList ⟨.ok (), s', o⟩) :
    Step publicReceiver s ⟨.receive none ⟨"1.1.1.1", 80⟩ (wire (updateMsg relaySender (relayTable b)).dump) draws, o⟩
      s'.rearm :=
  step_of_handled draws hs (by decide) hfit (isMessage_update relaySender (relayTable b))
    (.update (by decide) (data_updateMsg _ _) (by rfl) (by simp) loop)

theorem isPublic_selfInfo : isPublic (selfInfo publicReceiver) = some true :=
  isPublic_of_record (record?_selfInfo publicReceiver)

theorem relayOf_selfInfo (see : Endpoint) (l : List (String × String)) :
    relayOf see (("r", (selfInfo publicReceiver).dump) :: l) = relayOf ⟨"7.7.7.7", 80⟩ l := by
  rw [relayOf, parse_dump, Option.bind_eq_bind, Option.bind_some, isPublic_selfInfo,
    epIp_of_record (record?_selfInfo _), epPort_of_record (record?_selfInfo _)]
  rfl

/-! With `b` at the sender's ip the first pass takes its record for the
sender's; the second, which compares with `r`'s own ip, does no harm. -/

def settledTable : StrMap String :=
  ((∅ : StrMap String).insert "s" (sampleMapped ⟨"1.1.1.1", 1000⟩).dump).insert "r" (selfInfo publicReceiver).dump

theorem relayTable_settles {s : Server} (hs : s.hostList = ∅) :
    ∃ s₁ o, LoopRan publicReceiver "s" ⟨"1.1.1.1", 80⟩ { s with localEpInfo := selfInfo publicReceiver }
      (relayData ⟨"1.1.1.1", 1000⟩).toList ⟨.ok (), s₁, o⟩ ∧ s₁.hostList = settledTable := by
  have hnew (k : String) : k ∉ s.hostList := by simp [hs]
  have hrelay : relayOf ⟨"1.1.1.1", 80⟩ s.hostList.toList = some ⟨"1.1.1.1", 80⟩ := by rw [hs]; rfl
  have hr : publicReceiver.nodeID = "r" := rfl
  rw [relayData_toList]
  refine ⟨_, _, .cons (.proxied (readEntry_of_record (record?_sampleMapped _)) (hnew _) (by decide) (by decide)
    (natPublic_of_record (record?_sampleMapped _)) hrelay isPublic_selfInfo)
    (.cons (.sameIp (readEntry_of_record (record?_sampleMapped _)) (hnew _) (by decide) rfl)
      (.cons (.own (readEntry_of_record (record?_selfInfo _)) ?_ rfl) .nil)), ?_⟩
  · simp [Std.ExtTreeMap.mem_insertIfNew, hs, (checkKey_ne (by decide : '_' ∉ "s".toList) _).symm]
  · simp only [hs]
    rw [StrMap.insertIfNew_of_notMem _ (by simp [Std.ExtTreeMap.mem_insertIfNew, hr]),
      StrMap.insertIfNew_of_notMem _ (by simp)]
    rfl

theorem checkKey_notMem_settledTable (tar : Endpoint) : checkKey tar ∉ settledTable := by
  have hr : "r" ≠ checkKey tar := (checkKey_ne (by decide) tar).symm
  have hs : "s" ≠ checkKey tar := (checkKey_ne (by decide) tar).symm
  simp [settledTable, hr, hs]

theorem relayOf_settledTable (see : Endpoint) : relayOf see settledTable.toList = some ⟨"7.7.7.7", 80⟩ := by
  rw [show settledTable.toList = [("r", (selfInfo publicReceiver).dump),
    ("s", (sampleMapped ⟨"1.1.1.1", 1000⟩).dump)] from rfl, relayOf_selfInfo, relayOf, parse_dump,
    Option.bind_eq_bind, Option.bind_some, isPublic_of_record (record?_sampleMapped _)]
  rfl

theorem relayed_harmless {table : StrMap String} {own va vb vr itemA itemB item : Json} {tarA tarB relay : Endpoint}
    {ka kb kr key : String} {entry : Json} {b : Bool} {pre post : List (String × Json)} (hown : isPublic own = some b)
    (ha : classify cfg remote table ka va = .relayed itemA tarA relay)
    (hb : classify cfg relay table kb vb = .relayed itemB tarB relay)
    (hr : ∀ see, classify cfg see table kr vr = .own item)
    (hentry : [(ka, va), (kb, vb), (kr, vr)] = pre ++ (key, entry) :: post) :
    Harmless cfg n own (sourceAfter cfg remote table pre) table key entry := by
  have hsource : sourceAfter cfg remote table [(ka, va)] = relay := by
    rw [← List.nil_append [_], sourceAfter_snoc, sourceAfter_nil, ha, Exit.relay?, Option.getD_some]
  rcases pre with _ | ⟨p, _ | ⟨q, _ | ⟨_, pre⟩⟩⟩
  · cases hentry
    exact .of_relayed ha hown
  · cases hentry
    rw [hsource]
    exact .of_relayed hb hown
  · cases hentry
    exact .of_own (hr _)
  · simp at hentry

theorem relayTable_relayed (see tar : Endpoint) {k : String} (hk : publicReceiver.nodeID ≠ k) (hip : tar.ip ≠ see.ip) :
    classify publicReceiver see settledTable k (.string (sampleMapped tar).dump) =
      .relayed (sampleMapped tar) tar ⟨"7.7.7.7", 80⟩ :=
  classify_relayed (readEntry_of_record (record?_sampleMapped tar)) (checkKey_notMem_settledTable tar) hk hip
    (natPublic_of_record (record?_sampleMapped tar)) (relayOf_settledTable see)

theorem relayTable_fits :
    ((updateMsg relaySender (relayTable ⟨"1.1.1.1", 1000⟩)).val.dump.flatMap String.utf8EncodeChar).length ≤
      bufferSize := by
  decide +kernel

theorem handled_twice_iff_relayed :
    ∃ s₁ sent₁ s₂ sent₂,
      @Step digitsBoost publicReceiver (init publicReceiver)
        ⟨.receive none ⟨"1.1.1.1", 80⟩ (wire (updateMsg relaySender (relayTable ⟨"1.1.1.1", 1000⟩)).dump)
          ⟨0, "m", "k"⟩, sent₁⟩ s₁ ∧
      s₁.hostList = settledTable ∧
      Effect.Completes (@react digitsBoost publicReceiver
        (.receive none ⟨"1.1.1.1", 80⟩ (wire (updateMsg relaySender (relayTable ⟨"1.1.1.1", 1000⟩)).dump)
          ⟨1, "m", "k"⟩)) s₁ () s₂ sent₂ ∧
      s₂.hostList = s₁.hostList ∧ s₂.localEpInfo = s₁.localEpInfo ∧ s₂.tickerNum = s₁.tickerNum := by
  let _ := digitsBoost
  obtain ⟨s₁, o₁, loop, htable⟩ := relayTable_settles
    (s := arrive (wire (updateMsg relaySender (relayTable ⟨"1.1.1.1", 1000⟩)).dump) (init publicReceiver)) rfl
  have hstep := relayTable_step ⟨0, "m", "k"⟩ rfl relayTable_fits loop
  obtain ⟨s₂, sent₂, h₂⟩ := (handled_twice_iff ⟨1, "m", "k"⟩ hstep).2 fun n data value own hover => by
    cases hover with
    | intro _ hheard _ hn _ hdata hself hown =>
      rw [heard_wire (by decide) (by rw [wire_dump]; exact relayTable_fits)] at hheard
      cases hheard
      rw [(isMessage_update relaySender _).id] at hn
      cases hn
      rw [data_updateMsg] at hdata
      obtain rfl := object_inj (Option.some.inj hdata)
      have hafter : withUpdate publicReceiver relaySender.nodeID ⟨"1.1.1.1", 80⟩ (init publicReceiver).hostList
          ((relayTable ⟨"1.1.1.1", 1000⟩).map fun _ info => .string info) value = settledTable :=
        (loop.hostList_eq (by decide) hself).symm.trans htable
      cases (by rfl : (relayData ⟨"1.1.1.1", 1000⟩)[publicReceiver.nodeID]? =
        some (.string (selfInfo publicReceiver).dump)).symm.trans hself
      rw [getString_string, Option.bind_some, parse_dump] at hown
      cases hown
      intro pre key entry post hentry
      rw [hafter]
      exact relayed_harmless isPublic_selfInfo (relayTable_relayed _ _ (by decide) (by decide))
        (relayTable_relayed _ _ (by decide) (by decide))
        (fun _ => classify_own (readEntry_of_record (record?_selfInfo _)) (checkKey_notMem_settledTable _) rfl) hentry
  exact ⟨_, _, s₂, sent₂, hstep, htable, h₂⟩

/-! With `b` at `r`'s ip the first pass relays both. The second takes the record
of `b` for the sender's. -/

/-- The first pass relays through the sender and inserts the own record. -/
theorem relayTable_first {s : Server} (hs : s.hostList = ∅) :
    ∃ s₁ o, LoopRan publicReceiver "s" ⟨"1.1.1.1", 80⟩ { s with localEpInfo := selfInfo publicReceiver }
      (relayData ⟨"7.7.7.7", 1000⟩).toList ⟨.ok (), s₁, o⟩ ∧
      s₁.hostList = (∅ : StrMap String).insert "r" (selfInfo publicReceiver).dump := by
  have hnew (k : String) : k ∉ s.hostList := by simp [hs]
  have hrelay : relayOf ⟨"1.1.1.1", 80⟩ s.hostList.toList = some ⟨"1.1.1.1", 80⟩ := by rw [hs]; rfl
  rw [relayData_toList]
  refine ⟨_, _, .cons (.proxied (readEntry_of_record (record?_sampleMapped _)) (hnew _) (by decide) (by decide)
    (natPublic_of_record (record?_sampleMapped _)) hrelay isPublic_selfInfo)
    (.cons (.proxied (readEntry_of_record (record?_sampleMapped _)) (hnew _) (by decide) (by decide)
      (natPublic_of_record (record?_sampleMapped _)) hrelay isPublic_selfInfo)
      (.cons (.own (readEntry_of_record (record?_selfInfo _)) (hnew _) rfl) .nil)), ?_⟩
  simp only [hs]
  exact StrMap.insertIfNew_of_notMem _ (by simp)

/-- The second finds the node itself for a relay. -/
theorem relayTable_second {s : Server} (hs : s.hostList = (∅ : StrMap String).insert "r" (selfInfo publicReceiver).dump) :
    ∃ s₂ o, LoopRan publicReceiver "s" ⟨"1.1.1.1", 80⟩ { s with localEpInfo := selfInfo publicReceiver }
      (relayData ⟨"7.7.7.7", 1000⟩).toList ⟨.ok (), s₂, o⟩ ∧
      s₂.hostList["s"]? = some (sampleMapped ⟨"7.7.7.7", 1000⟩).dump := by
  have hr (tar : Endpoint) : "r" ≠ checkKey tar := (checkKey_ne (by decide) tar).symm
  have hs' (tar : Endpoint) : "s" ≠ checkKey tar := (checkKey_ne (by decide) tar).symm
  have hnew (tar : Endpoint) : checkKey tar ∉ s.hostList := by simp [hs, hr]
  have hrelay : relayOf ⟨"1.1.1.1", 80⟩ s.hostList.toList = some ⟨"7.7.7.7", 80⟩ := by
    rw [hs, show ((∅ : StrMap String).insert "r" (selfInfo publicReceiver).dump).toList =
      [("r", (selfInfo publicReceiver).dump)] from rfl, relayOf_selfInfo]
    rfl
  rw [relayData_toList]
  refine ⟨_, _, .cons (.proxied (readEntry_of_record (record?_sampleMapped _)) (hnew _) (by decide) (by decide)
    (natPublic_of_record (record?_sampleMapped _)) hrelay isPublic_selfInfo)
    (.cons (.sameIp (readEntry_of_record (record?_sampleMapped _)) (hnew _) (by decide) rfl)
      (.cons (.own (readEntry_of_record (record?_selfInfo _)) ?_ rfl) .nil)), ?_⟩
  · simp [Std.ExtTreeMap.mem_insertIfNew, hs, hr, hs']
  · rw [StrMap.getElem?_insertIfNew, if_neg (fun h => absurd h.1 (by decide)), StrMap.getElem?_insertIfNew,
      if_pos ⟨rfl, by simp [hs]⟩]

theorem second_pass_takes_foreign_record :
    ∃ s₁ sent₁ s₂ sent₂,
      @Step digitsBoost publicReceiver (init publicReceiver)
        ⟨.receive none ⟨"1.1.1.1", 80⟩ (wire (updateMsg relaySender (relayTable ⟨"7.7.7.7", 1000⟩)).dump)
          ⟨0, "m", "k"⟩, sent₁⟩ s₁ ∧
      @Step digitsBoost publicReceiver s₁
        ⟨.receive none ⟨"1.1.1.1", 80⟩ (wire (updateMsg relaySender (relayTable ⟨"7.7.7.7", 1000⟩)).dump)
          ⟨0, "m", "k"⟩, sent₂⟩ s₂ ∧
      s₁.hostList["s"]? = none ∧ s₂.hostList["s"]? = (relayTable ⟨"7.7.7.7", 1000⟩)["b"]? := by
  let _ := digitsBoost
  have hfit : ((updateMsg relaySender (relayTable ⟨"7.7.7.7", 1000⟩)).val.dump.flatMap String.utf8EncodeChar).length ≤
      bufferSize := by decide +kernel
  obtain ⟨s₁, o₁, loop₁, h₁⟩ := relayTable_first
    (s := arrive (wire (updateMsg relaySender (relayTable ⟨"7.7.7.7", 1000⟩)).dump) (init publicReceiver)) rfl
  obtain ⟨s₂, o₂, loop₂, h₂⟩ := relayTable_second
    (s := arrive (wire (updateMsg relaySender (relayTable ⟨"7.7.7.7", 1000⟩)).dump) s₁.rearm)
    (by rw [arrive_hostList, rearm_hostList, h₁])
  refine ⟨_, _, _, _, relayTable_step _ rfl hfit loop₁, relayTable_step _ rfl hfit loop₂, ?_, h₂⟩
  rw [rearm_hostList, h₁, StrMap.getElem?_insert_of_ne _ _ (by decide)]
  rfl

end NatServer

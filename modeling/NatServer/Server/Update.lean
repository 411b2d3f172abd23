import NatServer.Server.Record
import NatServer.Server.Sample
/-!
# The update loop and the table it writes

The loop walks the received table once and writes the receiver's own under
two keys: its own id and the sender's. Whose record it takes for the sender's
is decided by an ip address, which the search for a relay overwrites on the
way; `takenForSender` is that decision as a scan.
-/

namespace NatServer

open Effect Json

/-- The record an update gives for an id. -/
def givenRecord (data : StrMap Json) (k : String) : Option Json :=
  data[k]?.bind fun value => value.getString.bind parse

/-- The first entry taken for the sender's own: not known, not the receiver's,
at the ip compared with. An entry that cannot be read ends the scan. -/
def takenForSender (cfg : Config) (see : Endpoint) (table : StrMap String) :
    List (String × Json) → Option (String × Json)
  | [] => none
  | (key, value) :: rest =>
    match classify cfg see table key value with
    | .sameIp item => some (key, item)
    | .own item => takenForSender cfg see (table.insertIfNew cfg.nodeID item.dump) rest
    | .known | .direct _ => takenForSender cfg see table rest
    | .relayed _ _ relay => takenForSender cfg relay table rest
    | .unreadable | .unclassified | .noRelay => none

theorem readEntry_eq_some {value : Json} {p : Json × Endpoint} : readEntry value = some p ↔
    ∃ item, value.getString.bind parse = some item ∧ ∃ tar, firstEndpoint item = some tar ∧ (item, tar) = p := by
  simp only [readEntry, Option.bind_eq_bind, Option.bind_eq_some_iff, Option.pure_def, Option.some.injEq]

variable {cfg : Config} {n : String} {see : Endpoint} {s s' : Server} {o : List SendTo}

theorem EntryRan.keeps {key : String} {value : Json} {r : Ran Server SendTo Fault Endpoint}
    (h : EntryRan cfg n see key value s r) {k : String} (hk : k ∈ s.hostList) :
    r.state.hostList[k]? = s.hostList[k]? := by
  cases h with
  | own | sameIp =>
    rw [StrMap.getElem?_insertIfNew, if_neg]
    rintro ⟨rfl, hn⟩
    exact hn hk
  | _ => rfl

theorem LoopRan.keeps {l : List (String × Json)} {r : Ran Server SendTo Fault Unit} (h : LoopRan cfg n see s l r)
    {k : String} (hk : k ∈ s.hostList) : r.state.hostList[k]? = s.hostList[k]? := by
  induction h with
  | nil => rfl
  | fault entry => exact entry.keeps hk
  | cons entry _ ih =>
    rw [ih (entry.framed.keys k hk)]
    exact entry.keeps hk

/-- What the loop puts under the sender's id. -/
theorem LoopRan.sender {l : List (String × Json)} {r : Ran Server SendTo Fault Unit} (h : LoopRan cfg n see s l r)
    (hself : (isPublic s.localEpInfo).isSome ∨ r.result = .ok ()) (hn : n ≠ cfg.nodeID) (hnew : n ∉ s.hostList) :
    r.state.hostList[n]? = (takenForSender cfg see s.hostList l).map fun p => p.2.dump := by
  have hnone : s.hostList[n]? = none := Std.ExtTreeMap.getElem?_eq_none hnew
  induction h with
  | nil => simpa [takenForSender] using hnone
  | fault entry =>
    cases entry with
    | unreadable hv => simpa [takenForSender, classify_unreadable hv] using hnone
    | unclassified hv hk ho hip hnat => simpa [takenForSender, classify_unclassified hv hk ho hip hnat] using hnone
    | noRelay hv hk ho hip hnat hr => simpa [takenForSender, classify_noRelay hv hk ho hip hnat hr] using hnone
    | selfUnknown _ _ _ _ _ _ hs =>
      rcases hself with hself | hself
      · rw [hs] at hself
        cases hself
      · cases hself
  | @cons see see' s s₁ s₂ key value rest o₁ o₂ res entry loop ih =>
    cases entry with
    | known hv hk => simpa [takenForSender, classify_known hv hk] using ih hself hnew hnone
    | @own item tar hv hk ho =>
      have hnew' : n ∉ s.hostList.insertIfNew cfg.nodeID item.dump := by
        simpa [Std.ExtTreeMap.mem_insertIfNew, hn.symm] using hnew
      simpa [takenForSender, classify_own hv hk ho] using ih hself hnew' (Std.ExtTreeMap.getElem?_eq_none hnew')
    | @sameIp item tar hv hk ho hip =>
      -- taken for the sender: later entries do not replace it
      have hin : n ∈ s.hostList.insertIfNew n item.dump := by simp
      rw [loop.keeps hin, StrMap.getElem?_insertIfNew, if_pos ⟨rfl, hnew⟩]
      simp [takenForSender, classify_sameIp hv hk ho hip]
    | direct hv hk ho hip hnat => simpa [takenForSender, classify_direct hv hk ho hip hnat] using ih hself hnew hnone
    | proxied hv hk ho hip hnat hr | punched hv hk ho hip hnat hr =>
      simpa [takenForSender, classify_relayed hv hk ho hip hnat hr] using ih hself hnew hnone

/-- What the loop puts under the receiver's own id is the record given for it. -/
theorem LoopRan.own {l : List (String × Json)} {r : Ran Server SendTo Fault Unit} (h : LoopRan cfg n see s l r)
    (hn : n ≠ cfg.nodeID) (hnew : cfg.nodeID ∉ s.hostList) {info : String}
    (hinfo : r.state.hostList[cfg.nodeID]? = some info) :
    ∃ value item tar, (cfg.nodeID, value) ∈ l ∧ readEntry value = some (item, tar) ∧ checkKey tar ∉ s.hostList ∧
      info = item.dump := by
  induction h with
  | nil => rw [Std.ExtTreeMap.getElem?_eq_none hnew] at hinfo; cases hinfo
  | fault entry =>
    cases entry <;> (rw [Std.ExtTreeMap.getElem?_eq_none hnew] at hinfo; cases hinfo)
  | @cons see see' s s₁ s₂ key value rest o₁ o₂ res entry loop ih =>
    have hrest (hnew' : cfg.nodeID ∉ s₁.hostList) : ∃ v item tar, (cfg.nodeID, v) ∈ (key, value) :: rest ∧
        readEntry v = some (item, tar) ∧ checkKey tar ∉ s.hostList ∧ info = item.dump := by
      obtain ⟨v, item, tar, hv, hread, hk, hitem⟩ := ih hnew' hinfo
      exact ⟨v, item, tar, List.mem_cons_of_mem _ hv, hread, fun hin => hk (entry.framed.keys _ hin), hitem⟩
    cases entry with
    | @own item tar hv hk ho =>
      have hin : cfg.nodeID ∈ s.hostList.insertIfNew cfg.nodeID item.dump := by simp
      rw [loop.keeps hin, StrMap.getElem?_insertIfNew, if_pos ⟨rfl, hnew⟩] at hinfo
      cases hinfo
      exact ⟨value, item, tar, by simp [ho], hv, hk, rfl⟩
    | @sameIp item tar hv hk ho hip =>
      have hnew' : cfg.nodeID ∉ s.hostList.insertIfNew n item.dump := by
        simpa [Std.ExtTreeMap.mem_insertIfNew, hn] using hnew
      exact hrest hnew'
    | _ => exact hrest hnew

/-- The record given for an id is the one the sender's table has under it. -/
theorem givenRecord_map (table : StrMap String) (k : String) :
    givenRecord (table.map fun _ info => .string info) k = table[k]?.bind parse := by
  rw [givenRecord, Std.ExtTreeMap.getElem?_map]
  cases table[k]? <;> rfl

/-- An update of a table of records gives a record for each of its ids. -/
theorem WfTable.given {table : StrMap String} (h : WfTable table) (k : String) (value : Json)
    (hk : (table.map fun _ info => Json.string info)[k]? = some value) :
    ∃ item, givenRecord (table.map fun _ info => .string info) k = some item ∧ WfRecord item := by
  rw [Std.ExtTreeMap.getElem?_map, Option.map_eq_some_iff] at hk
  obtain ⟨info, hinfo, -⟩ := hk
  obtain ⟨r, hr⟩ := h k info hinfo
  obtain ⟨j, hj, hjr⟩ := parse_of_textRecord hr
  exact ⟨j, by rw [givenRecord_map, hinfo, Option.bind_some, hj], r, hjr⟩

/-! ## The table after an update -/

section
variable [Boost] {error : Option ErrorCode} {remote : Endpoint} {datagram : List UInt8} {draws : Draws} {j : Json}

/-- A handled update whose id is not the server's own ran the loop. -/
theorem Handled.update_loop {draws : Draws} {seen : Endpoint} {j : Json} {b : Bool} {data : StrMap Json}
    (h : Handled cfg draws seen n j s .update b s' o) (hn : n ≠ cfg.nodeID)
    (hdata : j.sub "data" = some (.object data)) :
    b = false ∧ ∃ value own, data[cfg.nodeID]? = some value ∧ value.getString.bind parse = some own ∧
      LoopRan cfg n seen { s with localEpInfo := own } data.toList ⟨.ok (), s', o⟩ := by
  cases h with
  | updateSelf hn' => exact absurd hn' hn
  | update _ hdata' hself hown loop =>
    obtain rfl := object_inj (Option.some.inj (hdata.symm.trans hdata'))
    exact ⟨rfl, _, _, hself, hown, loop⟩

/-- An update that lists the receiver completes exactly where the loop over its
data does, from the state with the record it lists. -/
theorem update_completes_iff {data : StrMap Json} {own : Json} (hs : s.receiving = true)
    (he : error = none ∨ error = some .message_size) (hheard : heard cfg remote datagram = some j)
    (htype : messageType j = some "update") (hn : messageID j = some n) (hself : n ≠ cfg.nodeID)
    (hdata : j.sub "data" = some (.object data)) (hown : givenRecord data cfg.nodeID = some own) :
    Completes (react cfg (.receive error remote datagram draws)) s () s' o ↔
      ∃ s₁, LoopRan cfg n remote { arrive datagram s with localEpInfo := own } data.toList ⟨.ok (), s₁, o⟩ ∧
        s' = s₁.rearm := by
  obtain ⟨value, hvalue, hparse⟩ := Option.bind_eq_some_iff.1 hown
  constructor
  · intro h
    cases completes_receive hs h with
    | failed he' => exact absurd he he'
    | ignored _ hskip =>
      have := (hskip j hheard).type
      rw [htype] at this
      cases this
    | @handled j' n' type' t b s₁ _ _ hheard' hn' htype' ht hh =>
      cases hheard.symm.trans hheard'
      cases hn.symm.trans hn'
      cases htype.symm.trans htype'
      cases ht
      obtain ⟨rfl, value', own', hvalue', hparse', loop⟩ := hh.update_loop hself hdata
      cases hvalue.symm.trans hvalue'
      cases hparse.symm.trans hparse'
      exact ⟨s₁, loop, rfl⟩
  · rintro ⟨s₁, loop, rfl⟩
    exact receive_completes (arrive_recvBuffer hs datagram) he hheard hn htype rfl
      (.update hself hdata hvalue hparse loop)

/-- The table an update leaves, whether its handler completes or faults: as it
was where the message is the receiver's own or does not mention it, else what
the loop makes of it. -/
theorem update_hostList {data : StrMap Json} (hs : s.receiving = true)
    (he : error = none ∨ error = some .message_size) (hheard : heard cfg remote datagram = some j)
    (htype : messageType j = some "update") (hn : messageID j = some n) (hdata : j.sub "data" = some (.object data))
    (hitems : ∀ (k : String) value, data[k]? = some value → ∃ item, value.getString.bind parse = some item) :
    (react cfg (.receive error remote datagram draws) s).state.hostList =
      if n = cfg.nodeID then s.hostList
      else match givenRecord data cfg.nodeID with
        | none => s.hostList
        | some own =>
          (updateLoop cfg n remote data.toList { arrive datagram s with localEpInfo := own }).state.hostList := by
  rw [react_heard (arrive_recvBuffer hs datagram) he hheard, run_rearmUnless, handleJson_eq hn htype rfl, dispatch]
  split
  · rfl
  have hdrop (m : Handler Unit) (s : Server) : ((m >>= fun _ => pure false : Handler Bool) s).state = (m s).state := by
    rw [run_bind]
    rcases m s with ⟨e | u, s₁, o⟩ <;> rfl
  rw [hdrop, update, throwing, hdata, orFail_some_bind, getself, view_object]
  rcases hown : data[cfg.nodeID]? with _ | value
  · simp only [givenRecord, hown, Option.bind_none]
    rfl
  · obtain ⟨own, hown'⟩ := hitems _ _ hown
    simp only [givenRecord, hown, Option.bind_some, run_pure_bind, hown', throwing, orFail_some_bind, run_modifyState_bind]

/-- Every entry an update adds under an id is the record the update gives for
that id, exactly where the handler stops before its loop, or knows the sender
already, or takes no entry for the sender's but one with the sender's record. -/
theorem update_binds_ids_iff {data : StrMap Json} (hs : s.receiving = true)
    (he : error = none ∨ error = some .message_size) (hheard : heard cfg remote datagram = some j)
    (htype : messageType j = some "update") (hn : messageID j = some n) (hdata : j.sub "data" = some (.object data))
    (hwf : ∀ (k : String) value, data[k]? = some value → ∃ item, givenRecord data k = some item ∧ WfRecord item) :
    (∀ (k info : String), k ∉ s.hostList →
      (react cfg (.receive error remote datagram draws) s).state.hostList[k]? = some info →
        ∃ item, givenRecord data k = some item ∧ parse info = some item) ↔
    (n = cfg.nodeID ∨ cfg.nodeID ∉ data ∨ n ∈ s.hostList ∨
      ∀ p, takenForSender cfg remote s.hostList data.toList = some p → givenRecord data n = some p.2) := by
  have hitems : ∀ (k : String) value, data[k]? = some value → ∃ item, value.getString.bind parse = some item := by
    intro k value hk
    obtain ⟨item, hitem, -⟩ := hwf k value hk
    exact ⟨item, by rwa [givenRecord, hk] at hitem⟩
  rw [update_hostList hs he hheard htype hn hdata hitems]
  by_cases hself : n = cfg.nodeID
  · simp only [hself, if_true, true_or, iff_true]
    intro k info hk hinfo
    rw [Std.ExtTreeMap.getElem?_eq_none hk] at hinfo
    cases hinfo
  rw [if_neg hself]
  have hstay (hg : givenRecord data cfg.nodeID = none) : cfg.nodeID ∉ data := by
    intro hmem
    obtain ⟨value, hvalue⟩ := StrMap.mem_iff.1 hmem
    obtain ⟨item, hitem, -⟩ := hwf _ _ hvalue
    cases hg.symm.trans hitem
  rcases hg : givenRecord data cfg.nodeID with _ | own
  · simp only [hstay hg, not_false_eq_true, true_or, or_true, iff_true]
    intro k info hk hinfo
    rw [Std.ExtTreeMap.getElem?_eq_none hk] at hinfo
    cases hinfo
  obtain ⟨value, hvalue, hparse⟩ := Option.bind_eq_some_iff.1 hg
  obtain ⟨own', hown', r, hr⟩ := hwf _ _ hvalue
  cases hg.symm.trans hown'
  have hmem : cfg.nodeID ∈ data := StrMap.mem_iff.2 ⟨_, hvalue⟩
  -- the loop runs; it writes under the id of the sender and the own id only
  have loop := updateLoop_ran cfg n remote data.toList { arrive datagram s with localEpInfo := own }
  simp only [hself, hmem, not_true_eq_false, false_or]
  generalize updateLoop cfg n remote data.toList { arrive datagram s with localEpInfo := own } = ran at loop
  have hkeep {k : String} (hk : k ∈ s.hostList) : ran.state.hostList[k]? = s.hostList[k]? := loop.keeps hk
  have hrest {k : String} (h₁ : k ≠ n) (h₂ : k ≠ cfg.nodeID) : ran.state.hostList[k]? = s.hostList[k]? :=
    loop.framed.rest k h₁ h₂
  have hsender (hin : n ∉ s.hostList) : ran.state.hostList[n]? =
      (takenForSender cfg remote s.hostList data.toList).map fun p => p.2.dump :=
    loop.sender (.inl (by rw [isPublic_of_record hr]; rfl)) hself hin
  constructor
  · intro h
    by_cases hin : n ∈ s.hostList
    · exact .inl hin
    refine .inr fun p hp => ?_
    obtain ⟨item, hitem, hinfo⟩ := h n p.2.dump hin (by rw [hsender hin, hp]; rfl)
    rwa [← hinfo, parse_dump] at hitem
  · intro h k info hk hinfo
    by_cases hkn : k = n
    · subst hkn
      rw [hsender hk, Option.map_eq_some_iff] at hinfo
      obtain ⟨p, hp, rfl⟩ := hinfo
      exact ⟨p.2, (h.resolve_left hk) p hp, parse_dump _⟩
    · by_cases hko : k = cfg.nodeID
      · subst hko
        obtain ⟨value, item, tar, hmem, hread, -, rfl⟩ := loop.own hself hk hinfo
        obtain ⟨_, hitem, _, -, hp⟩ := readEntry_eq_some.1 hread
        cases hp
        rw [Std.ExtTreeMap.mem_toList_iff_getElem?_eq_some.1 hmem] at hvalue
        cases hvalue
        exact ⟨own, hg, by rw [parse_dump, ← hitem, hparse]⟩
      · rw [hrest hkn hko, Std.ExtTreeMap.getElem?_eq_none hk] at hinfo
        cases hinfo

end

/-! Two nodes behind one NAT: the sender `b` is given the record of `a`. -/

/-- The sender's table. -/
def natTable : StrMap String :=
  ((∅ : StrMap String).insert "a" (sampleMapped ⟨"5.5.5.5", 1000⟩).dump).insert "b"
    (sampleMapped ⟨"5.5.5.5", 2000⟩).dump |>.insert "r" (sampleMapped ⟨"6.6.6.6", 3000⟩).dump

theorem record?_sampleMapped (e : Endpoint) : record? (sampleMapped e) = some ⟨"mapping", "", e⟩ :=
  record?_nodeInfo ..

theorem natTable_toList : (natTable.map fun _ info => Json.string info).toList =
    [("a", .string (sampleMapped ⟨"5.5.5.5", 1000⟩).dump), ("b", .string (sampleMapped ⟨"5.5.5.5", 2000⟩).dump),
      ("r", .string (sampleMapped ⟨"6.6.6.6", 3000⟩).dump)] := rfl

theorem natTable_fits :
    ((updateMsg natSender natTable).val.dump.flatMap String.utf8EncodeChar).length ≤ bufferSize := by
  decide +kernel

theorem update_binds_ids_iff_natTable :
    ¬ ∀ (k info : String), k ∉ (init natReceiver).hostList →
      (@react digitsBoost natReceiver
        (.receive none ⟨"5.5.5.5", 2000⟩ (wire (updateMsg natSender natTable).dump) ⟨0, "m", "k"⟩)
        (init natReceiver)).state.hostList[k]? = some info →
      ∃ item, givenRecord (natTable.map fun _ info => .string info) k = some item ∧ parse info = some item := by
  let _ := digitsBoost
  have hwf : WfTable natTable :=
    ((WfTable.empty.insert (by simpa using record?_sampleMapped _) _).insert
      (by simpa using record?_sampleMapped _) _).insert (by simpa using record?_sampleMapped _) _
  have hj := isMessage_update natSender natTable
  rw [update_binds_ids_iff rfl (.inl rfl) (heard_wire (by decide) (by rw [wire_dump]; exact natTable_fits)) hj.type
    hj.id (data_updateMsg _ _) hwf.given]
  rintro (h | h | h | h)
  · exact absurd h (by decide)
  · exact h (by decide +kernel)
  · simp [init] at h
  · have hb := h ("a", sampleMapped ⟨"5.5.5.5", 1000⟩) (by
      rw [natTable_toList, takenForSender, classify, readEntry_of_record (record?_sampleMapped _)]
      simp [init, natReceiver, sampleNode])
    rw [givenRecord_map, show natTable[natSender.nodeID]? = some (sampleMapped ⟨"5.5.5.5", 2000⟩).dump from rfl,
      Option.bind_some, parse_dump] at hb
    have hsame := congrArg (fun j => j.bind record?) hb
    simp [record?_sampleMapped] at hsame

theorem update_binds_foreign_record :
    ∃ s' sent, @Step digitsBoost natReceiver (init natReceiver)
        ⟨.receive none ⟨"5.5.5.5", 2000⟩ (wire (updateMsg natSender natTable).dump) ⟨0, "m", "k"⟩, sent⟩ s' ∧
      "b" ∉ (init natReceiver).hostList ∧ s'.hostList["b"]? = natTable["a"]? ∧ natTable["a"]? ≠ natTable["b"]? := by
  let _ := digitsBoost
  obtain ⟨s', o, loop, hb⟩ : ∃ s' o, LoopRan natReceiver "b" ⟨"5.5.5.5", 2000⟩
      { arrive (wire (updateMsg natSender natTable).dump) (init natReceiver) with
        localEpInfo := sampleMapped ⟨"6.6.6.6", 3000⟩ }
      (natTable.map fun _ info => Json.string info).toList ⟨.ok (), s', o⟩ ∧
        s'.hostList["b"]? = some (sampleMapped ⟨"5.5.5.5", 1000⟩).dump := by
    rw [natTable_toList]
    refine ⟨_, _, .cons (.sameIp (readEntry_of_record (record?_sampleMapped _)) (by simp [arrive, init]) (by decide) rfl)
      (.cons (.sameIp (readEntry_of_record (record?_sampleMapped _)) (by decide +kernel) (by decide) rfl)
        (.cons (.own (readEntry_of_record (record?_sampleMapped _)) (by decide +kernel) rfl) .nil)), rfl⟩
  refine ⟨_, _, step_of_handled ⟨0, "m", "k"⟩ rfl (by decide) natTable_fits (isMessage_update _ _)
    (.update (by decide) (data_updateMsg _ _) rfl (by simp) loop), by simp [init], hb, ?_⟩
  intro h
  have hsame : record? (sampleMapped ⟨"5.5.5.5", 1000⟩) = record? (sampleMapped ⟨"5.5.5.5", 2000⟩) :=
    congrArg record? (dump_inj (Option.some.inj h))
  simp [record?_sampleMapped] at hsame

end NatServer

import NatServer.Server.Contact
/-!
# Updates of records

The loop over an update reads the table, the own record and the entries; where
they are records it gets through all of them. Before the loop the handler
prints what it found under its own id, and does so whether it found anything.
-/

namespace NatServer

open Effect Json

variable {cfg : Config} {s s' : Server} {o : List SendTo} {n : String} {see remote : Endpoint} {l : List (String × Json)}
  {data : StrMap Json}

/-! ## The loop over records -/

/-- One round of the loop. -/
theorem entry_of_records (cfg : Config) (n key : String) {info : String} {r : Record} (see : Endpoint)
    (hw : WfTable s.hostList) (hown : WfRecord s.localEpInfo) (hr : textRecord info = some r) :
    ∃ see' s' o, EntryRan cfg n see key (.string info) s ⟨.ok see', s', o⟩ ∧ WfTable s'.hostList := by
  obtain ⟨item, hitem, hv⟩ := readEntry_of_text hr
  have hdump : textRecord item.dump = some r := by rwa [textRecord_dump]
  by_cases hk : checkKey r.endpoint ∈ s.hostList
  · exact ⟨_, _, _, .known hv hk, hw⟩
  by_cases ho : cfg.nodeID = key
  · exact ⟨_, _, _, .own hv hk ho, hw.insertIfNew _ fun _ => ⟨r, hdump⟩⟩
  by_cases hip : r.endpoint.ip = see.ip
  · exact ⟨_, _, _, .sameIp hv hk ho hip, hw.insertIfNew _ fun _ => ⟨r, hdump⟩⟩
  have hnat := natPublic_of_record hitem
  rcases hp : r.isPublic with _ | _ <;> rw [hp] at hnat
  · obtain ⟨relay, hrelay⟩ := relayOf_of_records hw.mem_toList see
    obtain ⟨own, hownr⟩ := hown
    have hself := isPublic_of_record hownr
    rcases hop : own.isPublic with _ | _ <;> rw [hop] at hself
    · exact ⟨_, _, _, .punched hv hk ho hip hnat hrelay hself, hw⟩
    · exact ⟨_, _, _, .proxied hv hk ho hip hnat hrelay hself, hw⟩
  · exact ⟨_, _, _, .direct hv hk ho hip hnat, hw⟩

/-- The loop gets through a list of records. -/
theorem loop_of_records (cfg : Config) (n : String) (see : Endpoint) (hw : WfTable s.hostList)
    (hown : WfRecord s.localEpInfo) (hl : ∀ p ∈ l, ∃ info r, p.2 = .string info ∧ textRecord info = some r) :
    ∃ s' o, LoopRan cfg n see s l ⟨.ok (), s', o⟩ ∧ WfTable s'.hostList := by
  induction l generalizing see s with
  | nil => exact ⟨s, [], .nil, hw⟩
  | cons p l ih =>
    obtain ⟨key, value⟩ := p
    obtain ⟨info, r, rfl, hr⟩ := hl (key, value) List.mem_cons_self
    obtain ⟨see', s₁, o₁, entry, hw₁⟩ := entry_of_records cfg n key see hw hown hr
    have hown₁ : s₁.localEpInfo = s.localEpInfo := entry.localEpInfo
    obtain ⟨s₂, o₂, loop, hw₂⟩ := ih see' hw₁ (by rwa [hown₁]) fun p hp => hl p (List.mem_cons_of_mem _ hp)
    exact ⟨s₂, _, .cons entry loop, hw₂⟩

/-- A loop that completes got through all entries. -/
theorem LoopRan.loopTo (h : LoopRan cfg n see s l ⟨.ok (), s', o⟩) : ∃ see', LoopTo cfg n see s l see' s' := by
  induction l generalizing see s o with
  | nil =>
    cases h
    exact ⟨see, .nil⟩
  | cons p l ih =>
    cases h with
    | cons entry loop =>
      obtain ⟨see', hloop⟩ := ih loop
      exact ⟨see', .cons entry hloop⟩

/-- The entries of an update of records are texts of records. -/
theorem records_of_given
    (hwf : ∀ (k : String) value, data[k]? = some value → ∃ item, givenRecord data k = some item ∧ WfRecord item) :
    ∀ p ∈ data.toList, ∃ info r, p.2 = .string info ∧ textRecord info = some r := by
  rintro ⟨k, value⟩ hp
  have hvalue := Std.ExtTreeMap.mem_toList_iff_getElem?_eq_some.1 hp
  obtain ⟨item, hitem, r, hr⟩ := hwf k value hvalue
  rw [givenRecord, hvalue, Option.bind_some] at hitem
  obtain ⟨info, hinfo, hparse⟩ := Option.bind_eq_some_iff.1 hitem
  exact ⟨info, r, getString_eq_some.1 hinfo, by rw [textRecord, hparse, Option.bind_some, hr]⟩

/-! ## What an update does to the receiver -/

/-- The handler dereferences no end iterator, comes through the rounds of all
entries, and keeps the own record where the update has none. -/
structure Processed (cfg : Config) (s : Server) (remote : Endpoint) (n : String) (data : StrMap Json)
    (r : Ran Server SendTo Fault Unit) : Prop where
  inside : r.result ≠ .error .endIterator
  through : r.result = .ok () ∧ ∃ own see s₁,
    LoopTo cfg n remote { s with localEpInfo := own } data.toList see s₁ ∧ r.state = s₁.rearm
  kept : cfg.nodeID ∉ data → r.state.localEpInfo = s.localEpInfo

section
variable [Boost] {error : Option ErrorCode} {datagram : List UInt8} {draws : Draws} {j : Json}

/-- An update that does not list the receiver ends it. -/
theorem update_unlisted (draws : Draws) (hs : s.receiving = true) (he : error = none ∨ error = some .message_size)
    (hheard : heard cfg remote datagram = some j) (htype : messageType j = some "update") (hn : messageID j = some n)
    (hself : n ≠ cfg.nodeID) (hdata : j.sub "data" = some (.object data)) (hunlisted : cfg.nodeID ∉ data) :
    (react cfg (.receive error remote datagram draws) s).result = .error .endIterator := by
  have hfound (s : Server) : getself cfg (object data) s = ⟨.error .endIterator, s, []⟩ := by
    simp only [getself, view_object, StrMap.notMem_iff.1 hunlisted]
    rfl
  rw [react_heard (arrive_recvBuffer hs datagram) he hheard, handleJson_eq hn htype rfl, dispatch, if_neg hself,
    run_bind, run_bind, update, throwing, hdata, orFail_some_bind, run_bind, hfound]

/-- An update of records is processed safely exactly where it lists the
receiver. -/
theorem update_processed_iff (draws : Draws) (hs : s.receiving = true) (he : error = none ∨ error = some .message_size)
    (hheard : heard cfg remote datagram = some j) (htype : messageType j = some "update") (hn : messageID j = some n)
    (hself : n ≠ cfg.nodeID) (hdata : j.sub "data" = some (.object data)) (hw : WfTable s.hostList)
    (hwf : ∀ (k : String) value, data[k]? = some value → ∃ item, givenRecord data k = some item ∧ WfRecord item) :
    Processed cfg (arrive datagram s) remote n data (react cfg (.receive error remote datagram draws) s) ↔
      cfg.nodeID ∈ data := by
  constructor
  · intro h
    by_contra hunlisted
    exact h.inside (update_unlisted draws hs he hheard htype hn hself hdata hunlisted)
  · intro hlisted
    obtain ⟨own, r, hown, hr⟩ := given_of_mem hwf hlisted
    obtain ⟨value, hvalue, hparse⟩ := Option.bind_eq_some_iff.1 hown
    -- the own record is the one the update gives, so the loop reads records only
    obtain ⟨s₁, o, loop, -⟩ := loop_of_records (s := { arrive datagram s with localEpInfo := own }) cfg n remote hw ⟨r, hr⟩
      (records_of_given hwf)
    obtain ⟨see, hloop⟩ := loop.loopTo
    have hrun : Completes (react cfg (.receive error remote datagram draws)) s () s₁.rearm o :=
      receive_completes (arrive_recvBuffer hs datagram) he hheard hn htype (MsgType.ofText?_text .update)
        (.update hself hdata hvalue hparse loop)
    rw [Completes] at hrun
    rw [hrun]
    exact ⟨by simp, ⟨rfl, own, see, s₁, hloop, rfl⟩, fun hunlisted => absurd hlisted hunlisted⟩

end

/-! The update of `b` with `a` and `r` in it, and the one from before `b` knew
of `r`. -/

theorem update_processed_iff_peers :
    Processed peersReceiver (arrive (wire (updateMsg natSender peersTable).dump) (init peersReceiver)) ⟨"7.7.7.7", 2000⟩
      "b" peersData (@react digitsBoost peersReceiver (peersUpdate ⟨"7.7.7.7", 2000⟩) (init peersReceiver)) := by
  let _ := digitsBoost
  have hj := isMessage_update natSender peersTable
  refine (update_processed_iff ⟨0, "m", "k"⟩ rfl (.inl rfl) (peersUpdate_heard (by decide : "7.7.7.7" ≠ "6.6.6.6") 2000)
    hj.type hj.id (by decide) (data_updateMsg _ _) WfTable.empty peersData_wf).2 ?_
  exact StrMap.mem_iff.2 ⟨.string (selfInfo peersReceiver).dump, rfl⟩

/-- What `b` knows: the node `a`. -/
def strangerTable : StrMap String := (∅ : StrMap String).insert "a" peersInfo.dump

def strangerData : StrMap Json := strangerTable.map fun _ info => .string info

theorem strangerData_wf (k : String) (value : Json) (hk : strangerData[k]? = some value) :
    ∃ item, givenRecord strangerData k = some item ∧ WfRecord item := by
  have hwf : WfTable strangerTable := WfTable.empty.insert ((textRecord_dump _).trans record?_peersInfo) _
  exact hwf.given k value hk

/-- It ends the server that was just started. -/
theorem stranger_ends_receiver :
    WfTable (init peersReceiver).hostList ∧ WfRecord (init peersReceiver).localEpInfo ∧
    (∀ (k : String) value, strangerData[k]? = some value → ∃ item, givenRecord strangerData k = some item ∧ WfRecord item) ∧
    (@react digitsBoost peersReceiver (.receive none ⟨"7.7.7.7", 2000⟩ (wire (updateMsg natSender strangerTable).dump)
      ⟨0, "m", "k"⟩) (init peersReceiver)).result = .error .endIterator ∧
    ¬ Processed peersReceiver (arrive (wire (updateMsg natSender strangerTable).dump) (init peersReceiver))
      ⟨"7.7.7.7", 2000⟩ "b" strangerData (@react digitsBoost peersReceiver
        (.receive none ⟨"7.7.7.7", 2000⟩ (wire (updateMsg natSender strangerTable).dump) ⟨0, "m", "k"⟩)
        (init peersReceiver)) := by
  let _ := digitsBoost
  have hj := isMessage_update natSender strangerTable
  have hfit : ((updateMsg natSender strangerTable).val.dump.flatMap String.utf8EncodeChar).length ≤ bufferSize := by
    decide +kernel
  have hheard : heard peersReceiver ⟨"7.7.7.7", 2000⟩ (wire (updateMsg natSender strangerTable).dump) =
      some (updateMsg natSender strangerTable) := heard_wire (by decide) (by rwa [wire_dump])
  have hunlisted : peersReceiver.nodeID ∉ strangerData := by decide +kernel
  have hend := update_unlisted (s := init peersReceiver) ⟨0, "m", "k"⟩ rfl (.inl rfl) hheard hj.type hj.id
    (by decide) (data_updateMsg _ _) hunlisted
  exact ⟨WfTable.empty, ⟨_, record?_selfInfo peersReceiver⟩, strangerData_wf, hend, fun h => h.inside hend⟩

end NatServer

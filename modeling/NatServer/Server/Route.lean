import NatServer.Server.Check
import NatServer.Server.Update
/-!
# Route updates on the wire

`updateRouteInfo` sends the whole table as JSON text, whatever its length. The
receiver's buffer holds 10000 bytes: an update that fits is read back as it
was sent, and one that does not is cut and not accepted.
-/

namespace NatServer

open Effect Json

variable {cfg : Config} {s : Server} {o : List SendTo} {table : StrMap String}

/-! ## What is received -/

/-- The receiver reads the update and finds the table in it. -/
def ReadsTable (cfg : Config) (remote : Endpoint) (r : Server) (msg : String) (table : StrMap String) : Prop :=
  remote.ip ≠ cfg.localIp ∧ ∃ j m, recvJson? (arrive (wire msg) r).recvBuffer = some j ∧
    messageType j = some "update" ∧ j.sub "data" = some (.object m) ∧ ∀ k : String, m[k]? = table[k]?.map .string

/-- The table that is read is the one the handler goes over: it completes
exactly where the loop over that table's entries does. -/
theorem ReadsTable.completes_iff [Boost] {remote : Endpoint} {r r' : Server} {msg n : String} {own : Json}
    {error : Option ErrorCode} {draws : Draws} (h : ReadsTable cfg remote r msg table) (hr : r.receiving = true)
    (he : error = none ∨ error = some .message_size)
    (hn : (heard cfg remote (wire msg)).bind messageID = some n) (hself : n ≠ cfg.nodeID)
    (hown : table[cfg.nodeID]?.bind parse = some own) :
    Completes (react cfg (.receive error remote (wire msg) draws)) r () r' o ↔
      ∃ r₁, LoopRan cfg n remote { arrive (wire msg) r with localEpInfo := own }
        (table.map fun _ info => .string info).toList ⟨.ok (), r₁, o⟩ ∧ r' = r₁.rearm := by
  obtain ⟨hip, j, m, hread, htype, hdata, hm⟩ := h
  obtain rfl : m = table.map fun _ info => .string info :=
    Std.ExtTreeMap.ext_getElem? fun k => by rw [hm k, Std.ExtTreeMap.getElem?_map]
  rw [arrive_recvBuffer hr] at hread
  have hheard : heard cfg remote (wire msg) = some j := by rw [heard, if_pos hip, hread]
  rw [hheard, Option.bind_some] at hn
  exact update_completes_iff hr he hheard htype hn hself hdata ((givenRecord_map ..).trans hown)

/-- An update that is cut is not read. -/
theorem ReadsTable.fits {cfg' : Config} {remote : Endpoint} {r : Server} (hr : r.receiving = true)
    (h : ReadsTable cfg' remote r (updateMsg cfg s.hostList).dump table) :
    (wire (updateMsg cfg s.hostList).dump).length ≤ bufferSize := by
  obtain ⟨-, j, m, hread, -⟩ := h
  obtain ⟨m', hm'⟩ := (isMessage_update cfg s.hostList).object
  by_contra hlong
  rw [arrive_recvBuffer hr, hm', recvJson?_cut (by rw [← hm']; omega)] at hread
  cases hread

/-- The receiver of a route update, whatever it received before, reads the
table in it exactly where the update fits its buffer and does not come from
its own ip, which the handler skips. -/
theorem update_read_iff {cfg' : Config} {r : Server} {remote : Endpoint} {x : SendTo}
    (ho : routeUpdate cfg s.hostList = some o) (hx : x ∈ o) (hr : r.receiving = true) :
    ReadsTable cfg' remote r x.msg s.hostList ↔
      remote.ip ≠ cfg'.localIp ∧ (wire (updateMsg cfg s.hostList).dump).length ≤ bufferSize := by
  have hj := isMessage_update cfg s.hostList
  rw [notifications_msg ho x hx]
  constructor
  · intro h
    exact ⟨h.1, h.fits hr⟩
  · rintro ⟨hip, hfit⟩
    rw [ReadsTable, arrive_recvBuffer hr]
    exact ⟨hip, _, _, recvJson?_wire hfit, hj.type, data_updateMsg _ _, fun k => Std.ExtTreeMap.getElem?_map⟩

theorem update_read_iff_sample : ∃ (s : Server) (o : List SendTo) (x : SendTo),
    WfTable s.hostList ∧ routeUpdate checkServer s.hostList = some o ∧ x ∈ o ∧
    ReadsTable checkNode ⟨"10.0.0.1", 80⟩ (init checkNode) x.msg s.hostList := by
  let s : Server := { init checkServer with
    hostList := (∅ : StrMap String).insert "n" (sampleMapped ⟨"30.0.0.1", 5555⟩).dump }
  have hw : WfTable s.hostList := WfTable.empty.insert (by
    rw [textRecord_dump]
    exact record?_nodeInfo ..) _
  obtain ⟨o, ho⟩ := hw.routeUpdate checkServer
  have hx := routeUpdate_mem ho (StrMap.getElem?_insert_self ..) (by decide : "n" ≠ checkServer.nodeID)
    ((textRecord_dump _).trans (record?_sampleMapped _))
  refine ⟨s, o, _, hw, ho, hx, (update_read_iff ho hx rfl).2 ⟨by decide, ?_⟩⟩
  rw [wire_dump]
  decide +kernel

/-! ## How long an update is -/

/-- An update has at least the length of the texts in its table. -/
theorem length_updateMsg {c : Nat} (h : ∀ k info : String, table[k]? = some info → c ≤ info.length) :
    table.size * c ≤ (wire (updateMsg cfg table).dump).length := by
  obtain ⟨m, hm, hdata⟩ := sub_eq_some (data_updateMsg cfg table) (fun h => by cases congrArg view h)
  have hmem : ("data", (Json.object (table.map fun _ info => .string info)).val) ∈
      m.toList.map fun p => (p.1, p.2.val) :=
    List.mem_map_of_mem (f := fun p : String × Json => (p.1, p.2.val))
      (Std.ExtTreeMap.mem_toList_iff_getElem?_eq_some.2 hdata)
  refine le_trans ?_ (length_wire _).1
  rw [hm]
  refine le_trans ?_ (length_dump_of_mem hmem)
  refine le_trans (le_of_eq ?_) (length_dump_object (c := c) fun p hp => ?_)
  · simp
  · obtain ⟨q, hq, rfl⟩ := List.mem_map.1 hp
    have hget := Std.ExtTreeMap.mem_toList_iff_getElem?_eq_some.1 hq
    rw [Std.ExtTreeMap.getElem?_map, Option.map_eq_some_iff] at hget
    obtain ⟨info, hinfo, hstr⟩ := hget
    rw [← hstr]
    exact le_trans (h _ _ hinfo) (le_trans (Nat.le_add_right _ 2) (length_dumpString info).1)

/-- A detect with short texts fits the buffer. -/
theorem detectMsg_fits {text : String} (h : cfg.nodeID.length + cfg.localIp.length + text.length ≤ 300) :
    ((detectMsg cfg text).val.dump.flatMap String.utf8EncodeChar).length ≤ bufferSize := by
  have hdata : (Json.obj [("localip", .string cfg.localIp), ("localport", .string text)]).val =
      .object [("localip", .string cfg.localIp), ("localport", .string text)] :=
    obj_val [("localip", .string cfg.localIp), ("localport", .string text)] (by simp [KeySorted]; decide)
      (by simp [List.lookup_cons]) (by simp)
  have hval : (detectMsg cfg text).val = .object [("data", .object [("localip", .string cfg.localIp),
      ("localport", .string text)]), ("msgtype", .string "detect"), ("nodeID", .string cfg.nodeID)] := by
    rw [← hdata]
    refine obj_val [("data", .obj [("localip", .string cfg.localIp), ("localport", .string text)]),
      ("msgtype", .string "detect"), ("nodeID", .string cfg.nodeID)] ?_ ?_ (by simp)
    · simp [KeySorted]
      decide
    · simp [List.lookup_cons]
  have hkeys : (dumpString "data").length = 6 ∧ (dumpString "localip").length = 9 ∧
      (dumpString "localport").length = 11 ∧ (dumpString "msgtype").length = 9 ∧
      (dumpString "detect").length = 8 ∧ (dumpString "nodeID").length = 8 := by decide
  have hip := (length_dumpString cfg.localIp).2
  have htext := (length_dumpString text).2
  have hid := (length_dumpString cfg.nodeID).2
  have hlen : (detectMsg cfg text).val.dump.length ≤ 100 + 6 * 300 := by
    rw [hval]
    simp only [Value.dump, dumpMembers, List.cons_append, List.length_cons, List.length_append, List.length_nil]
    omega
  have hwire := (length_wire (detectMsg cfg text)).2
  rw [wire_dump] at hwire
  have : bufferSize = 10000 := rfl
  omega

/-! A node that reports under ever new ids fills the table. -/

def crowdNode (i : Nat) : Config := sampleNode (toString i) "20.0.0.1" true

/-- The table of a server that got a detect under each of the first ids. -/
theorem crowd_reachable (count : Nat) (hfit : ∀ i < count,
      ((detectMsg (crowdNode i) "80").val.dump.flatMap String.utf8EncodeChar).length ≤ bufferSize) :
    ∃ s, @Reachable digitsBoost checkServer s ∧ s.receiving = true ∧ WfTable s.hostList ∧
      (∀ i < count, toString i ∈ s.hostList) ∧ ∀ k info : String, s.hostList[k]? = some info → 85 ≤ info.length := by
  let _ := digitsBoost
  induction count with
  | zero => exact ⟨init checkServer, .init, rfl, WfTable.empty, nofun, fun k info h => by simp [init] at h⟩
  | succ count ih =>
    obtain ⟨s, hs, hrecv, hw, hin, hlen⟩ := ih fun i hi => hfit i (by omega)
    have hcast : Boost.lexical_cast "80" = some 80 := rfl
    obtain ⟨o, s', hstep, hleft, hrecv'⟩ := detectPublic_step ⟨0, "m", "k"⟩ hrecv hw
      (by decide : (⟨"20.0.0.1", 80⟩ : Endpoint).ip ≠ checkServer.localIp) (hfit count (by omega))
      (isMessage_detect (crowdNode count) "80") (detectData_detectMsg _ hcast) (by simp [crowdNode, sampleNode])
    refine ⟨s', hs.step hstep, hrecv', ?_, ?_, ?_⟩
    · rw [hleft.hostList]
      exact hw.registered _ _ (record?_nodeInfo ..)
    · intro i hi
      rw [hleft.hostList]
      by_cases h : i = count
      · subst h
        simp [registered, crowdNode, sampleNode]
      · exact (Framed.registered _ _ _).keys _ (hin i (by omega))
    · intro k info hk
      rw [hleft.hostList, registered, StrMap.getElem?_insertIfNew, StrMap.getElem?_insertIfNew] at hk
      -- the new entry and the own one are long enough as they stand
      split_ifs at hk
      · cases hk
        decide +kernel
      · cases hk
        decide +kernel
      · exact hlen k info hk

/-- A reachable table of records of which no update is read. -/
theorem crowd_update_lost : ∃ s o x,
    @Reachable digitsBoost checkServer s ∧ WfTable s.hostList ∧ routeUpdate checkServer s.hostList = some o ∧ x ∈ o ∧
      ¬ ReadsTable (crowdNode 0) ⟨checkServer.localIp, 80⟩ (init (crowdNode 0)) x.msg s.hostList := by
  have hdigits : ∀ i < 120, (toString i).length ≤ 3 := by decide +kernel
  obtain ⟨s, hs, -, hw, hin, hlen⟩ := crowd_reachable 120 fun i hi => detectMsg_fits <| by
    have hid : (crowdNode i).nodeID.length ≤ 3 := hdigits i hi
    have hip : (crowdNode i).localIp.length = 8 := by simp [crowdNode, sampleNode]; decide
    have htext : "80".length = 2 := by decide
    omega
  obtain ⟨o, ho⟩ := hw.routeUpdate checkServer
  have hsize : 120 ≤ s.hostList.size := by
    have hsub : (List.range 120).map toString ⊆ s.hostList.keys := fun k hk => by
      obtain ⟨i, hi, rfl⟩ := List.mem_map.1 hk
      exact Std.ExtTreeMap.mem_keys.2 (hin i (List.mem_range.1 hi))
    have hinj : Function.Injective fun i : Nat => toString i := fun i i' h => by
      simpa [Nat.toString_eq_ofList_toDigits, ofDigits] using congrArg (fun text => ofDigits text.toList) h
    have := (List.subperm_of_subset (List.nodup_range.map hinj) hsub).length_le
    rwa [List.length_map, List.length_range, Std.ExtTreeMap.length_keys] at this
  have hzero : "0" ∈ s.hostList := hin 0 (by decide)
  obtain ⟨info, hinfo⟩ := StrMap.mem_iff.1 hzero
  obtain ⟨r, hr⟩ := hw _ _ hinfo
  have hx := routeUpdate_mem ho hinfo (by decide : "0" ≠ checkServer.nodeID) hr
  refine ⟨s, o, _, hs, hw, ho, hx, fun h => ?_⟩
  rw [notifications_msg ho _ hx] at h
  have hfit := h.fits rfl
  have : s.hostList.size * 85 ≤ (wire (updateMsg checkServer s.hostList).dump).length := length_updateMsg hlen
  have : bufferSize = 10000 := rfl
  omega

end NatServer

import NatServer.Server.Frame
/-!
# Node records

What a text of `_HostList` says when it is well formed: the NAT fields and the
first endpoint. `Record` is the abstract value, `record?` decides and reads
it, and every reader of the table is total where all texts are records.
-/

namespace NatServer

open Effect Json

/-- A node record as the readers of the table see it. -/
structure Record where
  natmapping : String
  natfiltering : String
  endpoint : Endpoint
  deriving DecidableEq, Repr

/-- Public: neither mapped nor filtered. -/
def Record.isPublic (r : Record) : Bool := r.natmapping = "Nonmap" ∧ r.natfiltering = "Nonfilter"

/-- An integer in 0..65535: one that an unsigned short holds. -/
def getPort (j : Json) : Option UInt16 :=
  match j.view with
  | .integer n => if n = .ofUInt16 n.toUInt16 then some n.toUInt16 else none
  | _ => none

/-- The record a value is, if it is well formed: an object with strings
`natmapping` and `natfiltering` and an array `endpoint` whose first element
has a string `ip` and an integer `port` in 0..65535. -/
def record? (j : Json) : Option Record := do
  let natmapping ← (j.sub "natmapping").bind getString
  let natfiltering ← (j.sub "natfiltering").bind getString
  let ip ← epIp j
  let port ← (endpoint0 "port" j).bind getPort
  return ⟨natmapping, natfiltering, ⟨ip, port⟩⟩

/-- The record a text is. -/
def textRecord (info : String) : Option Record := (parse info).bind record?

def WfRecord (j : Json) : Prop := ∃ r, record? j = some r

instance (j : Json) : Decidable (WfRecord j) :=
  decidable_of_iff ((record? j).isSome = true) Option.isSome_iff_exists

/-- Every text of the table is a record. -/
def WfTable (table : StrMap String) : Prop :=
  ∀ (k info : String), table[k]? = some info → ∃ r, textRecord info = some r

theorem record?_eq_some {j : Json} {r : Record} : record? j = some r ↔
    (j.sub "natmapping").bind getString = some r.natmapping ∧ (j.sub "natfiltering").bind getString = some r.natfiltering ∧
      epIp j = some r.endpoint.ip ∧ (endpoint0 "port" j).bind getPort = some r.endpoint.port := by
  obtain ⟨m, f, ⟨ip, port⟩⟩ := r
  simp only [record?, Option.bind_eq_bind, Option.bind_eq_some_iff, Option.pure_def, Option.some.injEq,
    Record.mk.injEq, Endpoint.mk.injEq]
  constructor
  · rintro ⟨_, hm, _, hf, _, hip, _, hport, rfl, rfl, rfl, rfl⟩
    exact ⟨hm, hf, hip, hport⟩
  · rintro ⟨hm, hf, hip, hport⟩
    exact ⟨m, hm, f, hf, ip, hip, port, hport, rfl, rfl, rfl, rfl⟩

theorem getPort_eq_some {j : Json} {p : UInt16} : getPort j = some p ↔ j = ushort p := by
  constructor
  · intro h
    unfold getPort at h
    split at h
    · next n e =>
      split at h
      · next hn => cases h; rw [eq_of_view e, View.toJson, ushort, ← hn]
      · cases h
    · cases h
  · rintro rfl
    simp [getPort, ushort]

@[simp] theorem getPort_ushort (p : UInt16) : getPort (ushort p) = some p := getPort_eq_some.2 rfl

@[simp] theorem textRecord_dump (j : Json) : textRecord j.dump = record? j := by simp [textRecord]

section readers
variable {j : Json} {r : Record} (h : record? j = some r)
include h

theorem epIp_of_record : epIp j = some r.endpoint.ip := (record?_eq_some.1 h).2.2.1

theorem epPort_of_record : epPort j = some r.endpoint.port := by
  obtain ⟨x, hx, hp⟩ := Option.bind_eq_some_iff.1 (record?_eq_some.1 h).2.2.2
  simp [epPort, hx, getPort_eq_some.1 hp]

theorem firstEndpoint_of_record : firstEndpoint j = some r.endpoint := by
  simp [firstEndpoint, epIp_of_record h, epPort_of_record h]

theorem natPublic_of_record : natPublic j = some r.isPublic := by
  simp [natPublic, (record?_eq_some.1 h).1, (record?_eq_some.1 h).2.1, Record.isPublic]

theorem isPublic_of_record : isPublic j = some r.isPublic := by
  obtain ⟨x, hx, hm⟩ := Option.bind_eq_some_iff.1 (record?_eq_some.1 h).1
  obtain ⟨y, hy, hf⟩ := Option.bind_eq_some_iff.1 (record?_eq_some.1 h).2.1
  by_cases hn : r.natmapping = "Nonmap" <;> simp [isPublic, hx, hm, hy, hf, hn, Record.isPublic]

theorem endpointDiffers_of_record (seen : Endpoint) :
    endpointDiffers seen j = some (decide (seen ≠ r.endpoint)) := by
  obtain ⟨ip, port⟩ := seen
  rw [endpointDiffers, epIp_of_record h, epPort_of_record h]
  obtain ⟨m, f, ip', port'⟩ := r
  by_cases hip : ip = ip'
  · simp [hip]
  · simp [hip]

theorem readEntry_of_record : readEntry (.string j.dump) = some (j, r.endpoint) := by
  simp [readEntry, firstEndpoint_of_record h]

theorem ne_null_of_record : j ≠ null := by
  rintro rfl
  cases (record?_eq_some.1 h).1

end readers

/-! ## The records the handlers build -/

@[simp] theorem record?_nodeInfo (m f ip : String) (port : UInt16) (l : List Json) :
    record? (nodeInfo m f (endpointInfo ip port :: l)) = some ⟨m, f, ⟨ip, port⟩⟩ := by
  simp [record?_eq_some, nodeInfo, endpointInfo, epIp, endpoint0, List.lookup_cons]

theorem record?_publicInfo (e : Endpoint) : record? (publicInfo e) = some ⟨"Nonmap", "Nonfilter", e⟩ := record?_nodeInfo ..

theorem record?_selfInfo (cfg : Config) :
    record? (selfInfo cfg) = some ⟨"Nonmap", "Nonfilter", ⟨cfg.localIp, cfg.localPort⟩⟩ := record?_publicInfo _

theorem record?_mappedInfo (seen : Endpoint) (lip : String) (lport : UInt16) :
    record? (mappedInfo seen lip lport) = some ⟨"mapping", "", seen⟩ := record?_nodeInfo ..

/-- A verdict is written into a record. -/
theorem record?_setFiltering {info : String} {r : Record} (h : textRecord info = some r) (verdict : String) :
    ∃ j, setFiltering verdict info = some j ∧ record? j = some { r with natfiltering := verdict } := by
  obtain ⟨j, hj, hr⟩ := Option.bind_eq_some_iff.1 h
  obtain ⟨x, hx, -⟩ := Option.bind_eq_some_iff.1 (record?_eq_some.1 hr).1
  obtain ⟨j', hset⟩ := set_of_sub hx "natfiltering" (.string verdict)
  refine ⟨j', by simp [setFiltering, hj, hset], ?_⟩
  obtain ⟨hm, hf, hip, hport⟩ := record?_eq_some.1 hr
  refine record?_eq_some.2 ⟨?_, ?_, ?_, ?_⟩
  · simpa [sub_set hset] using hm
  · simp [sub_set hset]
  · simpa [epIp, endpoint0, sub_set hset] using hip
  · simpa [endpoint0, sub_set hset] using hport

theorem setFiltering_setFiltering {verdict info : String} {change : Json}
    (h : setFiltering verdict info = some change) : setFiltering verdict change.dump = some change := by
  obtain ⟨j, -, hset⟩ := Option.bind_eq_some_iff.1 h
  simp [setFiltering, set_set hset]

theorem withEndpoint0_eq_some {e : Endpoint} {j j' : Json} (h : withEndpoint0 e j = some j') :
    ∃ endpoint first first₁ first₂ endpoint₁, j.sub "endpoint" = some endpoint ∧ endpoint.sub0 = some first ∧
      first.set "ip" (.string e.ip) = some first₁ ∧ first₁.set "port" (.ushort e.port) = some first₂ ∧
      endpoint.set0 first₂ = some endpoint₁ ∧ j.set "endpoint" endpoint₁ = some j' := by
  simp only [withEndpoint0, Option.bind_eq_bind, Option.bind_eq_some_iff] at h
  obtain ⟨endpoint, he, first, hf, first₁, h₁, first₂, h₂, endpoint₁, h₀, hset⟩ := h
  exact ⟨endpoint, first, first₁, first₂, endpoint₁, he, hf, h₁, h₂, h₀, hset⟩

/-- The observed endpoint takes the place of the reported one, the NAT fields stay. -/
theorem record?_withEndpoint0 {e : Endpoint} {j j' : Json} {m f : String} (h : withEndpoint0 e j = some j')
    (hm : (j.sub "natmapping").bind getString = some m) (hf : (j.sub "natfiltering").bind getString = some f) :
    record? j' = some ⟨m, f, e⟩ := by
  obtain ⟨endpoint, first, first₁, first₂, endpoint₁, -, -, h₁, h₂, h₀, hset⟩ := withEndpoint0_eq_some h
  refine record?_eq_some.2 ⟨?_, ?_, ?_, ?_⟩
  · simpa [sub_set hset] using hm
  · simpa [sub_set hset] using hf
  · simp [epIp, endpoint0, sub_set hset, sub0_set0 h₀, sub_set h₂, sub_set h₁]
  · simp [endpoint0, sub_set hset, sub0_set0 h₀, sub_set h₂]

/-- The NAT fields of a record are there. -/
theorem natFields_of_record {j : Json} {r : Record} (h : record? j = some r) :
    ∃ natmapping natfiltering, j.sub "natmapping" = some natmapping ∧ j.sub "natfiltering" = some natfiltering ∧
      natmapping.getString = some r.natmapping ∧ natfiltering.getString = some r.natfiltering := by
  obtain ⟨natmapping, hm, hmt⟩ := Option.bind_eq_some_iff.1 (record?_eq_some.1 h).1
  obtain ⟨natfiltering, hf, hft⟩ := Option.bind_eq_some_iff.1 (record?_eq_some.1 h).2.1
  exact ⟨natmapping, natfiltering, hm, hf, hmt, hft⟩

theorem record?_helpBody {natmapping natfiltering : Json} {m f : String} (hm : natmapping.getString = some m)
    (hf : natfiltering.getString = some f) (seen : Endpoint) :
    record? (helpBody natmapping natfiltering seen) = some ⟨m, f, seen⟩ := by
  simp [record?_eq_some, helpBody, endpointInfo, epIp, endpoint0, List.lookup_cons, hm, hf]

/-- Where the ip can be read the endpoint can be replaced. -/
theorem withEndpoint0_of_epIp {j : Json} {ip : String} (h : epIp j = some ip) (e : Endpoint) :
    ∃ change, withEndpoint0 e j = some change := by
  obtain ⟨x, hx, -⟩ := Option.bind_eq_some_iff.1 h
  simp only [endpoint0, Option.bind_eq_bind, Option.bind_eq_some_iff] at hx
  obtain ⟨endpoint, hep, first, hfirst, hip⟩ := hx
  obtain ⟨first₁, h₁⟩ := set_of_sub hip "ip" (.string e.ip)
  have hip₁ : first₁.sub "ip" = some (.string e.ip) := by rw [sub_set h₁, if_pos rfl]
  obtain ⟨first₂, h₂⟩ := set_of_sub hip₁ "port" (.ushort e.port)
  obtain ⟨endpoint₁, h₀⟩ := set0_of_sub0 hfirst first₂
  obtain ⟨change, hset⟩ := set_of_sub hep "endpoint" endpoint₁
  exact ⟨change, by simp [withEndpoint0, hep, hfirst, h₁, h₂, h₀, hset]⟩

/-- The endpoint of a record can be replaced. -/
theorem withEndpoint0_of_record {j : Json} {r : Record} (h : record? j = some r) (e : Endpoint) :
    ∃ change, withEndpoint0 e j = some change ∧ record? change = some { r with endpoint := e } := by
  obtain ⟨change, hchange⟩ := withEndpoint0_of_epIp (epIp_of_record h) e
  obtain ⟨hm, hf, -⟩ := record?_eq_some.1 h
  exact ⟨change, hchange, record?_withEndpoint0 hchange hm hf⟩

/-- A record has its own endpoint. -/
theorem withEndpoint0_self {j : Json} {r : Record} (h : record? j = some r) : withEndpoint0 r.endpoint j = some j := by
  obtain ⟨-, -, hip, hport⟩ := record?_eq_some.1 h
  obtain ⟨x, hx, hip⟩ := Option.bind_eq_some_iff.1 hip
  obtain ⟨y, hy, hport⟩ := Option.bind_eq_some_iff.1 hport
  obtain rfl := getString_eq_some.1 hip
  obtain rfl := getPort_eq_some.1 hport
  simp only [endpoint0, Option.bind_eq_bind, Option.bind_eq_some_iff] at hx hy
  obtain ⟨endpoint, hep, first, hfirst, hsubIp⟩ := hx
  obtain ⟨_, hep', _, hfirst', hsubPort⟩ := hy
  cases hep.symm.trans hep'
  cases hfirst.symm.trans hfirst'
  have hne : first ≠ null := by
    rintro rfl
    exact absurd (congrArg (fun j => j.bind getString) hsubIp) (by simp)
  have hne' : endpoint ≠ null := by
    rintro rfl
    exact hne (Option.some.inj hfirst).symm
  have hip : first.set "ip" (.string r.endpoint.ip) = some first := by
    refine set_self hsubIp fun h => ?_
    cases (getString_string _).symm.trans (congrArg getString h)
  have hport : first.set "port" (.ushort r.endpoint.port) = some first := by
    refine set_self hsubPort fun h => ?_
    cases (getUShort_ushort _).symm.trans (congrArg getUShort h)
  simp only [withEndpoint0, hep, hfirst, hip, hport, set0_self hfirst hne, set_self hep hne', Option.bind_eq_bind,
    Option.bind_some]

/-! ## Tables of records -/

namespace WfTable
variable {table : StrMap String}

theorem empty : WfTable ∅ := fun _ _ h => by simp at h

theorem insert (h : WfTable table) {info : String} {r : Record} (hr : textRecord info = some r) (k : String) :
    WfTable (table.insert k info) := by
  intro k' info' h'
  by_cases hk : k' = k
  · subst hk
    rw [StrMap.getElem?_insert_self] at h'
    cases h'
    exact ⟨r, hr⟩
  · rw [StrMap.getElem?_insert_of_ne _ _ hk] at h'
    exact h k' info' h'

theorem insertIfNew (h : WfTable table) (k : String) {info : String}
    (hr : k ∉ table → ∃ r, textRecord info = some r) : WfTable (table.insertIfNew k info) := by
  intro k' info' h'
  rw [StrMap.getElem?_insertIfNew] at h'
  split at h'
  · next hk => cases h'; exact hr hk.2
  · exact h k' info' h'

theorem erase (h : WfTable table) (k : String) : WfTable (table.erase k) := by
  intro k' info' h'
  rw [StrMap.getElem?_erase] at h'
  split at h'
  · cases h'
  · exact h k' info' h'

theorem registered (h : WfTable table) (cfg : Config) (n : String) {info : Json} {r : Record}
    (hr : record? info = some r) : WfTable (registered cfg n info table) :=
  (h.insertIfNew n fun _ => ⟨r, by simpa using hr⟩).insertIfNew cfg.nodeID fun _ => ⟨_, by
    rw [textRecord_dump, selfInfo, publicInfo, record?_nodeInfo]⟩

theorem mem_toList (h : WfTable table) : ∀ p ∈ table.toList, ∃ r, textRecord p.2 = some r := fun p hp =>
  h p.1 p.2 (Std.ExtTreeMap.mem_toList_iff_getElem?_eq_some.1 hp)

end WfTable

/-- Where a text is a record, it parses to one. -/
theorem parse_of_textRecord {info : String} {r : Record} (h : textRecord info = some r) :
    ∃ j, parse info = some j ∧ record? j = some r := Option.bind_eq_some_iff.1 h

/-- An entry of an update that holds a record. -/
theorem readEntry_of_text {info : String} {r : Record} (h : textRecord info = some r) :
    ∃ item, record? item = some r ∧ readEntry (.string info) = some (item, r.endpoint) := by
  obtain ⟨item, hitem, hr⟩ := parse_of_textRecord h
  exact ⟨item, hr, by simp [readEntry, hitem, firstEndpoint_of_record hr]⟩

section lists
variable {l : List (String × String)} (h : ∀ p ∈ l, ∃ r, textRecord p.2 = some r)
include h

/-- `getPublicNode` finds the text of a record, or nothing. -/
theorem findPublic_of_records (id : String) :
    ∃ info, findPublic id l = some info ∧ (info = "" ∨ ∃ r, textRecord info = some r ∧ r.isPublic = true) := by
  induction l with
  | nil => exact ⟨"", rfl, .inl rfl⟩
  | cons p l ih =>
    obtain ⟨k, info⟩ := p
    obtain ⟨r, hr⟩ := h (k, info) List.mem_cons_self
    obtain ⟨j, hj, hjr⟩ := parse_of_textRecord hr
    obtain ⟨info', hfind, hinfo'⟩ := ih fun p hp => h p (List.mem_cons_of_mem _ hp)
    by_cases hc : r.isPublic = true ∧ id ≠ k
    · exact ⟨info, by simp [findPublic, hj, isPublic_of_record hjr, hc.1, hc.2], .inr ⟨r, hr, hc.1⟩⟩
    · refine ⟨info', ?_, hinfo'⟩
      simp [findPublic, hj, isPublic_of_record hjr, hc, hfind]

/-- `updateRouteInfo` reads every entry. -/
theorem notifications_of_records (cfg : Config) (msg : Json) :
    ∃ o, notifications cfg msg l = some o := by
  induction l with
  | nil => exact ⟨[], rfl⟩
  | cons p l ih =>
    obtain ⟨k, info⟩ := p
    obtain ⟨r, hr⟩ := h (k, info) List.mem_cons_self
    obtain ⟨j, hj, hjr⟩ := parse_of_textRecord hr
    obtain ⟨o, ho⟩ := ih fun p hp => h p (List.mem_cons_of_mem _ hp)
    by_cases hk : k = cfg.nodeID
    · exact ⟨o, by simp [notifications, hj, hk, ho]⟩
    · exact ⟨⟨r.endpoint, msg.dump⟩ :: o, by
        simp [notifications, hj, hk, epIp_of_record hjr, epPort_of_record hjr, ho]⟩

/-- The search for a relay reads every entry. -/
theorem relayOf_of_records (see : Endpoint) : ∃ relay, relayOf see l = some relay := by
  induction l generalizing see with
  | nil => exact ⟨see, rfl⟩
  | cons p l ih =>
    obtain ⟨k, info⟩ := p
    obtain ⟨r, hr⟩ := h (k, info) List.mem_cons_self
    obtain ⟨j, hj, hjr⟩ := parse_of_textRecord hr
    have ih' := fun see => ih (fun p hp => h p (List.mem_cons_of_mem _ hp)) see
    by_cases hp : r.isPublic = true
    · obtain ⟨relay, hrelay⟩ := ih' r.endpoint
      exact ⟨relay, by
        simpa [relayOf, hj, isPublic_of_record hjr, hp, epIp_of_record hjr, epPort_of_record hjr] using hrelay⟩
    · obtain ⟨relay, hrelay⟩ := ih' see
      exact ⟨relay, by simpa [relayOf, hj, isPublic_of_record hjr, hp] using hrelay⟩

end lists

/-- The node of a record is notified at its endpoint. -/
theorem notifications_mem {cfg : Config} {msg : Json} {l : List (String × String)} {o : List SendTo}
    (h : notifications cfg msg l = some o) {id info : String} {r : Record} (hl : (id, info) ∈ l) (hid : id ≠ cfg.nodeID)
    (hr : textRecord info = some r) : ⟨r.endpoint, msg.dump⟩ ∈ o := by
  induction l generalizing o with
  | nil => cases hl
  | cons p l ih =>
    obtain ⟨id', info'⟩ := p
    simp only [notifications, Option.bind_eq_bind, Option.bind_eq_some_iff] at h
    obtain ⟨j, hj, h⟩ := h
    rcases List.mem_cons.1 hl with hp | hl
    · cases hp
      obtain ⟨j', hj', hjr⟩ := parse_of_textRecord hr
      cases hj.symm.trans hj'
      rw [if_neg hid] at h
      simp only [epIp_of_record hjr, epPort_of_record hjr, Option.some.injEq, exists_eq_left', Option.bind_eq_some_iff,
        Option.pure_def] at h
      obtain ⟨o', -, rfl⟩ := h
      exact List.mem_cons_self
    · split at h
      · exact ih h hl
      · simp only [Option.bind_eq_some_iff, Option.pure_def, Option.some.injEq] at h
        obtain ⟨ip, -, port, -, o', ho', rfl⟩ := h
        exact List.mem_cons_of_mem _ (ih ho' hl)

theorem routeUpdate_mem {cfg : Config} {table : StrMap String} {o : List SendTo} (ho : routeUpdate cfg table = some o)
    {id info : String} {r : Record} (hinfo : table[id]? = some info) (hid : id ≠ cfg.nodeID)
    (hr : textRecord info = some r) : ⟨r.endpoint, (updateMsg cfg table).dump⟩ ∈ o :=
  notifications_mem ho (Std.ExtTreeMap.mem_toList_iff_getElem?_eq_some.2 hinfo) hid hr

theorem WfTable.routeUpdate {table : StrMap String} (h : WfTable table) (cfg : Config) :
    ∃ o, routeUpdate cfg table = some o :=
  notifications_of_records h.mem_toList cfg _

end NatServer

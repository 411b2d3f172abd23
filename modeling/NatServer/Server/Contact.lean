import NatServer.Server.Check
/-!
# Who an update makes the server contact

For each entry of an update the loop sends an openconnect, a proxyconnect,
both or nothing. That depends on the table and on the address held so far,
which the rounds before it have changed: `walk` is where the loop is when it
comes to an entry, `contacts` what the round of the entry sends.
-/

namespace NatServer

open Effect Json

variable {cfg : Config} {n key : String} {see see' : Endpoint} {value own item : Json} {s s' : Server}
  {table table' : StrMap String} {l pre : List (String × Json)}

/-- The address and the table after the rounds of the entries; none where one
of them fails. -/
def walk (cfg : Config) (n : String) : Endpoint × StrMap String → List (String × Json) → Option (Endpoint × StrMap String)
  | spot, [] => some spot
  | (see, table), (key, value) :: rest =>
    match classify cfg see table key value with
    | .own item => walk cfg n (see, table.insertIfNew cfg.nodeID item.dump) rest
    | .sameIp item => walk cfg n (see, table.insertIfNew n item.dump) rest
    | .known | .direct _ => walk cfg n (see, table) rest
    | .relayed _ _ relay => walk cfg n (relay, table) rest
    | .unreadable | .unclassified | .noRelay => none

/-- What the round of an entry sends, by a server whose own record is `own`. -/
def contacts (cfg : Config) (own : Json) (see : Endpoint) (table : StrMap String) (key : String) (value : Json) :
    List SendTo :=
  let opening (tar : Endpoint) : SendTo := ⟨tar, (dataMsg cfg "openconnect" own).dump⟩
  match classify cfg see table key value with
  | .direct tar => [opening tar]
  | .relayed item tar relay =>
    ⟨relay, (dataMsg cfg "proxyconnect" item).dump⟩ :: if isPublic own = some false then [opening tar] else []
  | _ => []

/-! ## The rounds of the loop -/

/-- The round sends these, if the server can read its own record. -/
theorem EntryRan.contacts {r : Ran Server SendTo Fault Endpoint} (h : EntryRan cfg n see key value s r)
    (hself : (isPublic s.localEpInfo).isSome) : r.out = contacts cfg s.localEpInfo see s.hostList key value := by
  unfold NatServer.contacts
  cases h with
  | unreadable hv => simp [classify_unreadable hv]
  | known hv hk => simp [classify_known hv hk]
  | own hv hk ho => simp [classify_own hv hk ho]
  | sameIp hv hk ho hip => simp [classify_sameIp hv hk ho hip]
  | unclassified hv hk ho hip hnat => simp [classify_unclassified hv hk ho hip hnat]
  | direct hv hk ho hip hnat => simp [classify_direct hv hk ho hip hnat]
  | noRelay hv hk ho hip hnat hr => simp [classify_noRelay hv hk ho hip hnat hr]
  | selfUnknown hv hk ho hip hnat hr hs =>
    rw [hs] at hself
    cases hself
  | proxied hv hk ho hip hnat hr hs => simp [classify_relayed hv hk ho hip hnat hr, hs]
  | punched hv hk ho hip hnat hr hs => simp [classify_relayed hv hk ho hip hnat hr, hs]

/-- A round that completes is a step of the walk. -/
theorem EntryRan.walk {s₁ : Server} {o : List SendTo} (h : EntryRan cfg n see key value s ⟨.ok see', s₁, o⟩)
    (l : List (String × Json)) :
    walk cfg n (see, s.hostList) ((key, value) :: l) = walk cfg n (see', s₁.hostList) l := by
  rw [NatServer.walk]
  cases h with
  | known hv hk => simp [classify_known hv hk]
  | own hv hk ho => simp [classify_own hv hk ho]
  | sameIp hv hk ho hip => simp [classify_sameIp hv hk ho hip]
  | direct hv hk ho hip hnat => simp [classify_direct hv hk ho hip hnat]
  | proxied hv hk ho hip hnat hr | punched hv hk ho hip hnat hr => simp [classify_relayed hv hk ho hip hnat hr]

/-- Where a round fails the walk ends. -/
theorem EntryRan.walk_fault {s₁ : Server} {o : List SendTo} {e : Fault}
    (h : EntryRan cfg n see key value s ⟨.error e, s₁, o⟩) (hself : (isPublic s.localEpInfo).isSome)
    (l : List (String × Json)) : NatServer.walk cfg n (see, s.hostList) ((key, value) :: l) = none := by
  rw [NatServer.walk]
  cases h with
  | unreadable hv => simp [classify_unreadable hv]
  | unclassified hv hk ho hip hnat => simp [classify_unclassified hv hk ho hip hnat]
  | noRelay hv hk ho hip hnat hr => simp [classify_noRelay hv hk ho hip hnat hr]
  | selfUnknown hv hk ho hip hnat hr hs =>
    rw [hs] at hself
    cases hself

/-- The loop gets through the entries, to what follows them. -/
inductive LoopTo (cfg : Config) (n : String) : Endpoint → Server → List (String × Json) → Endpoint → Server → Prop
  | nil {see : Endpoint} {s : Server} : LoopTo cfg n see s [] see s
  | cons {see see' see'' : Endpoint} {s s₁ s₂ : Server} {key value rest o}
      (entry : EntryRan cfg n see key value s ⟨.ok see', s₁, o⟩) (loop : LoopTo cfg n see' s₁ rest see'' s₂) :
      LoopTo cfg n see s ((key, value) :: rest) see'' s₂

theorem LoopTo.walk (h : LoopTo cfg n see s l see' s') :
    walk cfg n (see, s.hostList) l = some (see', s'.hostList) ∧ s'.localEpInfo = s.localEpInfo := by
  induction h with
  | nil => exact ⟨rfl, rfl⟩
  | cons entry loop ih =>
    rw [entry.walk]
    exact ⟨ih.1, ih.2.trans entry.localEpInfo⟩

/-- The loop goes where the walk goes. -/
theorem loopTo_of_walk (hself : (isPublic s.localEpInfo).isSome) (h : walk cfg n (see, s.hostList) l = some (see', table')) :
    ∃ s', LoopTo cfg n see s l see' s' ∧ s'.hostList = table' ∧ s'.localEpInfo = s.localEpInfo := by
  induction l generalizing see s with
  | nil =>
    cases h
    exact ⟨s, .nil, rfl, rfl⟩
  | cons p l ih =>
    obtain ⟨key, value⟩ := p
    have entry := updateEntry_ran cfg n see key value s
    rcases hr : updateEntry cfg n see key value s with ⟨e | see₁, s₁, o₁⟩ <;> rw [hr] at entry
    · rw [entry.walk_fault hself] at h
      cases h
    · have hlocal : s₁.localEpInfo = s.localEpInfo := entry.localEpInfo
      rw [entry.walk] at h
      obtain ⟨s', loop, hhost, hlocal'⟩ := ih (by rwa [hlocal]) h
      exact ⟨s', .cons entry loop, hhost, hlocal'.trans hlocal⟩

/-- The loop sends what the rounds send that it comes to. -/
theorem LoopRan.mem_out_iff {r : Ran Server SendTo Fault Unit} (h : LoopRan cfg n see s l r) (x : SendTo) :
    x ∈ r.out ↔ ∃ pre key value post see' s', l = pre ++ (key, value) :: post ∧ LoopTo cfg n see s pre see' s' ∧
      x ∈ (updateEntry cfg n see' key value s').out := by
  induction h with
  | nil =>
    constructor
    · intro hx
      cases hx
    · rintro ⟨pre, key, value, post, _, _, hl, -⟩
      exact absurd hl.symm (by simp)
  | @fault see s s₁ key value rest o₁ e entry =>
    have hrun := updateEntry_eq entry
    constructor
    · intro hx
      exact ⟨[], key, value, rest, see, s, rfl, .nil, by rwa [hrun]⟩
    · rintro ⟨pre, key', value', post, see', s', hl, loop, hx⟩
      rcases pre with _ | ⟨p, pre⟩
      · cases hl
        cases loop
        rwa [hrun] at hx
      · cases hl
        -- the round that threw does not end, so no loop gets past it
        cases loop with
        | cons entry' _ => cases hrun.symm.trans (updateEntry_eq entry')
  | @cons see see₁ s s₁ s₂ key value rest o₁ o₂ res entry _ ih =>
    have hrun := updateEntry_eq entry
    rw [show x ∈ (⟨res, s₂, o₁ ++ o₂⟩ : Ran Server SendTo Fault Unit).out ↔ x ∈ o₁ ∨ x ∈ o₂ from List.mem_append,
      show x ∈ o₂ ↔ _ from ih]
    constructor
    · rintro (hx | ⟨pre, key', value', post, see', s', rfl, loop, hx⟩)
      · exact ⟨[], key, value, rest, see, s, rfl, .nil, by rwa [hrun]⟩
      · exact ⟨(key, value) :: pre, key', value', post, see', s', rfl, .cons entry loop, hx⟩
    · rintro ⟨pre, key', value', post, see', s', hl, loop, hx⟩
      rcases pre with _ | ⟨p, pre⟩
      · cases hl
        cases loop
        rw [hrun] at hx
        exact .inl hx
      · cases hl
        cases loop with
        | cons entry' loop =>
          cases hrun.symm.trans (updateEntry_eq entry')
          exact .inr ⟨pre, key', value', post, see', s', rfl, loop, hx⟩

/-- The round of an entry is not left early. -/
structure Pursued (cfg : Config) (see : Endpoint) (table : StrMap String) (key : String) (tar : Endpoint) : Prop where
  unknown : checkKey tar ∉ table
  other : cfg.nodeID ≠ key
  elsewhere : tar.ip ≠ see.ip

theorem Pursued.classify {tar : Endpoint} (h : Pursued cfg see table key tar) (hread : readEntry value = some (item, tar)) :
    classify cfg see table key value = match natPublic item with
      | none => .unclassified
      | some true => .direct tar
      | some false =>
        match relayOf see table.toList with
        | none => .noRelay
        | some relay => .relayed item tar relay := by
  rw [NatServer.classify, hread]
  exact (if_neg h.unknown).trans ((if_neg h.other).trans (if_neg h.elsewhere))

/-- A round that is left early contacts nobody. -/
theorem contacts_of_not_pursued {tar : Endpoint} (hread : readEntry value = some (item, tar))
    (h : ¬ Pursued cfg see table key tar) : contacts cfg own see table key value = [] := by
  rw [contacts, classify, hread]
  by_cases hknown : checkKey tar ∈ table
  · simp only [if_pos hknown]
  by_cases hown : cfg.nodeID = key
  · simp only [if_neg hknown, if_pos hown]
  by_cases hip : tar.ip = see.ip
  · simp only [if_neg hknown, if_neg hown, if_pos hip]
  · exact absurd ⟨hknown, hown, hip⟩ h

/-- What the messages of a round are. -/
theorem mem_contacts_iff {x : SendTo} : x ∈ contacts cfg own see table key value ↔
    ∃ item tar, readEntry value = some (item, tar) ∧ Pursued cfg see table key tar ∧
      ((x = ⟨tar, (dataMsg cfg "openconnect" own).dump⟩ ∧ (natPublic item = some true ∨
          natPublic item = some false ∧ isPublic own = some false ∧ (relayOf see table.toList).isSome)) ∨
        ∃ relay, x = ⟨relay, (dataMsg cfg "proxyconnect" item).dump⟩ ∧ natPublic item = some false ∧
          relayOf see table.toList = some relay) := by
  rcases hread : readEntry value with _ | ⟨item, tar⟩
  · simp [contacts, classify, hread]
  by_cases hpursued : Pursued cfg see table key tar
  · simp only [contacts, hpursued.classify hread, Option.some.injEq, Prod.mk.injEq]
    constructor
    · intro hx
      refine ⟨item, tar, ⟨rfl, rfl⟩, hpursued, ?_⟩
      rcases hnat : natPublic item with _ | _ | _ <;> rcases hr : relayOf see table.toList with _ | relay <;>
        simp only [hnat, hr, List.not_mem_nil, List.mem_cons, or_false] at hx
      · rcases hx with hx | hx
        · exact .inr ⟨relay, hx, rfl, rfl⟩
        · split at hx
          · next hself => exact .inl ⟨List.mem_singleton.1 hx, .inr ⟨rfl, hself, rfl⟩⟩
          · cases hx
      · exact .inl ⟨hx, .inl rfl⟩
      · exact .inl ⟨hx, .inl rfl⟩
    · rintro ⟨_, _, ⟨rfl, rfl⟩, -, ⟨rfl, hnat | ⟨hnat, hself, hr⟩⟩ | ⟨relay, rfl, hnat, hr⟩⟩
      · simp [hnat]
      · obtain ⟨relay, hr⟩ := Option.isSome_iff_exists.1 hr
        simp [hnat, hr, hself]
      · simp [hnat, hr]
  · rw [contacts_of_not_pursued hread hpursued]
    constructor
    · intro hx
      cases hx
    · rintro ⟨_, _, ⟨⟩, hp, -⟩
      exact absurd hp hpursued

/-! ## What an update makes the server send -/

/-- The round of the entry `key` sends `x`, in the loop over an update. -/
inductive SentFor (cfg : Config) (s : Server) (remote : Endpoint) (n : String) (data : StrMap Json) (key : String)
    (x : SendTo) : Prop
  | intro {own value : Json} {pre post : List (String × Json)} {see : Endpoint} {s₁ : Server} (hn : n ≠ cfg.nodeID)
      (hown : givenRecord data cfg.nodeID = some own) (hentry : data.toList = pre ++ (key, value) :: post)
      (loop : LoopTo cfg n remote { s with localEpInfo := own } pre see s₁)
      (hsent : x ∈ (updateEntry cfg n see key value s₁).out) : SentFor cfg s remote n data key x

/-- The round finds the table `table`. -/
inductive SentIn (cfg : Config) (s : Server) (remote : Endpoint) (n : String) (data : StrMap Json) (key : String)
    (table : StrMap String) (x : SendTo) : Prop
  | intro {own value : Json} {pre post : List (String × Json)} {see : Endpoint} {s₁ : Server} (hn : n ≠ cfg.nodeID)
      (hown : givenRecord data cfg.nodeID = some own) (hentry : data.toList = pre ++ (key, value) :: post)
      (loop : LoopTo cfg n remote { s with localEpInfo := own } pre see s₁) (htable : s₁.hostList = table)
      (hsent : x ∈ (updateEntry cfg n see key value s₁).out) : SentIn cfg s remote n data key table x

variable {remote : Endpoint} {data : StrMap Json} {x : SendTo}

theorem sentFor_iff_sentIn : SentFor cfg s remote n data key x ↔ ∃ table, SentIn cfg s remote n data key table x :=
  ⟨fun ⟨hn, hown, hentry, loop, hsent⟩ => ⟨_, hn, hown, hentry, loop, rfl, hsent⟩,
    fun ⟨_, hn, hown, hentry, loop, _, hsent⟩ => ⟨hn, hown, hentry, loop, hsent⟩⟩

theorem sentIn_iff (hn : n ≠ cfg.nodeID) (hown : givenRecord data cfg.nodeID = some own)
    (hself : (isPublic own).isSome) : SentIn cfg s remote n data key table x ↔
      ∃ value see, data[key]? = some value ∧
        walk cfg n (remote, s.hostList) (StrMap.entriesBefore data key) = some (see, table) ∧
        x ∈ contacts cfg own see table key value := by
  constructor
  · intro h
    cases h with
    | @intro own' value pre post see s₁ _ hown' hentry loop htable hsent =>
      cases hown.symm.trans hown'
      obtain ⟨hwalk, hlocal⟩ := loop.walk
      have hmem : (key, value) ∈ data.toList := by simp [hentry]
      rw [StrMap.entriesBefore_eq hentry, ← htable]
      refine ⟨value, see, Std.ExtTreeMap.mem_toList_iff_getElem?_eq_some.1 hmem, hwalk, ?_⟩
      rwa [(updateEntry_ran ..).contacts (by rwa [hlocal]), hlocal] at hsent
  · rintro ⟨value, see, hvalue, hwalk, hsent⟩
    obtain ⟨post, hentry⟩ := StrMap.toList_eq_append hvalue
    obtain ⟨s₁, loop, rfl, hlocal⟩ := loopTo_of_walk (s := { s with localEpInfo := own }) hself hwalk
    refine .intro hn hown hentry loop rfl ?_
    rwa [(updateEntry_ran ..).contacts (by rwa [hlocal]), hlocal]

theorem sentFor_iff (hn : n ≠ cfg.nodeID) (hown : givenRecord data cfg.nodeID = some own)
    (hself : (isPublic own).isSome) : SentFor cfg s remote n data key x ↔
      ∃ value see table, data[key]? = some value ∧
        walk cfg n (remote, s.hostList) (StrMap.entriesBefore data key) = some (see, table) ∧
        x ∈ contacts cfg own see table key value := by
  simp only [sentFor_iff_sentIn, sentIn_iff hn hown hself]
  exact ⟨fun ⟨table, value, see, h⟩ => ⟨value, see, table, h⟩, fun ⟨value, see, table, h⟩ => ⟨table, value, see, h⟩⟩

section
variable [Boost] {error : Option ErrorCode} {datagram : List UInt8} {draws : Draws} {j : Json}

/-- The messages of an update are those of its loop, whether the handler
completes or faults. -/
theorem update_out (hs : s.receiving = true) (he : error = none ∨ error = some .message_size)
    (hheard : heard cfg remote datagram = some j) (htype : messageType j = some "update") (hn : messageID j = some n)
    (hdata : j.sub "data" = some (.object data)) :
    (react cfg (.receive error remote datagram draws) s).out =
      if n = cfg.nodeID then []
      else match givenRecord data cfg.nodeID with
        | none => []
        | some own => (updateLoop cfg n remote data.toList { arrive datagram s with localEpInfo := own }).out := by
  rw [react_heard (arrive_recvBuffer hs datagram) he hheard, out_rearmUnless, handleJson_eq hn htype rfl, dispatch]
  split
  · rfl
  have hdrop (m : Handler Unit) (s : Server) : ((m >>= fun _ => pure false : Handler Bool) s).out = (m s).out := by
    rw [run_bind]
    rcases m s with ⟨e | u, s₁, o⟩ <;> simp
  rw [hdrop, update, throwing, hdata, orFail_some_bind, getself, view_object]
  rcases hvalue : data[cfg.nodeID]? with _ | value
  · simp only [givenRecord, hvalue, Option.bind_none]
    rfl
  · rcases hown : value.getString.bind parse with _ | own
    · simp only [givenRecord, hvalue, Option.bind_some, run_pure_bind, hown, throwing]
      rfl
    · simp only [givenRecord, hvalue, Option.bind_some, run_pure_bind, hown, throwing, orFail_some_bind,
        run_modifyState_bind]

/-- Every message of an update is sent for one of its entries. -/
theorem mem_update_out_iff (hs : s.receiving = true) (he : error = none ∨ error = some .message_size)
    (hheard : heard cfg remote datagram = some j) (htype : messageType j = some "update") (hn : messageID j = some n)
    (hdata : j.sub "data" = some (.object data)) :
    x ∈ (react cfg (.receive error remote datagram draws) s).out ↔
      ∃ key, SentFor cfg (arrive datagram s) remote n data key x := by
  rw [update_out hs he hheard htype hn hdata]
  constructor
  · intro hx
    split at hx
    · cases hx
    next hself =>
    split at hx
    · cases hx
    next own hown =>
    obtain ⟨pre, key, value, post, see, s₁, hentry, loop, hx⟩ := ((updateLoop_ran ..).mem_out_iff x).1 hx
    exact ⟨key, .intro hself hown hentry loop hx⟩
  · rintro ⟨key, hself, hown, hentry, loop, hx⟩
    rw [if_neg hself, hown]
    exact ((updateLoop_ran ..).mem_out_iff x).2 ⟨_, _, _, _, _, _, hentry, loop, hx⟩

end

/-! ## Which entries are pursued -/

/-- A connection is opened to `tar`, or asked for with the record `item`. -/
def Contact (cfg : Config) (item : Json) (tar : Endpoint) (x : SendTo) : Prop :=
  (∃ record, x = ⟨tar, (dataMsg cfg "openconnect" record).dump⟩) ∨
    ∃ relay, x = ⟨relay, (dataMsg cfg "proxyconnect" item).dump⟩

/-- The round of a readable entry contacts nobody where it is left early, or
finds no relay. -/
theorem not_contact_iff {tar : Endpoint} (hread : readEntry value = some (item, tar))
    (hnat : (natPublic item).isSome) : (∀ x ∈ contacts cfg own see table key value, ¬ Contact cfg item tar x) ↔
      (Pursued cfg see table key tar → natPublic item = some false ∧ relayOf see table.toList = none) := by
  obtain ⟨b, hpublic⟩ := Option.isSome_iff_exists.1 hnat
  constructor
  · intro h hpursued
    cases b
    · refine ⟨hpublic, ?_⟩
      by_contra hrelay
      obtain ⟨relay, hrelay⟩ := Option.ne_none_iff_exists'.1 hrelay
      exact h _ (mem_contacts_iff.2 ⟨item, tar, hread, hpursued, .inr ⟨relay, rfl, hpublic, hrelay⟩⟩)
        (.inr ⟨relay, rfl⟩)
    · exact absurd (.inl ⟨own, rfl⟩) (h _ (mem_contacts_iff.2 ⟨item, tar, hread, hpursued, .inl ⟨rfl, .inl hpublic⟩⟩))
  · intro h x hx _
    obtain ⟨item', tar', hread', hpursued, hx⟩ := mem_contacts_iff.1 hx
    cases hread.symm.trans hread'
    obtain ⟨hfalse, hnone⟩ := h hpursued
    rw [hfalse, hnone] at hx
    simp at hx

theorem dataMsg_dump_inj (t t' : MsgType) {d d' : Json}
    (h : (dataMsg cfg t.text d).dump = (dataMsg cfg t'.text d').dump) : t = t' ∧ d = d' := by
  have h := dump_inj h
  constructor
  · have htype := (isMessage_data cfg t d).type
    rw [h, (isMessage_data cfg t' d').type] at htype
    exact (MsgType.text_inj (Option.some.inj htype)).symm
  · have hsub := data_dataMsg cfg t.text d
    rw [h, data_dataMsg] at hsub
    exact (Option.some.inj hsub).symm

theorem SentFor.listed (h : SentFor cfg s remote n data key x) : n ≠ cfg.nodeID ∧ cfg.nodeID ∈ data := by
  obtain ⟨hn, hown⟩ := h
  obtain ⟨value, hvalue, -⟩ := Option.bind_eq_some_iff.1 hown
  exact ⟨hn, StrMap.mem_iff.2 ⟨_, hvalue⟩⟩

/-- Of an update of records that lists the receiver, the record it gives for it. -/
theorem given_of_mem
    (hwf : ∀ (k : String) value, data[k]? = some value → ∃ item, givenRecord data k = some item ∧ WfRecord item)
    {k : String} (hk : k ∈ data) : ∃ item r, givenRecord data k = some item ∧ record? item = some r := by
  obtain ⟨value, hvalue⟩ := StrMap.mem_iff.1 hk
  obtain ⟨item, hitem, r, hr⟩ := hwf k value hvalue
  exact ⟨item, r, hitem, hr⟩

section
variable [Boost] {error : Option ErrorCode} {datagram : List UInt8} {draws : Draws} {j : Json}

/-- Nothing is sent for an entry exactly where the loop does not come to it,
leaves its round early, or is stuck without a relay. That the table has the
node, under its id and with the same endpoint, does not count. -/
theorem entry_not_contacted_iff (draws : Draws) (hs : s.receiving = true) (he : error = none ∨ error = some .message_size)
    (hheard : heard cfg remote datagram = some j) (htype : messageType j = some "update") (hn : messageID j = some n)
    (hdata : j.sub "data" = some (.object data))
    (hwf : ∀ (k : String) value, data[k]? = some value → ∃ item, givenRecord data k = some item ∧ WfRecord item) :
    (∀ x, x ∈ (react cfg (.receive error remote datagram draws) s).out ↔
      ∃ key, SentFor cfg (arrive datagram s) remote n data key x) ∧
    ∀ (key : String) item tar, givenRecord data key = some item → firstEndpoint item = some tar →
      ((∀ x, SentFor cfg (arrive datagram s) remote n data key x → ¬ Contact cfg item tar x) ↔
        (n = cfg.nodeID ∨ cfg.nodeID ∉ data ∨ ∀ see table,
          walk cfg n (remote, s.hostList) (StrMap.entriesBefore data key) = some (see, table) →
            Pursued cfg see table key tar → natPublic item = some false ∧ relayOf see table.toList = none)) := by
  refine ⟨fun x => mem_update_out_iff hs he hheard htype hn hdata, fun key item tar hitem htar => ?_⟩
  obtain ⟨value, hvalue, hparse⟩ := Option.bind_eq_some_iff.1 hitem
  obtain ⟨item', hitem', r, hr⟩ := hwf key value hvalue
  cases hitem.symm.trans hitem'
  have hread : readEntry value = some (item, tar) := readEntry_eq_some.2 ⟨item, hparse, tar, htar, rfl⟩
  have hnat : (natPublic item).isSome := by rw [natPublic_of_record hr]; rfl
  by_cases hlisted : n ≠ cfg.nodeID ∧ cfg.nodeID ∈ data
  · obtain ⟨hself, hmem⟩ := hlisted
    obtain ⟨own, r', hown, hr'⟩ := given_of_mem hwf hmem
    have hpublic : (isPublic own).isSome := by rw [isPublic_of_record hr']; rfl
    simp only [hself, hmem, not_true_eq_false, false_or, sentFor_iff hself hown hpublic, arrive_hostList]
    constructor
    · intro h see table hwalk
      exact (not_contact_iff hread hnat).1 fun x hx => h x ⟨value, see, table, hvalue, hwalk, hx⟩
    · rintro h x ⟨value', see, table, hvalue', hwalk, hx⟩
      cases hvalue.symm.trans hvalue'
      exact (not_contact_iff hread hnat).2 (h see table hwalk) x hx
  · rw [not_and_or, not_not] at hlisted
    -- the loop is not reached
    constructor
    · intro _
      rcases hlisted with hself | hmem
      · exact .inl hself
      · exact .inr (.inl hmem)
    · intro _ x hx _
      rcases hlisted with hself | hmem
      · exact hx.listed.1 hself
      · exact hmem hx.listed.2

/-! ## Peers the server does not know -/

/-- An address the receiver goes by: the one it is bound to, the one in its
table, the one in the record the update gives for it. -/
def OwnAddress (cfg : Config) (table : StrMap String) (own : Json) (e : Endpoint) : Prop :=
  e = ⟨cfg.localIp, cfg.localPort⟩ ∨ HasEndpoint table cfg.nodeID e ∨ firstEndpoint own = some e

/-- A connection to `tar` is attempted: opened, or asked for at another node. -/
def Attempted (cfg : Config) (table : StrMap String) (own item : Json) (tar : Endpoint) (sent : List SendTo) : Prop :=
  (∃ record, ⟨tar, (dataMsg cfg "openconnect" record).dump⟩ ∈ sent) ∨
    ∃ relay, ¬ OwnAddress cfg table own relay ∧ ⟨relay, (dataMsg cfg "proxyconnect" item).dump⟩ ∈ sent

/-- The way to go on from a pursued entry `item'` at `tar'` leads to the node
of `item` at `tar`: to an ip that can be sent to. -/
def LeadsTo (cfg : Config) (table : StrMap String) (own item item' : Json) (tar tar' see : Endpoint)
    (table' : StrMap String) : Prop :=
  (tar' = tar ∧ Boost.from_string tar.ip = true ∧ (natPublic item' = some true ∨
      natPublic item' = some false ∧ isPublic own = some false ∧ (relayOf see table'.toList).isSome)) ∨
    item' = item ∧ natPublic item = some false ∧
      ∃ relay, relayOf see table'.toList = some relay ∧ Boost.from_string relay.ip = true ∧
        ¬ OwnAddress cfg table own relay

/-- A connection to a node of an update is attempted, by a datagram that
leaves, exactly where the update is another node's and lists the receiver, and
the loop comes to an entry it pursues from which the way leads to that node. -/
theorem peer_attempted_iff (draws : Draws) (hs : s.receiving = true) (he : error = none ∨ error = some .message_size)
    (hheard : heard cfg remote datagram = some j) (htype : messageType j = some "update") (hn : messageID j = some n)
    (hdata : j.sub "data" = some (.object data))
    (hwf : ∀ (k : String) value, data[k]? = some value → ∃ item, givenRecord data k = some item ∧ WfRecord item)
    (item : Json) (tar : Endpoint) :
    Attempted cfg s.hostList ((givenRecord data cfg.nodeID).getD s.localEpInfo) item tar
        (transmitted (react cfg (.receive error remote datagram draws) s).out) ↔
      n ≠ cfg.nodeID ∧ ∃ own, givenRecord data cfg.nodeID = some own ∧
        ∃ key item' tar' see table, givenRecord data key = some item' ∧ firstEndpoint item' = some tar' ∧
          walk cfg n (remote, s.hostList) (StrMap.entriesBefore data key) = some (see, table) ∧
          Pursued cfg see table key tar' ∧ LeadsTo cfg s.hostList own item item' tar tar' see table := by
  unfold Attempted
  simp only [mem_transmitted, mem_update_out_iff hs he hheard htype hn hdata]
  by_cases hlisted : n ≠ cfg.nodeID ∧ cfg.nodeID ∈ data
  · obtain ⟨hself, hmem⟩ := hlisted
    obtain ⟨own, r, hown, hr⟩ := given_of_mem hwf hmem
    have hpublic : (isPublic own).isSome := by rw [isPublic_of_record hr]; rfl
    simp only [sentFor_iff hself hown hpublic, arrive_hostList, hown, Option.getD_some, Option.some.injEq,
      exists_eq_left', mem_contacts_iff]
    constructor
    · rintro (⟨record, ⟨key, value, see, table, hvalue, hwalk, item', tar', hread, hpursued, hx⟩, hip⟩ |
        ⟨relay, hrelay, ⟨key, value, see, table, hvalue, hwalk, item', tar', hread, hpursued, hx⟩, hip⟩) <;>
        obtain ⟨item₁, hparse, tar₁, htar, hp⟩ := readEntry_eq_some.1 hread <;> cases hp <;>
        refine ⟨hself, key, item', tar', see, table, by rw [givenRecord, hvalue, Option.bind_some, hparse], htar, hwalk,
          hpursued, ?_⟩
      · rcases hx with ⟨hmsg, hopen⟩ | ⟨relay, hmsg, -⟩
        · exact .inl ⟨(SendTo.mk.inj hmsg).1.symm, hip, hopen⟩
        · have := (dataMsg_dump_inj .openconnect .proxyconnect (SendTo.mk.inj hmsg).2).1
          cases this
      · rcases hx with ⟨hmsg, -⟩ | ⟨relay', hmsg, hnat, hrelay'⟩
        · have := (dataMsg_dump_inj .proxyconnect .openconnect (SendTo.mk.inj hmsg).2).1
          cases this
        · obtain ⟨rfl, hdump⟩ := SendTo.mk.inj hmsg
          obtain ⟨-, rfl⟩ := dataMsg_dump_inj .proxyconnect .proxyconnect hdump
          exact .inr ⟨rfl, hnat, relay, hrelay', hip, hrelay⟩
    · rintro ⟨-, key, item', tar', see, table, hitem', htar', hwalk, hpursued, hleads⟩
      obtain ⟨value, hvalue, hparse⟩ := Option.bind_eq_some_iff.1 hitem'
      have hread : readEntry value = some (item', tar') := readEntry_eq_some.2 ⟨item', hparse, tar', htar', rfl⟩
      rcases hleads with ⟨rfl, hip, hopen⟩ | ⟨rfl, hnat, relay, hrelay, hip, hother⟩
      · exact .inl ⟨own, ⟨key, value, see, table, hvalue, hwalk, item', tar', hread, hpursued, .inl ⟨rfl, hopen⟩⟩, hip⟩
      · exact .inr ⟨relay, hother, ⟨key, value, see, table, hvalue, hwalk, item', tar', hread, hpursued,
          .inr ⟨relay, rfl, hnat, hrelay⟩⟩, hip⟩
  · constructor
    · rintro (⟨_, ⟨_, hx⟩, -⟩ | ⟨_, _, ⟨_, hx⟩, -⟩) <;> exact absurd hx.listed hlisted
    · rintro ⟨hself, own, hown, -⟩
      obtain ⟨value, hvalue, -⟩ := Option.bind_eq_some_iff.1 hown
      exact absurd ⟨hself, StrMap.mem_iff.2 ⟨_, hvalue⟩⟩ hlisted

end

/-! The public node `r` is told by `b` of `a`, which is behind a NAT. -/

def peersReceiver : Config := sampleNode "r" "6.6.6.6" true

def peersNode : Config := sampleNode "a" "192.168.0.2" false

/-- What the server has for `a`. -/
def peersInfo : Json := sampleMapped ⟨"5.5.5.5", 1000⟩

def peersTable : StrMap String :=
  ((∅ : StrMap String).insert "a" peersInfo.dump).insert "r" (selfInfo peersReceiver).dump

def peersData : StrMap Json := peersTable.map fun _ info => .string info

/-- The loop comes to `a` first. -/
theorem peersData_toList :
    peersData.toList = [] ++ [("a", .string peersInfo.dump), ("r", .string (selfInfo peersReceiver).dump)] := rfl

theorem peersUpdate_fits :
    ((updateMsg natSender peersTable).val.dump.flatMap String.utf8EncodeChar).length ≤ bufferSize := by
  decide +kernel

theorem peersUpdate_heard {ip : String} (hip : ip ≠ "6.6.6.6") (port : UInt16) :
    heard peersReceiver ⟨ip, port⟩ (wire (updateMsg natSender peersTable).dump) = some (updateMsg natSender peersTable) :=
  heard_wire hip (by rw [wire_dump]; exact peersUpdate_fits)

/-- The update, seen from `remote`. -/
def peersUpdate (remote : Endpoint) : Event :=
  .receive none remote (wire (updateMsg natSender peersTable).dump) ⟨0, "m", "k"⟩

theorem record?_peersInfo : record? peersInfo = some ⟨"mapping", "", ⟨"5.5.5.5", 1000⟩⟩ := record?_sampleMapped _

theorem peersData_wf (k : String) (value : Json) (hk : peersData[k]? = some value) :
    ∃ item, givenRecord peersData k = some item ∧ WfRecord item := by
  have hwf : WfTable peersTable := (WfTable.empty.insert ((textRecord_dump _).trans record?_peersInfo) _).insert
    ((textRecord_dump _).trans (record?_selfInfo _)) _
  exact hwf.given k value hk

theorem givenRecord_peersData_a : givenRecord peersData "a" = some peersInfo := by
  rw [peersData, givenRecord_map, show peersTable["a"]? = some peersInfo.dump from rfl, Option.bind_some, parse_dump]

theorem givenRecord_peersData_r : givenRecord peersData "r" = some (selfInfo peersReceiver) := by
  rw [peersData, givenRecord_map, show peersTable["r"]? = some (selfInfo peersReceiver).dump from rfl, Option.bind_some,
    parse_dump]

theorem peers_walk (see : Endpoint) (table : StrMap String) :
    walk peersReceiver "b" (see, table) (StrMap.entriesBefore peersData "a") = some (see, table) := by
  rw [StrMap.entriesBefore_eq peersData_toList, walk]

theorem peersUpdate_step {remote : Endpoint} (hs : s.receiving = true) (hip : remote.ip ≠ "6.6.6.6") {o : List SendTo}
    (loop : LoopRan peersReceiver "b" remote { arrive (wire (updateMsg natSender peersTable).dump) s with
      localEpInfo := selfInfo peersReceiver } peersData.toList ⟨.ok (), s', o⟩) :
    @Step digitsBoost peersReceiver s ⟨peersUpdate remote, o⟩ s'.rearm := by
  let _ := digitsBoost
  have hself : peersData["r"]? = some (.string (selfInfo peersReceiver).dump) := rfl
  exact step_of_handled ⟨0, "m", "k"⟩ hs hip peersUpdate_fits (isMessage_update _ _)
    (.update (by decide) (data_updateMsg _ _) hself (by simp) loop)

/-- `r` has heard from `a`. -/
theorem peers_known : ∃ sent s, @Step digitsBoost peersReceiver (init peersReceiver)
      ⟨.receive none ⟨"5.5.5.5", 1000⟩ (wire (tickerMsg peersNode peersInfo).dump) ⟨0, "m", "k"⟩, sent⟩ s ∧
    s.hostList = (∅ : StrMap String).insert "a" peersInfo.dump ∧ s.receiving = true ∧
    HasEndpoint s.hostList "a" ⟨"5.5.5.5", 1000⟩ := by
  let _ := digitsBoost
  obtain ⟨sent, s, hstep, hhost, -, -, -, hrecv⟩ := ticker_step (s := init peersReceiver) ⟨0, "m", "k"⟩ rfl
    (by decide : (⟨"5.5.5.5", 1000⟩ : Endpoint).ip ≠ peersReceiver.localIp) peersNode peersInfo rfl (by decide +kernel)
  have hhost : s.hostList = (∅ : StrMap String).insert "a" peersInfo.dump := hhost
  refine ⟨sent, s, hstep, hhost, hrecv, ?_⟩
  rw [hhost]
  exact hasEndpoint_insert.2 (firstEndpoint_of_record record?_peersInfo)

/-- The loop ends with the entry of `r`. -/
theorem peers_loop_own (see : Endpoint) {table : StrMap String} (hhost : s.hostList = table)
    (hkeys : ∀ tar : Endpoint, checkKey tar ∉ table) :
    ∃ s', LoopRan peersReceiver "b" see s [("r", .string (selfInfo peersReceiver).dump)] ⟨.ok (), s', []⟩ := by
  subst hhost
  exact ⟨_, .cons (.own (readEntry_of_record (record?_selfInfo peersReceiver)) (hkeys _) rfl) .nil⟩

/-- `b` is asked to help where `a` is not at its ip. -/
theorem peers_loop_proxied {table : StrMap String} (hhost : s.hostList = table)
    (hself : s.localEpInfo = selfInfo peersReceiver) (hkeys : ∀ tar : Endpoint, checkKey tar ∉ table)
    (hrelay : relayOf ⟨"7.7.7.7", 2000⟩ table.toList = some ⟨"7.7.7.7", 2000⟩) :
    EntryRan peersReceiver "b" ⟨"7.7.7.7", 2000⟩ "a" (.string peersInfo.dump) s ⟨.ok ⟨"7.7.7.7", 2000⟩, s,
      [⟨⟨"7.7.7.7", 2000⟩, (dataMsg peersReceiver "proxyconnect" peersInfo).dump⟩]⟩ := by
  subst hhost
  refine .proxied (readEntry_of_record record?_peersInfo) (hkeys _) (by decide) (by decide) ?_ hrelay ?_
  · rw [natPublic_of_record record?_peersInfo]
    rfl
  · rw [hself, isPublic_of_record (record?_selfInfo _)]
    rfl

/-- `a` is behind the same NAT as `b`: its record is stored, under `b`, and
nothing is sent. -/
theorem shared_ip_not_attempted : ∃ s', @Step digitsBoost peersReceiver (init peersReceiver)
      ⟨peersUpdate ⟨"5.5.5.5", 2000⟩, []⟩ s' ∧
    WfRecord (init peersReceiver).localEpInfo ∧ "a" ∉ (init peersReceiver).hostList ∧
    givenRecord peersData "a" = some peersInfo ∧
    ¬ Attempted peersReceiver ∅ (selfInfo peersReceiver) peersInfo ⟨"5.5.5.5", 1000⟩ (@transmitted digitsBoost []) := by
  let _ := digitsBoost
  have hkeys (tar : Endpoint) : checkKey tar ∉ (∅ : StrMap String).insertIfNew "b" peersInfo.dump := by
    simp [Std.ExtTreeMap.mem_insertIfNew, (checkKey_ne (k := "b") (by decide) tar).symm]
  obtain ⟨s', loop⟩ := peers_loop_own ⟨"5.5.5.5", 2000⟩
    (s := { arrive (wire (updateMsg natSender peersTable).dump) (init peersReceiver) with
      hostList := (∅ : StrMap String).insertIfNew "b" peersInfo.dump, localEpInfo := selfInfo peersReceiver }) rfl hkeys
  refine ⟨s'.rearm, peersUpdate_step rfl (by decide) ?_, ⟨_, record?_selfInfo peersReceiver⟩, by simp [init],
    givenRecord_peersData_a, ?_⟩
  · rw [peersData_toList]
    have entry : EntryRan peersReceiver "b" ⟨"5.5.5.5", 2000⟩ "a" (.string peersInfo.dump)
        { arrive (wire (updateMsg natSender peersTable).dump) (init peersReceiver) with
          localEpInfo := selfInfo peersReceiver }
        ⟨.ok ⟨"5.5.5.5", 2000⟩, { arrive (wire (updateMsg natSender peersTable).dump) (init peersReceiver) with
          hostList := (∅ : StrMap String).insertIfNew "b" peersInfo.dump, localEpInfo := selfInfo peersReceiver }, []⟩ :=
      .sameIp (readEntry_of_record record?_peersInfo) (by simp [init]) (by decide) rfl
    exact .cons entry loop
  · rintro (⟨_, h⟩ | ⟨_, _, h⟩) <;> cases h

/-- The source of the update is another node. -/
theorem peersSource_other : ¬ OwnAddress peersReceiver ∅ (selfInfo peersReceiver) ⟨"7.7.7.7", 2000⟩ := by
  rintro (h | h | h)
  · exact absurd h (by decide)
  · simp [HasEndpoint] at h
  · rw [firstEndpoint_of_record (record?_selfInfo _)] at h
    exact absurd h (by decide)

theorem peer_attempted_iff_relayed :
    Attempted peersReceiver ∅ (selfInfo peersReceiver) peersInfo ⟨"5.5.5.5", 1000⟩ (@transmitted digitsBoost
      (@react digitsBoost peersReceiver (peersUpdate ⟨"7.7.7.7", 2000⟩) (init peersReceiver)).out) := by
  let _ := digitsBoost
  have hj := isMessage_update natSender peersTable
  have h := (peer_attempted_iff (s := init peersReceiver) ⟨0, "m", "k"⟩ rfl (.inl rfl)
    (peersUpdate_heard (by decide : "7.7.7.7" ≠ "6.6.6.6") 2000) hj.type hj.id (data_updateMsg _ _) peersData_wf
    peersInfo ⟨"5.5.5.5", 1000⟩).2
      ⟨by decide, _, givenRecord_peersData_r, "a", peersInfo, ⟨"5.5.5.5", 1000⟩, _, _, givenRecord_peersData_a,
        firstEndpoint_of_record record?_peersInfo, peers_walk _ _,
        ⟨by simp [init], by decide, by decide⟩, .inr ⟨rfl, by rw [natPublic_of_record record?_peersInfo]; rfl,
          ⟨"7.7.7.7", 2000⟩, rfl, by decide, peersSource_other⟩⟩
  rwa [show givenRecord (peersTable.map fun _ info => .string info) peersReceiver.nodeID = _ from
    givenRecord_peersData_r] at h

/-- `a` is known with the endpoint the update gives, and is asked for again. -/
theorem known_peer_contacted : ∃ s x s', @Reachable digitsBoost peersReceiver s ∧
    HasEndpoint s.hostList "a" ⟨"5.5.5.5", 1000⟩ ∧ givenRecord peersData "a" = some peersInfo ∧
    @Step digitsBoost peersReceiver s ⟨peersUpdate ⟨"7.7.7.7", 2000⟩, [x]⟩ s' ∧
    SentFor peersReceiver (arrive (wire (updateMsg natSender peersTable).dump) s) ⟨"7.7.7.7", 2000⟩ "b" peersData "a" x ∧
    Contact peersReceiver peersInfo ⟨"5.5.5.5", 1000⟩ x := by
  let _ := digitsBoost
  obtain ⟨sent, s, hstep, hhost, hrecv, hend⟩ := peers_known
  have hkeys (tar : Endpoint) : checkKey tar ∉ (∅ : StrMap String).insert "a" peersInfo.dump := by
    simp [(checkKey_ne (k := "a") (by decide) tar).symm]
  have hrelay : relayOf ⟨"7.7.7.7", 2000⟩ ((∅ : StrMap String).insert "a" peersInfo.dump).toList =
      some ⟨"7.7.7.7", 2000⟩ := by
    rw [show ((∅ : StrMap String).insert "a" peersInfo.dump).toList = [("a", peersInfo.dump)] from rfl, relayOf, parse_dump,
      Option.bind_eq_bind, Option.bind_some, isPublic_of_record record?_peersInfo]
    rfl
  obtain ⟨s₀, hs₀⟩ : ∃ s₀, arrive (wire (updateMsg natSender peersTable).dump) s = s₀ := ⟨_, rfl⟩
  have hhost₀ : s₀.hostList = (∅ : StrMap String).insert "a" peersInfo.dump := by rw [← hs₀, arrive_hostList, hhost]
  have entry := peers_loop_proxied (s := { s₀ with localEpInfo := selfInfo peersReceiver }) hhost₀ rfl hkeys hrelay
  obtain ⟨s', loop⟩ := peers_loop_own ⟨"7.7.7.7", 2000⟩
    (s := { s₀ with localEpInfo := selfInfo peersReceiver }) hhost₀ hkeys
  rw [← hs₀] at entry loop
  refine ⟨s, _, s'.rearm, Reachable.init.step hstep, hend, givenRecord_peersData_a, peersUpdate_step hrecv (by decide) ?_,
    .intro (by decide) givenRecord_peersData_r peersData_toList .nil ?_, .inr ⟨⟨"7.7.7.7", 2000⟩, rfl⟩⟩
  · rw [peersData_toList]
    exact .cons entry loop
  · rw [updateEntry_eq entry]
    exact List.mem_singleton_self _

theorem entry_not_contacted_iff_known : ∃ s, @Reachable digitsBoost peersReceiver s ∧
    HasEndpoint s.hostList "a" ⟨"5.5.5.5", 1000⟩ ∧ ∀ x,
      SentFor peersReceiver (arrive (wire (updateMsg natSender peersTable).dump) s) ⟨"5.5.5.5", 2000⟩ "b" peersData "a" x →
        ¬ Contact peersReceiver peersInfo ⟨"5.5.5.5", 1000⟩ x := by
  let _ := digitsBoost
  obtain ⟨sent, s, hstep, -, hrecv, hend⟩ := peers_known
  have hj := isMessage_update natSender peersTable
  refine ⟨s, Reachable.init.step hstep, hend, ((entry_not_contacted_iff ⟨0, "m", "k"⟩ hrecv (.inl rfl)
    (peersUpdate_heard (by decide : "5.5.5.5" ≠ "6.6.6.6") 2000) hj.type hj.id (data_updateMsg _ _) peersData_wf).2
      "a" peersInfo ⟨"5.5.5.5", 1000⟩ givenRecord_peersData_a (firstEndpoint_of_record record?_peersInfo)).2 (.inr (.inr ?_))⟩
  intro see table hwalk hpursued
  cases (peers_walk _ _).symm.trans hwalk
  exact absurd rfl hpursued.elsewhere

end NatServer

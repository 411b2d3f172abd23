import NatServer.Server.Update
/-!
# The table that an update leaves

A pass over an update adds at most two records to the table: the one it takes
for the sender's, and the receiver's own. Both can be read off the table before
and the update (`withUpdate`), and so can, for each entry, whether a second
pass over the same update would do any harm at it (`Harmless`).
-/

namespace NatServer

open Effect Json

variable {cfg : Config} {n key : String} {see see' remote : Endpoint} {value : Json} {table : StrMap String}
  {s s' : Server} {o : List SendTo} {data : StrMap Json} {pre l : List (String × Json)}

/-! ## What an update adds -/

/-- The table with the record that is taken for the sender's. -/
def withTaken (cfg : Config) (n : String) (see : Endpoint) (table : StrMap String) (l : List (String × Json)) :
    StrMap String :=
  match takenForSender cfg see table l with
  | some p => table.insertIfNew n p.2.dump
  | none => table

/-- The table with what an update adds to it, `value` being the receiver's
entry: a record for the sender, and the receiver's own unless its endpoint is a
key when its turn comes. -/
def withUpdate (cfg : Config) (n : String) (see : Endpoint) (table : StrMap String) (data : StrMap Json)
    (value : Json) : StrMap String :=
  let after := withTaken cfg n see table data.toList
  match classify cfg see (withTaken cfg n see table (StrMap.entriesBefore data cfg.nodeID)) cfg.nodeID value with
  | .own item => after.insertIfNew cfg.nodeID item.dump
  | _ => after

theorem withTaken_of_mem (h : n ∈ table) : withTaken cfg n see table l = table := by
  unfold withTaken
  split
  · exact StrMap.insertIfNew_of_mem _ h
  · rfl

theorem getElem?_withTaken_of_ne {k : String} (hk : k ≠ n) : (withTaken cfg n see table l)[k]? = table[k]? := by
  unfold withTaken
  split
  · exact StrMap.getElem?_insertIfNew_of_ne _ _ hk
  · rfl

theorem getElem?_withTaken_self (hnew : n ∉ table) :
    (withTaken cfg n see table l)[n]? = (takenForSender cfg see table l).map fun p => p.2.dump := by
  unfold withTaken
  split
  next p hp => rw [hp, StrMap.getElem?_insertIfNew, if_pos ⟨rfl, hnew⟩, Option.map_some]
  next hp => rw [hp, StrMap.notMem_iff.1 hnew, Option.map_none]

/-- The exit of the receiver's own entry does not depend on the address. -/
theorem classify_nodeID (see see' : Endpoint) (table : StrMap String) (value : Json) :
    classify cfg see table cfg.nodeID value = classify cfg see' table cfg.nodeID value := by
  unfold classify
  rcases readEntry value with _ | ⟨item, tar⟩
  · rfl
  · simp

/-- The receiver's own record is stored unless its entry is known when its turn comes. -/
theorem LoopRan.own_stored {post : List (String × Json)}
    (h : LoopRan cfg n see s (pre ++ (cfg.nodeID, value) :: post) ⟨.ok (), s', o⟩) (hn : n ≠ cfg.nodeID)
    (hnew : cfg.nodeID ∉ s.hostList) (hpre : ∀ p ∈ pre, p.1 ≠ cfg.nodeID) (hpost : ∀ p ∈ post, p.1 ≠ cfg.nodeID) :
    s'.hostList[cfg.nodeID]? =
      match classify cfg see (withTaken cfg n see s.hostList pre) cfg.nodeID value with
      | .own item => some item.dump
      | _ => none := by
  induction pre generalizing see s o with
  | nil =>
    cases h with
    | @cons _ see' _ s₁ _ _ _ _ o₁ o₂ _ entry loop =>
      cases entry with
      | known hv hk =>
        have hnone : s'.hostList[cfg.nodeID]? = none := by
          by_contra hsome
          obtain ⟨info, hinfo⟩ := Option.ne_none_iff_exists'.1 hsome
          obtain ⟨v, _, _, hmem, -⟩ := loop.own hn hnew hinfo
          exact hpost _ hmem rfl
        rw [hnone]
        simp [withTaken, takenForSender, classify_known hv hk]
      | @own item tar hv hk ho =>
        rw [loop.keeps (by simp), StrMap.getElem?_insertIfNew, if_pos ⟨rfl, hnew⟩]
        simp [withTaken, takenForSender, classify_own hv hk ho]
      | sameIp _ _ ho | direct _ _ ho | proxied _ _ ho | punched _ _ ho => exact absurd rfl ho
  | cons p pre ih =>
    have hpre' : ∀ p ∈ pre, p.1 ≠ cfg.nodeID := fun q hq => hpre q (List.mem_cons_of_mem _ hq)
    cases h with
    | @cons _ see' _ s₁ _ key v _ o₁ o₂ _ entry loop =>
      cases entry with
      | known hv hk =>
        rw [ih loop hnew hpre']
        simp [withTaken, takenForSender, classify_known hv hk]
      | own _ _ ho => exact absurd ho.symm (hpre _ List.mem_cons_self)
      | @sameIp item tar hv hk ho hip =>
        have hnew' : cfg.nodeID ∉ s.hostList.insertIfNew n item.dump := by
          simpa [Std.ExtTreeMap.mem_insertIfNew, hn] using hnew
        rw [ih loop hnew' hpre', withTaken_of_mem (by simp)]
        simp [withTaken, takenForSender, classify_sameIp hv hk ho hip]
      | direct hv hk ho hip hnat =>
        rw [ih loop hnew hpre']
        simp [withTaken, takenForSender, classify_direct hv hk ho hip hnat]
      | proxied hv hk ho hip hnat hr | punched hv hk ho hip hnat hr =>
        rw [ih loop hnew hpre', classify_nodeID see' see]
        simp [withTaken, takenForSender, classify_relayed hv hk ho hip hnat hr]

/-- Where the receiver's own record is not stored its endpoint is a key. -/
theorem LoopRan.own_known {item : Json} {tar : Endpoint} (h : LoopRan cfg n see s l ⟨.ok (), s', o⟩)
    (hl : (cfg.nodeID, value) ∈ l) (hread : readEntry value = some (item, tar)) :
    checkKey tar ∈ s'.hostList ∨ cfg.nodeID ∈ s'.hostList := by
  induction l generalizing see s o with
  | nil => cases hl
  | cons p l ih =>
    cases h with
    | @cons _ see' _ s₁ _ _ _ _ o₁ o₂ _ entry loop =>
      rcases List.mem_cons.1 hl with hhead | htail
      · cases hhead
        cases entry with
        | known hv hk =>
          cases hread.symm.trans hv
          exact .inl (loop.framed.keys _ hk)
        | own => exact .inr (loop.framed.keys _ (by simp))
        | sameIp _ _ ho | direct _ _ ho | proxied _ _ ho | punched _ _ ho => exact absurd rfl ho
      · exact ih loop htail

/-- A pass that completes leaves `withUpdate`. -/
theorem LoopRan.hostList_eq (h : LoopRan cfg n see s data.toList ⟨.ok (), s', o⟩) (hn : n ≠ cfg.nodeID)
    (hvalue : data[cfg.nodeID]? = some value) : s'.hostList = withUpdate cfg n see s.hostList data value := by
  have hrest {k : String} (hk : k ≠ cfg.nodeID) :
      (NatServer.withUpdate cfg n see s.hostList data value)[k]? = (withTaken cfg n see s.hostList data.toList)[k]? := by
    unfold NatServer.withUpdate
    split
    · exact StrMap.getElem?_insertIfNew_of_ne _ _ hk
    · rfl
  refine Std.ExtTreeMap.ext_getElem? fun k => ?_
  by_cases hown : k = cfg.nodeID
  · subst hown
    have hsame : (withTaken cfg n see s.hostList data.toList)[cfg.nodeID]? = s.hostList[cfg.nodeID]? :=
      getElem?_withTaken_of_ne hn.symm
    by_cases hin : cfg.nodeID ∈ s.hostList
    · have hin' : cfg.nodeID ∈ withTaken cfg n see s.hostList data.toList := by
        rwa [StrMap.mem_iff, hsame, ← StrMap.mem_iff]
      rw [h.keeps hin, ← hsame]
      unfold NatServer.withUpdate
      split
      · rw [StrMap.insertIfNew_of_mem _ hin']
      · rfl
    · have hnone : (withTaken cfg n see s.hostList data.toList)[cfg.nodeID]? = none := by
        rw [hsame, StrMap.notMem_iff.1 hin]
      obtain ⟨post, hentry⟩ := StrMap.toList_eq_append hvalue
      obtain ⟨hpre, hpost⟩ := StrMap.ne_of_toList_eq hentry
      rw [hentry] at h
      rw [h.own_stored hn hin hpre hpost]
      unfold NatServer.withUpdate
      split
      · next item hitem => rw [StrMap.getElem?_insertIfNew, if_pos ⟨rfl, StrMap.notMem_iff.2 hnone⟩]
      · next hother => rw [hnone]
  · rw [hrest hown]
    by_cases hkn : k = n
    · subst hkn
      by_cases hin : k ∈ s.hostList
      · rw [h.keeps hin, withTaken_of_mem hin]
      · rw [getElem?_withTaken_self hin]
        exact h.sender (.inr rfl) hn hin
    · rw [getElem?_withTaken_of_ne hkn]
      exact h.framed.rest k hkn hown

/-! ## The second pass -/

/-- The relay that the round of an entry looks up. -/
def Exit.relay? : Exit → Option Endpoint
  | .relayed _ _ relay => some relay
  | _ => none

/-- The address after the entries, in a pass that leaves the table as it is:
the source, or the relay once one is looked up. -/
def sourceAfter (cfg : Config) (remote : Endpoint) (table : StrMap String) (l : List (String × Json)) : Endpoint :=
  (l.findSome? fun p => (classify cfg remote table p.1 p.2).relay?).getD remote

@[simp] theorem sourceAfter_nil : sourceAfter cfg remote table [] = remote := rfl

/-- The round of an entry gets through and stores nothing new. (The own record
is there, or its endpoint is a key, in every table with what the update adds.) -/
def Harmless (cfg : Config) (n : String) (own : Json) (see : Endpoint) (table : StrMap String) (key : String)
    (value : Json) : Prop :=
  match classify cfg see table key value with
  | .known | .own _ | .direct _ => True
  | .sameIp _ => n ∈ table
  | .relayed .. => (isPublic own).isSome
  | .unreadable | .unclassified | .noRelay => False

theorem Harmless.of_relayed {own item : Json} {tar relay : Endpoint} {b : Bool}
    (h : classify cfg see table key value = .relayed item tar relay) (hown : isPublic own = some b) :
    Harmless cfg n own see table key value := by
  simp [Harmless, h, hown]

theorem Harmless.of_own {own item : Json} (h : classify cfg see table key value = .own item) :
    Harmless cfg n own see table key value := by
  simp [Harmless, h]

theorem relayOf_of_classify {relay : Endpoint} (h : (classify cfg see table key value).relay? = some relay) :
    relayOf see table.toList = some relay := by
  unfold classify at h
  rcases hread : readEntry value with _ | ⟨item, tar⟩ <;> simp only [hread] at h
  · cases h
  split_ifs at h
  · cases h
  · cases h
  · cases h
  rcases hnat : natPublic item with _ | _ | _ <;> simp only [hnat] at h
  · cases h
  · rcases hrelay : relayOf see table.toList with _ | relay' <;> simp only [hrelay] at h
    · cases h
    · exact h
  · cases h

theorem own_of_classify {item : Json} (h : classify cfg see table key value = .own item) :
    cfg.nodeID = key ∧ ∃ tar, readEntry value = some (item, tar) ∧ checkKey tar ∉ table := by
  unfold classify at h
  rcases hread : readEntry value with _ | ⟨item', tar⟩ <;> simp only [hread] at h
  · cases h
  split_ifs at h with hknown hown
  · cases h
    exact ⟨hown, tar, rfl, hknown⟩
  rcases hnat : natPublic item' with _ | _ | _ <;> simp only [hnat] at h
  · cases h
  · rcases hrelay : relayOf see table.toList with _ | relay <;> simp only [hrelay] at h <;> cases h
  · cases h

/-- The search finds the last public node, or nothing but the address it was given. -/
theorem relayOf_eq_or {l : List (String × String)} {relay : Endpoint} (h : relayOf see l = some relay) :
    relay = see ∨ ∀ see', relayOf see' l = some relay := by
  induction l generalizing see with
  | nil => exact .inl (Option.some.inj h).symm
  | cons p l ih =>
    obtain ⟨k, info⟩ := p
    simp only [relayOf, Option.bind_eq_bind, Option.bind_eq_some_iff] at h ⊢
    obtain ⟨body, hbody, b, hb, h⟩ := h
    cases b
    · rcases ih h with rfl | hall
      · exact .inl rfl
      · exact .inr fun see' => ⟨body, hbody, false, hb, hall see'⟩
    · exact .inr fun see' => ⟨body, hbody, true, hb, h⟩

theorem relayOf_relayOf {l : List (String × String)} {relay : Endpoint} (h : relayOf see l = some relay) :
    relayOf relay l = some relay := by
  rcases relayOf_eq_or h with rfl | hall
  · exact h
  · exact hall relay

theorem sourceAfter_snoc (pre : List (String × Json)) (p : String × Json) :
    sourceAfter cfg remote table (pre ++ [p]) =
      (classify cfg (sourceAfter cfg remote table pre) table p.1 p.2).relay?.getD (sourceAfter cfg remote table pre) := by
  unfold sourceAfter
  rw [List.findSome?_append, List.findSome?_singleton]
  rcases hpre : pre.findSome? fun p => (classify cfg remote table p.1 p.2).relay? with _ | relay <;> rw [hpre]
  · rfl
  · -- once a relay is looked up, every search finds it
    obtain ⟨q, -, hq⟩ := List.exists_of_findSome?_eq_some hpre
    have hrelay := relayOf_relayOf (relayOf_of_classify hq)
    rw [Option.some_or, Option.getD_some]
    rcases hp : (classify cfg relay table p.1 p.2).relay? with _ | relay'
    · rfl
    · exact Option.some.inj (hrelay.symm.trans (relayOf_of_classify hp))

/-- The address that a round goes on with. -/
theorem EntryRan.sourceAfter {s₁ : Server} (h : EntryRan cfg n see key value s ⟨.ok see', s₁, o⟩) :
    see' = (classify cfg see s.hostList key value).relay?.getD see := by
  cases h with
  | known hv hk => simp [classify_known hv hk, Exit.relay?]
  | own hv hk ho => simp [classify_own hv hk ho, Exit.relay?]
  | sameIp hv hk ho hip => simp [classify_sameIp hv hk ho hip, Exit.relay?]
  | direct hv hk ho hip hnat => simp [classify_direct hv hk ho hip hnat, Exit.relay?]
  | proxied hv hk ho hip hnat hr | punched hv hk ho hip hnat hr => simp [classify_relayed hv hk ho hip hnat hr, Exit.relay?]

/-- A round that left the table as it was is harmless. -/
theorem EntryRan.harmless {s₁ : Server} (h : EntryRan cfg n see key value s ⟨.ok see', s₁, o⟩)
    (hsame : s₁.hostList = s.hostList) : Harmless cfg n s.localEpInfo see s.hostList key value := by
  cases h with
  | known hv hk => simp [Harmless, classify_known hv hk]
  | own hv hk ho => simp [Harmless, classify_own hv hk ho]
  | @sameIp item _ hv hk ho hip =>
    have hin : n ∈ s.hostList.insertIfNew n item.dump := by simp
    rw [show s.hostList.insertIfNew n item.dump = s.hostList from hsame] at hin
    simpa [Harmless, classify_sameIp hv hk ho hip] using hin
  | direct hv hk ho hip hnat => simp [Harmless, classify_direct hv hk ho hip hnat]
  | proxied hv hk ho hip hnat hr hself | punched hv hk ho hip hnat hr hself =>
    simp [Harmless, classify_relayed hv hk ho hip hnat hr, hself]

/-- A harmless round gets through and changes nothing. -/
theorem Harmless.entry (h : Harmless cfg n s.localEpInfo see s.hostList key value)
    (hself : ∀ item, classify cfg see s.hostList key value = .own item → cfg.nodeID ∈ s.hostList) :
    ∃ see' o, EntryRan cfg n see key value s ⟨.ok see', s, o⟩ := by
  have entry := updateEntry_ran cfg n see key value s
  -- `addNewNode` does nothing for an id that is there
  have hnoop {k : String} (hk : k ∈ s.hostList) (info : String) :
      { s with hostList := s.hostList.insertIfNew k info } = s := by
    rw [StrMap.insertIfNew_of_mem _ hk]
  generalize updateEntry cfg n see key value s = r at entry
  unfold Harmless at h
  cases entry with
  | unreadable hv => simp [classify_unreadable hv] at h
  | known hv hk => exact ⟨_, _, .known hv hk⟩
  | @own item _ hv hk ho =>
    have entry : EntryRan cfg n see key value s
        ⟨.ok see, { s with hostList := s.hostList.insertIfNew cfg.nodeID item.dump }, []⟩ := .own hv hk ho
    rw [hnoop (hself item (by simp [classify_own hv hk ho]))] at entry
    exact ⟨_, _, entry⟩
  | @sameIp item _ hv hk ho hip =>
    have entry : EntryRan cfg n see key value s
        ⟨.ok see, { s with hostList := s.hostList.insertIfNew n item.dump }, []⟩ := .sameIp hv hk ho hip
    rw [hnoop (by simpa [classify_sameIp hv hk ho hip] using h)] at entry
    exact ⟨_, _, entry⟩
  | unclassified hv hk ho hip hnat => simp [classify_unclassified hv hk ho hip hnat] at h
  | direct hv hk ho hip hnat => exact ⟨_, _, .direct hv hk ho hip hnat⟩
  | noRelay hv hk ho hip hnat hr => simp [classify_noRelay hv hk ho hip hnat hr] at h
  | selfUnknown hv hk ho hip hnat hr hself => simp [classify_relayed hv hk ho hip hnat hr, hself] at h
  | proxied hv hk ho hip hnat hr hself => exact ⟨_, _, .proxied hv hk ho hip hnat hr hself⟩
  | punched hv hk ho hip hnat hr hself => exact ⟨_, _, .punched hv hk ho hip hnat hr hself⟩

/-- A pass completes and leaves the table as it is exactly where each of its
rounds is harmless. -/
theorem pass_settles_iff (remote : Endpoint) (s : Server) (pre : List (String × Json))
    (hself : ∀ p ∈ l, ∀ see item, classify cfg see s.hostList p.1 p.2 = .own item → cfg.nodeID ∈ s.hostList) :
    (∃ s₂ o, LoopRan cfg n (sourceAfter cfg remote s.hostList pre) s l ⟨.ok (), s₂, o⟩ ∧ s₂.hostList = s.hostList) ↔
      ∀ pre' key value post, l = pre' ++ (key, value) :: post →
        Harmless cfg n s.localEpInfo (sourceAfter cfg remote s.hostList (pre ++ pre')) s.hostList key value := by
  induction l generalizing pre with
  | nil =>
    exact ⟨fun _ pre' key value post hl => absurd hl.symm (by simp), fun _ => ⟨s, [], .nil, rfl⟩⟩
  | cons p l ih =>
    obtain ⟨key, value⟩ := p
    have ih := ih (pre ++ [(key, value)]) fun p hp => hself p (List.mem_cons_of_mem _ hp)
    rw [sourceAfter_snoc] at ih
    constructor
    · rintro ⟨s₂, o, h, hsame⟩
      cases h with
      | @cons _ see' _ s₁ _ _ _ _ o₁ o₂ _ entry loop =>
        -- entries are only added, so what is there in the middle was there before
        have hmiddle : s₁.hostList = s.hostList := by
          refine Std.ExtTreeMap.ext_getElem? fun k => ?_
          by_cases hk : k ∈ s.hostList
          · exact entry.keeps hk
          · have hk₁ : k ∉ s₁.hostList := fun hin => hk (hsame ▸ loop.framed.keys k hin)
            rw [StrMap.notMem_iff.1 hk, StrMap.notMem_iff.1 hk₁]
        obtain rfl : s₁ = s := by
          obtain ⟨table, hs₁⟩ := entry.state
          dsimp only at hs₁
          subst hs₁
          dsimp only at hmiddle
          rw [hmiddle]
        rw [entry.sourceAfter] at loop
        intro pre' key' value' post hl
        rcases pre' with _ | ⟨q, pre'⟩
        · cases hl
          rw [List.append_nil]
          exact entry.harmless rfl
        · cases hl
          have := ih.1 ⟨s₂, o₂, loop, hsame⟩ pre' key' value' post rfl
          rwa [List.append_assoc] at this
    · intro h
      have hfirst := h [] key value l rfl
      rw [List.append_nil] at hfirst
      obtain ⟨see', o₁, entry⟩ := hfirst.entry (hself (key, value) List.mem_cons_self _)
      obtain ⟨s₂, o₂, loop, hsame⟩ := ih.2 fun pre' key' value' post hl => by
        have := h ((key, value) :: pre') key' value' post (by rw [hl, List.cons_append])
        rwa [List.append_assoc]
      rw [← entry.sourceAfter] at loop
      exact ⟨s₂, _, .cons entry loop, hsame⟩

end NatServer

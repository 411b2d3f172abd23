import NatServer.Server.Sample
/-!
# What handling a datagram leaves alone

No handler removes a node, and a handler writes the table only under the
message's `nodeID` and the server's own. `localEpInfo`, `fCkTimeMap` and
`tickerNum` each change in a few branches only.
-/

namespace NatServer

open Effect Json

variable {cfg : Config} {s s' : Server} {o : List SendTo} {n k : String}

/-- `hostList` lost no key and has what it had under every key but `n` and the
server's own. -/
structure Framed (cfg : Config) (n : String) (before after : StrMap String) : Prop where
  keys : ∀ k ∈ before, k ∈ after
  rest : ∀ k, k ≠ n → k ≠ cfg.nodeID → after[k]? = before[k]?

theorem Framed.refl (n : String) (table : StrMap String) : Framed cfg n table table :=
  ⟨fun _ h => h, fun _ _ _ => rfl⟩

theorem Framed.trans {a b c : StrMap String} (h : Framed cfg n a b) (h' : Framed cfg n b c) : Framed cfg n a c :=
  ⟨fun k hk => h'.keys k (h.keys k hk), fun k hn ho => (h'.rest k hn ho).trans (h.rest k hn ho)⟩

theorem Framed.insert (n : String) (table : StrMap String) (info : String) :
    Framed cfg n table (table.insert n info) :=
  ⟨fun k hk => by simp [hk], fun k hn _ => StrMap.getElem?_insert_of_ne _ _ hn⟩

theorem Framed.insertIfNew (n : String) (table : StrMap String) {k : String} (info : String)
    (hk : k = n ∨ k = cfg.nodeID) : Framed cfg n table (table.insertIfNew k info) := by
  refine ⟨fun k' hk' => by simp [hk'], fun k' hn ho => ?_⟩
  rw [StrMap.getElem?_insertIfNew, if_neg]
  rintro ⟨rfl, -⟩
  exact hk.elim hn ho

theorem Framed.registered (n : String) (table : StrMap String) (info : Json) :
    Framed cfg n table (registered cfg n info table) :=
  (Framed.insertIfNew n table _ (.inl rfl)).trans (Framed.insertIfNew n _ _ (.inr rfl))

/-- One round of the update loop. -/
theorem EntryRan.framed {see : Endpoint} {key : String} {value : Json} {r : Ran Server SendTo Fault Endpoint}
    (h : EntryRan cfg n see key value s r) : Framed cfg n s.hostList r.state.hostList := by
  cases h with
  | own => exact Framed.insertIfNew n _ _ (.inr rfl)
  | sameIp => exact Framed.insertIfNew n _ _ (.inl rfl)
  | _ => exact Framed.refl n _

theorem LoopRan.framed {see : Endpoint} {l : List (String × Json)} {r : Ran Server SendTo Fault Unit}
    (h : LoopRan cfg n see s l r) : Framed cfg n s.hostList r.state.hostList := by
  induction h with
  | nil => exact Framed.refl n _
  | fault entry => exact entry.framed
  | cons entry _ ih => exact entry.framed.trans ih

/-- The loop writes the table and nothing else. -/
theorem EntryRan.state {see : Endpoint} {key : String} {value : Json} {r : Ran Server SendTo Fault Endpoint}
    (h : EntryRan cfg n see key value s r) : ∃ table, r.state = { s with hostList := table } := by
  cases h <;> exact ⟨_, rfl⟩

theorem LoopRan.state {see : Endpoint} {l : List (String × Json)} {r : Ran Server SendTo Fault Unit}
    (h : LoopRan cfg n see s l r) : ∃ table, r.state = { s with hostList := table } := by
  induction h with
  | nil => exact ⟨_, rfl⟩
  | fault entry => exact entry.state
  | cons entry _ ih =>
    obtain ⟨table, ih⟩ := ih
    obtain ⟨_, he⟩ := entry.state
    dsimp only at he
    subst he
    exact ⟨table, ih⟩

theorem EntryRan.localEpInfo {see : Endpoint} {key : String} {value : Json} {r : Ran Server SendTo Fault Endpoint}
    (h : EntryRan cfg n see key value s r) : r.state.localEpInfo = s.localEpInfo := by
  obtain ⟨_, hs⟩ := h.state
  rw [hs]

theorem LoopRan.localEpInfo {see : Endpoint} {l : List (String × Json)} {r : Ran Server SendTo Fault Unit}
    (h : LoopRan cfg n see s l r) : r.state.localEpInfo = s.localEpInfo := by
  obtain ⟨_, hs⟩ := h.state
  rw [hs]

theorem LoopRan.fCkTimeMap {see : Endpoint} {l : List (String × Json)} {r : Ran Server SendTo Fault Unit}
    (h : LoopRan cfg n see s l r) : r.state.fCkTimeMap = s.fCkTimeMap := by
  obtain ⟨_, hs⟩ := h.state
  rw [hs]

theorem LoopRan.tickerNum {see : Endpoint} {l : List (String × Json)} {r : Ran Server SendTo Fault Unit}
    (h : LoopRan cfg n see s l r) : r.state.tickerNum = s.tickerNum := by
  obtain ⟨_, hs⟩ := h.state
  rw [hs]

section
variable [Boost]

theorem Handled.framed {draws : Draws} {seen : Endpoint} {j : Json} {t : MsgType} {b : Bool}
    (h : Handled cfg draws seen n j s t b s' o) : Framed cfg n s.hostList s'.hostList := by
  cases h with
  | detectMapped | detectPublic => exact Framed.registered n _ _
  | update _ _ _ _ loop => exact loop.framed
  | openChanged | callclientRes | ticker => exact Framed.insert n _ _
  | openSame => exact Framed.insertIfNew n _ _ (.inl rfl)
  | _ => exact Framed.refl n _

/-- The pending checks: a mapped detect adds one, an answered one is erased. -/
theorem Handled.checks {draws : Draws} {seen : Endpoint} {j : Json} {t : MsgType} {b : Bool}
    (h : Handled cfg draws seen n j s t b s' o) :
    s'.fCkTimeMap = s.fCkTimeMap ∨
      s'.fCkTimeMap = s.fCkTimeMap.insertIfNew draws.key (keyStr draws.curTime seen n) ∨
      ∃ msgid, s'.fCkTimeMap = s.fCkTimeMap.erase msgid := by
  cases h with
  | detectMapped => exact .inr (.inl rfl)
  | callclientRes => exact .inr (.inr ⟨_, rfl⟩)
  | update _ _ _ _ loop => exact .inl loop.fCkTimeMap
  | _ => exact .inl rfl

/-- A handled datagram keeps every key of the table, and what is stored under
every key but its `nodeID` and the server's own. -/
theorem handling_keeps_table {error : Option ErrorCode} {remote : Endpoint} {datagram : List UInt8} {draws : Draws}
    {sent : List SendTo} (h : Step cfg s ⟨.receive error remote datagram draws, sent⟩ s') :
    (∀ k ∈ s.hostList, k ∈ s'.hostList) ∧
      ∀ k, (heard cfg remote datagram).bind messageID ≠ some k → k ≠ cfg.nodeID → s'.hostList[k]? = s.hostList[k]? := by
  cases completes_receive h.enabled h.completes with
  | failed | ignored => exact ⟨fun _ hk => hk, fun _ _ _ => rfl⟩
  | @handled j n type t b s₁ o he hheard hn htype ht hh =>
    have hf := hh.framed
    rw [rearmed_hostList]
    refine ⟨hf.keys, fun k hk ho => hf.rest k (fun e => hk ?_) ho⟩
    rw [hheard, Option.bind_some, hn, e]

end

/-- A ticker from `b` rewrites the entry of `b` in a table with two nodes. -/
theorem handling_keeps_table_ticker :
    let table := ((∅ : StrMap String).insert "a" (sampleMapped ⟨"5.5.5.5", 1000⟩).dump).insert "b" ""
    let data := sampleMapped ⟨"5.5.5.5", 2000⟩
    (∀ k ∈ table, k ∈ table.insert "b" data.dump) ∧
      ∀ k, (heard natReceiver ⟨"5.5.5.5", 2000⟩ (wire (tickerMsg natSender data).dump)).bind messageID ≠ some k →
        k ≠ "r" → (table.insert "b" data.dump)[k]? = table[k]? := by
  let _ := digitsBoost
  intro table data
  have hstep : Step natReceiver { init natReceiver with hostList := table }
      ⟨.receive none ⟨"5.5.5.5", 2000⟩ _ _, _⟩ _ :=
    step_of_handled ⟨0, "m", "k"⟩ rfl (by decide) (by decide +kernel) (isMessage_ticker natSender data)
      (.ticker (data_tickerMsg _ _) (msgid_tickerMsg _ _) rfl)
  exact handling_keeps_table hstep

end NatServer

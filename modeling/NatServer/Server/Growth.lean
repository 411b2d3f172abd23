import NatServer.Server.Check
import NatServer.Server.Frame
import Mathlib.Data.List.Dedup
/-!
# How much a server can be made to hold and to send

The table grows by one entry for each id that is heard, and no turn sends more
than two messages for each entry of the table or of the update it handles.
-/

namespace NatServer

open Effect Json

/-- The id of the message an event brings. -/
def Event.sender (cfg : Config) : Event → Option String
  | .receive _ remote datagram _ => (heard cfg remote datagram).bind messageID
  | .timer _ => none

/-- The number of entries in the data of the message an event brings. -/
def Event.entries (cfg : Config) : Event → Nat
  | .receive _ remote datagram _ =>
    match ((heard cfg remote datagram).bind (·.sub "data")).map view with
    | some (.object m) => m.size
    | _ => 0
  | .timer _ => 0

variable {cfg : Config} {s s' : Server} {o : List SendTo}

/-! ## How many are sent -/

theorem notifications_length {msg : Json} {l : List (String × String)} (h : notifications cfg msg l = some o) :
    o.length ≤ l.length := by
  induction l generalizing o with
  | nil =>
    cases h
    simp
  | cons p l ih =>
    obtain ⟨id, info⟩ := p
    simp only [notifications, Option.bind_eq_bind, Option.bind_eq_some_iff] at h
    obtain ⟨j, -, h⟩ := h
    split at h
    · exact (ih h).trans (Nat.le_succ _)
    · simp only [Option.bind_eq_some_iff, Option.pure_def, Option.some.injEq] at h
      obtain ⟨ip, -, port, -, o', ho', rfl⟩ := h
      simpa using ih ho'

theorem routeUpdate_length {table : StrMap String} (h : routeUpdate cfg table = some o) : o.length ≤ table.size := by
  simpa using notifications_length h

theorem tickerTargets_length {l : List (String × String)} {es : List Endpoint} (h : tickerTargets cfg l = some es) :
    es.length ≤ l.length := by
  induction l generalizing es with
  | nil =>
    cases h
    simp
  | cons p l ih =>
    obtain ⟨id, info⟩ := p
    simp only [tickerTargets, Option.bind_eq_bind, Option.bind_eq_some_iff, Option.pure_def, Option.some.injEq] at h
    obtain ⟨e, -, es', hes', rfl⟩ := h
    have := ih hes'
    split <;> simp <;> omega

theorem EntryRan.length_le {n key : String} {see : Endpoint} {value : Json} {r : Ran Server SendTo Fault Endpoint}
    (h : EntryRan cfg n see key value s r) : r.out.length ≤ 2 := by
  cases h <;> simp

theorem LoopRan.length_le {n : String} {see : Endpoint} {l : List (String × Json)} {r : Ran Server SendTo Fault Unit}
    (h : LoopRan cfg n see s l r) : r.out.length ≤ 2 * l.length := by
  induction h with
  | nil => simp
  | fault entry =>
    have hentry := entry.length_le
    simp only [List.length_cons] at hentry ⊢
    omega
  | cons entry _ ih =>
    have hentry := entry.length_le
    simp only [List.length_append, List.length_cons] at hentry ih ⊢
    omega

theorem Passed.length_le [Boost] {now : Int} (h : Passed cfg now s s' o) : o.length ≤ 1 + 2 * s'.hostList.size := by
  obtain @⟨s₁, s₂, _, b₁, b₂, es, o₁, o₂, -, -, hticker, hnotify, hlist⟩ := h
  have hes : es.length ≤ s₂.hostList.size := by simpa using tickerTargets_length hticker
  have ho₁ : o₁.length ≤ s₂.hostList.size := by
    split at hnotify
    · exact routeUpdate_length hnotify
    · simp [hnotify]
  have ho₂ : o₂.length ≤ 1 := by rcases completes_listMsgQueue.1 hlist with ⟨-, -, rfl⟩ | ⟨-, -, rfl⟩ <;> simp
  rw [listMsgQueue_hostList hlist]
  simp only [List.length_append, List.length_map]
  omega

section
variable [Boost]

theorem Handled.length_le {draws : Draws} {seen : Endpoint} {n : String} {j : Json} {t : MsgType} {b : Bool} {k : Nat}
    (h : Handled cfg draws seen n j s t b s' o) (hk : ∀ m, j.sub "data" = some (.object m) → m.size ≤ k) :
    o.length ≤ 3 + 2 * max s'.hostList.size k := by
  cases h with
  | detectMapped _ _ _ ho =>
    have := routeUpdate_length ho
    simp only [List.length_cons]
    omega
  | detectPublic _ _ ho | callclientRes _ _ _ _ _ ho | callclientResUnknown _ _ _ ho =>
    have hle {a b : Nat} (h : b ≤ a) : b ≤ 3 + 2 * max a k := by omega
    exact hle (routeUpdate_length ho)
  | update _ hdata _ _ loop =>
    have hloop := loop.length_le
    have hsize := hk _ hdata
    simp only [Std.ExtTreeMap.length_toList] at hloop
    omega
  | updateSelf | openChanged | openSame | tickerRes => simp
  | helpconnect | callclient => simp
  | proxyconnect | filteringcheck | ticker | tickerEmpty => simp; omega

theorem Step.length_le {t : Turn} (h : Step cfg s t s') :
    t.sent.length ≤ 3 + 2 * max s'.hostList.size (t.event.entries cfg) := by
  obtain ⟨event, sent⟩ := t
  cases event with
  | timer now =>
    exact (completes_threadhandle.1 h.completes).length_le.trans (by omega)
  | receive error remote datagram draws =>
    have hreceived := completes_receive h.enabled h.completes
    dsimp only at hreceived ⊢
    cases hreceived with
    | failed | ignored => simp
    | handled he hheard hn htype ht hh =>
      rw [rearmed_hostList]
      exact hh.length_le fun m hm => by simp [Event.entries, hheard, hm]

end

/-! ## How many are held -/

theorem Event.Carries.sender {event : Event} {type : MsgType} {n : String} {j : Json}
    (h : event.Carries cfg type n j) : event.sender cfg = some n := by
  obtain ⟨-, hheard, -, hn⟩ := h
  rw [Event.sender, hheard, Option.bind_some, hn]

theorem size_le_of_keys {table : StrMap String} {l : List String} (h : ∀ k ∈ table, k ∈ l) : table.size ≤ l.length := by
  rw [← Std.ExtTreeMap.length_keys]
  exact (List.subperm_of_subset Std.ExtTreeMap.nodup_keys fun k hk => h k (Std.ExtTreeMap.mem_keys.1 hk)).length_le

section
variable [Boost]

/-- A key that a turn added. -/
theorem Step.key_origin {t : Turn} (h : Step cfg s t s') {k : String} (hk : k ∈ s'.hostList) :
    k ∈ s.hostList ∨ k = cfg.nodeID ∨ ∃ type j, t.event.Carries cfg type k j := by
  obtain ⟨event, sent⟩ := t
  cases event with
  | timer now => exact .inl ((completes_threadhandle.1 h.completes).endpoint hk).1
  | receive error remote datagram draws =>
    rcases receive_cases h.enabled h.completes with ⟨-, rfl | rfl⟩ | ⟨type, n, j, b, s₁, hc, hh, rfl⟩
    · exact .inl (by simpa using hk)
    · exact .inl (by simpa using hk)
    · rw [rearmed_hostList] at hk
      by_cases hn : k = n
      · exact .inr (.inr ⟨type, j, hn ▸ hc⟩)
      by_cases hown : k = cfg.nodeID
      · exact .inr (.inl hown)
      refine .inl (StrMap.mem_iff.2 ?_)
      have hrest := hh.framed.rest k hn hown
      rw [arrive_hostList] at hrest
      rw [← hrest]
      exact StrMap.mem_iff.1 hk

/-- The server's own id and those it heard. -/
def idsHeard (cfg : Config) (ts : List Turn) : List String := (cfg.nodeID :: ts.filterMap (·.event.sender cfg)).dedup

theorem keys_step {ts : List Turn} {t : Turn} (ht : t ∈ ts) (hs : ∀ k ∈ s.hostList, k ∈ idsHeard cfg ts)
    (h : Step cfg s t s') : ∀ k ∈ s'.hostList, k ∈ idsHeard cfg ts := by
  intro k hk
  rcases h.key_origin hk with hold | rfl | ⟨type, j, hc⟩
  · exact hs k hold
  · exact List.mem_dedup.2 List.mem_cons_self
  · exact List.mem_dedup.2 (List.mem_cons_of_mem _ (List.mem_filterMap.2 ⟨t, ht, hc.sender⟩))

/-- In every run, however long, the table has at most one entry for each id heard
and one for the server itself, and no turn sends more than three messages and two
for each of these, or two for each entry of the update it handles. -/
theorem growth_bounded {ts : List Turn} (h : Run (Step cfg) (init cfg) ts s) :
    s.hostList.size ≤ (idsHeard cfg ts).length ∧
      ∀ t ∈ ts, t.sent.length ≤ 3 + 2 * max (idsHeard cfg ts).length (t.event.entries cfg) := by
  have h0 : ∀ k ∈ (init cfg).hostList, k ∈ idsHeard cfg ts := fun k hk => by simp [init] at hk
  refine ⟨size_le_of_keys (h.invariant_of_mem keys_step h0), fun t ht => ?_⟩
  obtain ⟨s₁, s₂, hkeys, hstep⟩ := h.exists_step keys_step h0 ht
  have hsent := hstep.length_le
  have hsize := size_le_of_keys (keys_step ht hkeys hstep)
  omega

end

theorem growth_bounded_probe : ∃ t s, Run (@Step digitsBoost checkServer) (init checkServer) [t] s ∧
    "p" ∈ s.hostList ∧ s.hostList.size ≤ (idsHeard checkServer [t]).length ∧
      ∀ t' ∈ [t], t'.sent.length ≤ 3 + 2 * max (idsHeard checkServer [t]).length (t'.event.entries checkServer) := by
  let _ := digitsBoost
  obtain ⟨sent, s, hstep, hhost, -⟩ := checkProbe_registers
  exact ⟨_, s, .single hstep, by rw [hhost]; simp [registered], growth_bounded (.single hstep)⟩

end NatServer

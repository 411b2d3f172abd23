import NatServer.Server.Growth
/-!
# Messages of different nodes do not interfere

But for updates, what a message leaves under a key depends on what was under
that key and on nothing else in the server. So the table after a run is the
same however the messages of different nodes came in between each other.
-/

namespace NatServer

open Effect Json

variable {cfg : Config} {s s' r r' : Server}

/-! ## One message, one entry -/

theorem registered_congr {m m' : StrMap String} {k : String} (h : m[k]? = m'[k]?) (cfg : Config) (n : String) (info : Json) :
    (registered cfg n info m)[k]? = (registered cfg n info m')[k]? :=
  StrMap.insertIfNew_congr (StrMap.insertIfNew_congr h _ _) _ _

section
variable [Boost]

/-- Two servers that handle the same message agree afterwards on each entry they
agreed on before. -/
theorem Handled.entry_congr {draws : Draws} {seen : Endpoint} {n k : String} {j : Json} {t : MsgType} {b b' : Bool}
    {o o' : List SendTo} (h : Handled cfg draws seen n j s t b s' o) (h' : Handled cfg draws seen n j r t b' r' o')
    (ht : t ≠ .update) (hk : s.hostList[k]? = r.hostList[k]?) : s'.hostList[k]? = r'.hostList[k]? := by
  cases h with
  | detectMapped hdata hmapped =>
    cases h' with
    | detectMapped hdata' =>
      cases hdata.symm.trans hdata'
      exact registered_congr hk ..
    | detectPublic hdata' hpublic =>
      cases hdata.symm.trans hdata'
      exact absurd hmapped hpublic
  | detectPublic hdata hpublic =>
    cases h' with
    | detectMapped hdata' hmapped =>
      cases hdata.symm.trans hdata'
      exact absurd hmapped hpublic
    | detectPublic hdata' => exact registered_congr hk ..
  | updateSelf | update => exact absurd rfl ht
  | openChanged hdata hdiff hchange =>
    cases h' with
    | openChanged hdata' _ hchange' =>
      cases hdata.symm.trans hdata'
      cases hchange.symm.trans hchange'
      exact StrMap.insert_congr hk ..
    | openSame hdata' hdiff' =>
      cases hdata.symm.trans hdata'
      cases hdiff.symm.trans hdiff'
  | openSame hdata hdiff =>
    cases h' with
    | openChanged hdata' hdiff' =>
      cases hdata.symm.trans hdata'
      cases hdiff.symm.trans hdiff'
    | openSame hdata' =>
      cases hdata.symm.trans hdata'
      exact StrMap.insertIfNew_congr hk ..
  | callclientRes _ _ hinfo hchange =>
    by_cases hkn : k = n
    · subst hkn
      cases h' with
      | callclientRes _ _ hinfo' hchange' =>
        cases hinfo.symm.trans (hk.trans hinfo')
        cases hchange.symm.trans hchange'
        simp
      | callclientResUnknown _ _ hinfo' => cases hinfo.symm.trans (hk.trans hinfo')
    · cases h' with
      | callclientRes =>
        rw [StrMap.getElem?_insert_of_ne _ _ hkn, StrMap.getElem?_insert_of_ne _ _ hkn, hk]
      | callclientResUnknown => rw [StrMap.getElem?_insert_of_ne _ _ hkn, hk]
  | callclientResUnknown _ _ hinfo =>
    by_cases hkn : k = n
    · subst hkn
      cases h' with
      | callclientRes _ _ hinfo' => cases hinfo.symm.trans (hk.trans hinfo')
      | callclientResUnknown => exact hk
    · cases h' with
      | callclientRes => rw [StrMap.getElem?_insert_of_ne _ _ hkn, hk]
      | callclientResUnknown => exact hk
  | ticker hdata _ hnull =>
    cases h' with
    | ticker hdata' =>
      cases hdata.symm.trans hdata'
      exact StrMap.insert_congr hk ..
    | tickerEmpty hdata' =>
      cases hdata.symm.trans hdata'
      cases hnull
  | tickerEmpty hdata =>
    cases h' with
    | ticker hdata' _ hnull =>
      cases hdata.symm.trans hdata'
      cases hnull
    | tickerEmpty => exact hk
  | _ =>
    cases h'
    exact hk

/-- What a message of another node leaves under the server's own id. -/
theorem Handled.own_entry {draws : Draws} {seen : Endpoint} {n : String} {j : Json} {t : MsgType} {b : Bool}
    {o : List SendTo} (h : Handled cfg draws seen n j s t b s' o) (ht : t ≠ .update) (hn : n ≠ cfg.nodeID) :
    s'.hostList[cfg.nodeID]? =
      if t = .detect then s.hostList[cfg.nodeID]?.or (some (selfInfo cfg).dump) else s.hostList[cfg.nodeID]? := by
  have hregistered (info : Json) : (registered cfg n info s.hostList)[cfg.nodeID]? =
      s.hostList[cfg.nodeID]?.or (some (selfInfo cfg).dump) := by
    rw [registered, StrMap.getElem?_insertIfNew_self, StrMap.getElem?_insertIfNew_of_ne _ _ (Ne.symm hn)]
  cases h with
  | detectMapped | detectPublic => exact hregistered _
  | updateSelf | update => exact absurd rfl ht
  | openChanged | callclientRes | ticker => exact StrMap.getElem?_insert_of_ne _ _ (Ne.symm hn)
  | openSame => exact StrMap.getElem?_insertIfNew_of_ne _ _ (Ne.symm hn)
  | _ => rfl

end

/-! ## Runs -/

/-- The event is the receipt of something that no update and no message under the
server's own id. -/
structure Event.Peer (cfg : Config) (event : Event) : Prop where
  isTimer : event.isTimer = false
  sender : event.sender cfg ≠ some cfg.nodeID
  type : ∀ n j, ¬ event.Carries cfg .update n j

def Event.Detects (cfg : Config) (event : Event) : Prop := ∃ n j, event.Carries cfg .detect n j

section
variable [Boost] {t : Turn} {k : String}

/-- A received event of a peer brings no message, or one of another node. -/
theorem Step.peer_cases (h : Step cfg s t s') (hp : t.event.Peer cfg) :
    (∀ type n j, ¬ t.event.Carries cfg type n j) ∧ s'.hostList = s.hostList ∨
      ∃ error seen datagram draws type n j s₀ s₁ b, t.event = .receive error seen datagram draws ∧
        t.event.Carries cfg type n j ∧ type ≠ .update ∧ n ≠ cfg.nodeID ∧
        s₀.hostList = s.hostList ∧ s'.hostList = s₁.hostList ∧ Handled cfg draws seen n j s₀ type b s₁ t.sent := by
  obtain ⟨event, sent⟩ := t
  cases event with
  | timer now => cases hp.isTimer
  | receive error remote datagram draws =>
    rcases receive_cases h.enabled h.completes with ⟨hnone, rfl | rfl⟩ | ⟨type, n, j, b, s₁, hc, hh, rfl⟩
    · exact .inl ⟨hnone, by simp⟩
    · exact .inl ⟨hnone, by simp⟩
    · refine .inr ⟨error, remote, datagram, draws, type, n, j, _, s₁, b, rfl, hc, ?_, ?_, by simp, by simp, hh⟩
      · rintro rfl
        exact hp.type n j hc
      · rintro rfl
        exact hp.sender hc.sender

/-- What an event makes of the entry under `k`. -/
def EntryStep (cfg : Config) (k : String) (before : Option String) (event : Event) (after : Option String) : Prop :=
  ∃ s s' sent, Step cfg s ⟨event, sent⟩ s' ∧ event.Peer cfg ∧ s.hostList[k]? = before ∧ s'.hostList[k]? = after

theorem EntryStep.functional {before after after' : Option String} {event : Event} (h : EntryStep cfg k before event after)
    (h' : EntryStep cfg k before event after') : after = after' := by
  obtain ⟨s, s', sent, hstep, hp, rfl, rfl⟩ := h
  obtain ⟨r, r', sent', hstep', -, hsame, rfl⟩ := h'
  rcases hstep.peer_cases hp with ⟨hnone, hs⟩ | ⟨_, _, _, _, _, _, _, s₀, s₁, b, rfl, hc, htype, -, hs₀, hs₁, hh⟩
  · rcases hstep'.peer_cases hp with ⟨-, hr⟩ | ⟨_, _, _, _, _, _, _, _, _, _, -, hc, -⟩
    · rw [hs, hr, hsame]
    · exact absurd hc (hnone _ _ _)
  · rcases hstep'.peer_cases hp with ⟨hnone, -⟩ | ⟨_, _, _, _, _, _, _, r₀, r₁, b', hevent, hc', -, -, hr₀, hr₁, hh'⟩
    · exact absurd hc (hnone _ _ _)
    · cases hevent
      obtain ⟨rfl, rfl, rfl⟩ := hc.unique hc'
      rw [hs₁, hr₁]
      exact hh.entry_congr hh' htype (by rw [hs₀, hr₀, hsame])

/-- Messages of others do not touch it. -/
theorem Step.other_entry (h : Step cfg s t s') (hp : t.event.Peer cfg) (hk : t.event.sender cfg ≠ some k)
    (hown : k ≠ cfg.nodeID) : s'.hostList[k]? = s.hostList[k]? := by
  rcases h.peer_cases hp with ⟨-, hs⟩ | ⟨_, _, _, _, type, n, j, s₀, s₁, b, -, hc, -, -, hs₀, hs₁, hh⟩
  · rw [hs]
  · rw [hs₁, ← hs₀]
    exact hh.framed.rest k (fun hkn => hk (hkn ▸ hc.sender)) hown

theorem Step.own_entry (h : Step cfg s t s') (hp : t.event.Peer cfg) :
    t.event.Detects cfg ∧ s'.hostList[cfg.nodeID]? = s.hostList[cfg.nodeID]?.or (some (selfInfo cfg).dump) ∨
      ¬ t.event.Detects cfg ∧ s'.hostList[cfg.nodeID]? = s.hostList[cfg.nodeID]? := by
  rcases h.peer_cases hp with ⟨hnone, hs⟩ | ⟨_, _, _, _, type, n, j, s₀, s₁, b, -, hc, htype, hn, hs₀, hs₁, hh⟩
  · exact .inr ⟨fun ⟨n, j, hc⟩ => hnone _ n j hc, by rw [hs]⟩
  · have hentry := hh.own_entry htype hn
    rw [hs₁, ← hs₀, hentry]
    by_cases hdetect : type = .detect
    · subst hdetect
      exact .inl ⟨⟨n, j, hc⟩, if_pos rfl⟩
    · refine .inr ⟨fun ⟨n', j', hc'⟩ => hdetect (hc.unique hc').1, if_neg hdetect⟩

/-- The events that bring a message of `k`, in order. -/
def stream (cfg : Config) (k : String) (ts : List Turn) : List Event :=
  ts.filterMap fun t => if t.event.sender cfg = some k then some t.event else none

variable {ts ts' : List Turn}

theorem entry_of_stream (h : Run (Step cfg) s ts s') (hp : ∀ t ∈ ts, t.event.Peer cfg) (hown : k ≠ cfg.nodeID) :
    Run (EntryStep cfg k) s.hostList[k]? (stream cfg k ts) s'.hostList[k]? := by
  refine h.project (fun s => s.hostList[k]?) _ ?_ ?_
  · intro s t s' event ht hstep hlabel
    split at hlabel
    · cases hlabel
      exact ⟨s, s', t.sent, hstep, hp t ht, rfl, rfl⟩
    · cases hlabel
  · intro s t s' ht hstep hlabel
    split at hlabel
    · cases hlabel
    · next hk => exact hstep.other_entry (hp t ht) hk hown

theorem own_of_run (h : Run (Step cfg) s ts s') (hp : ∀ t ∈ ts, t.event.Peer cfg) :
    (∃ t ∈ ts, t.event.Detects cfg) ∧
        s'.hostList[cfg.nodeID]? = s.hostList[cfg.nodeID]?.or (some (selfInfo cfg).dump) ∨
      (∀ t ∈ ts, ¬ t.event.Detects cfg) ∧ s'.hostList[cfg.nodeID]? = s.hostList[cfg.nodeID]? := by
  induction h with
  | nil => exact .inr ⟨by simp, rfl⟩
  | @cons s s₁ s₂ t ts hstep _ ih =>
    have hrest := ih fun t ht => hp t (List.mem_cons_of_mem _ ht)
    rcases hstep.own_entry (hp t List.mem_cons_self) with ⟨hdetect, hs⟩ | ⟨hnot, hs⟩
    · refine .inl ⟨⟨t, List.mem_cons_self, hdetect⟩, ?_⟩
      rcases hrest with ⟨-, hs'⟩ | ⟨-, hs'⟩
      · rw [hs', hs, Option.or_assoc, Option.or_self]
      · rw [hs', hs]
    · rw [hs] at hrest
      rcases hrest with ⟨⟨t', ht', hdetect⟩, hs'⟩ | ⟨hnone, hs'⟩
      · exact .inl ⟨⟨t', List.mem_cons_of_mem _ ht', hdetect⟩, hs'⟩
      · exact .inr ⟨List.forall_mem_cons.2 ⟨hnot, hnone⟩, hs'⟩

omit [Boost] in
theorem detects_of_streams (hstreams : ∀ k, stream cfg k ts = stream cfg k ts') (h : ∃ t ∈ ts, t.event.Detects cfg) :
    ∃ t ∈ ts', t.event.Detects cfg := by
  obtain ⟨t, ht, n, j, hc⟩ := h
  have hmem : t.event ∈ stream cfg n ts := List.mem_filterMap.2 ⟨t, ht, if_pos hc.sender⟩
  rw [hstreams n] at hmem
  obtain ⟨t', ht', hevent⟩ := List.mem_filterMap.1 hmem
  split at hevent
  · exact ⟨t', ht', n, j, Option.some.inj hevent ▸ hc⟩
  · cases hevent

end

/-! Tickers of two nodes, in both orders. -/

section

def tickerFrom (nodeID ip : String) : Json := tickerMsg (sampleNode nodeID ip false) (sampleMapped ⟨ip, 1000⟩)

def tickerEvent (nodeID ip : String) : Event :=
  .receive none ⟨ip, 1000⟩ (wire (tickerFrom nodeID ip).dump) ⟨0, "m", "k"⟩

variable {nodeID ip : String} (hip : ip ≠ natReceiver.localIp)
  (hfit : ((tickerFrom nodeID ip).val.dump.flatMap String.utf8EncodeChar).length ≤ bufferSize)

include hip hfit

theorem tickerEvent_step (hs : s.receiving = true) :
    ∃ sent s', @Step digitsBoost natReceiver s ⟨tickerEvent nodeID ip, sent⟩ s' ∧ s'.receiving = true :=
  let _ := digitsBoost
  ⟨_, _, step_of_handled _ hs hip hfit (isMessage_ticker ..) (.ticker (data_tickerMsg _ _) (msgid_tickerMsg _ _) rfl), rfl⟩

theorem tickerEvent_peer (hn : nodeID ≠ natReceiver.nodeID) :
    (tickerEvent nodeID ip).sender natReceiver = some nodeID ∧ (tickerEvent nodeID ip).Peer natReceiver := by
  have hc : (tickerEvent nodeID ip).Carries natReceiver .ticker nodeID _ := carries_wire hip hfit (isMessage_ticker ..) _
  exact ⟨hc.sender, rfl, by rw [hc.sender]; simpa using hn, fun _ _ h => by cases (hc.unique h).1⟩

end

theorem stream_swap {event event' : Event} {n n' : String} (h : event.sender cfg = some n)
    (h' : event'.sender cfg = some n') (hne : n ≠ n') (k : String) (o₁ o₂ o₃ o₄ : List SendTo) :
    stream cfg k [⟨event, o₁⟩, ⟨event', o₂⟩] = stream cfg k [⟨event', o₃⟩, ⟨event, o₄⟩] := by
  by_cases hk : n = k
  · subst hk
    simp [stream, h, h', Ne.symm hne]
  · simp [stream, List.filterMap_cons, h, hk]

end NatServer

import NatServer.Server.Observed
/-!
# False evictions

The timer thread counts, for each endpoint, the tickers it has sent there; an
answer clears the counter of the endpoint it comes from. A node is removed with
the counter of its endpoint, so the count is its own silence only as long as
nobody shares its endpoint, its answers come from there, and it does not come
to an endpoint that was counted before.
-/

namespace NatServer

open Effect Json

variable {cfg : Config} {s s' : Server} {t : MsgType} {n k key : String} {e seen : Endpoint} {j : Json} {o : List SendTo}

/-! ## The endpoint a message gives a node -/

/-- The message from `n` gives the entry of `n` this endpoint: it enters `n` in
the table, or writes over the endpoint that is there. -/
inductive Places (cfg : Config) (n : String) (table : StrMap String) (seen : Endpoint) (j : Json) :
    MsgType → Endpoint → Prop
  | detect (hnew : n ∉ table) : Places cfg n table seen j .detect seen
  | openNew (hnew : n ∉ table) : Places cfg n table seen j .openconnect seen
  | openMoved (hother : ReportsOther .openconnect seen j) : Places cfg n table seen j .openconnect seen
  | update {data : StrMap Json} {p : String × Json} {e : Endpoint} (hnew : n ∉ table)
      (hdata : j.sub "data" = some (.object data)) (htaken : takenForSender cfg seen table data.toList = some p)
      (he : firstEndpoint p.2 = some e) : Places cfg n table seen j .update e
  | ticker {data : Json} {e : Endpoint} (hdata : j.sub "data" = some data) (hnull : data.isNull = false)
      (he : firstEndpoint data = some e) : Places cfg n table seen j .ticker e

/-- The endpoint of `n` after the message. -/
def Becomes (cfg : Config) (n : String) (table : StrMap String) (seen : Endpoint) (j : Json) (t : MsgType)
    (e : Endpoint) : Prop :=
  Places cfg n table seen j t e ∨ (∀ e', ¬ Places cfg n table seen j t e') ∧ HasEndpoint table n e

section
variable [Boost] {draws : Draws} {b : Bool}

theorem Handled.becomes_known (hh : Handled cfg draws seen n j s t b s' o) (hin : n ∈ s.hostList)
    (he : HasEndpoint s'.hostList n e) : Becomes cfg n s.hostList seen j t e := by
  rcases hh.known_entry hin with ⟨-, v, hv, hget⟩ | ⟨hnot, hsame⟩
  · rw [HasEndpoint, hget, Option.bind_some, textEndpoint_dump] at he
    cases hv with
    | openconnect hdata hdiff hchange =>
      cases (firstEndpoint_withEndpoint0 hchange).symm.trans he
      exact .inl (.openMoved ⟨rfl, by rw [hdata]; exact hdiff⟩)
    | callclientRes hinfo hchange =>
      rw [← textEndpoint_dump, setFiltering_endpoint hchange] at he
      refine .inr ⟨by rintro e' ⟨⟩, ?_⟩
      rw [HasEndpoint, hinfo]
      exact he
    | ticker hdata hnull => exact .inl (.ticker hdata hnull he)
  · rw [HasEndpoint, hsame] at he
    refine .inr ⟨fun e' hp => ?_, he⟩
    cases hp with
    | detect hnew | openNew hnew | update hnew => exact hnew hin
    | openMoved hother =>
      obtain ⟨data, hdata, hdiff⟩ := Option.bind_eq_some_iff.1 hother.2
      obtain ⟨ip, hip⟩ := epIp_of_differs hdiff
      obtain ⟨change, hchange⟩ := withEndpoint0_of_epIp hip seen
      exact hnot rfl _ (.openconnect hdata hdiff hchange)
    | ticker hdata hnull => exact hnot rfl _ (.ticker hdata hnull)

theorem Handled.becomes_new (hh : Handled cfg draws seen n j s t b s' o) (hn : n ≠ cfg.nodeID)
    (hnew : n ∉ s.hostList) (he : HasEndpoint s'.hostList n e) : Places cfg n s.hostList seen j t e := by
  have habsent (h : HasEndpoint s.hostList n e) : False := hnew h.mem
  -- what is stored for a new id is where `n` is now
  have hstored {table : StrMap String} {info : Json} {e' : Endpoint} (h : HasEndpoint table n e)
      (hget : table[n]? = some info.dump) (hinfo : firstEndpoint info = some e') : e' = e := by
    rw [HasEndpoint, hget, Option.bind_some, textEndpoint_dump, hinfo] at h
    exact Option.some.inj h
  cases hh with
  | detectMapped =>
    obtain rfl := hstored he ((getElem?_registered_self ..).trans (if_neg hnew)) (firstEndpoint_of_record (record?_nodeInfo ..))
    exact .detect hnew
  | detectPublic =>
    obtain rfl := hstored he ((getElem?_registered_self ..).trans (if_neg hnew)) (firstEndpoint_of_record (record?_nodeInfo ..))
    exact .detect hnew
  | update _ hdata hself hown loop =>
    have hsender := loop.sender (.inr rfl) hn hnew
    obtain ⟨info, hinfo, hend⟩ := Option.bind_eq_some_iff.1 he
    rw [show Ran.state _ = s' from rfl, hinfo] at hsender
    obtain ⟨p, hp, rfl⟩ := Option.map_eq_some_iff.1 hsender.symm
    exact .update hnew hdata hp (by rwa [textEndpoint_dump] at hend)
  | openChanged hdata hdiff hchange =>
    obtain rfl := hstored he (StrMap.getElem?_insert_self ..) (firstEndpoint_withEndpoint0 hchange)
    exact .openNew hnew
  | openSame hdata hdiff =>
    obtain rfl := hstored he ((StrMap.getElem?_insertIfNew ..).trans (if_pos ⟨rfl, hnew⟩)) (firstEndpoint_of_same hdiff)
    exact .openNew hnew
  | callclientRes hip hport hinfo =>
    exact absurd (StrMap.mem_iff.2 ⟨_, hinfo⟩) hnew
  | ticker hdata hmsgid hnull =>
    exact .ticker hdata hnull (hasEndpoint_insert.1 he)
  | _ => exact (habsent he).elim

/-- A message changes the entry of its own node only, and to this endpoint. -/
theorem Handled.becomes (hh : Handled cfg draws seen n j s t b s' o) (hn : n ≠ cfg.nodeID)
    (he : HasEndpoint s'.hostList n e) : Becomes cfg n s.hostList seen j t e := by
  by_cases hin : n ∈ s.hostList
  · exact hh.becomes_known hin he
  · exact .inl (hh.becomes_new hn hin he)

/-- A heartbeat clears the counter of the endpoint it comes from. -/
theorem Handled.tickerNum (hh : Handled cfg draws seen n j s t b s' o) :
    (t = .ticker ∨ t = .tickerRes) ∧ s'.tickerNum = s.tickerNum.erase (tickerKey seen) ∨
      ¬ (t = .ticker ∨ t = .tickerRes) ∧ s'.tickerNum = s.tickerNum := by
  cases hh with
  | ticker | tickerEmpty => exact .inl ⟨.inl rfl, rfl⟩
  | tickerRes => exact .inl ⟨.inr rfl, rfl⟩
  | update _ _ _ _ loop => exact .inr ⟨by simp, loop.tickerNum⟩
  | _ => exact .inr ⟨by simp, rfl⟩

end

/-! ## The counter of an endpoint over a pass -/

theorem counter_erase (key key' : String) (num : StrMap UInt16) :
    counter key (num.erase key') = if key = key' then 0 else counter key num := by
  rw [counter, StrMap.getElem?_erase]
  split <;> rfl

/-- Only one entry that gets tickers is at the endpoint. -/
theorem countP_tickerTargets {l : List (String × String)} {es : List Endpoint} (hes : tickerTargets cfg l = some es)
    (hkeys : (l.map Prod.fst).Nodup)
    (hone : ∀ p ∈ l, p.1 ≠ n → p.1 ≠ cfg.nodeID → (textEndpoint p.2).map tickerKey ≠ some key) :
    es.countP (fun e => tickerKey e = key) ≤ if n ∈ l.map Prod.fst then 1 else 0 := by
  induction l generalizing es with
  | nil =>
    cases hes
    simp
  | cons p l ih =>
    obtain ⟨id, info⟩ := p
    simp only [tickerTargets, Option.bind_eq_bind, Option.bind_eq_some_iff, Option.pure_def, Option.some.injEq] at hes
    obtain ⟨e, he, es', hes', rfl⟩ := hes
    rw [List.map_cons, List.nodup_cons] at hkeys
    have hrest := ih hes' hkeys.2 fun p hp => hone p (List.mem_cons_of_mem _ hp)
    have hfirst := hone (id, info) List.mem_cons_self
    by_cases hid : cfg.nodeID = id
    · rw [if_pos hid]
      refine hrest.trans ?_
      by_cases hl : n ∈ l.map Prod.fst
      · simp [hl]
      · simp [hl]
    · rw [if_neg hid, List.countP_cons]
      by_cases hn : id = n
      · subst hn
        rw [if_neg hkeys.1] at hrest
        rw [List.map_cons, if_pos List.mem_cons_self]
        split <;> omega
      · have hne : tickerKey e ≠ key := by
          intro h
          exact hfirst hn (Ne.symm hid) (by rw [he, Option.map_some, h])
        have hmem : n ∈ ((id, info) :: l).map Prod.fst ↔ n ∈ l.map Prod.fst := by
          simp [Ne.symm hn]
        simp only [hmem, hne, decide_false, Bool.false_eq_true, if_false]
        exact hrest

theorem Evicted.counter_le {b b' : Bool} {l : List (String × UInt16)} (h : Evicted s b l b' s') (key : String) :
    (counter key s'.tickerNum).toNat ≤ (counter key s.tickerNum).toNat := by
  unfold counter
  rcases hget : s'.tickerNum[key]? with _ | num
  · exact Nat.zero_le _
  · rw [h.frame.counters key num hget]

/-- No other node that gets tickers has the endpoint of `n`. -/
def Unshared (cfg : Config) (n : String) (table : StrMap String) : Prop :=
  ∀ k e e', k ≠ n → k ≠ cfg.nodeID → HasEndpoint table n e → HasEndpoint table k e' → tickerKey e' ≠ tickerKey e

/-- A pass counts at most one for an endpoint that is not shared. -/
theorem Passed.counter_le [Boost] {now : Int} (h : Passed cfg now s s' o) (he : HasEndpoint s'.hostList n e)
    (hone : Unshared cfg n s.hostList) :
    (counter (tickerKey e) s'.tickerNum).toNat ≤ (counter (tickerKey e) s.tickerNum).toNat + 1 := by
  have hbefore : HasEndpoint s.hostList n e := (h.endpoint he.mem).2.symm.trans he
  obtain @⟨s₁, s₂, _, b₁, b₂, es, _, _, hsweep, hevict, hticker, -, hlist⟩ := h
  have hnum : s'.tickerNum = countTickers es s₂.tickerNum := by
    rcases completes_listMsgQueue.1 hlist with ⟨-, rfl, -⟩ | ⟨-, rfl, -⟩ <;> rfl
  have hkeys := KeySorted.nodup_keys (KeySorted.toList s₂.hostList)
  have hcount : es.countP (fun e' => tickerKey e' = tickerKey e) ≤ 1 := by
    refine (countP_tickerTargets (n := n) hticker hkeys ?_).trans (by split <;> omega)
    intro p hp hpn hpo hkey
    obtain ⟨e', he', hkey⟩ := Option.map_eq_some_iff.1 hkey
    refine hone p.1 e e' hpn hpo hbefore ?_ hkey
    have hold := hevict.frame.entries p.1 p.2 (Std.ExtTreeMap.mem_toList_iff_getElem?_eq_some.1 hp)
    rw [HasEndpoint, ← hsweep.endpoint, hold, Option.bind_some, he']
  have hle := hevict.counter_le (tickerKey e)
  rw [hsweep.frame.tickerNum] at hle
  rw [hnum, counter_countTickers, UInt16.toNat_add, UInt16.toNat_ofNat']
  refine (Nat.mod_le _ _).trans ?_
  have hmod := Nat.mod_le (es.countP fun e' => tickerKey e' = tickerKey e) (2 ^ 16)
  omega

/-! ## Passes since a node was heard -/

/-- The event brings a ticker or a tickerRes of `n`. -/
def Heartbeat (cfg : Config) (n : String) (event : Event) : Prop :=
  ∃ t j, (t = .ticker ∨ t = .tickerRes) ∧ event.Carries cfg t n j

section
variable [Boost]

/-- A step, with the number of passes since `n` was entered in the table or its
last heartbeat was handled. -/
inductive Counted (cfg : Config) (n : String) : Server × Nat → Turn → Server × Nat → Prop
  | pass {s s' : Server} {passes : Nat} {now : Int} {sent} (h : Step cfg s ⟨.timer now, sent⟩ s') :
      Counted cfg n (s, passes) ⟨.timer now, sent⟩ (s', passes + 1)
  | fresh {s s' : Server} {passes : Nat} {error remote datagram draws sent}
      (h : Step cfg s ⟨.receive error remote datagram draws, sent⟩ s')
      (hfresh : Heartbeat cfg n (.receive error remote datagram draws) ∨ n ∉ s.hostList ∧ n ∈ s'.hostList) :
      Counted cfg n (s, passes) ⟨.receive error remote datagram draws, sent⟩ (s', 0)
  | other {s s' : Server} {passes : Nat} {error remote datagram draws sent}
      (h : Step cfg s ⟨.receive error remote datagram draws, sent⟩ s')
      (hother : ¬ (Heartbeat cfg n (.receive error remote datagram draws) ∨ n ∉ s.hostList ∧ n ∈ s'.hostList)) :
      Counted cfg n (s, passes) ⟨.receive error remote datagram draws, sent⟩ (s', passes)

/-- Every run can be counted. -/
theorem counted_of_run {ts : List Turn} (h : Run (Step cfg) s ts s') (n : String) (passes : Nat) :
    ∃ passes', Run (Counted cfg n) (s, passes) ts (s', passes') := by
  induction h generalizing passes with
  | nil => exact ⟨passes, .nil _⟩
  | @cons s s₁ s₂ t ts hs _ ih =>
    obtain ⟨event, sent⟩ := t
    cases event with
    | timer now =>
      obtain ⟨passes', hrun⟩ := ih (passes + 1)
      exact ⟨passes', .cons (.pass hs) hrun⟩
    | receive error remote datagram draws =>
      by_cases hfresh : Heartbeat cfg n (.receive error remote datagram draws) ∨ n ∉ s.hostList ∧ n ∈ s₁.hostList
      · obtain ⟨passes', hrun⟩ := ih 0
        exact ⟨passes', .cons (.fresh hs hfresh) hrun⟩
      · obtain ⟨passes', hrun⟩ := ih passes
        exact ⟨passes', .cons (.other hs hfresh) hrun⟩

theorem counted_passes {ts : List Turn} (h : Run (Step cfg) s ts s') (htimer : ∀ t ∈ ts, t.event.isTimer = true)
    (n : String) (passes : Nat) : Run (Counted cfg n) (s, passes) ts (s', passes + ts.length) := by
  induction h generalizing passes with
  | nil => exact .nil _
  | @cons s s₁ s₂ t ts hs _ ih =>
    obtain ⟨event, sent⟩ := t
    cases event with
    | receive => cases htimer _ List.mem_cons_self
    | timer now =>
      have hrest := ih (fun t ht => htimer t (List.mem_cons_of_mem _ ht)) (passes + 1)
      rw [List.length_cons, Nat.add_comm ts.length, ← Nat.add_assoc]
      exact .cons (.pass hs) hrest

/-- The message from `n` leaves its entry at an endpoint that was not counted
while `n` was elsewhere: a heartbeat comes from that endpoint, or it has no
count; and where another message enters or moves `n`, it has no count, or none
above that of the endpoint `n` had. -/
structure FairMessage (cfg : Config) (n : String) (s : Server) (seen : Endpoint) (j : Json) (t : MsgType) : Prop where
  heartbeat : t = .ticker ∨ t = .tickerRes → ∀ e, Becomes cfg n s.hostList seen j t e →
    tickerKey seen = tickerKey e ∨ counter (tickerKey e) s.tickerNum = 0
  placed : ¬ (t = .ticker ∨ t = .tickerRes) → ∀ e, Places cfg n s.hostList seen j t e →
    counter (tickerKey e) s.tickerNum = 0 ∨ ∃ e₀, HasEndpoint s.hostList n e₀ ∧
      counter (tickerKey e) s.tickerNum ≤ counter (tickerKey e₀) s.tickerNum

/-- A turn that does not have others count for `n`. -/
def Fair (cfg : Config) (n : String) (s : Server) : Event → Prop
  | .receive error remote datagram draws =>
    ∀ t j, Event.Carries cfg t n j (.receive error remote datagram draws) → FairMessage cfg n s remote j t
  | .timer _ => Unshared cfg n s.hostList

/-- The counter of the endpoint of `n` is not ahead of the passes. -/
def Timely (n : String) (x : Server × Nat) : Prop :=
  ∀ e, HasEndpoint x.1.hostList n e → (counter (tickerKey e) x.1.tickerNum).toNat ≤ x.2

theorem Handled.counter_bound {draws : Draws} {b : Bool} (hh : Handled cfg draws seen n j s t b s' o) (hn : n ≠ cfg.nodeID)
    (hfair : FairMessage cfg n s seen j t) (he : HasEndpoint s'.hostList n e) :
    counter (tickerKey e) s'.tickerNum = 0 ∨ ¬ (t = .ticker ∨ t = .tickerRes) ∧
      ∃ e₀, HasEndpoint s.hostList n e₀ ∧ counter (tickerKey e) s'.tickerNum ≤ counter (tickerKey e₀) s.tickerNum := by
  have hbecomes := hh.becomes hn he
  rcases hh.tickerNum with ⟨hbeat, hnum⟩ | ⟨hother, hnum⟩
  · refine .inl ?_
    rw [hnum, counter_erase]
    rcases hfair.heartbeat hbeat e hbecomes with hfrom | hzero
    · rw [if_pos hfrom.symm]
    · rw [hzero, ite_self]
  · rw [hnum]
    rcases hbecomes with hplaces | ⟨-, hsame⟩
    · exact (hfair.placed hother e hplaces).imp_right fun hold => ⟨hother, hold⟩
    · exact .inr ⟨hother, e, hsame, UInt16.le_refl _⟩

/-- After a fair message the counter of the endpoint of `n` is 0, or `n` was
not heard and its counter has not grown. -/
theorem Step.counter_bound {error : Option ErrorCode} {remote : Endpoint} {datagram : List UInt8} {draws : Draws}
    {sent : List SendTo} (hs : Step cfg s ⟨.receive error remote datagram draws, sent⟩ s') (hn : n ≠ cfg.nodeID)
    (hfair : Fair cfg n s (.receive error remote datagram draws)) (he : HasEndpoint s'.hostList n e) :
    counter (tickerKey e) s'.tickerNum = 0 ∨ ¬ Heartbeat cfg n (.receive error remote datagram draws) ∧
      ∃ e₀, HasEndpoint s.hostList n e₀ ∧ counter (tickerKey e) s'.tickerNum ≤ counter (tickerKey e₀) s.tickerNum := by
  rcases receive_cases hs.enabled hs.completes with ⟨hnone, hend⟩ | ⟨t, m, j, b, s₁, hc, hh, rfl⟩
  · have hsame : s'.hostList = s.hostList ∧ s'.tickerNum = s.tickerNum := by rcases hend with rfl | rfl <;> exact ⟨rfl, rfl⟩
    refine .inr ⟨?_, e, by rwa [← hsame.1], by rw [hsame.2]; exact UInt16.le_refl _⟩
    rintro ⟨t, j, -, hc⟩
    exact hnone t n j hc
  · rw [rearmed_hostList] at he
    rw [rearmed_tickerNum]
    by_cases hm : n = m
    · subst hm
      have hfair₁ : FairMessage cfg n (arrive datagram s) remote j t := ⟨(hfair t j hc).heartbeat, (hfair t j hc).placed⟩
      rcases hh.counter_bound hn hfair₁ he with hzero | ⟨hother, hold⟩
      · exact .inl hzero
      · refine .inr ⟨?_, hold⟩
        rintro ⟨t', j', hbeat, hc'⟩
        obtain ⟨rfl, -, -⟩ := hc.unique hc'
        exact hother hbeat
    · -- a message from another node leaves the entry of `n` alone
      have hsame : s₁.hostList[n]? = s.hostList[n]? := hh.framed.rest n hm hn
      refine .inr ⟨?_, e, by rwa [HasEndpoint, ← hsame], ?_⟩
      · rintro ⟨t', j', -, hc'⟩
        exact hm (hc.unique hc').2.1.symm
      · have hnum₀ : (arrive datagram s).tickerNum = s.tickerNum := arrive_tickerNum ..
        rcases hh.tickerNum with ⟨-, hnum⟩ | ⟨-, hnum⟩
        · rw [hnum, counter_erase, hnum₀]
          split
          · exact UInt16.zero_le
          · exact UInt16.le_refl _
        · rw [hnum, hnum₀]
          exact UInt16.le_refl _

theorem Counted.timely {x x' : Server × Nat} {t : Turn} (h : Counted cfg n x t x') (hn : n ≠ cfg.nodeID)
    (hfair : Fair cfg n x.1 t.event) (hx : Timely n x) : Timely n x' := by
  intro e he
  cases h with
  | pass hs =>
    have hpass := completes_threadhandle.1 hs.completes
    have hle := hpass.counter_le he hfair
    have hbefore := hx e ((hpass.endpoint he.mem).2.symm.trans he)
    dsimp only at hle hbefore ⊢
    omega
  | fresh hs hfresh =>
    rcases hs.counter_bound hn hfair he with hzero | ⟨hquiet, e₀, he₀, -⟩
    · dsimp only
      rw [hzero]
      exact Nat.le_refl 0
    · rcases hfresh with hbeat | ⟨hnew, -⟩
      · exact absurd hbeat hquiet
      · exact absurd he₀.mem hnew
  | other hs hother =>
    rcases hs.counter_bound hn hfair he with hzero | ⟨-, e₀, he₀, hle⟩
    · dsimp only
      rw [hzero]
      exact Nat.zero_le _
    · exact (UInt16.le_iff_toNat_le.1 hle).trans (hx e₀ he₀)

/-- In every run of fair turns no pass removes a node before 60 passes have
gone by since it was entered in the table or last heard. -/
theorem no_false_eviction {ts : List Turn} {passes : Nat} {now : Int} {sent : List SendTo} (hn : n ≠ cfg.nodeID)
    (hrun : Run (Restrict (Counted cfg n) fun x t => Fair cfg n x.1 t.event) (init cfg, 0) ts (s, passes))
    (hin : n ∈ s.hostList) (hpass : Step cfg s ⟨.timer now, sent⟩ s') : n ∈ s'.hostList ∨ 60 ≤ passes := by
  have htimely : Timely n (s, passes) := by
    refine hrun.invariant (I := Timely n) (fun hx h => h.1.timely hn h.2 hx) ?_
    intro e he
    exact absurd he.mem (by simp [init])
  by_cases hstay : n ∈ s'.hostList
  · exact .inl hstay
  refine .inr ?_
  rw [(completes_threadhandle.1 hpass.completes).mem_iff hin] at hstay
  push Not at hstay
  obtain ⟨e, num, he, hnum, hout⟩ := hstay
  have hle := htimely e he
  rw [counter, hnum, Option.getD_some] at hle
  exact (UInt16.le_iff_toNat_le.1 (UInt16.not_lt.1 hout)).trans hle

end

/-! The node at 20.0.0.1 registers as `p`, and again as `n`. -/

def sharedEndpoint : Endpoint := ⟨"20.0.0.1", 80⟩

/-- The detect that the node sends under an id. -/
def sharedDetect (nodeID : String) : Json := detectMsg (sampleNode nodeID "20.0.0.1" true) "80"

def sharedEvent (nodeID : String) : Event := .receive none sharedEndpoint (wire (sharedDetect nodeID).dump) ⟨1000, "m", "k"⟩

theorem sharedDetect_step (nodeID : String) (hs : s.receiving = true) (hw : WfTable s.hostList)
    (hfit : ((sharedDetect nodeID).val.dump.flatMap String.utf8EncodeChar).length ≤ bufferSize) :
    ∃ sent s', @Step digitsBoost checkServer s ⟨sharedEvent nodeID, sent⟩ s' ∧
      Left s' (registered checkServer nodeID (publicInfo sharedEndpoint) s.hostList) s.fCkTimeMap s ∧
      s'.receiving = true := by
  let _ := digitsBoost
  have hcast : Boost.lexical_cast "80" = some 80 := rfl
  exact detectPublic_step ⟨1000, "m", "k"⟩ hs hw (by decide : sharedEndpoint.ip ≠ checkServer.localIp) hfit
    (isMessage_detect (sampleNode nodeID "20.0.0.1" true) "80") (detectData_detectMsg _ hcast)
    (by simp [sharedEndpoint, sampleNode])

theorem no_false_eviction_registered : ∃ sent₁ s sent s',
    @Step digitsBoost checkServer (init checkServer) ⟨sharedEvent "n", sent₁⟩ s ∧ "n" ∈ s.hostList ∧
    @Step digitsBoost checkServer s ⟨.timer 1010, sent⟩ s' ∧ ("n" ∈ s'.hostList ∨ 60 ≤ 0) := by
  let _ := digitsBoost
  obtain ⟨sent₁, s, hstep, hleft, hrecv⟩ := sharedDetect_step "n" (s := init checkServer) rfl WfTable.empty
    (by decide +kernel)
  have hin : "n" ∈ s.hostList := by
    rw [hleft.hostList]
    simp [registered]
  have hw : WfTable s.hostList := by
    rw [hleft.hostList]
    exact WfTable.empty.registered _ _ (record?_nodeInfo ..)
  have hfair : Fair checkServer "n" (init checkServer) (sharedEvent "n") := by
    intro t j hc
    refine ⟨fun _ e _ => .inr ?_, fun _ e _ => .inl ?_⟩
    · simp [init, counter]
    · simp [init, counter]
  obtain ⟨s', sent, hpass⟩ := passes_without_checks checkServer 1010 hw hleft.fCkTimeMap
  have hrun : Run (Restrict (Counted checkServer "n") fun x t => Fair checkServer "n" x.1 t.event) (init checkServer, 0)
      [⟨sharedEvent "n", sent₁⟩] (s, 0) := .single ⟨.fresh hstep (.inr ⟨by simp [init], hin⟩), hfair⟩
  exact ⟨sent₁, s, sent, s', hstep, hin, hpass.step, no_false_eviction (by decide) hrun hin hpass.step⟩

/-- The table with the node under both its ids. -/
def sharedTable : StrMap String :=
  registered checkServer "n" (publicInfo sharedEndpoint) (registered checkServer "p" (publicInfo sharedEndpoint) ∅)

theorem sharedTable_targets : tickerTargets checkServer sharedTable.toList = some (List.replicate 2 sharedEndpoint) := by
  rw [show sharedTable.toList = [("n", (publicInfo sharedEndpoint).dump), ("p", (publicInfo sharedEndpoint).dump),
    ("s", (selfInfo checkServer).dump)] from rfl]
  simp only [tickerTargets, textEndpoint_publicInfo, textEndpoint_selfInfo, Option.bind_eq_bind, Option.bind_some, Option.pure_def]
  rfl

/-- Each pass counts two for their endpoint: the 31st pass removes `n`. -/
theorem shared_endpoint_evicted : ∃ ts s sent s',
    Run (@Counted digitsBoost checkServer "n") (init checkServer, 0) ts (s, 30) ∧ "n" ∈ s.hostList ∧
    @Step digitsBoost checkServer s ⟨.timer 1010, sent⟩ s' ∧ "n" ∉ s'.hostList := by
  let _ := digitsBoost
  have hrec := record?_publicInfo sharedEndpoint
  obtain ⟨sent₁, s₁, hstep₁, hleft₁, hrecv₁⟩ := sharedDetect_step "p" (s := init checkServer) rfl WfTable.empty
    (by decide +kernel)
  have hw₁ : WfTable s₁.hostList := by
    rw [hleft₁.hostList]
    exact WfTable.empty.registered _ _ hrec
  obtain ⟨sent₂, s₂, hstep₂, hleft₂, hrecv₂⟩ := sharedDetect_step "n" hrecv₁ hw₁ (by decide +kernel)
  have hhost₂ : s₂.hostList = sharedTable := by
    rw [hleft₂.hostList, hleft₁.hostList]
    rfl
  have hw₂ : WfTable s₂.hostList := by
    rw [hleft₂.hostList]
    exact hw₁.registered _ _ hrec
  -- every pass sends to both ids, and counts both for the one endpoint
  obtain ⟨s₃, ts, hrun, hlen, htimer, hhost₃, hchecks₃, -, -, -, hcount⟩ := silent_passes checkServer hw₂
    (hleft₂.fCkTimeMap.trans hleft₁.fCkTimeMap) (hleft₂.tickerNum.trans hleft₁.tickerNum) hrecv₂
    (by rw [hhost₂]; exact sharedTable_targets) 1010 30 (by omega)
  have hin : "n" ∈ s₃.hostList := by
    rw [hhost₃, hhost₂]
    decide +kernel
  obtain ⟨s₄, sent₄, hpass⟩ := passes_without_checks checkServer 1010 (by rwa [hhost₃] : WfTable s₃.hostList) hchecks₃
  obtain ⟨passes, hrun₁⟩ := counted_of_run (Run.single hstep₁) "n" 0
  have hnew : "n" ∉ s₁.hostList := by
    rw [hleft₁.hostList]
    decide +kernel
  have hrun₃ := counted_passes hrun (fun t ht => by rw [htimer t ht]; rfl) "n" 0
  rw [hlen, Nat.zero_add] at hrun₃
  have hadded : "n" ∈ s₂.hostList := by
    rw [hhost₂]
    decide +kernel
  refine ⟨_, s₃, sent₄, s₄, hrun₁.append (.cons (.fresh hstep₂ (.inr ⟨hnew, hadded⟩)) hrun₃), hin, hpass.step, fun hstay => ?_⟩
  have hend : (s₃.hostList["n"]?).bind textEndpoint = some sharedEndpoint := by
    rw [hhost₃, hhost₂, show sharedTable["n"]? = some (publicInfo sharedEndpoint).dump from rfl, Option.bind_some]
    exact textEndpoint_publicInfo _
  exact absurd ((hpass.mem_iff hin).1 hstay _ _ hend (getElem?_of_counter hcount (by decide))) (by decide)

end NatServer

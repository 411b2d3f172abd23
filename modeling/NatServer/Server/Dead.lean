import NatServer.Server.Counters
/-!
# Dead endpoints

A pass counts one for each entry it sends a ticker to, and only a heartbeat from
there takes the count back. An endpoint that does not answer comes to the limit
within 60 passes, and the next one removes all that is there.
-/

namespace NatServer

open Effect Json

variable {cfg : Config} {now : Int} {s s' : Server} {o : List SendTo} {n k key : String} {e : Endpoint}

/-! ## How many tickers go to an endpoint -/

/-- The entries at an endpoint that get tickers. -/
def entriesAt (cfg : Config) (table : StrMap String) (e : Endpoint) : Nat :=
  table.toList.countP fun p => p.1 ≠ cfg.nodeID ∧ textEndpoint p.2 = some e

theorem countP_tickers {l : List (String × String)} {es : List Endpoint} (hes : tickerTargets cfg l = some es) :
    es.countP (fun e' => tickerKey e' = tickerKey e) = l.countP fun p => p.1 ≠ cfg.nodeID ∧ textEndpoint p.2 = some e := by
  induction l generalizing es with
  | nil =>
    cases hes
    rfl
  | cons p l ih =>
    obtain ⟨id, info⟩ := p
    simp only [tickerTargets, Option.bind_eq_bind, Option.bind_eq_some_iff, Option.pure_def, Option.some.injEq] at hes
    obtain ⟨e₀, he₀, es', hes', rfl⟩ := hes
    by_cases hid : cfg.nodeID = id
    · rw [if_pos hid, ih hes', List.countP_cons]
      simp [hid]
    · rw [if_neg hid, List.countP_cons, ih hes', List.countP_cons]
      simp [Ne.symm hid, he₀, tickerKey_inj]

theorem entriesAt_le (cfg : Config) (table : StrMap String) (e : Endpoint) : entriesAt cfg table e ≤ table.size := by
  rw [← Std.ExtTreeMap.length_toList]
  exact List.countP_le_length

theorem entriesAt_pos {table : StrMap String} (hk : k ≠ cfg.nodeID) (he : HasEndpoint table k e) :
    0 < entriesAt cfg table e := by
  obtain ⟨info, hinfo, hend⟩ := Option.bind_eq_some_iff.1 he
  refine List.countP_pos_iff.2 ⟨(k, info), Std.ExtTreeMap.mem_toList_iff_getElem?_eq_some.2 hinfo, ?_⟩
  simp [hk, hend]

/-! ## One pass -/

/-- The pass removes every entry at the endpoint and its counter. -/
structure Evicts (e : Endpoint) (s s' : Server) : Prop where
  entries : ∀ k, HasEndpoint s.hostList k e → k ∉ s'.hostList
  counter : tickerKey e ∉ s'.tickerNum

/-- The pass adds to the counter of the endpoint the number of its entries;
as numbers, so that the counter has not wrapped around. -/
def Counts (cfg : Config) (e : Endpoint) (s s' : Server) : Prop :=
  (counter (tickerKey e) s'.tickerNum).toNat = (counter (tickerKey e) s.tickerNum).toNat + entriesAt cfg s'.hostList e

theorem Passed.size_le [Boost] (h : Passed cfg now s s' o) : s'.hostList.size ≤ s.hostList.size :=
  StrMap.size_le_of_subset fun _ hk => (h.endpoint hk).1

/-- A counter that has come to the limit has its endpoint removed. -/
theorem Passed.evicts [Boost] (h : Passed cfg now s s' o) (hlimit : 60 ≤ (counter (tickerKey e) s.tickerNum).toNat) :
    Evicts e s s' := by
  have hpackage : packageNum.toNat = 60 := rfl
  have hnum : s.tickerNum[tickerKey e]? = some (counter (tickerKey e) s.tickerNum) := by
    refine getElem?_of_counter rfl fun hzero => ?_
    rw [hzero] at hlimit
    exact absurd hlimit (by decide)
  have hout : ¬ counter (tickerKey e) s.tickerNum < packageNum := by
    rw [UInt16.lt_iff_toNat_lt]
    omega
  have hgone : ∀ k, HasEndpoint s.hostList k e → k ∉ s'.hostList := fun k he hin =>
    hout ((h.mem_iff he.mem).1 hin e _ he hnum)
  refine ⟨hgone, fun hin => ?_⟩
  rcases h.counters_iff.1 hin with ⟨num, hget, hlt⟩ | ⟨k, e', -, he, hkey⟩
  · cases hnum.symm.trans hget
    exact hout hlt
  · obtain rfl := tickerKey_inj.1 hkey
    exact hgone k ((h.endpoint he.mem).2.symm.trans he) he.mem

/-- Below the limit the tickers are counted and the entries stay. -/
theorem Passed.counts [Boost] (h : Passed cfg now s s' o) (hlimit : (counter (tickerKey e) s.tickerNum).toNat < 60)
    (hsize : s.hostList.size < 65000) :
    Counts cfg e s s' ∧ ∀ k, HasEndpoint s.hostList k e → HasEndpoint s'.hostList k e := by
  have hpackage : packageNum.toNat = 60 := rfl
  have hstay : ∀ k, HasEndpoint s.hostList k e → HasEndpoint s'.hostList k e := by
    intro k he
    have hin : k ∈ s'.hostList := (h.mem_iff he.mem).2 fun e' num he' hget => by
      cases he.symm.trans he'
      rw [counter, hget, Option.getD_some] at hlimit
      rw [UInt16.lt_iff_toNat_lt]
      omega
    exact (h.endpoint hin).2.trans he
  refine ⟨?_, hstay⟩
  have hentries := (entriesAt_le cfg s'.hostList e).trans h.size_le
  obtain @⟨s₁, s₂, _, b₁, b₂, es, _, _, hsweep, hevict, hticker, -, hlist⟩ := h
  have hhost := listMsgQueue_hostList hlist
  have hnum : s'.tickerNum = countTickers es s₂.tickerNum := by
    rcases completes_listMsgQueue.1 hlist with ⟨-, rfl, -⟩ | ⟨-, rfl, -⟩ <;> rfl
  -- the counter is below the limit, so the evictions leave it
  have hkept : counter (tickerKey e) s₂.tickerNum = counter (tickerKey e) s.tickerNum := by
    rw [counter, counter, ← hsweep.frame.tickerNum]
    refine congrArg (fun x => x.getD 0) (Option.ext fun num => hevict.counters_iff.trans ?_)
    refine and_iff_left_of_imp fun hget => ?_
    rintro ⟨key, num'⟩ hp rfl hout
    have hget' := Std.ExtTreeMap.mem_toList_iff_getElem?_eq_some.1 hp
    rw [hsweep.frame.tickerNum] at hget'
    rw [counter, hget', Option.getD_some] at hlimit
    have hle : packageNum.toNat ≤ num'.toNat := UInt16.le_iff_toNat_le.1 hout
    omega
  rw [hhost] at hentries
  rw [Counts, hnum, counter_countTickers, hkept, hhost, countP_tickers hticker, UInt16.toNat_add, UInt16.toNat_ofNat']
  have hd : entriesAt cfg s₂.hostList e = s₂.hostList.toList.countP fun p => p.1 ≠ cfg.nodeID ∧ textEndpoint p.2 = some e :=
    rfl
  dsimp only at hentries ⊢
  rw [← hd]
  omega

section
variable [Boost]

/-! ## Silence -/

/-- A turn while the endpoint is silent: no heartbeat comes from there, and a
pass finds an entry of another node there, in a table of less than 65000. -/
def Unanswered (cfg : Config) (e : Endpoint) (s : Server) : Event → Prop
  | .receive error remote datagram draws => ∀ t n j, Event.Carries cfg t n j (.receive error remote datagram draws) →
      t = .ticker ∨ t = .tickerRes → remote ≠ e
  | .timer _ => s.hostList.size < 65000 ∧ ∃ k, k ≠ cfg.nodeID ∧ HasEndpoint s.hostList k e

/-- A message from elsewhere leaves the counter as it is. -/
theorem Step.counter_of_receive {error : Option ErrorCode} {remote : Endpoint} {datagram : List UInt8} {draws : Draws}
    (hs : Step cfg s ⟨.receive error remote datagram draws, o⟩ s')
    (hsilent : Unanswered cfg e s (.receive error remote datagram draws)) :
    counter (tickerKey e) s'.tickerNum = counter (tickerKey e) s.tickerNum := by
  rcases receive_cases hs.enabled hs.completes with ⟨-, hend⟩ | ⟨t, n, j, b, s₁, hc, hh, rfl⟩
  · rcases hend with rfl | rfl <;> rfl
  · rw [rearmed_tickerNum]
    rcases hh.tickerNum with ⟨hbeat, hnum⟩ | ⟨-, hnum⟩ <;> rw [hnum, arrive_tickerNum]
    have hne : ¬ tickerKey e = tickerKey remote := by
      rw [tickerKey_inj]
      exact (hsilent t n j hc hbeat).symm
    rw [counter_erase, if_neg hne]

/-- A pass of the silent stretch evicts the endpoint or counts it. -/
theorem Step.evicts_or_counts {sent : List SendTo} (hs : Step cfg s ⟨.timer now, sent⟩ s')
    (hsilent : Unanswered cfg e s (.timer now)) :
    Evicts e s s' ∨ (counter (tickerKey e) s.tickerNum).toNat < 60 ∧ Counts cfg e s s' ∧ 0 < entriesAt cfg s'.hostList e := by
  have hpass : Passed cfg now s s' sent := completes_threadhandle.1 hs.completes
  obtain ⟨hsize, k, hk, he⟩ := hsilent
  by_cases hlimit : 60 ≤ (counter (tickerKey e) s.tickerNum).toNat
  · exact .inl (hpass.evicts hlimit)
  · have hbelow : (counter (tickerKey e) s.tickerNum).toNat < 60 := by omega
    obtain ⟨hcounts, hstay⟩ := hpass.counts hbelow hsize
    exact .inr ⟨hbelow, hcounts, entriesAt_pos hk (hstay k he)⟩

/-- The count and the passes to come pass the limit, so one of these evicts. -/
theorem evicted_of_count {ts : List Turn} (h : Run (Restrict (Step cfg) fun s t => Unanswered cfg e s t.event) s ts s')
    (hsome : 0 < ts.countP fun t => t.event.isTimer)
    (hcount : 60 < (counter (tickerKey e) s.tickerNum).toNat + ts.countP fun t => t.event.isTimer) :
    ∃ pre t post s₁ s₂, ts = pre ++ t :: post ∧ Run (Step cfg) s pre s₁ ∧ Step cfg s₁ t s₂ ∧ Run (Step cfg) s₂ post s' ∧
      t.event.isTimer ∧ Evicts e s₁ s₂ := by
  induction h with
  | nil => exact absurd hsome (by simp)
  | @cons s s₁ s₂ t ts hs hrest ih =>
    obtain ⟨hstep, hsilent⟩ := hs
    -- a turn that does not evict goes before those found for the rest
    have hlater (h : ∃ pre t post s₃ s₄, ts = pre ++ t :: post ∧ Run (Step cfg) s₁ pre s₃ ∧ Step cfg s₃ t s₄ ∧
        Run (Step cfg) s₄ post s₂ ∧ t.event.isTimer ∧ Evicts e s₃ s₄) : ∃ pre t' post s₃ s₄, t :: ts = pre ++ t' :: post ∧
        Run (Step cfg) s pre s₃ ∧ Step cfg s₃ t' s₄ ∧ Run (Step cfg) s₄ post s₂ ∧ t'.event.isTimer ∧ Evicts e s₃ s₄ := by
      obtain ⟨pre, t', post, s₃, s₄, rfl, hpre, hrest⟩ := h
      exact ⟨t :: pre, t', post, s₃, s₄, rfl, .cons hstep hpre, hrest⟩
    obtain ⟨event, sent⟩ := t
    cases event with
    | receive error remote datagram draws =>
      have hsame := hstep.counter_of_receive hsilent
      rw [List.countP_cons_of_neg (by simp [Event.isTimer])] at hsome hcount
      exact hlater (ih hsome (by rwa [hsame]))
    | timer now =>
      rw [List.countP_cons_of_pos rfl] at hcount
      rcases hstep.evicts_or_counts hsilent with hevicts | ⟨hlimit, hcounts, hpos⟩
      · exact ⟨[], _, ts, s, s₁, rfl, .nil s, hstep, hrest.mono fun hs => hs.1, rfl, hevicts⟩
      · rw [Counts] at hcounts
        exact hlater (ih (by omega) (by omega))

/-- Where an endpoint is silent for 61 passes, one of them removes all that is
there and its counter; no pass on the way wraps the counter around. -/
theorem dead_endpoint_evicted {ts : List Turn} (h : Run (Restrict (Step cfg) fun s t => Unanswered cfg e s t.event) s ts s')
    (hpasses : (ts.countP fun t => t.event.isTimer) = 61) :
    (∃ pre t post s₁ s₂, ts = pre ++ t :: post ∧ Run (Step cfg) s pre s₁ ∧ Step cfg s₁ t s₂ ∧ Run (Step cfg) s₂ post s' ∧
      t.event.isTimer ∧ Evicts e s₁ s₂) ∧
    Run (fun s t s' => Step cfg s t s' ∧ (t.event.isTimer → Evicts e s s' ∨ Counts cfg e s s')) s ts s' := by
  refine ⟨evicted_of_count h (by omega) (by omega), h.mono fun {s t s'} hs => ⟨hs.1, fun htimer => ?_⟩⟩
  obtain ⟨event, sent⟩ := t
  cases event with
  | receive => cases htimer
  | timer now => exact (hs.1.evicts_or_counts hs.2).imp_right fun hbelow => hbelow.2.1

/-- Passes move no entry: one that is there at the end was there at each of them. -/
theorem unanswered_passes {ts : List Turn} (h : Run (Step cfg) s ts s') (htimer : ∀ t ∈ ts, t.event = .timer now)
    (hk : k ≠ cfg.nodeID) (hsize : s.hostList.size < 65000) (he : HasEndpoint s'.hostList k e) :
    Run (Restrict (Step cfg) fun s t => Unanswered cfg e s t.event) s ts s' ∧ HasEndpoint s.hostList k e := by
  induction h with
  | nil => exact ⟨.nil _, he⟩
  | @cons s s₁ s₂ t ts hs _ ih =>
    obtain ⟨event, sent⟩ := t
    obtain rfl : event = .timer now := htimer _ List.mem_cons_self
    have hpass : Passed cfg now s s₁ sent := completes_threadhandle.1 hs.completes
    obtain ⟨hrun, he₁⟩ := ih (fun t ht => htimer t (List.mem_cons_of_mem _ ht)) (hpass.size_le.trans_lt hsize) he
    have he₀ : HasEndpoint s.hostList k e := (hpass.endpoint he₁.mem).2.symm.trans he₁
    exact ⟨.cons ⟨hs, hsize, k, hk, he₀⟩ hrun, he₀⟩

end

/-! The node `n` registers and is not heard again. -/

theorem dead_endpoint_evicted_registered : ∃ s s' t, @Reachable digitsBoost checkServer s ∧
    @Step digitsBoost checkServer s t s' ∧ t.event.isTimer ∧ Evicts sharedEndpoint s s' := by
  let _ := digitsBoost
  obtain ⟨sent₁, s₁, hstep₁, hhost₁, hchecks₁, hnum₁, hw₁, hrecv₁⟩ := movedNode_registers
  obtain ⟨s₂, ts, hrun, hlen, htimer, hhost₂, hchecks₂, -⟩ := silent_passes checkServer hw₁ hchecks₁ hnum₁ hrecv₁
    (movedNode_targets hhost₁) 1010 60 (by omega)
  obtain ⟨s₃, sent₃, hpass⟩ := passes_without_checks checkServer 1010 (by rwa [hhost₂] : WfTable s₂.hostList) hchecks₂
  have hin : HasEndpoint s₂.hostList "n" sharedEndpoint := by
    rw [hhost₂, hhost₁]
    exact movedNode_endpoint
  have hsize : s₂.hostList.size < 65000 := by
    rw [hhost₂, hhost₁]
    decide +kernel
  obtain ⟨hsilent, -⟩ := unanswered_passes hrun htimer (by decide : "n" ≠ checkServer.nodeID)
    (by rwa [← hhost₂]) hin
  -- the pass that follows is the 61st
  have hlast : Unanswered checkServer sharedEndpoint s₂ (.timer 1010) := ⟨hsize, "n", by decide, hin⟩
  have hcount : ((ts ++ [⟨.timer 1010, sent₃⟩] : List Turn).countP fun t => t.event.isTimer) = 61 := by
    have hall : (ts.countP fun t => t.event.isTimer) = ts.length :=
      List.countP_eq_length.2 fun t ht => by rw [htimer t ht]; rfl
    rw [List.countP_append, hall, hlen]
    rfl
  obtain ⟨⟨pre, t, post, s₄, s₅, -, hpre, hstep, -, htimed, hevicts⟩, -⟩ :=
    dead_endpoint_evicted (hsilent.snoc ⟨hpass.step, hlast⟩) hcount
  exact ⟨s₄, s₅, t, (Reachable.init.step hstep₁).run hpre, hstep, htimed, hevicts⟩

end NatServer

import NatServer.Server.Table
/-!
# Passes without an answer

Each pass sends a ticker to every other node and counts it. As long as nothing
answers, a pass without pending checks leaves the table as it is until the
counter of an endpoint reaches `packageNum`; the next one removes the endpoint.
-/

namespace NatServer

open Effect Json

variable {cfg : Config} {s s' : Server} {o : List SendTo} {e : Endpoint} {key : String}

/-! ## The counters of a pass -/

/-- The counter of an endpoint; 0 where there is none. -/
def counter (key : String) (tickerNum : StrMap UInt16) : UInt16 := tickerNum[key]?.getD 0

theorem getElem?_of_counter {num : StrMap UInt16} {c : UInt16} (h : counter key num = c) (hc : c ≠ 0) :
    num[key]? = some c := by
  unfold counter at h
  rcases hget : num[key]? with _ | c'
  · rw [hget] at h
    exact absurd h.symm hc
  · rw [hget] at h
    exact congrArg some h

theorem countTicker_eq (key : String) (num : StrMap UInt16) :
    countTicker key num = num.insert key (counter key num + 1) := by
  unfold countTicker counter
  rcases hk : num[key]? with _ | c
  · rw [StrMap.insertIfNew_of_notMem _ (StrMap.notMem_iff.2 hk)]
    rfl
  · rfl

theorem counter_countTicker (key key' : String) (num : StrMap UInt16) :
    counter key (countTicker key' num) = if key = key' then counter key num + 1 else counter key num := by
  rw [countTicker_eq, counter]
  by_cases hk : key = key'
  · subst hk
    rw [StrMap.getElem?_insert_self, if_pos rfl, Option.getD_some]
  · rw [StrMap.getElem?_insert_of_ne _ _ hk, if_neg hk, counter]

/-- A ticker counts one for its endpoint. -/
theorem counter_countTickers (key : String) (es : List Endpoint) (num : StrMap UInt16) :
    counter key (countTickers es num) = counter key num + UInt16.ofNat (es.countP fun e => tickerKey e = key) := by
  induction es generalizing num with
  | nil => simp [countTickers]
  | cons e es ih =>
    have hcons : countTickers (e :: es) num = countTickers es (countTicker (tickerKey e) num) := rfl
    rw [hcons, ih, counter_countTicker, List.countP_cons]
    by_cases hk : key = tickerKey e
    · simp only [hk, if_true, decide_true, UInt16.ofNat_add]
      rw [UInt16.add_assoc, UInt16.add_comm 1]
      rfl
    · simp [hk, Ne.symm hk]

/-- A counter is made for an endpoint that a ticker went to. -/
theorem mem_countTickers (es : List Endpoint) (num : StrMap UInt16) :
    key ∈ countTickers es num ↔ key ∈ num ∨ ∃ e ∈ es, tickerKey e = key := by
  induction es generalizing num with
  | nil => simp [countTickers]
  | cons e es ih =>
    have hcons : countTickers (e :: es) num = countTickers es (countTicker (tickerKey e) num) := rfl
    rw [hcons, ih, countTicker_eq, Std.ExtTreeMap.mem_insert]
    simp only [Std.LawfulEqCmp.compare_eq_iff_eq, List.mem_cons, exists_eq_or_imp]
    tauto

/-! ## A pass that removes nothing -/

theorem Evicted.of_counting {b : Bool} {l : List (String × UInt16)} (h : ∀ p ∈ l, ¬ p.2 ≥ packageNum) :
    Evicted s b l b s := by
  induction l with
  | nil => exact .nil
  | cons p l ih =>
    obtain ⟨key, num⟩ := p
    exact .heard (h _ List.mem_cons_self) (ih fun p hp => h p (List.mem_cons_of_mem _ hp))

/-- Nothing is due and no counter has run out. -/
structure Quiet (s : Server) : Prop where
  records : WfTable s.hostList
  checks : s.fCkTimeMap = ∅
  counters : ∀ (key : String) num, s.tickerNum[key]? = some num → ¬ num ≥ packageNum
  receiving : s.receiving = true

theorem Quiet.pass [Boost] (h : Quiet s) (cfg : Config) (now : Int) : ∃ s' sent es,
    Passed cfg now s s' sent ∧ tickerTargets cfg s.hostList.toList = some es ∧ s'.hostList = s.hostList ∧
      s'.fCkTimeMap = ∅ ∧ s'.tickerNum = countTickers es s.tickerNum ∧ s'.localEpInfo = s.localEpInfo ∧
      s'.receiving = true := by
  obtain ⟨es, hes⟩ := tickerTargets_of_records h.records.mem_toList cfg
  have hsweep : Swept now s false s.fCkTimeMap.toList false s := by
    rw [h.checks]
    exact .nil
  have hevict : Evicted s false s.tickerNum.toList false s := .of_counting fun p hp =>
    h.counters p.1 p.2 (Std.ExtTreeMap.mem_toList_iff_getElem?_eq_some.1 hp)
  obtain ⟨s', o, hlist⟩ := listMsgQueue_completes cfg { s with tickerNum := countTickers es s.tickerNum }
  have hend : s'.hostList = s.hostList ∧ s'.fCkTimeMap = ∅ ∧ s'.tickerNum = countTickers es s.tickerNum ∧
      s'.localEpInfo = s.localEpInfo ∧ s'.receiving = true := by
    rcases completes_listMsgQueue.1 hlist with ⟨-, rfl, -⟩ | ⟨-, rfl, -⟩
    · exact ⟨rfl, h.checks, rfl, rfl, h.receiving⟩
    · exact ⟨rfl, h.checks, rfl, rfl, h.receiving⟩
  exact ⟨s', _, es, .intro hsweep hevict hes rfl hlist, hes, hend⟩

variable [Boost]

theorem Passed.step {now : Int} (h : Passed cfg now s s' o) : Step cfg s ⟨.timer now, o⟩ s' :=
  ⟨trivial, completes_threadhandle.2 h⟩

/-! ## Silence at one endpoint -/

/-- Tickers go to one endpoint only, `d` in each pass, and nobody answers. -/
theorem silent_passes (cfg : Config) {d : Nat} (hw : WfTable s.hostList) (hchecks : s.fCkTimeMap = ∅) (hnum : s.tickerNum = ∅)
    (hrecv : s.receiving = true) (htargets : tickerTargets cfg s.hostList.toList = some (List.replicate d e)) (now : Int)
    (k : Nat) (hk : k * d < 60 + d) :
    ∃ s' ts, Run (Step cfg) s ts s' ∧ ts.length = k ∧ (∀ t ∈ ts, t.event = .timer now) ∧ s'.hostList = s.hostList ∧
      s'.fCkTimeMap = ∅ ∧ s'.localEpInfo = s.localEpInfo ∧ s'.receiving = true ∧
      (∀ key ∈ s'.tickerNum, key = tickerKey e) ∧ counter (tickerKey e) s'.tickerNum = UInt16.ofNat (k * d) := by
  induction k with
  | zero => exact ⟨s, [], .nil s, rfl, nofun, rfl, hchecks, rfl, hrecv, by simp [hnum], by simp [hnum, counter]⟩
  | succ k ih =>
    have hlt : k * d < 60 := by
      rw [Nat.succ_mul] at hk
      omega
    obtain ⟨s₁, ts, hrun, hlen, htimer, hhost, hcheck, hlocal, hrecv₁, hkeys, hcount⟩ := ih (by omega)
    -- no counter has reached `packageNum` yet, and none has wrapped around
    have hquiet : Quiet s₁ := by
      refine ⟨by rwa [hhost], hcheck, fun key num hget hout => ?_, hrecv₁⟩
      obtain rfl := hkeys key (StrMap.mem_iff.2 ⟨_, hget⟩)
      rw [counter, hget, Option.getD_some] at hcount
      have hsize : UInt16.size = 65536 := rfl
      have hlimit : packageNum.toNat = 60 := rfl
      rw [hcount, ge_iff_le, UInt16.le_iff_toNat_le, UInt16.toNat_ofNat_of_lt' (by omega)] at hout
      omega
    obtain ⟨s₂, sent, es, hpass, hes, hhost₂, hcheck₂, hnum₂, hlocal₂, hrecv₂⟩ := hquiet.pass cfg now
    rw [hhost, htargets] at hes
    cases hes
    refine ⟨s₂, ts ++ [⟨.timer now, sent⟩], hrun.snoc hpass.step, by simp [hlen], ?_,
      hhost₂.trans hhost, hcheck₂, hlocal₂.trans hlocal, hrecv₂, ?_, ?_⟩
    · intro t ht
      rcases List.mem_append.1 ht with ht | ht
      · exact htimer t ht
      · rw [List.mem_singleton.1 ht]
    · intro key hkey
      rw [hnum₂, mem_countTickers] at hkey
      rcases hkey with hkey | ⟨e', he', hkey⟩
      · exact hkeys key hkey
      · rw [← hkey, List.eq_of_mem_replicate he']
    · rw [hnum₂, counter_countTickers, hcount, List.countP_replicate, Nat.succ_mul, UInt16.ofNat_add]
      simp

end NatServer

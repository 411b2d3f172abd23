import NatServer.Server.Eviction
/-!
# Counters and the table

A counter is made when a ticker goes to an entry, and erased with the entries
of its endpoint. A message that moves an entry does not look at the counters:
the one of the endpoint it left stays, unless another entry is there.
-/

namespace NatServer

open Effect Json

variable {cfg : Config} {now : Int} {s s' : Server} {o : List SendTo} {n k key : String} {e e' seen : Endpoint} {j : Json}
  {t : MsgType}

/-! ## The key of an endpoint -/

/-- The port is what follows the last underscore. -/
theorem append_underscore_inj {a a' b b' : List Char} (hb : '_' ∉ b) (hb' : '_' ∉ b') :
    a ++ '_' :: b = a' ++ '_' :: b' ↔ a = a' ∧ b = b' := by
  constructor
  · simp only [List.append_eq_append_iff, List.cons_eq_append_iff, List.cons_eq_cons]
    rintro (⟨c, rfl, ⟨rfl, -, rfl⟩ | ⟨d, rfl, rfl⟩⟩ | ⟨c, rfl, ⟨rfl, -, rfl⟩ | ⟨d, rfl, rfl⟩⟩) <;> simp_all
  · rintro ⟨rfl, rfl⟩
    rfl

theorem portText_inj {p p' : UInt16} (h : portText p = portText p') : p = p' := by
  have hcast : castDigits (portText p) = some p := castDigits_toString p
  rw [h, portText, castDigits_toString] at hcast
  exact (Option.some.inj hcast).symm

/-- Endpoints have counters of their own. -/
theorem tickerKey_inj : tickerKey e = tickerKey e' ↔ e = e' := by
  constructor
  · intro h
    have hport (p : UInt16) : '_' ∉ (portText p).toList := underscore_notMem_toString p.toNat
    have hchars (e : Endpoint) : (tickerKey e).toList = ("ticker_" ++ e.ip).toList ++ '_' :: (portText e.port).toList := by
      simp [tickerKey]
    have hlist := congrArg String.toList h
    rw [hchars, hchars, append_underscore_inj (hport _) (hport _)] at hlist
    obtain ⟨ip, port⟩ := e
    obtain ⟨ip', port'⟩ := e'
    have hip : ip = ip' := String.toList_inj.1 (by simpa using hlist.1)
    have hp : port = port' := portText_inj (String.toList_inj.1 hlist.2)
    rw [hip, hp]
  · rintro rfl
    rfl

/-! ## The counters of a pass -/

/-- An entry that gets tickers has the endpoint of the key. -/
def Ticked (cfg : Config) (table : StrMap String) (key : String) : Prop :=
  ∃ k e, k ≠ cfg.nodeID ∧ HasEndpoint table k e ∧ tickerKey e = key

theorem mem_tickerTargets {l : List (String × String)} {es : List Endpoint} (hes : tickerTargets cfg l = some es) :
    e ∈ es ↔ ∃ p ∈ l, p.1 ≠ cfg.nodeID ∧ textEndpoint p.2 = some e := by
  induction l generalizing es with
  | nil =>
    cases hes
    simp
  | cons p l ih =>
    obtain ⟨id, info⟩ := p
    simp only [tickerTargets, Option.bind_eq_bind, Option.bind_eq_some_iff, Option.pure_def, Option.some.injEq] at hes
    obtain ⟨e₀, he₀, es', hes', rfl⟩ := hes
    by_cases hid : cfg.nodeID = id
    · rw [if_pos hid]
      simp [ih hes', hid]
    · rw [if_neg hid]
      simp [ih hes', Ne.symm hid, he₀, eq_comm]

theorem ticked_iff {table : StrMap String} {es : List Endpoint} (hes : tickerTargets cfg table.toList = some es) :
    Ticked cfg table key ↔ ∃ e ∈ es, tickerKey e = key := by
  constructor
  · rintro ⟨k, e, hk, he, hkey⟩
    obtain ⟨info, hinfo, hend⟩ := Option.bind_eq_some_iff.1 he
    exact ⟨e, (mem_tickerTargets hes).2 ⟨(k, info), Std.ExtTreeMap.mem_toList_iff_getElem?_eq_some.2 hinfo, hk, hend⟩, hkey⟩
  · rintro ⟨e, he, hkey⟩
    obtain ⟨⟨k, info⟩, hp, hk, hend⟩ := (mem_tickerTargets hes).1 he
    have hinfo := Std.ExtTreeMap.mem_toList_iff_getElem?_eq_some.1 hp
    exact ⟨k, e, hk, by rw [HasEndpoint, hinfo, Option.bind_some, hend], hkey⟩

/-- A counter that ran out is erased, the others stay as they are. -/
theorem Evicted.counters_iff {b b' : Bool} {l : List (String × UInt16)} (h : Evicted s b l b' s') {num : UInt16} :
    s'.tickerNum[key]? = some num ↔ s.tickerNum[key]? = some num ∧ ∀ p ∈ l, p.1 = key → ¬ p.2 ≥ packageNum := by
  induction h with
  | nil => simp
  | silent hnum hread hrest ih =>
    refine ih.trans ?_
    simp only [StrMap.getElem?_erase_eq_some, List.forall_mem_cons, hnum, not_true_eq_false, and_assoc, ne_eq]
  | heard hnum hrest ih =>
    refine ih.trans ?_
    simp only [List.forall_mem_cons, hnum, not_false_eq_true, implies_true, true_and]

/-- After a pass there is a counter for each endpoint a ticker went to, and for
those that had one below the limit. -/
theorem Passed.counters_iff [Boost] (h : Passed cfg now s s' o) :
    key ∈ s'.tickerNum ↔ (∃ num, s.tickerNum[key]? = some num ∧ num < packageNum) ∨ Ticked cfg s'.hostList key := by
  obtain @⟨s₁, s₂, _, b₁, b₂, es, _, _, hsweep, hevict, hticker, -, hlist⟩ := h
  have hhost := listMsgQueue_hostList hlist
  have hnum : s'.tickerNum = countTickers es s₂.tickerNum := by
    rcases completes_listMsgQueue.1 hlist with ⟨-, rfl, -⟩ | ⟨-, rfl, -⟩ <;> rfl
  have hkept : key ∈ s₂.tickerNum ↔ ∃ num, s.tickerNum[key]? = some num ∧ num < packageNum := by
    rw [StrMap.mem_iff]
    refine exists_congr fun num => ?_
    rw [hevict.counters_iff, hsweep.frame.tickerNum]
    refine and_congr_right fun hget => ?_
    constructor
    · intro hall
      exact UInt16.not_le.1 (hall (key, num) (Std.ExtTreeMap.mem_toList_iff_getElem?_eq_some.2 hget) rfl)
    · rintro hlt ⟨key', num'⟩ hp rfl hout
      cases hget.symm.trans (Std.ExtTreeMap.mem_toList_iff_getElem?_eq_some.1 hp)
      exact UInt16.not_le.2 hlt hout
  rw [hnum, mem_countTickers, hkept, hhost, ticked_iff hticker]

/-! ## Counters without an entry -/

/-- Every counter is one of an entry that gets tickers. -/
def Matched (cfg : Config) (s : Server) : Prop := ∀ key ∈ s.tickerNum, Ticked cfg s.hostList key

theorem Matched.init (cfg : Config) : Matched cfg (init cfg) := fun key hkey => by
  simp [NatServer.init] at hkey

/-- After a pass that started so there are no others than these. -/
theorem Passed.counters_of_matched [Boost] (h : Passed cfg now s s' o) (hm : Matched cfg s) :
    key ∈ s'.tickerNum ↔ Ticked cfg s'.hostList key := by
  rw [h.counters_iff]
  refine or_iff_right_of_imp ?_
  rintro ⟨num, hget, hlt⟩
  obtain ⟨k, e, hk, he, rfl⟩ := hm key (StrMap.mem_iff.2 ⟨num, hget⟩)
  -- the counter has not run out, so the entry stays
  have hin : k ∈ s'.hostList := (h.mem_iff he.mem).2 fun e' num' he' hget' => by
    cases he.symm.trans he'
    cases hget.symm.trans hget'
    exact hlt
  exact ⟨k, e, hk, (h.endpoint hin).2.trans he, rfl⟩

/-- What is written over an entry is determined by the message. -/
theorem Overwrites.unique {old : Option String} {v v' : Json} (h : Overwrites seen j old t v)
    (h' : Overwrites seen j old t v') : v = v' := by
  cases h with
  | openconnect hdata hdiff hchange =>
    cases h' with
    | openconnect hdata' hdiff' hchange' =>
      cases hdata.symm.trans hdata'
      exact Option.some.inj (hchange.symm.trans hchange')
  | callclientRes hinfo hchange =>
    cases h' with
    | callclientRes hinfo' hchange' =>
      cases hinfo.symm.trans hinfo'
      exact Option.some.inj (hchange.symm.trans hchange')
  | ticker hdata hnull =>
    cases h' with
    | ticker hdata' hnull' => exact Option.some.inj (hdata.symm.trans hdata')

section
variable [Boost]

/-- A message from `n` leaves no counter without an entry: where the endpoint
`e` of `n` has a counter, another entry that gets tickers is there, or the
message is a heartbeat from there, or `n` stays there. -/
def TracksMessage (cfg : Config) (n : String) (s : Server) (seen : Endpoint) (j : Json) (t : MsgType) : Prop :=
  ∀ e, HasEndpoint s.hostList n e → tickerKey e ∈ s.tickerNum →
    (∃ k, k ≠ n ∧ k ≠ cfg.nodeID ∧ HasEndpoint s.hostList k e) ∨ ((t = .ticker ∨ t = .tickerRes) ∧ seen = e) ∨
      ∀ v, Overwrites seen j s.hostList[n]? t v → firstEndpoint v = some e

/-- A turn that leaves no counter without an entry. -/
def Tracks (cfg : Config) (s : Server) : Event → Prop
  | .receive error remote datagram draws =>
    ∀ t n j, Event.Carries cfg t n j (.receive error remote datagram draws) → n ≠ cfg.nodeID → TracksMessage cfg n s remote j t
  | .timer _ => True

/-- The entries of other nodes stay where they are. -/
theorem Handled.endpoint_of_ne {draws : Draws} {b : Bool} (hh : Handled cfg draws seen n j s t b s' o) (hn : k ≠ n)
    (hk : k ≠ cfg.nodeID) : HasEndpoint s'.hostList k e ↔ HasEndpoint s.hostList k e := by
  rw [HasEndpoint, HasEndpoint, hh.framed.rest k hn hk]

theorem Handled.matched_iff {draws : Draws} {b : Bool} (hh : Handled cfg draws seen n j s t b s' o) (hm : Matched cfg s) :
    Matched cfg s' ↔ (n ≠ cfg.nodeID → TracksMessage cfg n s seen j t) := by
  have hcleared (e : Endpoint) : tickerKey e ∈ s'.tickerNum ↔
      tickerKey e ∈ s.tickerNum ∧ ¬ ((t = .ticker ∨ t = .tickerRes) ∧ seen = e) := by
    rcases hh.tickerNum with ⟨hbeat, hnum⟩ | ⟨hother, hnum⟩ <;> rw [hnum]
    · simp [Std.ExtTreeMap.mem_erase, hbeat, tickerKey_inj, and_comm]
    · simp [hother]
  constructor
  · intro hm' hn e he hcount
    by_cases hbeat : (t = .ticker ∨ t = .tickerRes) ∧ seen = e
    · exact .inr (.inl hbeat)
    obtain ⟨k, e', hk, he', hkey⟩ := hm' _ ((hcleared e).2 ⟨hcount, hbeat⟩)
    obtain rfl := tickerKey_inj.1 hkey
    by_cases hkn : k = n
    · subst hkn
      refine .inr (.inr fun v hv => ?_)
      rcases hh.known_entry he.mem with ⟨-, v', hv', hget⟩ | ⟨hnot, -⟩
      · obtain rfl := hv.unique hv'
        rwa [HasEndpoint, hget, Option.bind_some, textEndpoint_dump] at he'
      · exact absurd hv (hnot rfl v)
    · exact .inl ⟨k, hkn, hk, (hh.endpoint_of_ne hkn hk).1 he'⟩
  · intro htracks key hkey
    have hin : key ∈ s.tickerNum := by
      rcases hh.tickerNum with ⟨-, hnum⟩ | ⟨-, hnum⟩ <;> rw [hnum] at hkey
      · exact Std.ExtTreeMap.mem_of_mem_erase hkey
      · exact hkey
    obtain ⟨k, e, hk, he, rfl⟩ := hm key hin
    by_cases hkn : k = n
    · subst hkn
      rcases htracks hk e he hin with ⟨k', hne, hk', he'⟩ | hbeat | hstays
      · exact ⟨k', e, hk', (hh.endpoint_of_ne hne hk').2 he', rfl⟩
      · exact absurd hbeat ((hcleared e).1 hkey).2
      · refine ⟨k, e, hk, ?_, rfl⟩
        rcases hh.known_entry he.mem with ⟨-, v, hv, hget⟩ | ⟨-, hsame⟩
        · rw [HasEndpoint, hget, Option.bind_some, textEndpoint_dump, hstays v hv]
        · rwa [HasEndpoint, hsame]
    · exact ⟨k, e, hk, (hh.endpoint_of_ne hkn hk).2 he, rfl⟩

/-- A turn leaves no counter without an entry exactly where it tracks them. -/
theorem Step.matched_iff {turn : Turn} (hs : Step cfg s turn s') (hm : Matched cfg s) :
    Matched cfg s' ↔ Tracks cfg s turn.event := by
  obtain ⟨event, sent⟩ := turn
  cases event with
  | timer now =>
    have hpass : Passed cfg now s s' sent := completes_threadhandle.1 hs.completes
    exact ⟨fun _ => trivial, fun _ key hkey => (hpass.counters_of_matched hm).1 hkey⟩
  | receive error remote datagram draws =>
    rcases receive_cases hs.enabled hs.completes with ⟨hnone, hend⟩ | ⟨t, n, j, b, s₁, hc, hh, rfl⟩
    · have hsame : s'.hostList = s.hostList ∧ s'.tickerNum = s.tickerNum := by
        rcases hend with rfl | rfl <;> exact ⟨rfl, rfl⟩
      rw [Matched, hsame.1, hsame.2]
      exact ⟨fun _ t n j hc => absurd hc (hnone t n j), fun _ => hm⟩
    · rw [Matched, rearmed_hostList, rearmed_tickerNum]
      refine (hh.matched_iff (s := arrive datagram s) hm).trans ?_
      constructor
      · intro h t' n' j' hc' hn
        obtain ⟨rfl, rfl, rfl⟩ := hc.unique hc'
        exact h hn
      · intro h hn
        exact h t n j hc hn

/-- A run has a counter without an entry nowhere exactly where its turns track them. -/
theorem matched_run_iff {ts : List Turn} : Run (Into (Step cfg) (Matched cfg)) (init cfg) ts s ↔
    Run (Restrict (Step cfg) fun s t => Tracks cfg s t.event) (init cfg) ts s :=
  Run.into_iff (fun hm hs => hs.matched_iff hm) (Matched.init cfg)

/-- In every run whose turns track the counters, after each pass the counters
are those of the endpoints in the table. -/
theorem counters_match {ts : List Turn} {sent : List SendTo}
    (h : Run (Restrict (Step cfg) fun s t => Tracks cfg s t.event) (init cfg) ts s)
    (hpass : Step cfg s ⟨.timer now, sent⟩ s') (key : String) : key ∈ s'.tickerNum ↔ Ticked cfg s'.hostList key := by
  have hm : Matched cfg s :=
    (matched_run_iff.2 h).invariant (I := Matched cfg) (fun _ hs => hs.2) (Matched.init cfg)
  exact (completes_threadhandle.1 hpass.completes).counters_of_matched hm

end

/-! The node `n` registers at 20.0.0.1 and moves to 30.0.0.1. -/

theorem movedNode_registers : ∃ sent s, @Step digitsBoost checkServer (init checkServer) ⟨sharedEvent "n", sent⟩ s ∧
    s.hostList = registered checkServer "n" (publicInfo sharedEndpoint) ∅ ∧ s.fCkTimeMap = ∅ ∧ s.tickerNum = ∅ ∧
    WfTable s.hostList ∧ s.receiving = true := by
  obtain ⟨sent, s, hstep, hleft, hrecv⟩ := sharedDetect_step "n" (s := init checkServer) rfl WfTable.empty
    (by decide +kernel)
  refine ⟨sent, s, hstep, hleft.hostList, hleft.fCkTimeMap, hleft.tickerNum, ?_, hrecv⟩
  rw [hleft.hostList]
  exact WfTable.empty.registered _ _ (record?_publicInfo _)

theorem movedNode_endpoint : HasEndpoint (registered checkServer "n" (publicInfo sharedEndpoint) ∅) "n" sharedEndpoint := by
  rw [HasEndpoint, getElem?_registered_self, if_neg (by simp), Option.bind_some, textEndpoint_publicInfo]

theorem movedNode_targets (hhost : s.hostList = registered checkServer "n" (publicInfo sharedEndpoint) ∅) :
    tickerTargets checkServer s.hostList.toList = some (List.replicate 1 sharedEndpoint) := by
  rw [hhost, show (registered checkServer "n" (publicInfo sharedEndpoint) ∅).toList =
    [("n", (publicInfo sharedEndpoint).dump), ("s", (selfInfo checkServer).dump)] from rfl]
  simp only [tickerTargets, textEndpoint_publicInfo, textEndpoint_selfInfo, Option.bind_eq_bind, Option.bind_some, Option.pure_def]
  rfl

theorem counters_match_registered : ∃ s sent s', @Reachable digitsBoost checkServer s ∧
    @Step digitsBoost checkServer s ⟨.timer 1010, sent⟩ s' ∧
    ∀ key, key ∈ s'.tickerNum ↔ Ticked checkServer s'.hostList key := by
  let _ := digitsBoost
  obtain ⟨sent₁, s, hstep, -, hchecks, -, hw, -⟩ := movedNode_registers
  obtain ⟨s', sent, hpass⟩ := passes_without_checks checkServer 1010 hw hchecks
  have htracks : Tracks checkServer (init checkServer) (sharedEvent "n") := by
    intro t m j _ _ e he
    exact absurd he.mem (by simp [init])
  exact ⟨s, sent, s', Reachable.init.step hstep, hpass.step, counters_match (.single ⟨hstep, htracks⟩) hpass.step⟩

/-- The counter of 20.0.0.1 stays, with no entry there. -/
theorem moved_leaves_counter : ∃ s sent s', @Reachable digitsBoost checkServer s ∧ WfTable s.hostList ∧
    @Step digitsBoost checkServer s ⟨.timer 1010, sent⟩ s' ∧ tickerKey sharedEndpoint ∈ s'.tickerNum ∧
    ∀ k e, HasEndpoint s'.hostList k e → tickerKey e ≠ tickerKey sharedEndpoint := by
  let _ := digitsBoost
  obtain ⟨sent₁, s₁, hstep₁, hhost₁, hchecks₁, hnum₁, hw₁, hrecv₁⟩ := movedNode_registers
  -- one pass counts a ticker to 20.0.0.1
  obtain ⟨s₂, ts, hrun, -, -, hhost₂, hchecks₂, -, hrecv₂, -, hcount⟩ := silent_passes checkServer hw₁ hchecks₁ hnum₁
    hrecv₁ (movedNode_targets hhost₁) 1010 1 (by omega)
  obtain ⟨sent₃, s₃, hstep₃, hhost₃, hchecks₃, hnum₃, -, -⟩ := ticker_step ⟨1012, "m", "k"⟩ hrecv₂
    (by decide : (⟨"30.0.0.1", 5555⟩ : Endpoint).ip ≠ checkServer.localIp) checkNode (sampleMapped ⟨"30.0.0.1", 5555⟩) rfl
    (by decide +kernel)
  have hw₃ : WfTable s₃.hostList := by
    rw [hhost₃, hhost₂]
    exact hw₁.insert ((textRecord_dump _).trans (record?_sampleMapped _)) _
  obtain ⟨s₄, sent₄, hpass⟩ := passes_without_checks checkServer 1010 hw₃ (hchecks₃.trans hchecks₂)
  refine ⟨s₃, sent₄, s₄, ((Reachable.init.step hstep₁).run hrun).step hstep₃, hw₃, hpass.step, ?_, fun k e he hkey => ?_⟩
  · have hget : s₃.tickerNum[tickerKey sharedEndpoint]? = some 1 := by
      rw [hnum₃, StrMap.getElem?_erase, if_neg (by decide), getElem?_of_counter hcount (by decide)]
      rfl
    exact hpass.counters_iff.2 (.inl ⟨1, hget, by decide⟩)
  · have hold : HasEndpoint s₃.hostList k e := (hpass.endpoint he.mem).2.symm.trans he
    obtain rfl := tickerKey_inj.1 hkey
    rw [hhost₃, hhost₂, hhost₁] at hold
    by_cases hn : k = "n"
    · subst hn
      have hend := hasEndpoint_insert.1 hold
      rw [firstEndpoint_of_record (record?_sampleMapped _)] at hend
      exact absurd (Option.some.inj hend) (by decide)
    · rw [HasEndpoint, StrMap.getElem?_insert_of_ne _ _ (show k ≠ checkNode.nodeID from hn)] at hold
      have hk : k = "s" := by
        have hmem := HasEndpoint.mem hold
        simp only [registered, Std.ExtTreeMap.mem_insertIfNew, Std.LawfulEqCmp.compare_eq_iff_eq, Ne.symm hn,
          Std.ExtTreeMap.not_mem_empty, or_false] at hmem
        exact hmem.symm
      subst hk
      have hend : (registered checkServer "n" (publicInfo sharedEndpoint) ∅)["s"]? = some (selfInfo checkServer).dump := rfl
      rw [hend, Option.bind_some, textEndpoint_selfInfo] at hold
      exact absurd (Option.some.inj hold) (by decide)

end NatServer

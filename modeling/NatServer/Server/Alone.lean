import NatServer.Server.Silence
/-!
# Detects sent again

`listMsgQueue` counts the passes that leave one entry or none in the table, and
at every tenth sends the detect to the bootstrap server again. It looks at the
size of the table, so the one entry may be that of another node.
-/

namespace NatServer

open Effect Json

variable {cfg : Config} {now : Int} {s s' : Server} {o : List SendTo}

/-- The detect that `listMsgQueue` sends. -/
def redetect (cfg : Config) : SendTo := ⟨cfg.fromCli, (detectMsg cfg (portText cfg.localPort)).dump⟩

theorem redetect_notMem {l : List SendTo} {t : MsgType} (ht : t ≠ .detect) (hl : ∀ x ∈ l, x.IsType t) :
    redetect cfg ∉ l := fun hmem => ht ((hl _ hmem).unique ⟨_, _, isMessage_detect cfg _, rfl⟩)

/-! ## One pass -/

/-- 1 for a pass that leaves one entry or none. -/
def alonePass (s' : Server) : Nat := if s'.hostList.size ≤ 1 then 1 else 0

theorem alone_eq (s : Server) : alone s = s.count + alonePass s := by
  unfold alone alonePass
  split <;> rfl

/-- The detect goes out, and the count starts again, where the pass is the tenth. -/
theorem Passed.redetects [Boost] (h : Passed cfg now s s' o) (hcount : s.count < 10) :
    o.count (redetect cfg) = (s.count + alonePass s') / 10 ∧ s'.count = (s.count + alonePass s') % 10 := by
  obtain @⟨s₁, s₂, _, b₁, b₂, es, o₁, o₂, hsweep, hevict, -, hnotify, hlist⟩ := h
  have hhost := listMsgQueue_hostList hlist
  have hcount₂ : s₂.count = s.count := hevict.frame.count.trans hsweep.frame.count
  have halone : alone { s₂ with tickerNum := countTickers es s₂.tickerNum } = s.count + alonePass s' := by
    rw [alone_eq, alonePass, alonePass, hhost, hcount₂]
  have hle : alonePass s' ≤ 1 := by
    unfold alonePass
    split <;> omega
  have hticker : redetect cfg ∉ es.map fun e => (⟨e, (tickerMsg cfg s₂.localEpInfo).dump⟩ : SendTo) := by
    refine redetect_notMem (t := .ticker) (by decide) fun x hx => ?_
    obtain ⟨e, -, rfl⟩ := List.mem_map.1 hx
    exact ⟨_, _, isMessage_ticker cfg s₂.localEpInfo, rfl⟩
  have hupdate : redetect cfg ∉ o₁ := by
    split at hnotify
    · exact redetect_notMem (t := .update) (by decide) (routeUpdate_isType cfg hnotify)
    · rw [hnotify]
      exact List.not_mem_nil
  rw [List.count_append, List.count_append, List.count_eq_zero.2 hticker, List.count_eq_zero.2 hupdate, Nat.add_zero,
    Nat.zero_add]
  rcases completes_listMsgQueue.1 hlist with ⟨hten, rfl, rfl⟩ | ⟨hten, rfl, rfl⟩
  · rw [halone] at hten
    have hone : [redetect cfg].count (redetect cfg) = 1 := List.count_singleton_self
    exact ⟨hone.trans (by omega), show 0 = _ by omega⟩
  · rw [halone] at hten
    rw [List.count_nil]
    refine ⟨by omega, ?_⟩
    show alone { s₂ with tickerNum := countTickers es s₂.tickerNum } = _
    omega

/-- The detects that the passes of a run sent. -/
def redetects (cfg : Config) (ts : List Turn) : Nat :=
  ((ts.filter fun t => t.event.isTimer).flatMap fun t => t.sent).count (redetect cfg)

theorem redetects_cons (t : Turn) (ts : List Turn) :
    redetects cfg (t :: ts) = (if t.event.isTimer then t.sent.count (redetect cfg) else 0) + redetects cfg ts := by
  unfold redetects
  by_cases ht : t.event.isTimer = true
  · rw [List.filter_cons, if_pos ht, List.flatMap_cons, List.count_append, if_pos ht]
  · rw [List.filter_cons, if_neg ht, if_neg ht, Nat.zero_add]

section
variable [Boost]

/-- No message counts as a pass. -/
theorem Handled.count {draws : Draws} {seen : Endpoint} {n : String} {j : Json} {t : MsgType} {b : Bool}
    (h : Handled cfg draws seen n j s t b s' o) : s'.count = s.count := by
  cases h with
  | update _ _ _ _ loop =>
    obtain ⟨_, hs⟩ := loop.state
    dsimp only at hs
    rw [hs]
  | _ => rfl

theorem Step.count_of_receive {error : Option ErrorCode} {remote : Endpoint} {datagram : List UInt8} {draws : Draws}
    (hs : Step cfg s ⟨.receive error remote datagram draws, o⟩ s') : s'.count = s.count := by
  rcases receive_cases hs.enabled hs.completes with ⟨-, hend⟩ | ⟨t, n, j, b, s₁, -, hh, rfl⟩
  · rcases hend with rfl | rfl <;> rfl
  · have hsame : s₁.count = s.count := hh.count
    cases b <;> exact hsame

/-! ## Whole runs -/

/-- A step, with the number of passes so far that left one entry or none. -/
structure Tallied (cfg : Config) (x : Server × Nat) (t : Turn) (x' : Server × Nat) : Prop where
  step : Step cfg x.1 t x'.1
  passes : x'.2 = x.2 + if t.event.isTimer then alonePass x'.1 else 0

/-- Every run can be tallied. -/
theorem tallied_of_run {ts : List Turn} (h : Run (Step cfg) s ts s') (passes : Nat) :
    ∃ passes', Run (Tallied cfg) (s, passes) ts (s', passes') := by
  induction h generalizing passes with
  | nil => exact ⟨passes, .nil _⟩
  | @cons s s₁ s₂ t ts hs _ ih =>
    obtain ⟨passes', hrun⟩ := ih (passes + if t.event.isTimer then alonePass s₁ else 0)
    exact ⟨passes', .cons ⟨hs, rfl⟩ hrun⟩

/-- `_count` is what is left of the tally after the tens. -/
theorem Tallied.count {x x' : Server × Nat} {t : Turn} (h : Tallied cfg x t x') (hx : x.1.count = x.2 % 10) :
    x'.1.count = x'.2 % 10 ∧ (if t.event.isTimer then t.sent.count (redetect cfg) else 0) + x.2 / 10 = x'.2 / 10 := by
  obtain ⟨s, passes⟩ := x
  obtain ⟨s', passes'⟩ := x'
  obtain ⟨hs, hpasses⟩ := h
  obtain ⟨event, sent⟩ := t
  dsimp only at hx hs hpasses ⊢
  cases event with
  | receive error remote datagram draws =>
    simp only [Event.isTimer, Bool.false_eq_true, if_false] at hpasses ⊢
    rw [hs.count_of_receive]
    omega
  | timer now =>
    simp only [Event.isTimer, if_true] at hpasses ⊢
    have hpass : Passed cfg now s s' sent := completes_threadhandle.1 hs.completes
    obtain ⟨hsent, hcount⟩ := hpass.redetects (by omega)
    omega

theorem Tallied.run {x x' : Server × Nat} {ts : List Turn} (h : Run (Tallied cfg) x ts x') (hx : x.1.count = x.2 % 10) :
    x'.1.count = x'.2 % 10 ∧ redetects cfg ts + x.2 / 10 = x'.2 / 10 := by
  induction h with
  | nil => exact ⟨hx, Nat.zero_add _⟩
  | cons hs _ ih =>
    obtain ⟨hcount, hsent⟩ := hs.count hx
    obtain ⟨hend, hrest⟩ := ih hcount
    rw [redetects_cons]
    exact ⟨hend, by omega⟩

/-- In every run the passes send one detect for every ten passes that leave one
entry or none, each at the tenth of them. -/
theorem redetected_once_in_ten {ts : List Turn} {passes : Nat} (h : Run (Tallied cfg) (init cfg, 0) ts (s, passes)) :
    redetects cfg ts = passes / 10 ∧ ∀ now sent s', Step cfg s ⟨.timer now, sent⟩ s' →
      (redetect cfg ∈ sent ↔ s'.hostList.size ≤ 1 ∧ passes % 10 = 9) := by
  obtain ⟨hcount, hsent⟩ := Tallied.run h rfl
  refine ⟨by simpa using hsent, fun now sent s' hs => ?_⟩
  have hpass : Passed cfg now s s' sent := completes_threadhandle.1 hs.completes
  dsimp only at hcount
  obtain ⟨hone, -⟩ := hpass.redetects (by omega)
  rw [← List.count_pos_iff, hone, hcount, alonePass]
  split <;> omega

/-! ## A table that holds one id -/

/-- Passes add no entry, so each of them counts. -/
theorem tallied_passes {ts : List Turn} {n : String} (h : Run (Step cfg) s ts s')
    (htimer : ∀ t ∈ ts, t.event.isTimer = true) (hone : ∀ k ∈ s.hostList, k = n) (passes : Nat) :
    Run (Tallied cfg) (s, passes) ts (s', passes + ts.length) := by
  induction h generalizing passes with
  | nil => exact .nil _
  | @cons s s₁ s₂ t ts hs _ ih =>
    obtain ⟨event, sent⟩ := t
    cases event with
    | receive => cases htimer _ List.mem_cons_self
    | timer now =>
      have hpass : Passed cfg now s s₁ sent := completes_threadhandle.1 hs.completes
      have hone₁ : ∀ k ∈ s₁.hostList, k = n := fun k hk => hone k (hpass.endpoint hk).1
      have hrest := ih (fun t ht => htimer t (List.mem_cons_of_mem _ ht)) hone₁ (passes + 1)
      rw [List.length_cons, Nat.add_comm ts.length, ← Nat.add_assoc]
      refine .cons ⟨hs, ?_⟩ hrest
      simp only [Event.isTimer, if_true, alonePass, if_pos (StrMap.size_le_one hone₁)]

end

/-! Ten passes of a node that nobody has answered, and of one that has heard
from `b`. -/

theorem redetected_once_in_ten_unanswered : ∃ ts s, Run (@Tallied digitsBoost natReceiver) (init natReceiver, 0) ts (s, 10) ∧
    redetects natReceiver ts = 1 := by
  let _ := digitsBoost
  obtain ⟨s, ts, hrun, hlen, htimer, -⟩ := silent_passes (s := init natReceiver) (e := ⟨"10.0.0.1", 80⟩) (d := 0)
    natReceiver WfTable.empty rfl rfl rfl rfl 1000 10 (by omega)
  have htally := tallied_passes (n := "r") hrun (fun t ht => by rw [htimer t ht]; rfl) (by simp [init]) 0
  rw [hlen] at htally
  exact ⟨ts, s, htally, (redetected_once_in_ten htally).1⟩

theorem redetect_with_neighbour : ∃ s s' sent, @Reachable digitsBoost natReceiver s ∧
    @Step digitsBoost natReceiver s ⟨.timer 1000, sent⟩ s' ∧ redetect natReceiver ∈ sent ∧
    "b" ∈ s.hostList ∧ "b" ∈ s'.hostList ∧ "b" ≠ natReceiver.nodeID := by
  let _ := digitsBoost
  have hrec := record?_sampleMapped ⟨"5.5.5.5", 2000⟩
  obtain ⟨sent₁, hstep₁⟩ := step_ticker (sampleMapped ⟨"5.5.5.5", 2000⟩) rfl (by decide +kernel)
  obtain ⟨s₁, hs₁⟩ : ∃ s₁, { init natReceiver with
    hostList := (∅ : StrMap String).insert "b" (sampleMapped ⟨"5.5.5.5", 2000⟩).dump } = s₁ := ⟨_, rfl⟩
  rw [hs₁] at hstep₁
  have hhost₁ : s₁.hostList = (∅ : StrMap String).insert "b" (sampleMapped ⟨"5.5.5.5", 2000⟩).dump := by rw [← hs₁]
  have hw₁ : WfTable s₁.hostList := by
    rw [hhost₁]
    exact WfTable.empty.insert ((textRecord_dump _).trans hrec) _
  have htargets : tickerTargets natReceiver s₁.hostList.toList = some (List.replicate 1 ⟨"5.5.5.5", 2000⟩) := by
    rw [hhost₁, show ((∅ : StrMap String).insert "b" (sampleMapped ⟨"5.5.5.5", 2000⟩).dump).toList = [("b", _)] from rfl]
    simp only [tickerTargets, textEndpoint_dump, firstEndpoint_of_record hrec, Option.bind_eq_bind, Option.bind_some,
      Option.pure_def]
    rfl
  obtain ⟨s, ts, hrun, hlen, htimer, hhost, hchecks, -, -, -, hcounter⟩ := silent_passes natReceiver hw₁
    (by rw [← hs₁]; rfl) (by rw [← hs₁]; rfl) (by rw [← hs₁]; rfl) htargets 1000 9 (by omega)
  -- nine passes with `b` alone in the table have been counted
  have hone : ∀ k ∈ s₁.hostList, k = "b" := by
    intro k hk
    rw [hhost₁] at hk
    exact (by simpa using hk : "b" = k).symm
  have hcount : s.count = 9 := by
    obtain ⟨passes, htally₁⟩ := tallied_of_run (Run.single hstep₁) 0
    have htally := tallied_passes hrun (fun t ht => by rw [htimer t ht]; rfl) hone 0
    rw [hlen] at htally
    exact (Tallied.run htally (by rw [← hs₁]; rfl)).1
  obtain ⟨s', sent, hpass⟩ := passes_without_checks natReceiver 1000 (by rwa [hhost] : WfTable s.hostList) hchecks
  have hin : "b" ∈ s.hostList := by
    rw [hhost, hhost₁]
    exact Std.ExtTreeMap.mem_insert_self
  have hone' : ∀ k ∈ s'.hostList, k = "b" := fun k hk => hone k (by rw [← hhost]; exact (hpass.endpoint hk).1)
  refine ⟨s, s', sent, (Reachable.init.step hstep₁).run hrun, hpass.step, ?_, hin, ?_, by decide⟩
  · rw [← List.count_pos_iff, (hpass.redetects (by omega)).1, hcount, alonePass, if_pos (StrMap.size_le_one hone')]
    decide
  · rw [hpass.mem_iff hin]
    intro e num he hnum
    rw [hhost, hhost₁, StrMap.getElem?_insert_self, Option.bind_some, textEndpoint_dump, firstEndpoint_of_record hrec] at he
    cases he
    rw [counter, hnum] at hcounter
    rw [show num = UInt16.ofNat (9 * 1) from hcounter]
    decide

end NatServer

import NatServer.Server.Check
/-!
# The sweep of the pending checks

A check is one text, its fields joined by underscores: a detect writes it, the
sweep of a later pass splits it. `Decodes` says that the sweep reads what was
written, `Cleaned` what it makes of the tables where it does.
-/

namespace NatServer

open Effect Json

variable {now : Int} {s s' : Server} {n k check key : String}

/-! ## Addresses -/

/-- An address of the socket, which is one of IPv4. -/
structure Address where
  a : UInt8
  b : UInt8
  c : UInt8
  d : UInt8
  deriving DecidableEq, Repr

/-- `address::to_string`. -/
def Address.text (e : Address) : String :=
  toString e.a.toNat ++ "." ++ toString e.b.toNat ++ "." ++ toString e.c.toNat ++ "." ++ toString e.d.toNat

theorem Address.underscore_notMem_text (e : Address) : '_' ∉ e.text.toList := by
  have hdigit (n : Nat) : '_' ∉ (toString n).toList := underscore_notMem_toString n
  simp only [text, String.toList_append, List.mem_append, hdigit, false_or, or_false]
  decide

/-! ## What is split -/

section
variable [Boost]

theorem split_keyStr_of_notMem (t : Int) {e : Endpoint} (hip : '_' ∉ e.ip.toList) (n : String) :
    Boost.split (keyStr t e n) = "filtering" :: toString t :: e.ip :: portText e.port :: Boost.split n := by
  have hchars : (keyStr t e n).toList = "filtering".toList ++ '_' :: ((toString t).toList ++ '_' ::
      (e.ip.toList ++ '_' :: ((portText e.port).toList ++ '_' :: n.toList))) := by
    simp [keyStr]
  have hport : '_' ∉ (portText e.port).toList := underscore_notMem_toString e.port.toNat
  rw [Boost.split_eq, hchars, List.splitOn_append_cons_self_of_not_mem (by decide),
    List.splitOn_append_cons_self_of_not_mem (underscore_notMem_toString t),
    List.splitOn_append_cons_self_of_not_mem hip, List.splitOn_append_cons_self_of_not_mem hport]
  simp only [List.map_cons, String.ofList_toList, Boost.split_eq n]

/-- The first piece is the whole text where there is nothing to split at. -/
theorem split_zero_iff : (Boost.split n)[0]? = some n ↔ '_' ∉ n.toList := by
  constructor
  · intro h hmem
    obtain ⟨pre, post, hn, hpre⟩ := List.eq_append_cons_of_mem hmem
    rw [Boost.split_eq, hn, List.splitOn_append_cons_self_of_not_mem hpre] at h
    have hlen : pre.length = n.toList.length := by
      rw [← Option.some.inj h, String.toList_ofList]
    rw [hn, List.length_append, List.length_cons] at hlen
    omega
  · intro h
    rw [Boost.split_eq, List.splitOn_eq_singleton h]
    simp

/-- The sweep reads the check as one about `n` at `t`, so that its timeout is
blamed on `n` and on no other node. -/
structure Decodes (check : String) (t : Int) (n : String) : Prop where
  kind : (Boost.split check)[0]? = some "filtering"
  read : readCheck check = some ⟨t, n⟩
  due : ∀ now k, Due now check k ↔ now - t > 20 ∧ k = n

theorem Decodes.of_read {t : Int} (hkind : (Boost.split check)[0]? = some "filtering")
    (hread : readCheck check = some ⟨t, n⟩) : Decodes check t n := by
  refine ⟨hkind, hread, fun now k => ?_⟩
  rw [due_iff hread, @eq_comm _ k n]

theorem readCheck_keyStr_iff {t : Int} {e : Endpoint} (hip : '_' ∉ e.ip.toList) :
    readCheck (keyStr t e n) = some ⟨t, n⟩ ↔ IsInt t ∧ '_' ∉ n.toList := by
  rw [readCheck_eq_some, split_keyStr_of_notMem t hip, ← split_zero_iff]
  simp only [List.getElem?_cons_succ, List.getElem?_cons_zero, Option.some.injEq, exists_eq_left', stoi_toString]
  by_cases ht : IsInt t <;> simp [ht]

/-- The check a detect stores is read back exactly where its time is an `int`
and the node id has no underscore. -/
theorem check_decodes_iff (t : Int) (a : Address) (port : UInt16) (n : String) :
    Decodes (keyStr t ⟨a.text, port⟩ n) t n ↔ IsInt t ∧ '_' ∉ n.toList := by
  rw [← readCheck_keyStr_iff (e := ⟨a.text, port⟩) a.underscore_notMem_text]
  exact ⟨fun h => h.read, fun h => .of_read (split_keyStr_zero ..) h⟩

end

/-- A node whose id has an underscore. -/
def splitNode : Config := sampleNode "n_1" "192.168.0.2" false

/-- The detect of `n_1` was taken in; 25 seconds later the check is about `n`. -/
theorem split_blames_other : ∃ sent s, @Step digitsBoost checkServer (init checkServer)
      ⟨.receive none ⟨(⟨30, 0, 0, 1⟩ : Address).text, 5555⟩ (wire (detectMsg splitNode "80").dump) checkDraws, sent⟩ s ∧
    s.fCkTimeMap["k"]? = some (keyStr 1000 ⟨(⟨30, 0, 0, 1⟩ : Address).text, 5555⟩ "n_1") ∧
    @Due digitsBoost 1025 (keyStr 1000 ⟨(⟨30, 0, 0, 1⟩ : Address).text, 5555⟩ "n_1") "n" ∧
    ¬ @Due digitsBoost 1025 (keyStr 1000 ⟨(⟨30, 0, 0, 1⟩ : Address).text, 5555⟩ "n_1") "n_1" ∧
    ¬ @Decodes digitsBoost (keyStr 1000 ⟨(⟨30, 0, 0, 1⟩ : Address).text, 5555⟩ "n_1") 1000 "n_1" := by
  let _ := digitsBoost
  have hcast : Boost.lexical_cast "80" = some 80 := rfl
  have hip : (⟨(⟨30, 0, 0, 1⟩ : Address).text, 5555⟩ : Endpoint).ip ≠ checkServer.localIp := by decide
  obtain ⟨sent, -, -, -, -, s, hstep, hleft, -⟩ := detectMapped_step (s := init checkServer) checkDraws rfl WfTable.empty
    ⟨_, record?_selfInfo checkServer⟩ hip (by decide +kernel) (isMessage_detect splitNode "80")
    (detectData_detectMsg splitNode hcast) (by decide) rfl
  have hread : readCheck (keyStr 1000 ⟨(⟨30, 0, 0, 1⟩ : Address).text, 5555⟩ "n_1") = some ⟨1000, "n"⟩ := by decide +kernel
  have hnot : ¬ Due 1025 (keyStr 1000 ⟨(⟨30, 0, 0, 1⟩ : Address).text, 5555⟩ "n_1") "n_1" := by
    rw [due_iff hread]
    decide
  refine ⟨sent, s, hstep, ?_, (due_iff hread).2 ⟨by decide, rfl⟩, hnot, fun h => ?_⟩
  · rw [hleft.fCkTimeMap, StrMap.getElem?_insertIfNew, if_pos ⟨rfl, by simp [init, checkDraws]⟩]
    rfl
  · exact hnot ((h.due 1025 "n_1").2 ⟨by decide, rfl⟩)

/-! ## The loop over the checks -/

/-- A check that is due is erased, the others stay as they are. -/
theorem Swept.checks_iff [Boost] {b b' : Bool} {l : List (String × String)} (h : Swept now s b l b' s') :
    s'.fCkTimeMap[key]? = some check ↔
      s.fCkTimeMap[key]? = some check ∧ ∀ p ∈ l, p.1 = key → ¬ ∃ n, Due now p.2 n := by
  induction h with
  | nil => simp
  | due hcheck hdue hfilter hinfo hchange hrest ih =>
    refine ih.trans ?_
    simp only [StrMap.getElem?_erase_eq_some, List.forall_mem_cons, due_iff hcheck, hdue, true_and, exists_eq', not_true_eq_false,
      and_assoc, ne_eq]
  | dueUnknown hcheck hdue hfilter hinfo hrest ih =>
    refine ih.trans ?_
    simp only [StrMap.getElem?_erase_eq_some, List.forall_mem_cons, due_iff hcheck, hdue, true_and, exists_eq', not_true_eq_false,
      and_assoc, ne_eq]
  | young hcheck hyoung hrest ih =>
    refine ih.trans ?_
    simp only [List.forall_mem_cons, due_iff hcheck, hyoung, false_and, exists_const, not_false_eq_true, implies_true,
      true_and]

/-- The others are notified where a check was due. -/
theorem Swept.notify_iff [Boost] {b b' : Bool} {l : List (String × String)} (h : Swept now s b l b' s') :
    b' = true ↔ b = true ∨ ∃ p ∈ l, ∃ n, Due now p.2 n := by
  induction h with
  | nil => simp
  | due hcheck hdue hfilter hinfo hchange hrest ih =>
    simp [ih, due_iff hcheck, hdue]
  | dueUnknown hcheck hdue hfilter hinfo hrest ih =>
    simp [ih, due_iff hcheck, hdue]
  | young hcheck hyoung hrest ih =>
    simp [ih, due_iff hcheck, hyoung]

/-- An entry that no due check is about stays as it is. -/
theorem Swept.untouched [Boost] {b b' : Bool} {l : List (String × String)} (h : Swept now s b l b' s')
    (hnot : ∀ p ∈ l, ¬ Due now p.2 k) : s'.hostList[k]? = s.hostList[k]? := by
  induction h with
  | nil => rfl
  | due hcheck hdue hfilter hinfo hchange hrest ih =>
    rw [List.forall_mem_cons, due_iff hcheck] at hnot
    exact (ih hnot.2).trans (StrMap.getElem?_insert_of_ne _ _ fun hk => hnot.1 ⟨hdue, hk.symm⟩)
  | dueUnknown hcheck hdue hfilter hinfo hrest ih => exact ih (List.forall_mem_cons.1 hnot).2
  | young hcheck hyoung hrest ih => exact ih (List.forall_mem_cons.1 hnot).2

/-- The verdict goes into the object a record is, beside its other members. -/
theorem setFiltering_of_record {info : String} {r : Record} (h : textRecord info = some r) (verdict : String) :
    ∃ m, parse info = some (.object m) ∧
      setFiltering verdict info = some (.object (m.insert "natfiltering" (.string verdict))) := by
  obtain ⟨j, hj, hr⟩ := parse_of_textRecord h
  obtain ⟨natmapping, -, hm, -, hmt, -⟩ := natFields_of_record hr
  obtain ⟨m, rfl, -⟩ := sub_eq_some hm (by rintro rfl; cases hmt)
  exact ⟨m, hj, by simp [setFiltering, hj, Json.set]⟩

/-! ## The whole sweep -/

/-- A check that a detect stored about `n` at `t`, a time that is an `int`. -/
inductive Stored (t : Int) (n : String) : String → Prop
  | intro (a : Address) (port : UInt16) (hpast : 0 ≤ t) (hfuture : t < 2 ^ 31) (hn : '_' ∉ n.toList) :
      Stored t n (keyStr t ⟨a.text, port⟩ n)

theorem Stored.decodes [Boost] {t : Int} (h : Stored t n check) : Decodes check t n := by
  cases h with
  | intro a port hpast hfuture hn =>
    have hint : IsInt t := ⟨by omega, hfuture⟩
    have hread := (readCheck_keyStr_iff (e := ⟨a.text, port⟩) a.underscore_notMem_text).2 ⟨hint, hn⟩
    exact .of_read (split_keyStr_zero ..) hread

/-- The sweep at `now` removes a check about `k`. -/
def Removed (now : Int) (s : Server) (k : String) : Prop :=
  ∃ (key check : String) (t : Int), s.fCkTimeMap[key]? = some check ∧ Stored t k check ∧ now - t > 20

/-- What a sweep makes of the tables, and whether the others are notified. -/
structure Cleaned [Boost] (now : Int) (s : Server) (notify : Bool) (s' : Server) : Prop where
  checks : ∀ key check : String, s'.fCkTimeMap[key]? = some check ↔
    s.fCkTimeMap[key]? = some check ∧ ∃ t n, Stored t n check ∧ now - t ≤ 20
  blamed : ∀ k info : String, Removed now s k → s.hostList[k]? = some info → ∃ m, parse info = some (.object m) ∧
    s'.hostList[k]? = some (Json.object (m.insert "natfiltering" (.string "isFilter"))).dump
  rest : ∀ k, ¬ (Removed now s k ∧ k ∈ s.hostList) → s'.hostList[k]? = s.hostList[k]?
  notify : notify = true ↔ ∃ k, Removed now s k

/-- Where each check was stored by a detect, a check is due exactly where it is
removed. -/
theorem removed_iff [Boost]
    (hchecks : ∀ key check : String, s.fCkTimeMap[key]? = some check → ∃ t n, Stored t n check) :
    Removed now s k ↔ ∃ p ∈ s.fCkTimeMap.toList, Due now p.2 k := by
  constructor
  · rintro ⟨key, check, t, hget, hstored, hnow⟩
    exact ⟨(key, check), Std.ExtTreeMap.mem_toList_iff_getElem?_eq_some.2 hget, (hstored.decodes.due now k).2 ⟨hnow, rfl⟩⟩
  · rintro ⟨⟨key, check⟩, hp, hdue⟩
    have hget := Std.ExtTreeMap.mem_toList_iff_getElem?_eq_some.1 hp
    obtain ⟨t, n, hstored⟩ := hchecks key check hget
    obtain ⟨hnow, rfl⟩ := (hstored.decodes.due now k).1 hdue
    exact ⟨key, check, t, hget, hstored, hnow⟩

/-- The sweep ends, removes the checks that are more than 20 seconds old and no
others, and writes the verdict on the nodes they are about. -/
theorem sweep_cleans [Boost] (now : Int) (hw : WfTable s.hostList)
    (hchecks : ∀ key check : String, s.fCkTimeMap[key]? = some check → ∃ t n, Stored t n check) :
    ∃ notify s', Completes (sweep now false s.fCkTimeMap.toList) s notify s' [] ∧ Cleaned now s notify s' := by
  have hmem {key check : String} : (key, check) ∈ s.fCkTimeMap.toList ↔ s.fCkTimeMap[key]? = some check :=
    Std.ExtTreeMap.mem_toList_iff_getElem?_eq_some
  obtain ⟨notify, s', hswept⟩ := swept_of_records (l := s.fCkTimeMap.toList) hw (fun p hp => by
    obtain ⟨t, n, hstored⟩ := hchecks p.1 p.2 (hmem.1 hp)
    exact ⟨⟨_, hstored.decodes.read⟩, hstored.decodes.kind⟩) now false
  refine ⟨notify, s', completes_sweep.2 ⟨hswept, rfl⟩, fun key check => ?_, fun k info hremoved hinfo => ?_,
    fun k hnot => ?_, ?_⟩
  · rw [hswept.checks_iff]
    refine and_congr_right fun hget => ?_
    obtain ⟨t, n, hstored⟩ := hchecks key check hget
    constructor
    · intro hnone
      refine ⟨t, n, hstored, not_lt.1 fun hnow => ?_⟩
      exact hnone (key, check) (hmem.2 hget) rfl ⟨n, (hstored.decodes.due now n).2 ⟨hnow, rfl⟩⟩
    · rintro ⟨t', n', hstored', hnow⟩ ⟨key', check'⟩ hp rfl ⟨k, hdue⟩
      -- a key has one check
      cases hget.symm.trans (hmem.1 hp)
      exact not_lt.2 hnow ((hstored'.decodes.due now k).1 hdue).1
  · obtain ⟨r, hr⟩ := hw k info hinfo
    obtain ⟨m, hparse, hset⟩ := setFiltering_of_record hr "isFilter"
    obtain ⟨change, hchange, hget⟩ := hswept.blamed ((removed_iff hchecks).1 hremoved) hinfo
    cases hset.symm.trans hchange
    exact ⟨m, hparse, hget⟩
  · by_cases hin : k ∈ s.hostList
    · have hquiet : ¬ Removed now s k := fun hremoved => hnot ⟨hremoved, hin⟩
      rw [removed_iff hchecks] at hquiet
      exact hswept.untouched fun p hp hdue => hquiet ⟨p, hp, hdue⟩
    · have hin' : k ∉ s'.hostList := fun h => hin ((hswept.frame.keys k).1 h)
      rw [StrMap.notMem_iff.1 hin, StrMap.notMem_iff.1 hin']
  · rw [hswept.notify_iff]
    simp only [removed_iff hchecks, Bool.false_eq_true, false_or]
    constructor
    · rintro ⟨p, hp, k, hdue⟩
      exact ⟨k, p, hp, hdue⟩
    · rintro ⟨k, p, hp, hdue⟩
      exact ⟨p, hp, k, hdue⟩

/-! Two checks about `n`, of which one has run out at 1025. -/

def sweptChecks : StrMap String :=
  ((∅ : StrMap String).insert "k" (keyStr 1000 ⟨"30.0.0.1", 5555⟩ "n")).insert "l" (keyStr 1020 ⟨"30.0.0.1", 5555⟩ "n")

def sweptServer : Server := { init checkServer with
  hostList := (∅ : StrMap String).insert "n" (sampleMapped ⟨"30.0.0.1", 5555⟩).dump, fCkTimeMap := sweptChecks }

theorem sweptChecks_stored {t : Int} (hpast : 0 ≤ t) (hfuture : t < 2 ^ 31) :
    Stored t "n" (keyStr t ⟨"30.0.0.1", 5555⟩ "n") := .intro ⟨30, 0, 0, 1⟩ 5555 hpast hfuture (by decide)

theorem getElem?_sweptChecks (h : sweptChecks[key]? = some check) :
    check = keyStr 1000 ⟨"30.0.0.1", 5555⟩ "n" ∨ check = keyStr 1020 ⟨"30.0.0.1", 5555⟩ "n" := by
  rw [sweptChecks] at h
  by_cases hl : key = "l"
  · rw [hl, StrMap.getElem?_insert_self] at h
    exact .inr (Option.some.inj h).symm
  · rw [StrMap.getElem?_insert_of_ne _ _ hl, Std.ExtTreeMap.getElem?_insert] at h
    split at h
    · exact .inl (Option.some.inj h).symm
    · simp at h

theorem sweep_cleans_expired : ∃ notify s',
    Completes (@sweep digitsBoost 1025 false sweptServer.fCkTimeMap.toList) sweptServer notify s' [] ∧ notify = true ∧
    "k" ∉ s'.fCkTimeMap ∧ "l" ∈ s'.fCkTimeMap := by
  let _ := digitsBoost
  have hw : WfTable sweptServer.hostList := WfTable.empty.insert ((textRecord_dump _).trans (record?_sampleMapped _)) _
  have hk : sweptServer.fCkTimeMap["k"]? = some (keyStr 1000 ⟨"30.0.0.1", 5555⟩ "n") := rfl
  have hl : sweptServer.fCkTimeMap["l"]? = some (keyStr 1020 ⟨"30.0.0.1", 5555⟩ "n") := rfl
  have hold := sweptChecks_stored (t := 1000) (by decide) (by decide)
  have hnew := sweptChecks_stored (t := 1020) (by decide) (by decide)
  obtain ⟨notify, s', hrun, h⟩ := sweep_cleans (s := sweptServer) 1025 hw fun key check hc => by
    rcases getElem?_sweptChecks hc with rfl | rfl
    · exact ⟨1000, "n", hold⟩
    · exact ⟨1020, "n", hnew⟩
  refine ⟨notify, s', hrun, h.notify.2 ⟨"n", "k", _, 1000, hk, hold, by decide⟩, fun hin => ?_, ?_⟩
  · obtain ⟨check, hcheck⟩ := StrMap.mem_iff.1 hin
    obtain ⟨hget, t, n, hstored, hnow⟩ := (h.checks "k" check).1 hcheck
    cases hk.symm.trans hget
    cases hold.decodes.read.symm.trans hstored.decodes.read
    exact absurd hnow (by decide)
  · exact StrMap.mem_iff.2 ⟨_, (h.checks "l" _).2 ⟨hl, 1020, "n", hnew, by decide⟩⟩

end NatServer

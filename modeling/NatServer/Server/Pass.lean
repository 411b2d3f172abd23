import NatServer.Server.Record
import Mathlib.Data.List.TakeWhile
/-!
# What a timer pass does

The loops of `threadhandle`, each said once: `Swept` for the pending checks,
`Evicted` for the silent nodes, `Ticked` for the tickers, and `Passed` for the
whole pass. A pass completes exactly as these relations say
(`completes_threadhandle`), and it always does where the table holds records
and the pending checks can be read (`passes_of_records`).
-/

namespace NatServer

open Effect Json

variable {cfg : Config} {now : Int} {s s' : Server} {o : List SendTo} {u : Unit}

@[simp] theorem completes_indexed_bind {α β : Type} {x : Option α} {f : α → Handler β} {b : β} :
    Completes (indexed x >>= f) s b s' o ↔ ∃ a, x = some a ∧ Completes (f a) s b s' o := completes_orFail_bind

/-! ## Pending checks -/

/-- A pending check as the sweep reads it: its time and the node it is about. -/
structure Check where
  timePoint : Int
  hostKey : String
  deriving DecidableEq, Repr

section
variable [Boost]

/-- `results[1]` and `results[4]` of the text of a check. -/
def readCheck (check : String) : Option Check := do
  let timePoint ← stoi (← (Boost.split check)[1]?)
  return ⟨timePoint, ← (Boost.split check)[4]?⟩

/-- What the loop over `fCkTimeMap` did. -/
inductive Swept (now : Int) : Server → Bool → List (String × String) → Bool → Server → Prop
  | nil {s b} : Swept now s b [] b s
  | due {s b key check rest b' s' c info change} (hcheck : readCheck check = some c) (hdue : now - c.timePoint > 20)
      (hfilter : (Boost.split check)[0]? = some "filtering") (hinfo : s.hostList[c.hostKey]? = some info)
      (hchange : setFiltering "isFilter" info = some change)
      (hrest : Swept now { s with
        hostList := s.hostList.insert c.hostKey change.dump, fCkTimeMap := s.fCkTimeMap.erase key } true rest b' s') :
      Swept now s b ((key, check) :: rest) b' s'
  | dueUnknown {s b key check rest b' s' c} (hcheck : readCheck check = some c) (hdue : now - c.timePoint > 20)
      (hfilter : (Boost.split check)[0]? = some "filtering") (hinfo : s.hostList[c.hostKey]? = none)
      (hrest : Swept now { s with fCkTimeMap := s.fCkTimeMap.erase key } true rest b' s') :
      Swept now s b ((key, check) :: rest) b' s'
  | young {s b key check rest b' s' c} (hcheck : readCheck check = some c) (hyoung : ¬ now - c.timePoint > 20)
      (hrest : Swept now s b rest b' s') : Swept now s b ((key, check) :: rest) b' s'

theorem readCheck_eq_some {check : String} {c : Check} : readCheck check = some c ↔
    ∃ text, (Boost.split check)[1]? = some text ∧ stoi text = some c.timePoint ∧ (Boost.split check)[4]? = some c.hostKey := by
  obtain ⟨t, k⟩ := c
  simp only [readCheck, Option.bind_eq_bind, Option.bind_eq_some_iff, Option.pure_def, Option.some.injEq, Check.mk.injEq]
  constructor
  · rintro ⟨text, h1, _, ht, _, h4, rfl, rfl⟩
    exact ⟨text, h1, ht, h4⟩
  · rintro ⟨text, h1, ht, h4⟩
    exact ⟨text, h1, t, ht, k, h4, rfl, rfl⟩

theorem completes_sweep {b b' : Bool} {l : List (String × String)} :
    Completes (sweep now b l) s b' s' o ↔ Swept now s b l b' s' ∧ o = [] := by
  induction l generalizing s b with
  | nil =>
    rw [sweep, completes_pure]
    constructor
    · rintro ⟨rfl, rfl, rfl⟩
      exact ⟨.nil, rfl⟩
    · rintro ⟨h, rfl⟩
      cases h
      exact ⟨rfl, rfl, rfl⟩
  | cons p l ih =>
    obtain ⟨key, check⟩ := p
    simp only [sweep, completes_indexed_bind, completes_throwing_bind]
    constructor
    · rintro ⟨text, h1, t, ht, k, h4, h⟩
      have hcheck : readCheck check = some ⟨t, k⟩ := readCheck_eq_some.2 ⟨text, h1, ht, h4⟩
      rcases completes_ite.1 h with ⟨hdue, h⟩ | ⟨hyoung, h⟩
      · rcases completes_ite.1 h with ⟨hfilter, h⟩ | ⟨-, h⟩
        · rw [completes_readState_bind] at h
          rcases hinfo : s.hostList[k]? with _ | info <;> simp only [hinfo] at h
          · rw [completes_modifyState_bind] at h
            exact ⟨.dueUnknown hcheck hdue hfilter hinfo (ih.1 h).1, (ih.1 h).2⟩
          · simp only [completes_throwing_bind, completes_setNode_bind, completes_modifyState_bind] at h
            obtain ⟨change, hchange, h⟩ := h
            exact ⟨.due hcheck hdue hfilter hinfo hchange (ih.1 h).1, (ih.1 h).2⟩
        · exact absurd h completes_fail
      · exact ⟨.young hcheck hyoung (ih.1 h).1, (ih.1 h).2⟩
    · rintro ⟨h, rfl⟩
      cases h with
      | due hcheck hdue hfilter hinfo hchange hrest =>
        obtain ⟨text, h1, ht, h4⟩ := readCheck_eq_some.1 hcheck
        refine ⟨text, h1, _, ht, _, h4, ?_⟩
        rw [if_pos hdue, if_pos hfilter, completes_readState_bind]
        simp only [hinfo, hchange, completes_throwing_bind, Option.some.injEq, exists_eq_left', completes_setNode_bind,
          completes_modifyState_bind]
        exact ih.2 ⟨hrest, rfl⟩
      | dueUnknown hcheck hdue hfilter hinfo hrest =>
        obtain ⟨text, h1, ht, h4⟩ := readCheck_eq_some.1 hcheck
        refine ⟨text, h1, _, ht, _, h4, ?_⟩
        rw [if_pos hdue, if_pos hfilter, completes_readState_bind]
        simp only [hinfo, completes_modifyState_bind]
        exact ih.2 ⟨hrest, rfl⟩
      | young hcheck hyoung hrest =>
        obtain ⟨text, h1, ht, h4⟩ := readCheck_eq_some.1 hcheck
        refine ⟨text, h1, _, ht, _, h4, ?_⟩
        rw [if_neg hyoung]
        exact ih.2 ⟨hrest, rfl⟩

end

/-! The text a detect stores is read back, if its time is an `int`. -/

theorem isSpace_of_isDigit {c : Char} (h : c.isDigit = true) : isSpace c = false := by
  have hd : 48 ≤ c.toNat := (Char.isDigit_iff_toNat.1 h).1
  have hle : ¬ c ≤ '\r' := fun hc => by
    have : c.toNat ≤ 13 := Char.le_def.1 hc
    omega
  have hne : c ≠ ' ' := isDigit_ne h rfl
  simp [isSpace, hle, hne]

/-- The time fits an `int`. -/
def IsInt (t : Int) : Prop := -(2 ^ 31) ≤ t ∧ t < 2 ^ 31

theorem sign_of_isDigit {c : Char} {cs : List Char} (h : c.isDigit = true) : sign (c :: cs) = (false, c :: cs) := by
  unfold sign
  split
  · next e => cases e; cases h
  · next e => cases e; cases h
  · rfl

instance (t : Int) : Decidable (IsInt t) := inferInstanceAs (Decidable (_ ∧ _))

theorem stoi_toString (t : Int) : stoi (toString t) = if IsInt t then some t else none := by
  have hdigit (n : Nat) : ∀ c ∈ Nat.toDigits 10 n, c.isDigit = true := fun c hc =>
    Nat.isDigit_of_mem_toDigits (by decide) (by decide) hc
  have htake (n : Nat) : (Nat.toDigits 10 n).takeWhile Char.isDigit = Nat.toDigits 10 n :=
    List.takeWhile_eq_self_iff.2 (hdigit n)
  have hvalue (n : Nat) : ofDigits (Nat.toDigits 10 n) = n := by simp [ofDigits]
  have hne (n : Nat) : Nat.toDigits 10 n ≠ [] := Nat.toDigits_ne_nil
  rw [Int.toString_eq_repr, Int.repr_eq_if, stoi]
  by_cases ht : 0 ≤ t
  · obtain ⟨c, cs, hc⟩ := List.exists_cons_of_ne_nil (hne t.toNat)
    have hcd : c.isDigit = true := hdigit t.toNat c (by simp [hc])
    rw [if_pos ht, Nat.repr_eq_ofList_toDigits, String.toList_ofList, hc,
      List.dropWhile_cons_of_neg (by simp [isSpace_of_isDigit hcd]), sign_of_isDigit hcd, ← hc]
    simp only [htake, hvalue, hne, Int.toNat_of_nonneg ht, Bool.false_eq_true, if_false, ne_eq, not_false_eq_true,
      true_and]
    rfl
  · have hneg : -((-t).toNat : Int) = t := by omega
    have hchars : ("-" ++ (-t).toNat.repr).toList = '-' :: Nat.toDigits 10 (-t).toNat := by
      simp [Nat.repr_eq_ofList_toDigits]
    rw [if_neg ht, hchars, List.dropWhile_cons_of_neg (by decide), sign]
    simp only [htake, hvalue, hne, hneg, if_true, ne_eq, not_false_eq_true, true_and]
    rfl

theorem underscore_notMem_toString (t : Int) : '_' ∉ (toString t).toList := by
  have hdigit (n : Nat) : '_' ∉ Nat.toDigits 10 n := fun hc =>
    absurd (Nat.isDigit_of_mem_toDigits (by decide) (by decide) hc) (by decide)
  rw [Int.toString_eq_repr, Int.repr_eq_if]
  split <;> simp [Nat.repr_eq_ofList_toDigits, hdigit]

section
variable [Boost]

/-- The pieces of a check: five or more, the second the time. -/
theorem split_keyStr (t : Int) (e : Endpoint) (n : String) :
    ∃ ip port id rest, Boost.split (keyStr t e n) = "filtering" :: toString t :: ip :: port :: id :: rest := by
  have hchars : (keyStr t e n).toList = "filtering".toList ++ '_' :: ((toString t).toList ++ '_' ::
      (e.ip.toList ++ '_' :: ((portText e.port).toList ++ '_' :: n.toList))) := by
    simp [keyStr]
  obtain ⟨a, as, ha⟩ := List.exists_cons_of_ne_nil (List.splitOn_ne_nil '_' e.ip.toList)
  obtain ⟨b, bs, hb⟩ := List.exists_cons_of_ne_nil (List.splitOn_ne_nil '_' (portText e.port).toList)
  obtain ⟨c, cs, hc⟩ := List.exists_cons_of_ne_nil (List.splitOn_ne_nil '_' n.toList)
  rw [Boost.split_eq, hchars, List.splitOn_append_cons_self_of_not_mem (by decide),
    List.splitOn_append_cons_self_of_not_mem (underscore_notMem_toString t), List.splitOn_append_cons_self,
    List.splitOn_append_cons_self, ha, hb, hc]
  rcases as with _ | ⟨a₁, _ | ⟨a₂, as⟩⟩ <;> rcases bs with _ | ⟨b₁, bs⟩ <;>
  · simp only [List.map_cons, String.ofList_toList, List.cons_append, List.nil_append]
    exact ⟨_, _, _, _, rfl⟩

/-- The node that is blamed where the check gets no answer. -/
theorem readCheck_keyStr {t : Int} (h : IsInt t) (e : Endpoint) (n : String) :
    ∃ k, readCheck (keyStr t e n) = some ⟨t, k⟩ := by
  obtain ⟨ip, port, id, rest, hsplit⟩ := split_keyStr t e n
  exact ⟨id, readCheck_eq_some.2 ⟨_, by simp [hsplit], (stoi_toString t).trans (if_pos h), by simp [hsplit]⟩⟩

theorem split_keyStr_zero (t : Int) (e : Endpoint) (n : String) : (Boost.split (keyStr t e n))[0]? = some "filtering" := by
  obtain ⟨ip, port, id, rest, hsplit⟩ := split_keyStr t e n
  simp [hsplit]

end

/-! ## Eviction -/

/-- The first endpoint of the record a text is. -/
def textEndpoint (info : String) : Option Endpoint := (parse info).bind firstEndpoint

/-- The text's first endpoint is the silent one. -/
def isSilent (silent info : String) : Bool := (textEndpoint info).map tickerKey = some silent

theorem textEndpoint_eq_some {info : String} {e : Endpoint} : textEndpoint info = some e ↔
    ∃ j, parse info = some j ∧ epIp j = some e.ip ∧ epPort j = some e.port := by
  obtain ⟨ip, port⟩ := e
  simp only [textEndpoint, Option.bind_eq_some_iff, firstEndpoint_eq_some, Endpoint.mk.injEq]
  grind

theorem textEndpoint_dump (j : Json) : textEndpoint j.dump = firstEndpoint j := by
  rw [textEndpoint, parse_dump, Option.bind_some]

/-- The entry of `n` has `e` for its first endpoint. -/
def HasEndpoint (table : StrMap String) (n : String) (e : Endpoint) : Prop := table[n]?.bind textEndpoint = some e

theorem HasEndpoint.mem {table : StrMap String} {n : String} {e : Endpoint} (h : HasEndpoint table n e) : n ∈ table := by
  obtain ⟨info, hinfo, -⟩ := Option.bind_eq_some_iff.1 h
  exact StrMap.mem_iff.2 ⟨_, hinfo⟩

theorem hasEndpoint_insert {table : StrMap String} {n : String} {j : Json} {e : Endpoint} :
    HasEndpoint (table.insert n j.dump) n e ↔ firstEndpoint j = some e := by
  rw [HasEndpoint, StrMap.getElem?_insert_self, Option.bind_some, textEndpoint_dump]

theorem completes_evictEndpoint {silent : String} {l : List (String × String)} :
    Completes (evictEndpoint silent l) s u s' o ↔
      (∀ p ∈ l, (textEndpoint p.2).isSome) ∧ o = [] ∧
        s' = { s with hostList := (l.filter fun p => isSilent silent p.2).foldl (fun m p => m.erase p.1) s.hostList } := by
  induction l generalizing s with
  | nil =>
    rw [evictEndpoint, completes_pure]
    constructor
    · rintro ⟨-, rfl, rfl⟩
      exact ⟨nofun, rfl, rfl⟩
    · rintro ⟨-, rfl, rfl⟩
      exact ⟨rfl, rfl, rfl⟩
  | cons p l ih =>
    obtain ⟨id, info⟩ := p
    simp only [evictEndpoint, completes_throwing_bind, List.forall_mem_cons]
    constructor
    · rintro ⟨j, hj, ip, hip, port, hport, h⟩
      have he : textEndpoint info = some ⟨ip, port⟩ := textEndpoint_eq_some.2 ⟨j, hj, hip, hport⟩
      rcases completes_ite.1 h with ⟨hs, h⟩ | ⟨hs, h⟩
      · obtain ⟨hl, ho, rfl⟩ := ih.1 (completes_modifyState_bind.1 h)
        exact ⟨⟨by simp [he], hl⟩, ho, by simp [isSilent, he, hs]⟩
      · obtain ⟨hl, ho, rfl⟩ := ih.1 h
        exact ⟨⟨by simp [he], hl⟩, ho, by simp [isSilent, he, hs]⟩
    · rintro ⟨⟨he, hl⟩, ho, rfl⟩
      obtain ⟨⟨ip, port⟩, he⟩ := Option.isSome_iff_exists.1 he
      obtain ⟨j, hj, hip, hport⟩ := textEndpoint_eq_some.1 he
      refine ⟨j, hj, ip, hip, port, hport, completes_ite.2 ?_⟩
      by_cases hs : tickerKey ⟨ip, port⟩ = silent
      · exact .inl ⟨hs, completes_modifyState_bind.2 (ih.2 ⟨hl, ho, by simp [isSilent, he, hs]⟩)⟩
      · exact .inr ⟨hs, ih.2 ⟨hl, ho, by simp [isSilent, he, hs]⟩⟩

/-- The table without the entries that have the silent endpoint. -/
def survivors (silent : String) (table : StrMap String) : StrMap String :=
  table.filter fun _ info => !isSilent silent info

theorem getElem?_survivors (silent : String) (table : StrMap String) (k : String) :
    (survivors silent table)[k]? = table[k]?.filter fun info => !isSilent silent info := by
  rw [survivors, Std.ExtTreeMap.getElem?_filter']

theorem getElem?_eraseAll {β γ : Type} (l : List (String × γ)) (m : StrMap β) (k : String) :
    (l.foldl (fun m p => m.erase p.1) m)[k]? = if k ∈ l.map Prod.fst then none else m[k]? := by
  induction l generalizing m with
  | nil => simp
  | cons p l ih =>
    rw [List.foldl_cons, ih, StrMap.getElem?_erase]
    by_cases hl : k ∈ l.map Prod.fst <;> by_cases hp : k = p.1 <;> simp_all

/-- Erasing each entry with the silent endpoint leaves the survivors. -/
theorem eraseSilent (silent : String) (table : StrMap String) :
    (table.toList.filter fun p => isSilent silent p.2).foldl (fun m p => m.erase p.1) table = survivors silent table := by
  refine Std.ExtTreeMap.ext_getElem? fun k => ?_
  rw [getElem?_eraseAll, getElem?_survivors]
  rcases hk : table[k]? with _ | info
  · simp
  · have hmem : k ∈ (table.toList.filter fun p => isSilent silent p.2).map Prod.fst ↔ isSilent silent info = true := by
      simp [Std.ExtTreeMap.mem_toList_iff_getElem?_eq_some, hk]
    simp [hmem, Option.filter, apply_ite, ← Bool.not_eq_true]

/-- What the loop over `tickerNum` did. -/
inductive Evicted : Server → Bool → List (String × UInt16) → Bool → Server → Prop
  | nil {s b} : Evicted s b [] b s
  | silent {s b key num rest b' s'} (hnum : num ≥ packageNum)
      (hread : ∀ p ∈ s.hostList.toList, (textEndpoint p.2).isSome)
      (hrest : Evicted { s with hostList := survivors key s.hostList, tickerNum := s.tickerNum.erase key } true rest
        b' s') : Evicted s b ((key, num) :: rest) b' s'
  | heard {s b key num rest b' s'} (hnum : ¬ num ≥ packageNum) (hrest : Evicted s b rest b' s') :
      Evicted s b ((key, num) :: rest) b' s'

theorem completes_evict {b b' : Bool} {l : List (String × UInt16)} :
    Completes (evict b l) s b' s' o ↔ Evicted s b l b' s' ∧ o = [] := by
  induction l generalizing s b with
  | nil =>
    rw [evict, completes_pure]
    constructor
    · rintro ⟨rfl, rfl, rfl⟩
      exact ⟨.nil, rfl⟩
    · rintro ⟨h, rfl⟩
      cases h
      exact ⟨rfl, rfl, rfl⟩
  | cons p l ih =>
    obtain ⟨key, num⟩ := p
    rw [evict, completes_ite, completes_readState_bind, completes_bind]
    constructor
    · rintro (⟨hnum, _, s₁, o₁, o₂, h₁, h₂, rfl⟩ | ⟨hnum, h⟩)
      · obtain ⟨hread, rfl, rfl⟩ := completes_evictEndpoint.1 h₁
        obtain ⟨hrest, rfl⟩ := ih.1 (completes_modifyState_bind.1 h₂)
        exact ⟨.silent hnum hread (by simpa only [eraseSilent] using hrest), rfl⟩
      · exact ⟨.heard hnum (ih.1 h).1, (ih.1 h).2⟩
    · rintro ⟨h, rfl⟩
      cases h with
      | silent hnum hread hrest =>
        refine .inl ⟨hnum, (), _, [], [], completes_evictEndpoint.2 ⟨hread, rfl, rfl⟩,
          completes_modifyState_bind.2 (ih.2 ⟨?_, rfl⟩), rfl⟩
        simpa only [eraseSilent] using hrest
      | heard hnum hrest => exact .inr ⟨hnum, ih.2 ⟨hrest, rfl⟩⟩

/-! ## Tickers -/

/-- The endpoints the tickers of a pass go to. -/
def tickerTargets (cfg : Config) : List (String × String) → Option (List Endpoint)
  | [] => some []
  | (id, info) :: rest => do
    let e ← textEndpoint info
    let es ← tickerTargets cfg rest
    return if cfg.nodeID = id then es else e :: es

/-- The counters after a ticker to each of the endpoints. -/
def countTickers (es : List Endpoint) (tickerNum : StrMap UInt16) : StrMap UInt16 :=
  es.foldl (fun num e => countTicker (tickerKey e) num) tickerNum

theorem completes_tickAll {l : List (String × String)} :
    Completes (tickAll cfg l) s u s' o ↔
      ∃ es, tickerTargets cfg l = some es ∧ s' = { s with tickerNum := countTickers es s.tickerNum } ∧
        o = es.map fun e => ⟨e, (tickerMsg cfg s.localEpInfo).dump⟩ := by
  induction l generalizing s s' o with
  | nil =>
    simp only [tickAll, completes_pure, tickerTargets, Option.some.injEq, exists_eq_left', countTickers,
      List.foldl_nil, List.map_nil, true_and, @eq_comm _ s s']
  | cons p l ih =>
    obtain ⟨id, info⟩ := p
    simp only [tickAll, completes_throwing_bind, tickerTargets, Option.bind_eq_bind, Option.bind_eq_some_iff,
      Option.pure_def, Option.some.injEq]
    constructor
    · rintro ⟨j, hj, ip, hip, port, hport, h⟩
      have he : textEndpoint info = some ⟨ip, port⟩ := textEndpoint_eq_some.2 ⟨j, hj, hip, hport⟩
      rcases completes_ite.1 h with ⟨hid, h⟩ | ⟨hid, h⟩
      · obtain ⟨es, hes, rfl, rfl⟩ := ih.1 h
        exact ⟨es, ⟨_, he, es, hes, if_pos hid⟩, rfl, rfl⟩
      · simp only [completes_readState_bind, completes_sendTo_bind, completes_modifyState_bind] at h
        obtain ⟨o', hrest, rfl⟩ := h
        obtain ⟨es, hes, rfl, rfl⟩ := ih.1 hrest
        exact ⟨_, ⟨_, he, es, hes, if_neg hid⟩, rfl, rfl⟩
    · rintro ⟨_, ⟨⟨ip, port⟩, he, es, hes, rfl⟩, rfl, rfl⟩
      obtain ⟨j, hj, hip, hport⟩ := textEndpoint_eq_some.1 he
      refine ⟨j, hj, ip, hip, port, hport, completes_ite.2 ?_⟩
      by_cases hid : cfg.nodeID = id
      · rw [if_pos hid]
        exact .inl ⟨hid, ih.2 ⟨es, hes, rfl, rfl⟩⟩
      · rw [if_neg hid]
        refine .inr ⟨hid, ?_⟩
        simp only [completes_readState_bind, completes_sendTo_bind, completes_modifyState_bind]
        exact ⟨_, ih.2 ⟨es, hes, rfl, rfl⟩, rfl⟩

/-! ## The end of the pass -/

/-- `_count` before its test. -/
def alone (s : Server) : Nat := if s.hostList.size ≤ 1 then s.count + 1 else s.count

theorem completes_listMsgQueue : Completes (listMsgQueue cfg) s u s' o ↔
    (alone s ≥ 10 ∧ s' = { s with count := 0 } ∧
      o = [⟨cfg.fromCli, (detectMsg cfg (portText cfg.localPort)).dump⟩]) ∨
    (¬ alone s ≥ 10 ∧ s' = { s with count := alone s } ∧ o = []) := by
  have hend (s : Server) : Completes (if s.count ≥ 10 then do
        sendTo cfg.fromCli.ip cfg.fromCli.port (detectMsg cfg (portText cfg.localPort))
        modifyState fun s => { s with count := 0 }
      else pure ()) s u s' o ↔
      (s.count ≥ 10 ∧ s' = { s with count := 0 } ∧
        o = [⟨cfg.fromCli, (detectMsg cfg (portText cfg.localPort)).dump⟩]) ∨
      (¬ s.count ≥ 10 ∧ s' = s ∧ o = []) := by
    simp [@eq_comm _ s s', and_comm]
  rw [listMsgQueue, completes_readState_bind]
  by_cases hsize : s.hostList.size ≤ 1
  · rw [if_pos hsize, completes_modifyState_bind, completes_readState_bind, alone, if_pos hsize]
    exact hend _
  · rw [if_neg hsize, completes_readState_bind, alone, if_neg hsize]
    exact hend _

section
variable [Boost]

/-- What a pass did: the table and the checks after the sweep and the table
after the evictions are those the notification is sent from. -/
inductive Passed (cfg : Config) (now : Int) (s : Server) : Server → List SendTo → Prop
  | intro {s₁ s₂ s' b₁ b₂ es o₁ o₂} (hsweep : Swept now s false s.fCkTimeMap.toList b₁ s₁)
      (hevict : Evicted s₁ b₁ s₁.tickerNum.toList b₂ s₂) (hticker : tickerTargets cfg s₂.hostList.toList = some es)
      (hnotify : if b₂ then routeUpdate cfg s₂.hostList = some o₁ else o₁ = [])
      (hlist : Completes (listMsgQueue cfg) { s₂ with tickerNum := countTickers es s₂.tickerNum } () s' o₂) :
      Passed cfg now s s' ((es.map fun e => ⟨e, (tickerMsg cfg s₂.localEpInfo).dump⟩) ++ o₁ ++ o₂)

theorem completes_threadhandle : Completes (threadhandle cfg now) s u s' o ↔ Passed cfg now s s' o := by
  rw [threadhandle, completes_readState_bind]
  constructor
  · intro h
    obtain ⟨b₁, s₁, _, _, h₁, h₁', rfl⟩ := completes_bind.1 h
    obtain ⟨hsweep, rfl⟩ := completes_sweep.1 h₁
    obtain ⟨b₂, s₂, _, _, h₂, h₂', rfl⟩ := completes_bind.1 (completes_readState_bind.1 h₁')
    obtain ⟨hevict, rfl⟩ := completes_evict.1 h₂
    obtain ⟨_, s₃, _, _, h₃, h₃', rfl⟩ := completes_bind.1 (completes_readState_bind.1 h₂')
    obtain ⟨es, hes, rfl, rfl⟩ := completes_tickAll.1 h₃
    rcases completes_ite.1 h₃' with ⟨hb, h₄⟩ | ⟨hb, h₄⟩
    · obtain ⟨_, s₄, o₁, o₂, hroute, hlist, rfl⟩ := completes_bind.1 h₄
      obtain ⟨hroute, rfl⟩ := completes_updateRouteInfo.1 hroute
      simpa using Passed.intro hsweep hevict hes (by rwa [if_pos hb]) hlist
    · rw [← List.append_nil (List.map ..)]
      exact .intro hsweep hevict hes (by rw [if_neg hb]) h₄
  · rintro @⟨s₁, s₂, _, b₁, b₂, es, o₁, o₂, hsweep, hevict, hticker, hnotify, hlist⟩
    refine completes_bind.2 ⟨b₁, s₁, [], _, completes_sweep.2 ⟨hsweep, rfl⟩, completes_readState_bind.2 ?_, rfl⟩
    refine completes_bind.2 ⟨b₂, s₂, [], _, completes_evict.2 ⟨hevict, rfl⟩, completes_readState_bind.2 ?_, rfl⟩
    refine completes_bind.2 ⟨(), _, _, _, completes_tickAll.2 ⟨es, hticker, rfl, rfl⟩, ?_, List.append_assoc ..⟩
    cases b₂
    · obtain rfl : o₁ = [] := hnotify
      exact hlist
    · exact completes_bind.2 ⟨(), _, _, _, completes_updateRouteInfo.2 ⟨hnotify, rfl⟩, hlist, rfl⟩

end

/-! ## What the loops leave alone -/

/-- The sweep touches the table and the pending checks only. -/
structure SweptFrame (s s' : Server) : Prop where
  tickerNum : s'.tickerNum = s.tickerNum
  localEpInfo : s'.localEpInfo = s.localEpInfo
  count : s'.count = s.count
  receiving : s'.receiving = s.receiving
  recvBuffer : s'.recvBuffer = s.recvBuffer
  keys : ∀ k, k ∈ s'.hostList ↔ k ∈ s.hostList
  checks : ∀ (key check : String), s'.fCkTimeMap[key]? = some check → s.fCkTimeMap[key]? = some check

theorem SweptFrame.refl (s : Server) : SweptFrame s s := ⟨rfl, rfl, rfl, rfl, rfl, fun _ => .rfl, fun _ _ h => h⟩

theorem SweptFrame.trans {s₁ s₂ s₃ : Server} (h : SweptFrame s₁ s₂) (h' : SweptFrame s₂ s₃) : SweptFrame s₁ s₃ where
  tickerNum := h'.tickerNum.trans h.tickerNum
  localEpInfo := h'.localEpInfo.trans h.localEpInfo
  count := h'.count.trans h.count
  receiving := h'.receiving.trans h.receiving
  recvBuffer := h'.recvBuffer.trans h.recvBuffer
  keys k := (h'.keys k).trans (h.keys k)
  checks key check hc := h.checks key check (h'.checks key check hc)

theorem getElem?_of_erase {m : StrMap String} {key key' check : String} (h : (m.erase key)[key']? = some check) :
    m[key']? = some check := by
  rw [StrMap.getElem?_erase] at h
  split at h
  · cases h
  · exact h

theorem Swept.frame [Boost] {b b' : Bool} {l : List (String × String)} (h : Swept now s b l b' s') : SweptFrame s s' := by
  induction h with
  | nil => exact .refl _
  | @due s b key check rest b' s' c info change hcheck hdue hfilter hinfo hchange hrest ih =>
    have hmem : c.hostKey ∈ s.hostList := StrMap.mem_iff.2 ⟨_, hinfo⟩
    refine .trans ?_ ih
    exact ⟨rfl, rfl, rfl, rfl, rfl, by simp; grind, fun _ _ => getElem?_of_erase⟩
  | dueUnknown hcheck hdue hfilter hinfo hrest ih =>
    refine .trans ?_ ih
    exact ⟨rfl, rfl, rfl, rfl, rfl, fun _ => .rfl, fun _ _ => getElem?_of_erase⟩
  | young hcheck hyoung hrest ih => exact ih

/-- The evictions touch the table and the counters only, and take entries away. -/
structure EvictedFrame (s s' : Server) : Prop where
  fCkTimeMap : s'.fCkTimeMap = s.fCkTimeMap
  localEpInfo : s'.localEpInfo = s.localEpInfo
  count : s'.count = s.count
  receiving : s'.receiving = s.receiving
  recvBuffer : s'.recvBuffer = s.recvBuffer
  entries : ∀ (k info : String), s'.hostList[k]? = some info → s.hostList[k]? = some info
  counters : ∀ (key : String) num, s'.tickerNum[key]? = some num → s.tickerNum[key]? = some num

theorem EvictedFrame.refl (s : Server) : EvictedFrame s s :=
  ⟨rfl, rfl, rfl, rfl, rfl, fun _ _ h => h, fun _ _ h => h⟩

theorem EvictedFrame.trans {s₁ s₂ s₃ : Server} (h : EvictedFrame s₁ s₂) (h' : EvictedFrame s₂ s₃) :
    EvictedFrame s₁ s₃ where
  fCkTimeMap := h'.fCkTimeMap.trans h.fCkTimeMap
  localEpInfo := h'.localEpInfo.trans h.localEpInfo
  count := h'.count.trans h.count
  receiving := h'.receiving.trans h.receiving
  recvBuffer := h'.recvBuffer.trans h.recvBuffer
  entries k info hk := h.entries k info (h'.entries k info hk)
  counters key num hk := h.counters key num (h'.counters key num hk)

theorem Evicted.frame {b b' : Bool} {l : List (String × UInt16)} (h : Evicted s b l b' s') : EvictedFrame s s' := by
  induction h with
  | nil => exact .refl _
  | silent hnum hread hrest ih =>
    refine .trans ?_ ih
    refine ⟨rfl, rfl, rfl, rfl, rfl, fun k info hk => ?_, fun key' num hk => ?_⟩
    · rw [getElem?_survivors] at hk
      exact (Option.filter_eq_some_iff.1 hk).1
    · rw [StrMap.getElem?_erase] at hk
      split at hk
      · cases hk
      · exact hk
  | heard hnum hrest ih => exact ih

theorem Passed.localEpInfo [Boost] (h : Passed cfg now s s' o) : s'.localEpInfo = s.localEpInfo := by
  obtain ⟨hsweep, hevict, -, -, hlist⟩ := h
  rw [← hsweep.frame.localEpInfo, ← hevict.frame.localEpInfo]
  rcases completes_listMsgQueue.1 hlist with ⟨-, rfl, -⟩ | ⟨-, rfl, -⟩ <;> rfl

theorem Passed.receiving [Boost] (h : Passed cfg now s s' o) : s'.receiving = s.receiving := by
  obtain ⟨hsweep, hevict, -, -, hlist⟩ := h
  rw [← hsweep.frame.receiving, ← hevict.frame.receiving]
  rcases completes_listMsgQueue.1 hlist with ⟨-, rfl, -⟩ | ⟨-, rfl, -⟩ <;> rfl

/-- A pass adds no pending check. -/
theorem Passed.checks [Boost] (h : Passed cfg now s s' o) {key check : String}
    (hc : s'.fCkTimeMap[key]? = some check) : s.fCkTimeMap[key]? = some check := by
  obtain ⟨hsweep, hevict, -, -, hlist⟩ := h
  refine hsweep.frame.checks key check ?_
  rw [← hevict.frame.fCkTimeMap]
  rcases completes_listMsgQueue.1 hlist with ⟨-, rfl, -⟩ | ⟨-, rfl, -⟩ <;> exact hc

/-! ## What a pass makes of one entry -/

/-- A verdict leaves the endpoint as it was. -/
theorem setFiltering_endpoint {verdict info : String} {change : Json} (h : setFiltering verdict info = some change) :
    textEndpoint change.dump = textEndpoint info := by
  obtain ⟨j, hj, hset⟩ := Option.bind_eq_some_iff.1 h
  have hsub : change.sub "endpoint" = j.sub "endpoint" := by rw [sub_set hset, if_neg (by decide)]
  rw [textEndpoint, textEndpoint, parse_dump, hj, Option.bind_some, Option.bind_some, firstEndpoint, firstEndpoint,
    epIp, epIp, epPort, epPort, endpoint0, endpoint0, endpoint0, endpoint0, hsub]

/-- The sweep moves no node. -/
theorem Swept.endpoint [Boost] {b b' : Bool} {l : List (String × String)} (h : Swept now s b l b' s') (k : String) :
    (s'.hostList[k]?).bind textEndpoint = (s.hostList[k]?).bind textEndpoint := by
  induction h with
  | nil => rfl
  | @due s b key check rest b' s' c info change hcheck hdue hfilter hinfo hchange hrest ih =>
    rw [ih]
    by_cases hk : k = c.hostKey
    · subst hk
      rw [StrMap.getElem?_insert_self, hinfo, Option.bind_some, Option.bind_some, setFiltering_endpoint hchange]
    · rw [StrMap.getElem?_insert_of_ne _ _ hk]
  | dueUnknown hcheck hdue hfilter hinfo hrest ih => exact ih
  | young hcheck hyoung hrest ih => exact ih

/-- An entry stays exactly where none of the counters that ran out is of its
endpoint. -/
theorem Evicted.mem_iff {b b' : Bool} {l : List (String × UInt16)} (h : Evicted s b l b' s') {k info : String}
    (hk : s.hostList[k]? = some info) :
    k ∈ s'.hostList ↔ ∀ p ∈ l, p.2 ≥ packageNum → isSilent p.1 info = false := by
  induction h with
  | @nil s b =>
    have hin : k ∈ s.hostList := StrMap.mem_iff.2 ⟨_, hk⟩
    exact ⟨fun _ p hp => absurd hp List.not_mem_nil, fun _ => hin⟩
  | @silent s b key num rest b' s' hnum hread hrest ih =>
    rw [List.forall_mem_cons]
    by_cases hs : isSilent key info = true
    · -- gone, and nothing adds it again
      have hgone : (survivors key s.hostList)[k]? = none := by
        rw [getElem?_survivors, hk]
        simp [Option.filter, hs]
      constructor
      · intro hin
        obtain ⟨info', hinfo'⟩ := StrMap.mem_iff.1 hin
        have hold := hrest.frame.entries k info' hinfo'
        dsimp only at hold
        rw [hgone] at hold
        cases hold
      · rintro ⟨hnot, -⟩
        rw [hnot hnum] at hs
        cases hs
    · have hs : isSilent key info = false := by simpa using hs
      have hstay : (survivors key s.hostList)[k]? = some info := by
        rw [getElem?_survivors, hk]
        simp [Option.filter, hs]
      rw [ih hstay]
      exact ⟨fun hrest => ⟨fun _ => hs, hrest⟩, fun hall => hall.2⟩
  | heard hnum hrest ih =>
    rw [List.forall_mem_cons, ih hk]
    exact ⟨fun hall => ⟨fun hn => absurd hn hnum, hall⟩, fun hall => hall.2⟩

theorem listMsgQueue_hostList (h : Completes (listMsgQueue cfg) s u s' o) : s'.hostList = s.hostList := by
  rcases completes_listMsgQueue.1 h with ⟨-, rfl, -⟩ | ⟨-, rfl, -⟩ <;> rfl

/-- What is in the table after a pass was there before, at the same endpoint. -/
theorem Passed.endpoint [Boost] (h : Passed cfg now s s' o) {k : String} (hk : k ∈ s'.hostList) :
    k ∈ s.hostList ∧ (s'.hostList[k]?).bind textEndpoint = (s.hostList[k]?).bind textEndpoint := by
  obtain ⟨hsweep, hevict, -, -, hlist⟩ := h
  have hhost := listMsgQueue_hostList hlist
  rw [hhost] at hk ⊢
  obtain ⟨info, hinfo⟩ := StrMap.mem_iff.1 hk
  have hold := hevict.frame.entries k info hinfo
  dsimp only at hinfo ⊢
  refine ⟨(hsweep.frame.keys k).1 (StrMap.mem_iff.2 ⟨_, hold⟩), ?_⟩
  rw [← hsweep.endpoint, hinfo, hold]

/-- A pass keeps an entry exactly where no counter of its endpoint has run out. -/
theorem Passed.mem_iff [Boost] (h : Passed cfg now s s' o) {k : String} (hk : k ∈ s.hostList) :
    k ∈ s'.hostList ↔ ∀ e num, (s.hostList[k]?).bind textEndpoint = some e → s.tickerNum[tickerKey e]? = some num →
      num < packageNum := by
  obtain @⟨s₁, s₂, _, b₁, b₂, es, _, _, hsweep, hevict, -, -, hlist⟩ := h
  have hin : k ∈ s₁.hostList := (hsweep.frame.keys k).2 hk
  obtain ⟨info, hinfo⟩ := StrMap.mem_iff.1 hin
  have hend : (s.hostList[k]?).bind textEndpoint = textEndpoint info := by
    rw [← hsweep.endpoint, hinfo, Option.bind_some]
  have hhost := listMsgQueue_hostList hlist
  rw [hhost, hevict.mem_iff hinfo, hend, hsweep.frame.tickerNum]
  constructor
  · intro hall e num he hnum
    by_contra hout
    have hkeep := hall (tickerKey e, num) (Std.ExtTreeMap.mem_toList_iff_getElem?_eq_some.2 hnum) (UInt16.not_lt.1 hout)
    simp [isSilent, he] at hkeep
  · intro hall p hp hout
    by_contra hsilent
    have hmatch : (textEndpoint info).map tickerKey = some p.1 := by simpa [isSilent] using hsilent
    obtain ⟨e, he, hkey⟩ := Option.map_eq_some_iff.1 hmatch
    have hnum : s.tickerNum[tickerKey e]? = some p.2 := by
      rw [hkey]
      exact Std.ExtTreeMap.mem_toList_iff_getElem?_eq_some.1 hp
    exact UInt16.not_lt.2 hout (hall e p.2 he hnum)

end NatServer

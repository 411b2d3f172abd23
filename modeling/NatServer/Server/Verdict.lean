import NatServer.Server.Observed
/-!
# Verdicts on filtering

What a server knows of a node's filtering stands in its entry for the node,
and in the record that the node has of itself. Neither carries a version: a
ticker and an openconnect overwrite the entry with what the node says of
itself, an update overwrites the record with what another node says of it.
-/

namespace NatServer

open Effect Json

/-- What a record says of the filtering of its node. -/
def filtering (j : Json) : Option String := (j.sub "natfiltering").bind getString

/-- A record that a server keeps: the one in its table under an id, or the one
it has of itself. -/
inductive Copy where
  | entry (n : String)
  | own
  deriving DecidableEq, Repr

/-- The verdict in a copy. -/
def Copy.verdict (s : Server) : Copy → Option String
  | .entry n => (s.hostList[n]?.bind parse).bind filtering
  | .own => filtering s.localEpInfo

/-- The server keeps the copy. -/
def Copy.In (s : Server) : Copy → Prop
  | .entry n => n ∈ s.hostList
  | .own => True

/-- The copy has a verdict. -/
def Copy.Decided (s : Server) (c : Copy) : Prop :=
  c.verdict s = some "Nonfilter" ∨ c.verdict s = some "isFilter"

variable {cfg : Config} {s s' : Server} {n k : String} {c : Copy} {seen : Endpoint} {j data change : Json} {t : MsgType}

theorem Copy.Decided.isIn (h : c.Decided s) : c.In s := by
  cases c with
  | own => trivial
  | entry n =>
    by_contra hnot
    rw [Decided, verdict, StrMap.notMem_iff.1 hnot] at h
    rcases h with h | h <;> cases h

theorem Copy.Decided.ne (h : c.Decided s) : c.verdict s ≠ some "" := by
  rcases h with h | h
  · rw [h]
    decide
  · rw [h]
    decide

theorem Copy.verdict_insert (table : StrMap String) (n : String) (j : Json) :
    ((table.insert n j.dump)[n]?.bind parse).bind filtering = filtering j := by
  rw [StrMap.getElem?_insert_self, Option.bind_some, parse_dump, Option.bind_some]

theorem filtering_setFiltering {verdict info : String} (h : setFiltering verdict info = some change) :
    filtering change = some verdict := by
  obtain ⟨j, -, hset⟩ := Option.bind_eq_some_iff.1 h
  rw [filtering, sub_set hset, if_pos rfl, Option.bind_some, getString_string]

/-- The observed endpoint is put in without a look at the verdict. -/
theorem filtering_withEndpoint0 {e : Endpoint} (h : withEndpoint0 e data = some change) :
    filtering change = filtering data := by
  obtain ⟨_, _, _, _, _, -, -, -, -, -, hset⟩ := withEndpoint0_eq_some h
  rw [filtering, filtering, sub_set hset, if_neg (by decide)]

/-! ## Passes -/

theorem Swept.verdict [Boost] {now : Int} {b b' : Bool} {l : List (String × String)} (h : Swept now s b l b' s') (k : String) :
    (Copy.entry k).verdict s' = (Copy.entry k).verdict s ∨ (Copy.entry k).verdict s' = some "isFilter" := by
  induction h with
  | nil => exact .inl rfl
  | @due s b key check rest b' s' c info change hcheck hdue hfilter hinfo hchange hrest ih =>
    by_cases hk : k = c.hostKey
    · subst hk
      refine .inr ?_
      rcases ih with ih | ih
      · rw [ih, Copy.verdict, Copy.verdict_insert, filtering_setFiltering hchange]
      · exact ih
    · rcases ih with ih | ih
      · refine .inl (ih.trans ?_)
        rw [Copy.verdict, Copy.verdict, StrMap.getElem?_insert_of_ne _ _ hk]
      · exact .inr ih
  | dueUnknown hcheck hdue hfilter hinfo hrest ih => exact ih
  | young hcheck hyoung hrest ih => exact ih

/-- A pass keeps the verdict of an entry that stays, or blames the node. -/
theorem Passed.verdict [Boost] {now : Int} {o : List SendTo} (h : Passed cfg now s s' o) (hin : c.In s') :
    c.verdict s' = c.verdict s ∨ c.verdict s' = some "isFilter" := by
  cases c with
  | own => exact .inl (congrArg filtering h.localEpInfo)
  | entry k =>
    obtain ⟨info, hinfo⟩ := StrMap.mem_iff.1 hin
    obtain @⟨s₁, s₂, _, _, _, _, _, _, hsweep, hevict, -, -, hlist⟩ := h
    have hhost := listMsgQueue_hostList hlist
    rw [hhost] at hinfo
    have hsame : (Copy.entry k).verdict s' = (Copy.entry k).verdict s₁ := by
      rw [Copy.verdict, Copy.verdict, hhost, hevict.frame.entries k info hinfo]
      exact congrArg (fun x => (x.bind parse).bind filtering) hinfo
    rw [hsame]
    exact hsweep.verdict k

/-! ## What replaces a copy -/

/-- The message brings a record that takes the place of the copy. -/
def Brings (cfg : Config) (t : MsgType) (n : String) (seen : Endpoint) (j data : Json) : Copy → Prop
  | .entry k => k = n ∧ j.sub "data" = some data ∧ (t = .ticker ∧ data.isNull = false ∨ ReportsOther t seen j)
  | .own => t = .update ∧ n ≠ cfg.nodeID ∧ ∃ m, j.sub "data" = some (.object m) ∧ givenRecord m cfg.nodeID = some data

theorem Brings.unique {data' : Json} (h : Brings cfg t n seen j data c) (h' : Brings cfg t n seen j data' c) :
    data = data' := by
  cases c with
  | entry k => exact Option.some.inj (h.2.1.symm.trans h'.2.1)
  | own =>
    obtain ⟨-, -, m, hm, hdata⟩ := h
    obtain ⟨-, -, m', hm', hdata'⟩ := h'
    obtain rfl : m = m' := object_inj (Option.some.inj (hm.symm.trans hm'))
    exact Option.some.inj (hdata.symm.trans hdata')

variable [Boost]

theorem Handled.verdict_entry {draws : Draws} {b : Bool} {o : List SendTo} (hh : Handled cfg draws seen n j s t b s' o)
    (hk : k ∈ s.hostList) :
    (∃ data, Brings cfg t n seen j data (.entry k) ∧ (Copy.entry k).verdict s' = filtering data) ∨
      (∀ data, ¬ Brings cfg t n seen j data (.entry k)) ∧
        ((Copy.entry k).verdict s' = (Copy.entry k).verdict s ∨ (Copy.entry k).verdict s' = some "Nonfilter") := by
  rcases hh.known_entry hk with ⟨rfl, v, hv, hget⟩ | ⟨hnot, hsame⟩
  · have hverdict : (Copy.entry k).verdict s' = filtering v := by
      rw [Copy.verdict, hget, Option.bind_some, parse_dump, Option.bind_some]
    rw [hverdict]
    cases hv with
    | openconnect hdata hdiff hchange =>
      exact .inl ⟨_, ⟨rfl, hdata, .inr ⟨rfl, by rw [hdata]; exact hdiff⟩⟩, filtering_withEndpoint0 hchange⟩
    | callclientRes hinfo hchange =>
      refine .inr ⟨?_, .inr (filtering_setFiltering hchange)⟩
      rintro data ⟨-, -, ⟨ht, -⟩ | ⟨ht, -⟩⟩
      · cases ht
      · cases ht
    | ticker hdata hnull => exact .inl ⟨_, ⟨rfl, hdata, .inl ⟨rfl, hnull⟩⟩, rfl⟩
  · refine .inr ⟨?_, .inl (by rw [Copy.verdict, Copy.verdict, hsame])⟩
    rintro data ⟨rfl, hdata, ⟨rfl, hnull⟩ | ⟨rfl, hdiff⟩⟩
    · exact hnot rfl _ (.ticker hdata hnull)
    · rw [hdata, Option.bind_some] at hdiff
      obtain ⟨ip, hip⟩ := epIp_of_differs hdiff
      obtain ⟨change, hchange⟩ := withEndpoint0_of_epIp hip seen
      exact hnot rfl _ (.openconnect hdata hdiff hchange)

theorem Handled.verdict_own {draws : Draws} {b : Bool} {o : List SendTo} (hh : Handled cfg draws seen n j s t b s' o) :
    (∃ data, Brings cfg t n seen j data .own ∧ Copy.own.verdict s' = filtering data) ∨
      (∀ data, ¬ Brings cfg t n seen j data .own) ∧ Copy.own.verdict s' = Copy.own.verdict s := by
  cases hh with
  | update hn hdata hself hown loop =>
    refine .inl ⟨_, ⟨rfl, hn, _, hdata, ?_⟩, congrArg filtering loop.localEpInfo⟩
    rw [givenRecord, hself, Option.bind_some, hown]
  | updateSelf hn =>
    refine .inr ⟨?_, rfl⟩
    rintro data ⟨-, hn', -⟩
    exact hn' hn
  | _ =>
    refine .inr ⟨?_, rfl⟩
    rintro data ⟨ht, -⟩
    cases ht

/-- A copy has the verdict of the record that took its place; else it keeps its
own, unless a filtering reply clears the node. -/
theorem Handled.verdict {draws : Draws} {b : Bool} {o : List SendTo} (hh : Handled cfg draws seen n j s t b s' o)
    (hin : c.In s) :
    (∃ data, Brings cfg t n seen j data c ∧ c.verdict s' = filtering data) ∨
      (∀ data, ¬ Brings cfg t n seen j data c) ∧ (c.verdict s' = c.verdict s ∨ c.verdict s' = some "Nonfilter") := by
  cases c with
  | entry k => exact hh.verdict_entry hin
  | own => exact hh.verdict_own.imp_right fun h => ⟨h.1, .inl h.2⟩

/-! ## Turns -/

/-- The event brings a record without a verdict that takes the place of the copy. -/
def Undoes (cfg : Config) (c : Copy) : Event → Prop
  | .receive error remote datagram draws => ∃ t n j data,
      Event.Carries cfg t n j (.receive error remote datagram draws) ∧ Brings cfg t n remote j data c ∧
        filtering data = some ""
  | .timer _ => False

/-- A step takes the verdict back exactly where it brings such a record. -/
theorem Step.verdict_iff {t : Turn} (hs : Step cfg s t s') (hin : c.In s) (hin' : c.In s') (hv : c.verdict s ≠ some "") :
    c.verdict s' ≠ some "" ↔ ¬ Undoes cfg c t.event := by
  have hkeep {v : String} (hne : v ≠ "") (h : c.verdict s' = c.verdict s ∨ c.verdict s' = some v) :
      c.verdict s' ≠ some "" := by
    rcases h with h | h
    · rwa [h]
    · rw [h]
      exact fun he => hne (Option.some.inj he)
  obtain ⟨event, sent⟩ := t
  cases event with
  | timer now =>
    exact ⟨fun _ h => h, fun _ => hkeep (by decide) ((completes_threadhandle.1 hs.completes).verdict hin')⟩
  | receive error remote datagram draws =>
    rcases receive_cases hs.enabled hs.completes with ⟨hnone, hend⟩ | ⟨t, n, j, b, s₁, hc, hh, rfl⟩
    · have hsame : c.verdict s' = c.verdict s := by rcases hend with rfl | rfl <;> rfl
      refine ⟨?_, fun _ => hkeep (by decide : "isFilter" ≠ "") (.inl hsame)⟩
      rintro - ⟨t, n, j, data, hc, -⟩
      exact hnone t n j hc
    · have hafter : c.verdict (if b then s₁ else s₁.rearm) = c.verdict s₁ := by cases b <;> rfl
      rw [hafter] at hkeep ⊢
      have hbefore : c.verdict (arrive datagram s) = c.verdict s := by cases c <;> rfl
      have hin₀ : c.In (arrive datagram s) := by cases c <;> exact hin
      rcases hh.verdict hin₀ with ⟨data, hbrings, hdata⟩ | ⟨hnot, hsame⟩
      · rw [hdata]
        constructor
        · rintro hne ⟨t', n', j', data', hc', hbrings', hundecided⟩
          obtain ⟨rfl, rfl, rfl⟩ := hc.unique hc'
          exact hne (by rw [hbrings.unique hbrings', hundecided])
        · exact fun hnot hundecided => hnot ⟨t, n, j, data, hc, hbrings, hundecided⟩
      · rw [hbefore] at hsame
        refine ⟨?_, fun _ => hkeep (by decide) hsame⟩
        rintro - ⟨t', n', j', data, hc', hbrings, -⟩
        obtain ⟨rfl, rfl, rfl⟩ := hc.unique hc'
        exact hnot data hbrings

end NatServer

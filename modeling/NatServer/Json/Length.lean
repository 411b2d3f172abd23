import NatServer.Json.Access
/-!
# How long JSON text is

An object's text is no shorter than its members' together; a string's is no
shorter than the string and at most six characters for each of its own.
-/

namespace Json

/-- The members of an object built from a list, in map order. -/
theorem obj_val {l : List (String × Json)} (sorted : List (String × Json)) (hs : KeySorted sorted)
    (hl : ∀ p ∈ sorted, l.lookup p.1 = some p.2) (hkeys : ∀ p ∈ l, p.1 ∈ sorted.map Prod.fst) :
    (obj l).val = .object (sorted.map fun p => (p.1, p.2.val)) := by
  have hmap : l.foldl (fun m p => m.insertIfNew p.1 p.2) ∅ = Std.ExtTreeMap.ofList sorted compare := by
    refine Std.ExtTreeMap.ext_getElem? fun k => ?_
    rw [getElem?_foldl_insertIfNew, Std.ExtTreeMap.getElem?_empty, Option.none_or]
    have hd : sorted.Pairwise fun a b => ¬ compare a.1 b.1 = .eq := hs.imp fun hab => by simp [hab]
    by_cases hk : k ∈ sorted.map Prod.fst
    · obtain ⟨p, hp, rfl⟩ := List.mem_map.1 hk
      rw [hl p hp, Std.ExtTreeMap.getElem?_ofList_of_mem (by simp) hd hp]
    · rw [Std.ExtTreeMap.getElem?_eq_none (by simpa [Std.ExtTreeMap.mem_ofList] using hk), List.lookup_eq_none_iff]
      intro p hp
      rw [bne_iff_ne]
      rintro rfl
      exact hk (hkeys p hp)
  have hlist := KeySorted.toList_ofList hs
  rw [← hmap] at hlist
  exact congrArg (fun l => Value.object (l.map fun p => (p.1, p.2.val))) hlist

/-! ## Strings -/

theorem length_escape (c : Char) : 1 ≤ (escape c).length ∧ (escape c).length ≤ 6 := by
  unfold escape
  split_ifs <;> simp

theorem length_dumpString (s : String) :
    s.length + 2 ≤ (dumpString s).length ∧ (dumpString s).length ≤ 6 * s.length + 2 := by
  have hflat (l : List Char) : l.length ≤ (l.flatMap escape).length ∧ (l.flatMap escape).length ≤ 6 * l.length := by
    induction l with
    | nil => simp
    | cons c l ih =>
      have := length_escape c
      simp only [List.flatMap_cons, List.length_append, List.length_cons]
      omega
  have := hflat s.toList
  simp only [dumpString, List.cons_append, List.length_cons, List.length_append, List.length_nil,
    ← String.length_toList]
  omega

/-! ## Objects -/

theorem length_dumpMembers {l : List (String × Value)} {c : Nat} (h : ∀ p ∈ l, c ≤ p.2.dump.length) :
    l.length * c ≤ (dumpMembers l).length := by
  induction l with
  | nil => simp
  | cons p l ih =>
    have hp := h p List.mem_cons_self
    have := ih fun p hp => h p (List.mem_cons_of_mem _ hp)
    simp only [dumpMembers, List.cons_append, List.length_cons, List.length_append, Nat.succ_mul]
    omega

/-- Members of some length make an object that long. -/
theorem length_dump_object {l : List (String × Value)} {c : Nat} (h : ∀ p ∈ l, c ≤ p.2.dump.length) :
    l.length * c ≤ (Value.object l).dump.length := by
  cases l with
  | nil => simp
  | cons p l =>
    have hp := h p List.mem_cons_self
    have := length_dumpMembers fun p hp => h p (List.mem_cons_of_mem _ hp)
    simp only [Value.dump, List.cons_append, List.length_cons, List.length_append, Nat.succ_mul]
    omega

theorem length_dump_of_mem {l : List (String × Value)} {p : String × Value} (hp : p ∈ l) :
    p.2.dump.length ≤ (Value.object l).dump.length := by
  have hmembers (l : List (String × Value)) (hp : p ∈ l) : p.2.dump.length ≤ (dumpMembers l).length := by
    induction l with
    | nil => cases hp
    | cons q l ih =>
      simp only [dumpMembers, List.cons_append, List.length_cons, List.length_append]
      rcases List.mem_cons.1 hp with rfl | hp
      · omega
      · have := ih hp
        omega
  cases l with
  | nil => cases hp
  | cons q l =>
    simp only [Value.dump, List.cons_append, List.length_cons, List.length_append]
    rcases List.mem_cons.1 hp with rfl | hp
    · omega
    · have := hmembers l hp
      omega

end Json

import Mathlib.Data.List.Sort
/-!
# String-keyed maps

`std::map<std::string, β>` as the library's ordered map, with what its
operations do to a lookup and how a listing and the map it builds correspond.
-/

/-- `std::map<std::string, β>`. Iteration is in key order. -/
abbrev StrMap (β : Type) := Std.ExtTreeMap String β compare

/-- Strictly increasing keys. -/
def KeySorted {β : Type} (l : List (String × β)) : Prop :=
  l.Pairwise fun a b => compare a.1 b.1 = .lt

namespace KeySorted
variable {β γ : Type}

theorem toList (m : StrMap β) : KeySorted m.toList :=
  Std.ExtTreeMap.ordered_keys_toList

theorem nodup {l : List (String × β)} (h : KeySorted l) : l.Nodup :=
  h.imp fun {a b} hab heq => by subst heq; simp at hab

theorem nodup_keys {l : List (String × β)} (h : KeySorted l) : (l.map Prod.fst).Nodup :=
  List.pairwise_map.2 (h.imp fun {a b} hab heq => by rw [heq] at hab; simp at hab)

theorem map {l : List (String × β)} (h : KeySorted l) (f : String × β → String × γ)
    (hf : ∀ p, (f p).1 = p.1) : KeySorted (l.map f) :=
  List.pairwise_map.2 (h.imp fun hab => by rw [hf, hf]; exact hab)

/-- Sorted lists with the same members are the same. -/
theorem ext {l l' : List (String × β)} (h : KeySorted l) (h' : KeySorted l') (hmem : ∀ p, p ∈ l ↔ p ∈ l') : l = l' := by
  have hasymm (a b : String × β) (hab : compare a.1 b.1 = .lt) (hba : compare b.1 a.1 = .lt) : a = b :=
    absurd hba (Std.OrientedCmp.not_lt_of_lt hab)
  exact List.Perm.eq_of_pairwise (fun a b _ _ => hasymm a b) h h' ((List.perm_ext_iff_of_nodup h.nodup h'.nodup).2 hmem)

/-- A sorted list is the listing of the map it builds. -/
theorem toList_ofList {l : List (String × β)} (h : KeySorted l) :
    (Std.ExtTreeMap.ofList l compare).toList = l := by
  have hd : l.Pairwise fun a b => ¬ compare a.1 b.1 = .eq := h.imp fun hab => by simp [hab]
  refine (toList _).ext h fun ⟨k, v⟩ => ?_
  rw [Std.ExtTreeMap.mem_toList_iff_getElem?_eq_some]
  constructor
  · intro hk
    have hc : k ∈ Std.ExtTreeMap.ofList l compare := Std.ExtTreeMap.isSome_getElem?_iff_mem.1 (by simp [hk])
    obtain ⟨⟨_, w⟩, hw, rfl⟩ := List.mem_map.1 (List.contains_iff_mem.1 (Std.ExtTreeMap.mem_ofList.1 hc))
    rw [Std.ExtTreeMap.getElem?_ofList_of_mem (by simp) hd hw] at hk
    cases hk
    exact hw
  · intro hk
    exact Std.ExtTreeMap.getElem?_ofList_of_mem (by simp) hd hk

end KeySorted

namespace StrMap
variable {β : Type}

theorem mem_iff {m : StrMap β} {k : String} : k ∈ m ↔ ∃ v, m[k]? = some v := by
  rw [← Std.ExtTreeMap.isSome_getElem?_iff_mem, Option.isSome_iff_exists]

theorem notMem_iff {m : StrMap β} {k : String} : k ∉ m ↔ m[k]? = none := by
  rw [← Std.ExtTreeMap.isSome_getElem?_iff_mem, Option.not_isSome_iff_eq_none]

@[simp] theorem getElem?_insert_self (m : StrMap β) (k : String) (v : β) : (m.insert k v)[k]? = some v := by
  simp

theorem getElem?_insert_of_ne (m : StrMap β) {k k' : String} (v : β) (h : k' ≠ k) :
    (m.insert k v)[k']? = m[k']? := by
  simp [Std.ExtTreeMap.getElem?_insert, Ne.symm h]

theorem getElem?_insertIfNew (m : StrMap β) (k k' : String) (v : β) :
    (m.insertIfNew k v)[k']? = if k' = k ∧ k ∉ m then some v else m[k']? := by
  rw [Std.ExtTreeMap.getElem?_insertIfNew]
  simp only [Std.LawfulEqCmp.compare_eq_iff_eq, @eq_comm _ k k']

theorem getElem?_insertIfNew_of_ne (m : StrMap β) {k k' : String} (v : β) (h : k' ≠ k) :
    (m.insertIfNew k v)[k']? = m[k']? := by
  rw [getElem?_insertIfNew, if_neg (fun hk => h hk.1)]

theorem getElem?_insertIfNew_self (m : StrMap β) (k : String) (v : β) : (m.insertIfNew k v)[k]? = m[k]?.or (some v) := by
  rw [getElem?_insertIfNew]
  by_cases h : k ∈ m <;> simp [h]

theorem getElem?_erase (m : StrMap β) (k k' : String) :
    (m.erase k)[k']? = if k' = k then none else m[k']? := by
  rw [Std.ExtTreeMap.getElem?_erase]
  simp only [Std.LawfulEqCmp.compare_eq_iff_eq, @eq_comm _ k k']

theorem getElem?_erase_eq_some {m : StrMap β} {k k' : String} {v : β} :
    (m.erase k)[k']? = some v ↔ m[k']? = some v ∧ k ≠ k' := by
  rw [getElem?_erase]
  by_cases h : k' = k
  · simp [h]
  · simp [h, Ne.symm h]

/-- What an insertion leaves under a key depends on what was there only. -/
theorem insert_congr {m m' : StrMap β} {k : String} (h : m[k]? = m'[k]?) (k' : String) (v : β) :
    (m.insert k' v)[k]? = (m'.insert k' v)[k]? := by
  by_cases hk : k = k'
  · simp [hk]
  · rw [getElem?_insert_of_ne _ _ hk, getElem?_insert_of_ne _ _ hk, h]

theorem insertIfNew_congr {m m' : StrMap β} {k : String} (h : m[k]? = m'[k]?) (k' : String) (v : β) :
    (m.insertIfNew k' v)[k]? = (m'.insertIfNew k' v)[k]? := by
  by_cases hk : k = k'
  · rw [← hk, getElem?_insertIfNew_self, getElem?_insertIfNew_self, h]
  · rw [getElem?_insertIfNew_of_ne _ _ hk, getElem?_insertIfNew_of_ne _ _ hk, h]

theorem insertIfNew_of_mem {m : StrMap β} {k : String} (v : β) (h : k ∈ m) : m.insertIfNew k v = m := by
  refine Std.ExtTreeMap.ext_getElem? fun k' => ?_
  rw [getElem?_insertIfNew, if_neg (by simp [h])]

theorem insertIfNew_of_notMem {m : StrMap β} {k : String} (v : β) (h : k ∉ m) : m.insertIfNew k v = m.insert k v := by
  refine Std.ExtTreeMap.ext_getElem? fun k' => ?_
  rw [getElem?_insertIfNew]
  by_cases hk : k' = k
  · simp [hk, h]
  · rw [if_neg (fun h => hk h.1), getElem?_insert_of_ne _ _ hk]

theorem insert_insert (m : StrMap β) (k : String) (v w : β) : (m.insert k v).insert k w = m.insert k w := by
  refine Std.ExtTreeMap.ext_getElem? fun k' => ?_
  by_cases h : k' = k
  · subst h; simp
  · simp [getElem?_insert_of_ne _ _ h]

theorem insert_of_getElem? {m : StrMap β} {k : String} {v : β} (h : m[k]? = some v) : m.insert k v = m := by
  refine Std.ExtTreeMap.ext_getElem? fun k' => ?_
  by_cases hk : k' = k
  · rw [hk, getElem?_insert_self, h]
  · rw [getElem?_insert_of_ne _ _ hk]

theorem erase_of_notMem {m : StrMap β} {k : String} (h : k ∉ m) : m.erase k = m := by
  refine Std.ExtTreeMap.ext_getElem? fun k' => ?_
  rw [getElem?_erase]
  split
  · next e => rw [e, Std.ExtTreeMap.getElem?_eq_none h]
  · rfl

theorem erase_erase (m : StrMap β) (k : String) : (m.erase k).erase k = m.erase k :=
  erase_of_notMem (by simp)

theorem size_le_of_subset {γ : Type} {m : StrMap β} {m' : StrMap γ} (h : ∀ k ∈ m, k ∈ m') : m.size ≤ m'.size := by
  have hlen {δ : Type} (m : StrMap δ) : (m.toList.map Prod.fst).length = m.size := by
    rw [List.length_map, Std.ExtTreeMap.length_toList]
  rw [← hlen, ← hlen]
  refine (List.subperm_of_subset (KeySorted.nodup_keys (KeySorted.toList m)) fun k hk => ?_).length_le
  obtain ⟨⟨k, v⟩, hp, rfl⟩ := List.mem_map.1 hk
  have hin : k ∈ m := mem_iff.2 ⟨v, Std.ExtTreeMap.mem_toList_iff_getElem?_eq_some.1 hp⟩
  obtain ⟨v', hv'⟩ := mem_iff.1 (h k hin)
  exact List.mem_map.2 ⟨(k, v'), Std.ExtTreeMap.mem_toList_iff_getElem?_eq_some.2 hv', rfl⟩

theorem size_le_one {m : StrMap β} {k : String} (h : ∀ k' ∈ m, k' = k) : m.size ≤ 1 := by
  refine (size_le_of_subset fun k' hk' => ?_ : m.size ≤ ((∅ : StrMap Unit).insert k ()).size)
  rw [h k' hk']
  exact Std.ExtTreeMap.mem_insert_self

/-- The entries listed before a key. -/
def entriesBefore (m : StrMap β) (k : String) : List (String × β) := m.toList.takeWhile fun p => p.1 ≠ k

/-- A key is listed once. -/
theorem ne_of_toList_eq {m : StrMap β} {pre post : List (String × β)} {k : String} {v : β}
    (h : m.toList = pre ++ (k, v) :: post) : (∀ p ∈ pre, p.1 ≠ k) ∧ ∀ p ∈ post, p.1 ≠ k := by
  obtain ⟨-, hpost, hpre⟩ := List.pairwise_append.1 (h ▸ KeySorted.toList m)
  constructor
  · intro p hp hk
    have hlt := hpre p hp (k, v) List.mem_cons_self
    simp [hk] at hlt
  · intro p hp hk
    have hlt := (List.pairwise_cons.1 hpost).1 p hp
    simp [hk] at hlt

theorem entriesBefore_eq {m : StrMap β} {pre post : List (String × β)} {k : String} {v : β}
    (h : m.toList = pre ++ (k, v) :: post) : entriesBefore m k = pre := by
  have hpre := (ne_of_toList_eq h).1
  rw [entriesBefore, h, List.takeWhile_append_of_pos (by simpa using hpre), List.takeWhile_cons_of_neg (by simp),
    List.append_nil]

theorem toList_eq_append {m : StrMap β} {k : String} {v : β} (h : m[k]? = some v) :
    ∃ post, m.toList = entriesBefore m k ++ (k, v) :: post := by
  obtain ⟨pre, post, hl⟩ := List.append_of_mem (Std.ExtTreeMap.mem_toList_iff_getElem?_eq_some.2 h)
  exact ⟨post, by rw [entriesBefore_eq hl, hl]⟩

end StrMap

import Mathlib.Data.List.Basic
import Mathlib.Data.Vector.Basic
/-!
# Buffers with checked access

A buffer is the list of its cells. `load` and `store` move a fixed number of
cells at an offset, and have no result where the access leaves the buffer.
A buffer filled from the front is its finished part followed by the rest
(`store_append`); `flat` lays blocks out one after the other.
-/

namespace Buffer
variable {α : Type} {n : ℕ}

def load (buf : List α) (off n : ℕ) : Option (Vector α n) :=
  if h : off + n ≤ buf.length then some ⟨((buf.drop off).take n).toArray, by simp; omega⟩ else none

def store (buf : List α) (off : ℕ) (v : Vector α n) : Option (List α) :=
  if off + n ≤ buf.length then some (buf.take off ++ v.toList ++ buf.drop (off + n)) else none

/-- `memcpy (dst + d) (src + s) n`, for buffers that do not overlap. -/
def copy (dst : List α) (d : ℕ) (src : List α) (s n : ℕ) : Option (List α) :=
  (load src s n).bind (store dst d)

theorem load_isSome {buf : List α} {off : ℕ} : (load buf off n).isSome ↔ off + n ≤ buf.length := by
  rw [load]
  split <;> simp [*]

theorem store_eq_none {buf : List α} {off : ℕ} {v : Vector α n} : store buf off v = none ↔ buf.length < off + n := by
  rw [store]
  split <;> simp <;> omega

theorem load_eq_some {buf : List α} {off : ℕ} {v : Vector α n} :
    load buf off n = some v ↔ ∃ xs ys, buf = xs ++ v.toList ++ ys ∧ xs.length = off := by
  constructor
  · intro h
    rw [load] at h
    split at h
    · cases h
      refine ⟨buf.take off, buf.drop (off + n), ?_, by simp; omega⟩
      rw [List.append_assoc]
      simp [← List.drop_drop]
    · cases h
  · rintro ⟨xs, ys, rfl, rfl⟩
    rw [load, dif_pos (by simp), Option.some.injEq]
    apply Vector.toList_inj.1
    simp

/-- The block that starts where the first part ends. -/
theorem load_append (xs : List α) (v : Vector α n) (ys : List α) :
    load (xs ++ (v.toList ++ ys)) xs.length n = some v :=
  load_eq_some.2 ⟨xs, ys, by simp, rfl⟩

/-- What is written behind the finished part joins it. -/
theorem store_append (xs rest : List α) (v : Vector α n) (h : n ≤ rest.length) :
    store (xs ++ rest) xs.length v = some (xs ++ v.toList ++ rest.drop n) := by
  rw [store, if_pos (by simp; omega)]
  simp [List.drop_append]

theorem copy_append (xs rest ys zs : List α) (v : Vector α n) (h : n ≤ rest.length) :
    copy (xs ++ rest) xs.length (ys ++ (v.toList ++ zs)) ys.length n = some (xs ++ v.toList ++ rest.drop n) := by
  rw [copy, load_append, Option.bind_some, store_append xs rest v h]

/-! ## Blocks -/

def flat (bs : List (Vector α n)) : List α := bs.flatMap Vector.toList

@[simp] theorem flat_nil : flat ([] : List (Vector α n)) = [] := rfl

@[simp] theorem flat_cons (b : Vector α n) (bs : List (Vector α n)) : flat (b :: bs) = b.toList ++ flat bs := rfl

@[simp] theorem flat_append (bs cs : List (Vector α n)) : flat (bs ++ cs) = flat bs ++ flat cs := by
  simp [flat]

@[simp] theorem length_flat (bs : List (Vector α n)) : (flat bs).length = n * bs.length := by
  induction bs with
  | nil => simp
  | cons b bs ih =>
    rw [flat_cons, List.length_append, ih, Vector.length_toList, List.length_cons, Nat.mul_succ, Nat.add_comm]

theorem take_flat (bs : List (Vector α n)) (k : ℕ) : (flat bs).take (n * k) = flat (bs.take k) := by
  induction bs generalizing k with
  | nil => simp
  | cons b bs ih =>
    cases k with
    | zero => simp
    | succ k =>
      rw [flat_cons, List.take_append, Vector.length_toList, List.take_of_length_le (by simp [Nat.mul_succ]),
        Nat.mul_succ, Nat.add_sub_cancel, ih, List.take_succ_cons, flat_cons]

/-- The last block, after a first one. -/
theorem exists_flat_getLastD (c : Vector α n) (bs : List (Vector α n)) :
    ∃ init : List (Vector α n), c.toList ++ flat bs = flat init ++ (bs.getLastD c).toList ∧ init.length = bs.length := by
  refine ⟨(c :: bs).dropLast, ?_, by simp⟩
  have hlast := List.dropLast_append_getLast (List.cons_ne_nil c bs)
  rw [List.getLast_eq_getLastD] at hlast
  rw [← flat_cons, ← hlast, flat_append, flat_cons, flat_nil, List.append_nil]
  simp

/-- Every list is whole blocks and a remainder shorter than one. -/
theorem exists_flat_append (hn : 0 < n) (l : List α) :
    ∃ (bs : List (Vector α n)) (tail : List α), l = flat bs ++ tail ∧ tail.length = l.length % n := by
  induction hl : l.length using Nat.strong_induction_on generalizing l with
  | _ m ih =>
    subst hl
    by_cases hshort : l.length < n
    · exact ⟨[], l, rfl, (Nat.mod_eq_of_lt hshort).symm⟩
    · obtain ⟨v, hv⟩ := Option.isSome_iff_exists.1 (load_isSome.2 (by omega : 0 + n ≤ l.length))
      obtain ⟨xs, rest, rfl, hxs⟩ := load_eq_some.1 hv
      obtain rfl := List.eq_nil_of_length_eq_zero hxs
      obtain ⟨bs, tail, rfl, htail⟩ := ih rest.length (by simp; omega) rest rfl
      refine ⟨v :: bs, tail, by simp, ?_⟩
      rw [htail]
      simp

theorem exists_flat (hn : 0 < n) {l : List α} (h : n ∣ l.length) : ∃ bs : List (Vector α n), l = flat bs := by
  obtain ⟨bs, tail, rfl, htail⟩ := exists_flat_append hn l
  rw [Nat.mod_eq_zero_of_dvd h] at htail
  exact ⟨bs, by rw [List.eq_nil_of_length_eq_zero htail, List.append_nil]⟩

theorem flat_injective (hn : 0 < n) : Function.Injective (flat (α := α) (n := n)) := by
  intro bs
  induction bs with
  | nil =>
    intro cs h
    have hlen := congrArg List.length h
    rw [length_flat, length_flat, List.length_nil, Nat.mul_zero] at hlen
    exact (List.eq_nil_of_length_eq_zero ((Nat.mul_eq_zero.1 hlen.symm).resolve_left hn.ne')).symm
  | cons b bs ih =>
    intro cs h
    rcases cs with _ | ⟨c, cs⟩
    · have hlen := congrArg List.length h
      simp at hlen
      omega
    · obtain ⟨hb, hbs⟩ := List.append_inj h (by simp)
      rw [Vector.toList_inj.1 hb, ih hbs]

end Buffer

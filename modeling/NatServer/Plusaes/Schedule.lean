import NatServer.Plusaes.Cipher
import Mathlib.Data.List.GetD
/-!
# The key schedule

`expandKey` throws for a key of the wrong size. Each word of the schedule comes
from the word before and the one `nk` words back (`schedule_eq`), which can be
turned around: any `nk` words in a row determine the key.
-/

namespace Plusaes

/-- How a call can fail without returning an `Error`. -/
inductive Fault
  /-- An access outside a buffer, which the language leaves undefined. -/
  | outOfBounds
  /-- `std::invalid_argument`. -/
  | invalidArgument
  deriving DecidableEq, Repr

def getRoundCount : ℕ → Except Fault {nr : ℕ // 0 < nr}
  | 16 => .ok ⟨10, by decide⟩
  | 24 => .ok ⟨12, by decide⟩
  | 32 => .ok ⟨14, by decide⟩
  | _ => .error .invalidArgument

def rcon : List Word := [0x00, 0x01, 0x02, 0x04, 0x08, 0x10, 0x20, 0x40, 0x80, 0x1b, 0x36]

/-- Word `i` of the key, which fills the first words of the schedule. -/
def keyWord (key : List Byte) (i : ℕ) : Word :=
  word (key.getD (4 * i) 0) (key.getD (4 * i + 1) 0) (key.getD (4 * i + 2) 0) (key.getD (4 * i + 3) 0)

/-- The word masked on word `i - nk` to make word `i`, from the word before. -/
def scheduleCore (nk i : ℕ) (t : Word) : Word :=
  if i % nk = 0 then subWord (rotWord t) ^^^ rcon.getD (i / nk) 0
  else if nk > 6 ∧ i % nk = 4 then subWord t
  else t

/-- Word `i`, behind the words before it. -/
def nextWord (nk : ℕ) (w : List Word) (i : ℕ) : List Word :=
  w ++ [scheduleCore nk i (w.getD (i - 1) 0) ^^^ w.getD (i - nk) 0]

/-- The vector `w`, filled up to word `n`. -/
def expandWords (key : List Byte) (nk n : ℕ) : List Word :=
  (List.range' nk (n - nk)).foldl (nextWord nk) ((List.range nk).map (keyWord key))

/-- Four words at a time. -/
def groupKeys (w : List Word) (count : ℕ) : List RoundKey :=
  (List.range count).map fun j => Vector.ofFn fun c : Fin 4 => w.getD (4 * j + c.val) 0

def expandKey (key : List Byte) : Except Fault RoundKeys :=
  if key.length ≠ 16 ∧ key.length ≠ 24 ∧ key.length ≠ 32 then .error .invalidArgument
  else do
    let nk := key.length / 4
    let nr ← getRoundCount key.length
    let w := expandWords key nk (4 * (nr.val + 1))
    return ⟨groupKeys w (nr.val + 1), by simpa [groupKeys] using Nat.succ_le_iff.2 nr.property⟩

/-- The known answer for this key. -/
example : (expandKey [0x00, 0x01, 0x02, 0x03, 0x04, 0x05, 0x06, 0x07, 0x08, 0x09, 0x0a, 0x0b, 0x0c, 0x0d, 0x0e,
      0x0f]).toOption.map (fun rkeys => encryptBlock rkeys #v[0x00, 0x11, 0x22, 0x33, 0x44, 0x55, 0x66, 0x77, 0x88,
      0x99, 0xaa, 0xbb, 0xcc, 0xdd, 0xee, 0xff]) =
    some #v[0x69, 0xc4, 0xe0, 0xd8, 0x6a, 0x7b, 0x04, 0x30, 0xd8, 0xcd, 0xb7, 0x80, 0x70, 0xb4, 0xc5, 0x5a] := by
  decide +kernel

/-! ## The recurrence -/

variable {key key' : List Byte} {nk n : ℕ}

theorem expandWords_base (key : List Byte) (nk : ℕ) : expandWords key nk nk = (List.range nk).map (keyWord key) := by
  rw [expandWords, Nat.sub_self]
  rfl

theorem expandWords_succ (h : nk ≤ n) :
    expandWords key nk (n + 1) = nextWord nk (expandWords key nk n) n := by
  rw [expandWords, Nat.succ_sub h, List.range'_concat, List.foldl_append, Nat.one_mul, Nat.add_sub_cancel' h]
  rfl

theorem length_expandWords (h : nk ≤ n) : (expandWords key nk n).length = n := by
  induction n, h using Nat.le_induction with
  | base => simp [expandWords_base]
  | succ n h ih => rw [expandWords_succ h, nextWord, List.length_append, ih, List.length_singleton]

/-- A word is not changed once it is there. -/
theorem getD_expandWords_succ (h : nk ≤ n) {i : ℕ} (hi : i < n) :
    (expandWords key nk (n + 1)).getD i 0 = (expandWords key nk n).getD i 0 := by
  rw [expandWords_succ h, nextWord, List.getD_append _ _ _ _ (by rwa [length_expandWords h])]

/-- What each word of the schedule is. -/
theorem schedule_eq (key : List Byte) (hnk : 0 < nk) (h : nk ≤ n) {i : ℕ} (hi : i < n) :
    (expandWords key nk n).getD i 0 =
      if i < nk then keyWord key i
      else scheduleCore nk i ((expandWords key nk n).getD (i - 1) 0) ^^^ (expandWords key nk n).getD (i - nk) 0 := by
  induction n, h using Nat.le_induction with
  | base =>
    rw [if_pos hi, expandWords_base]
    simp [hi]
  | succ n h ih =>
    by_cases hlast : i = n
    · subst hlast
      rw [if_neg (by omega), getD_expandWords_succ h (i := i - 1) (by omega),
        getD_expandWords_succ h (i := i - nk) (by omega), expandWords_succ h, nextWord,
        List.getD_append_right _ _ _ _ (by rw [length_expandWords h]),
        length_expandWords h, Nat.sub_self]
      rfl
    · rw [getD_expandWords_succ h (by omega), ih (by omega)]
      split
      · rfl
      · rw [getD_expandWords_succ h (by omega), getD_expandWords_succ h (by omega)]

/-- A word `nk` back from two that are known. -/
theorem schedule_back (key : List Byte) (hnk : 0 < nk) (h : nk ≤ n) {i : ℕ} (hi : i + nk < n) :
    (expandWords key nk n).getD i 0 =
      (expandWords key nk n).getD (i + nk) 0 ^^^
        scheduleCore nk (i + nk) ((expandWords key nk n).getD (i + nk - 1) 0) := by
  have heq := schedule_eq key hnk h hi
  rw [if_neg (by omega), Nat.add_sub_cancel] at heq
  rw [heq, BitVec.xor_comm, ← BitVec.xor_assoc, BitVec.xor_self, BitVec.zero_xor]

/-- Two schedules that agree on `nk` words in a row agree on all before. -/
theorem schedule_agree (hnk : 2 ≤ nk) (h : nk ≤ n) {i : ℕ} (hi : i + nk ≤ n)
    (hwindow : ∀ j, i ≤ j → j < i + nk → (expandWords key nk n).getD j 0 = (expandWords key' nk n).getD j 0) :
    ∀ j < nk, (expandWords key nk n).getD j 0 = (expandWords key' nk n).getD j 0 := by
  induction i with
  | zero => exact fun j hj => hwindow j (Nat.zero_le j) (by omega)
  | succ i ih =>
    refine ih (by omega) fun j hj hlt => ?_
    by_cases hfirst : j = i
    · subst hfirst
      rw [schedule_back key (by omega) h (by omega), schedule_back key' (by omega) h (by omega),
        hwindow (j + nk) (by omega) (by omega), hwindow (j + nk - 1) (by omega) (by omega)]
    · exact hwindow j (by omega) (by omega)

theorem keyWord_injective (hlen : key.length = 4 * nk) (hlen' : key'.length = 4 * nk)
    (h : ∀ i < nk, keyWord key i = keyWord key' i) : key = key' := by
  have hbytes (i : ℕ) (hi : i < nk) (k : ℕ) (hk : k < 4) : key.getD (4 * i + k) 0 = key'.getD (4 * i + k) 0 := by
    have hword := congrArg (fun w => byte w k) (h i hi)
    simp only [keyWord, byte_word _ _ _ _ hk] at hword
    interval_cases k <;> exact hword
  apply List.ext_getElem (hlen.trans hlen'.symm)
  intro j hj hj'
  have hj4 := hbytes (j / 4) (by omega) (j % 4) (Nat.mod_lt _ (by decide))
  rw [Nat.div_add_mod, List.getD_eq_getElem _ _ hj, List.getD_eq_getElem _ _ hj'] at hj4
  exact hj4

/-- A key of `nk` words has `nk + 6` rounds. -/
theorem expandKey_eq_ok {rkeys : RoundKeys} (h : expandKey key = .ok rkeys) :
    ∃ nk, key.length = 4 * nk ∧ 2 ≤ nk ∧ nk ≤ 8 ∧
      rkeys.keys = groupKeys (expandWords key nk (4 * (nk + 7))) (nk + 7) := by
  rw [expandKey] at h
  split at h
  · cases h
  · have hsize : key.length = 16 ∨ key.length = 24 ∨ key.length = 32 := by omega
    obtain ⟨nr, hnr, hcount⟩ : ∃ nr, getRoundCount key.length = .ok nr ∧ nr.val + 1 = key.length / 4 + 7 := by
      rcases hsize with hk | hk | hk <;> rw [hk] <;> exact ⟨_, rfl, rfl⟩
    simp only [hnr] at h
    cases h
    exact ⟨key.length / 4, by omega, by omega, by omega, by rw [← hcount]⟩

theorem getElem?_groupKeys (w : List Word) {count j : ℕ} (hj : j < count) :
    (groupKeys w count)[j]? = some (Vector.ofFn fun c : Fin 4 => w.getD (4 * j + c.val) 0) := by
  simp [groupKeys, hj]

/-- Two round keys in a row give the key away: no other key of that size has
them in the same place. -/
theorem expandKey_determined {rkeys rkeys' : RoundKeys} {j : ℕ} (hlen : key.length = key'.length)
    (h : expandKey key = .ok rkeys) (h' : expandKey key' = .ok rkeys') (hj : j + 1 < rkeys.keys.length)
    (hkey : rkeys.keys[j]? = rkeys'.keys[j]?) (hnext : rkeys.keys[j + 1]? = rkeys'.keys[j + 1]?) : key = key' := by
  obtain ⟨nk, hnk, hlow, hhigh, hkeys⟩ := expandKey_eq_ok h
  obtain ⟨nk', hnk', -, -, hkeys'⟩ := expandKey_eq_ok h'
  obtain rfl : nk = nk' := by omega
  rw [hkeys, groupKeys, List.length_map, List.length_range] at hj
  rw [hkeys, hkeys', getElem?_groupKeys _ (by omega), getElem?_groupKeys _ (by omega), Option.some.injEq] at hkey hnext
  have hword {t : ℕ} (heq : (Vector.ofFn fun c : Fin 4 => (expandWords key nk (4 * (nk + 7))).getD (4 * t + c.val) 0) =
      Vector.ofFn fun c : Fin 4 => (expandWords key' nk (4 * (nk + 7))).getD (4 * t + c.val) 0) (c : ℕ) (hc : c < 4) :
      (expandWords key nk (4 * (nk + 7))).getD (4 * t + c) 0 = (expandWords key' nk (4 * (nk + 7))).getD (4 * t + c) 0 := by
    have hget := congrArg (fun v : Vector Word 4 => v[c]) heq
    simpa only [Vector.getElem_ofFn] using hget
  -- the two round keys are eight words in a row, and `nk` is at most eight
  have hwindow : ∀ i, 4 * j ≤ i → i < 4 * j + nk →
      (expandWords key nk (4 * (nk + 7))).getD i 0 = (expandWords key' nk (4 * (nk + 7))).getD i 0 := by
    intro i hi hlt
    by_cases hfirst : i < 4 * j + 4
    · have := hword hkey (i - 4 * j) (by omega)
      rwa [Nat.add_sub_cancel' hi] at this
    · have := hword hnext (i - 4 * (j + 1)) (by omega)
      rwa [Nat.add_sub_cancel' (by omega)] at this
  have hagree := schedule_agree hlow (by omega) (by omega) hwindow
  refine keyWord_injective hnk hnk' fun i hi => ?_
  have hi' := hagree i hi
  rwa [schedule_eq key (by omega) (by omega) (by omega), schedule_eq key' (by omega) (by omega) (by omega), if_pos hi,
    if_pos hi] at hi'

/-- The first two round keys of a key of zeros. -/
theorem expandKey_determined_zeros :
    expandKey (List.replicate 16 0) = .ok ⟨groupKeys (expandWords (List.replicate 16 0) 4 44) 11, by decide⟩ ∧
      List.replicate 16 (0 : Byte) = List.replicate 16 0 := by
  have h : expandKey (List.replicate 16 0) =
      .ok ⟨groupKeys (expandWords (List.replicate 16 0) 4 44) 11, by decide⟩ := rfl
  exact ⟨h, expandKey_determined (j := 9) rfl h h (by decide) rfl rfl⟩

end Plusaes

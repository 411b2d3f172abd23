import NatServer.Plusaes.Modes
/-!
# Counter mode

The counter is a number of 128 bits, most significant byte first, and the loop
masks the data with the encryptions of its values (`keystream`). Within one
call no block of the keystream comes twice.
-/

namespace Plusaes

open Buffer

/-! ## The counter -/

/-- The number that bytes are written for, most significant first. -/
def bigEndian (bytes : List Byte) : ℕ := bytes.foldl (fun n b => 256 * n + b.toNat) 0

theorem bigEndian_snoc (bytes : List Byte) (b : Byte) : bigEndian (bytes ++ [b]) = 256 * bigEndian bytes + b.toNat := by
  simp [bigEndian]

theorem bigEndian_lt (bytes : List Byte) : bigEndian bytes < 256 ^ bytes.length := by
  induction bytes using List.reverseRecOn with
  | nil => decide
  | append_singleton bytes b ih =>
    have hb : b.toNat < 256 := b.isLt
    rw [bigEndian_snoc, List.length_append, List.length_singleton, pow_succ]
    omega

/-- The bytes below `n` become the sum with the carry; the others stay. -/
theorem incrFrom_spec (n : ℕ) (h : n ≤ 16) (c : ℕ) (counter : Block) :
    bigEndian ((incrFrom n h c counter).toList.take n) = (bigEndian (counter.toList.take n) + c) % 256 ^ n ∧
      (incrFrom n h c counter).toList.drop n = counter.toList.drop n := by
  induction n generalizing c counter with
  | zero => exact ⟨by simp [bigEndian, Nat.mod_one], rfl⟩
  | succ n ih =>
    rw [incrFrom]
    have hget : counter.toList.take (n + 1) = counter.toList.take n ++ [counter[n]] := by
      rw [List.take_succ_eq_append_getElem (by simp; omega), Vector.getElem_toList]
    obtain ⟨hvalue, hdrop⟩ := ih (Nat.le_of_succ_le h) ((c + counter[n].toNat) / 256)
      (counter.set n (BitVec.ofNat 8 (c + counter[n].toNat)))
    generalize incrFrom n _ _ _ = res at hvalue hdrop
    have hkept : (counter.toList.set n (BitVec.ofNat 8 (c + counter[n].toNat))).take n = counter.toList.take n :=
      List.take_set_of_le (le_refl n)
    have hnew : (counter.toList.set n (BitVec.ofNat 8 (c + counter[n].toNat))).drop n =
        BitVec.ofNat 8 (c + counter[n].toNat) :: counter.toList.drop (n + 1) := by
      rw [List.drop_eq_getElem_cons (by simp; omega), List.getElem_set_self, List.drop_set_of_lt (by omega)]
    rw [Vector.toList_set] at hvalue hdrop
    rw [hkept] at hvalue
    rw [hnew] at hdrop
    have hlast : res.toList.take (n + 1) = res.toList.take n ++ [BitVec.ofNat 8 (c + counter[n].toNat)] := by
      rw [List.take_add, hdrop]
      rfl
    refine ⟨?_, ?_⟩
    · have hdiv : (256 * bigEndian (counter.toList.take n) + counter[n].toNat + c) / 256 =
          bigEndian (counter.toList.take n) + (c + counter[n].toNat) / 256 := by omega
      rw [hlast, bigEndian_snoc, hvalue, hget, bigEndian_snoc, BitVec.toNat_ofNat, pow_succ' 256 n,
        Nat.mod_mul (b := 256 ^ n), hdiv]
      omega
    · rw [← List.drop_drop, hdrop]
      rfl

/-- One more, modulo 2 ^ 128. -/
theorem bigEndian_incrCounter (counter : Block) :
    bigEndian (incrCounter counter).toList = (bigEndian counter.toList + 1) % 2 ^ 128 := by
  have h := (incrFrom_spec 16 (le_refl _) 1 counter).1
  rw [List.take_of_length_le (by simp), List.take_of_length_le (by simp)] at h
  rw [incrCounter, h, (by norm_num : 256 ^ 16 = 2 ^ 128)]

theorem bigEndian_iterate (counter : Block) (n : ℕ) :
    bigEndian (incrCounter^[n] counter).toList = (bigEndian counter.toList + n) % 2 ^ 128 := by
  induction n with
  | zero =>
    have h := bigEndian_lt counter.toList
    rw [Vector.length_toList, (by norm_num : 256 ^ 16 = 2 ^ 128)] at h
    rw [Function.iterate_zero_apply, Nat.add_zero, Nat.mod_eq_of_lt h]
  | succ n ih => rw [Function.iterate_succ_apply', bigEndian_incrCounter, ih, Nat.mod_add_mod, Nat.add_assoc]

/-- The counter does not come back before 2 ^ 128 blocks. -/
theorem iterate_incrCounter_inj {counter : Block} {m n : ℕ} (hm : m < 2 ^ 128) (hn : n < 2 ^ 128)
    (h : incrCounter^[m] counter = incrCounter^[n] counter) : m = n := by
  have hvalue := congrArg (fun c : Block => bigEndian c.toList) h
  simp only [bigEndian_iterate] at hvalue
  omega

/-! ## The keystream -/

/-- The blocks that the data is masked with. -/
def keystream (rkeys : RoundKeys) (counter : Block) (count : ℕ) : List Block :=
  (List.range count).map fun i => encryptBlock rkeys (incrCounter^[i] counter)

theorem nodup_keystream (rkeys : RoundKeys) (counter : Block) {count : ℕ} (hcount : count ≤ 2 ^ 128) :
    (keystream rkeys counter count).Nodup := by
  refine List.Nodup.map_on ?_ List.nodup_range
  intro m hm n hn h
  rw [List.mem_range] at hm hn
  exact iterate_incrCounter_inj (by omega) (by omega) (encryptBlock_injective rkeys h)

variable (rkeys : RoundKeys)

theorem keystream_succ (counter : Block) (n : ℕ) :
    keystream rkeys counter (n + 1) = encryptBlock rkeys counter :: keystream rkeys (incrCounter counter) n := by
  simp [keystream, List.range_succ_eq_map, Function.comp_def]

theorem length_keystream (counter : Block) (n : ℕ) : (keystream rkeys counter n).length = n := by
  simp [keystream]

/-- `mask` under the data, as far as it goes. -/
def xorBytes (data mask : List Byte) : List Byte := List.zipWith (· ^^^ ·) data mask

/-- Byte `j` of the first block, and what follows it. -/
theorem drop_keystream (counter : Block) (n : ℕ) {j : ℕ} (hj : j < 16) :
    (flat (keystream rkeys counter (n + 1))).drop j =
      (encryptBlock rkeys counter).toList.getD j 0 :: (flat (keystream rkeys counter (n + 1))).drop (j + 1) := by
  have hlen : j < (encryptBlock rkeys counter).toList.length := by rwa [Vector.length_toList]
  rw [List.drop_eq_getElem_cons (by rw [length_flat, length_keystream]; omega)]
  simp only [keystream_succ, flat_cons]
  rw [List.getElem_append_left hlen, List.getD_eq_getElem?_getD, List.getElem?_eq_getElem hlen, Option.getD_some]

/-- From position `j` of the block of `counter` on. -/
theorem ctrLoop_from (data : List Byte) (counter : Block) {j n : ℕ} (hj : j ≤ 16) (h : j + data.length ≤ 16 * (n + 1)) :
    ctrLoop rkeys data j (encryptBlock rkeys counter) (incrCounter counter) =
      xorBytes data ((flat (keystream rkeys counter (n + 1))).drop j) := by
  induction data generalizing counter j n with
  | nil => rfl
  | cons b data ih =>
    rw [List.length_cons] at h
    rw [ctrLoop]
    split
    next hfull =>
      -- the next block of the keystream begins
      subst hfull
      obtain ⟨n, rfl⟩ : ∃ m, n = m + 1 := ⟨n - 1, by omega⟩
      have hdrop : (flat (keystream rkeys counter (n + 1 + 1))).drop 16 =
          (flat (keystream rkeys (incrCounter counter) (n + 1))).drop 0 := by
        rw [keystream_succ, flat_cons, List.drop_left' (by simp), List.drop_zero]
      have hrest := ih (incrCounter counter) (j := 1) (n := n) (by decide) (by omega)
      rw [hdrop, drop_keystream rkeys _ n (by decide : 0 < 16)]
      simp only [hrest]
      rfl
    next hin =>
      rw [ih counter (j := j + 1) (n := n) (by omega) (by omega), drop_keystream rkeys counter n (by omega : j < 16)]
      rfl

/-- The whole loop, which fills its first block before it reads it. -/
theorem ctrLoop_eq (data : List Byte) (blk counter : Block) {n : ℕ} (h : data.length ≤ 16 * n) :
    ctrLoop rkeys data 16 blk counter = xorBytes data (flat (keystream rkeys counter n)) := by
  rcases data with _ | ⟨b, data⟩
  · rfl
  · rw [List.length_cons] at h
    obtain ⟨n, rfl⟩ : ∃ m, n = m + 1 := ⟨n - 1, by omega⟩
    have hrest := ctrLoop_from rkeys data counter (j := 1) (n := n) (by decide) (by omega)
    have hfirst := drop_keystream rkeys counter n (by decide : 0 < 16)
    rw [List.drop_zero] at hfirst
    rw [ctrLoop, if_pos rfl, hfirst]
    simp only [hrest]
    rfl

/-! ## The call -/

theorem cryptCtr_of_valid {key nonce : List Byte} (hvalid : isValidKeySize key.length = true)
    (hnonce : nonce.length ≤ 16) :
    ∃ rkeys counter, ∀ data n, data.length ≤ 16 * n →
      cryptCtr data key nonce = .ok (.kErrorOk, xorBytes data (flat (keystream rkeys counter n))) := by
  obtain ⟨rkeys, hkey⟩ := expandKey_of_valid hvalid
  have hcopy := memcpy_append [] (List.replicate 16 0) [] nonce [] (d := 0) (e := 0) rfl rfl rfl (by rwa [List.length_replicate])
  rw [List.nil_append, List.nil_append, List.append_nil, List.nil_append, List.drop_replicate] at hcopy
  obtain ⟨counter, hcounter⟩ : ∃ counter : Block, nonce ++ List.replicate (16 - nonce.length) 0 = counter.toList :=
    ⟨⟨(nonce ++ List.replicate (16 - nonce.length) 0).toArray, by simp; omega⟩, rfl⟩
  have hload := loadBlock_append [] [] (d := 0) counter rfl
  rw [List.nil_append, List.append_nil] at hload
  refine ⟨rkeys, counter, fun data n hdata => ?_⟩
  rw [cryptCtr]
  simp only [gt_iff_lt, Nat.not_lt.2 hnonce, if_false, hvalid, Bool.not_true, Bool.false_eq_true, hkey, ok_bind, hcopy,
    hcounter, hload, ctrLoop_eq rkeys data _ counter hdata]
  rfl

theorem length_xorBytes {data mask : List Byte} (h : data.length ≤ mask.length) :
    (xorBytes data mask).length = data.length := by
  rw [xorBytes, List.length_zipWith, Nat.min_eq_left h]

theorem xorBytes_xorBytes {data mask : List Byte} (h : data.length ≤ mask.length) :
    xorBytes (xorBytes data mask) mask = data := by
  induction data generalizing mask with
  | nil => rfl
  | cons b data ih =>
    rcases mask with _ | ⟨m, mask⟩
    · simp at h
    · have hlen : data.length ≤ mask.length := by simpa using h
      have hrest := ih hlen
      simp only [xorBytes, List.zipWith_cons_cons, BitVec.xor_assoc, BitVec.xor_self, BitVec.xor_zero] at hrest ⊢
      rw [hrest]

/-- The same call again gives the data back, whether the sizes are accepted or
refused. -/
theorem cryptCtr_cryptCtr (data key nonce : List Byte) :
    ∃ e out, cryptCtr data key nonce = .ok (e, out) ∧ out.length = data.length ∧
      cryptCtr out key nonce = .ok (e, data) := by
  by_cases hnonce : nonce.length ≤ 16
  · by_cases hvalid : isValidKeySize key.length = true
    · obtain ⟨rkeys, counter, hcall⟩ := cryptCtr_of_valid hvalid hnonce
      have hmask : data.length ≤ (flat (keystream rkeys counter data.length)).length := by
        rw [length_flat, length_keystream]
        omega
      have hlen := length_xorBytes hmask
      refine ⟨_, _, hcall data data.length (by omega), hlen, ?_⟩
      rw [hcall _ data.length (by rw [hlen]; omega), xorBytes_xorBytes hmask]
    · have hrefuse (data : List Byte) : cryptCtr data key nonce = .ok (.kErrorInvalidKeySize, data) := by
        rw [cryptCtr]
        simp only [gt_iff_lt, Nat.not_lt.2 hnonce, if_false, hvalid, Bool.not_false, if_true]
        rfl
      exact ⟨_, data, hrefuse data, rfl, hrefuse data⟩
  · have hrefuse (data : List Byte) : cryptCtr data key nonce = .ok (.kErrorInvalidNonceSize, data) := by
      rw [cryptCtr]
      simp only [gt_iff_lt, Nat.lt_of_not_le hnonce, if_true]
      rfl
    exact ⟨_, data, hrefuse data, rfl, hrefuse data⟩

/-- Under one key and nonce all data is masked with the same blocks, which are
pairwise different. -/
theorem cryptCtr_keystream {key nonce : List Byte} (hvalid : isValidKeySize key.length = true)
    (hnonce : nonce.length ≤ 16) {n : ℕ} (hn : n ≤ 2 ^ 128) :
    ∃ stream : List Block, stream.length = n ∧ stream.Nodup ∧ ∀ data, data.length ≤ 16 * n →
      cryptCtr data key nonce = .ok (.kErrorOk, xorBytes data (flat stream)) := by
  obtain ⟨rkeys, counter, hcall⟩ := cryptCtr_of_valid hvalid hnonce
  exact ⟨keystream rkeys counter n, length_keystream rkeys counter n, nodup_keystream rkeys counter hn,
    fun data hdata => hcall data n hdata⟩

theorem cryptCtr_keystream_two :
    ∃ stream : List Block, stream.length = 2 ∧ stream.Nodup ∧ ∀ data, data.length ≤ 16 * 2 →
      cryptCtr data (List.replicate 16 0) [] = .ok (.kErrorOk, xorBytes data (flat stream)) :=
  cryptCtr_keystream (by decide) (by decide) (by decide)

end Plusaes

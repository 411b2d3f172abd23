import NatServer.Plusaes.Modes
import NatServer.Lib.Blocks
/-!
# What the encryptions write

The padded data, block by block, through the mode; the rest of the buffer
stays as it was.
-/

namespace Plusaes

open Buffer Blocks

/-- The byte that a padding of `n` bytes consists of. -/
def padTag (n : ℕ) : Byte := BitVec.ofNat 8 n

/-- Whole blocks of the data, and a last block of what is left and the
padding. -/
structure PaddedBlocks (data : List Byte) (xs : List Block) (tail : List Byte) (last : Block) : Prop where
  data_eq : data = flat xs ++ tail
  length_tail : tail.length = data.length % 16
  length_blocks : xs.length = data.length / 16
  last_eq : last.toList = tail ++ List.replicate (16 - data.length % 16) (padTag (16 - data.length % 16))

theorem PaddedBlocks.pad_eq {data : List Byte} {xs : List Block} {tail : List Byte} {last : Block}
    (h : PaddedBlocks data xs tail last) : pad padTag 16 data = flat (xs ++ [last]) := by
  rw [flat_append, flat_cons, flat_nil, List.append_nil, h.last_eq, pad, padLength, ← List.append_assoc, ← h.data_eq]

theorem exists_paddedBlocks (data : List Byte) : ∃ xs tail last, PaddedBlocks data xs tail last := by
  obtain ⟨xs, tail, hdata, htail⟩ := exists_flat_append (n := 16) (by decide) data
  have hlen := congrArg List.length hdata
  rw [List.length_append, length_flat, htail] at hlen
  let cells := tail ++ List.replicate (16 - data.length % 16) (padTag (16 - data.length % 16))
  have hcells : cells.toArray.size = 16 := by
    simp [cells, htail]
    omega
  exact ⟨xs, tail, ⟨cells.toArray, hcells⟩, hdata, htail, by omega, rfl⟩

theorem checkEncryptCond_pads {n k m : ℕ} :
    checkEncryptCond n k m true = .kErrorOk ↔ isValidKeySize k = true ∧ getPaddedEncryptedSize n ≤ m := by
  simp only [checkEncryptCond]
  cases isValidKeySize k <;> simp

theorem checkEncryptCond_plain {n k m : ℕ} :
    checkEncryptCond n k m false = .kErrorOk ↔ n % 16 = 0 ∧ isValidKeySize k = true ∧ n ≤ m := by
  simp only [checkEncryptCond]
  cases isValidKeySize k <;> by_cases hn : n % 16 = 0 <;> simp [hn]

theorem getPaddedEncryptedSize_eq {n : ℕ} (h : n < 2 ^ 63) : getPaddedEncryptedSize n = 16 * (n / 16 + 1) := by
  rw [getPaddedEncryptedSize, ulong]
  omega

/-! ## ECB -/

/-- Each block of the data through `f`, to the same place of the buffer. -/
theorem forBlocks_map (f : Block → Block) (bs : List Block) (tail rest : List Byte) (h : 16 * bs.length ≤ rest.length) :
    forBlocks (fun i buf => cipherState f (flat bs ++ tail) (i * 16) buf (i * 16)) bs.length 0 rest =
      .ok (flat (bs.map f) ++ rest.drop (16 * bs.length)) := by
  have hfill := forBlocks_fill (fun i buf => cipherState f (flat bs ++ tail) (i * 16) buf (i * 16))
    (bs.map f) 0 [] rest (by simpa using h)
  rw [List.length_map, List.nil_append, List.nil_append] at hfill
  apply hfill
  intro os o os' rest houts hlen
  obtain ⟨xs, zs, rfl, rfl, hzs⟩ := List.map_eq_append_iff.1 houts
  obtain ⟨y, ys, rfl, rfl, rfl⟩ := List.map_eq_cons_iff.1 hzs
  rw [List.nil_append, flat_append, flat_cons, List.append_assoc, List.append_assoc]
  exact cipherState_append _ _ _ _ f y (by simp [Nat.mul_comm]) (by simp [Nat.mul_comm]) hlen

variable {rkeys : RoundKeys} {data key encrypted : List Byte}

/-- The block of the rest and the padding, as it is put together. -/
theorem PaddedBlocks.memcpy_eq {xs : List Block} {tail : List Byte} {last : Block} (h : PaddedBlocks data xs tail last) :
    memcpy (List.replicate 16 (padTag (16 - data.length % 16))) 0 data (data.length - data.length % 16)
      (data.length % 16) = .ok last.toList := by
  have hlen := congrArg List.length h.data_eq
  rw [List.length_append, length_flat, h.length_tail] at hlen
  have hcopy := memcpy_append [] (List.replicate 16 (padTag (16 - data.length % 16))) (flat xs) tail []
    (d := 0) (e := data.length - data.length % 16) (n := data.length % 16) rfl (by rw [length_flat]; omega)
    h.length_tail.symm (by rw [List.length_replicate]; omega)
  rw [List.append_nil, ← h.data_eq, List.nil_append, List.nil_append, List.drop_replicate] at hcopy
  rw [hcopy, h.last_eq]

theorem encryptEcb_pads (hkey : expandKey key = .ok rkeys) (hvalid : isValidKeySize key.length = true)
    (hsize : data.length < 2 ^ 63) (hbuf : getPaddedEncryptedSize data.length ≤ encrypted.length) {xs : List Block}
    {tail : List Byte} {last : Block} (h : PaddedBlocks data xs tail last) :
    encryptEcb data key encrypted true =
      .ok (.kErrorOk, flat ((xs ++ [last]).map (encryptBlock rkeys)) ++ encrypted.drop (16 * (xs.length + 1))) := by
  have hcheck := checkEncryptCond_pads.2 ⟨hvalid, hbuf⟩
  have hlen := h.length_blocks
  rw [getPaddedEncryptedSize_eq hsize] at hbuf
  have hloop := forBlocks_map (encryptBlock rkeys) xs tail encrypted (by omega)
  have hlast : cipherState (encryptBlock rkeys) last.toList 0
      (flat (xs.map (encryptBlock rkeys)) ++ encrypted.drop (16 * xs.length)) (data.length - data.length % 16) =
      .ok (flat (xs.map (encryptBlock rkeys)) ++ (encryptBlock rkeys last).toList ++
        (encrypted.drop (16 * xs.length)).drop 16) := by
    have := cipherState_append [] [] (flat (xs.map (encryptBlock rkeys))) (encrypted.drop (16 * xs.length)) (d := 0)
      (e := data.length - data.length % 16) (encryptBlock rkeys) last rfl
      (by rw [length_flat, List.length_map]; omega) (by rw [List.length_drop]; omega)
    rwa [List.nil_append, List.append_nil] at this
  rw [← h.data_eq] at hloop
  have hib := h.memcpy_eq
  rw [padTag] at hib
  rw [encryptEcb]
  simp only [hcheck, hkey, ok_bind, ne_eq, not_true_eq_false, if_false, if_true, encryptState, ← hlen, hloop, hib, hlast]
  rw [List.map_append, flat_append, List.map_singleton, flat_cons, flat_nil, List.append_nil, List.drop_drop,
    Nat.mul_succ]
  rfl

theorem encryptEcb_plain (hkey : expandKey key = .ok rkeys) (hvalid : isValidKeySize key.length = true)
    {bs : List Block} (hbuf : (flat bs).length ≤ encrypted.length) :
    encryptEcb (flat bs) key encrypted false =
      .ok (.kErrorOk, flat (bs.map (encryptBlock rkeys)) ++ encrypted.drop (16 * bs.length)) := by
  have hdvd : (flat bs).length % 16 = 0 := by rw [length_flat, Nat.mul_mod_right]
  have hcheck := checkEncryptCond_plain.2 ⟨hdvd, hvalid, hbuf⟩
  have hcount : (flat bs).length / 16 = bs.length := by rw [length_flat, Nat.mul_div_cancel_left _ (by decide)]
  have hloop := forBlocks_map (encryptBlock rkeys) bs [] encrypted (by rwa [length_flat] at hbuf)
  rw [List.append_nil] at hloop
  rw [encryptEcb]
  simp only [hcheck, hkey, ok_bind, ne_eq, not_true_eq_false, if_false, encryptState, hcount, hloop, Bool.false_eq_true]
  rfl

/-! ## CBC -/

/-- What the first block is masked with. -/
def ivBlock (iv : Option Block) : Block := iv.getD (Vector.replicate 16 0)

theorem xorIv_append (iv : Option Block) (b : Block) (rest : List Byte) :
    xorIv (b.toList ++ rest) iv = .ok ((xorBlock b (ivBlock iv)).toList ++ rest) := by
  cases iv with
  | some v => exact xorData_append [] _ b v rfl
  | none =>
    have hzero : xorBlock b (ivBlock none) = b := by
      ext1 i hi
      simp [xorBlock, ivBlock]
    rw [hzero, xorIv]

/-- The encryption of a list of blocks. -/
def cbcBlocks (rkeys : RoundKeys) (v : Block) : List Block → List Block := cbcEncrypt (encryptBlock rkeys) xorBlock v

/-- The loop goes on from the ciphertext of the first block. -/
theorem forBlocks_encryptMid (rkeys : RoundKeys) (x c : Block) (ys : List Block) (tail rest : List Byte)
    (h : 16 * ys.length ≤ rest.length) :
    forBlocks (encryptMid rkeys (flat (x :: ys) ++ tail)) ys.length 1 (c.toList ++ rest) =
      .ok (flat (c :: cbcBlocks rkeys c ys) ++ rest.drop (16 * ys.length)) := by
  have hfill := forBlocks_fill (encryptMid rkeys (flat (x :: ys) ++ tail)) (cbcBlocks rkeys c ys) 1 c.toList
    rest (by rwa [cbcBlocks, length_cbcEncrypt])
  rw [cbcBlocks, length_cbcEncrypt] at hfill
  rw [cbcBlocks, flat_cons]
  apply hfill
  intro os o os' rest houts hlen
  obtain ⟨as, b, bs, rfl, hos, rfl⟩ := cbcEncrypt_eq_append_cons _ _ _ houts
  obtain ⟨init, hinit, hcount⟩ := exists_flat_getLastD c os
  have has : as.length = os.length := by rw [← hos, length_cbcEncrypt]
  have hdata : flat (x :: (as ++ b :: bs)) ++ tail = flat (x :: as) ++ (b.toList ++ (flat bs ++ tail)) := by simp
  have hload := loadBlock_append (flat (x :: as)) (flat bs ++ tail) (d := (1 + os.length) * 16) b
    (by rw [length_flat, List.length_cons]; omega)
  have hprev := loadBlock_append (flat init) rest (d := (1 + os.length) * 16 - 16)
    (os.getLastD c) (by rw [length_flat]; omega)
  have hstore := storeBlock_append (c.toList ++ flat os) rest (e := (1 + os.length) * 16)
    (encryptBlock rkeys (xorBlock b (os.getLastD c))) (by simp; omega) hlen
  rw [← List.append_assoc, ← hinit] at hprev
  rw [encryptMid, hdata, hload, ok_bind, hprev, ok_bind, hstore]

/-- The first block of data that has one. -/
theorem first_of_long (x : Block) (rest : List Byte) :
    memcpy (List.replicate 16 0) 0 (x.toList ++ rest) 0 16 = .ok x.toList := by
  have h := memcpy_append [] (List.replicate 16 0) [] x.toList rest (d := 0) (e := 0) (n := 16) rfl rfl (by simp)
    (by simp)
  simpa using h

/-- The blocks of the data that are whole, and then the padding if there is
one. -/
theorem encryptCbc_of_cons (hkey : expandKey key = .ok rkeys) (iv : Option Block) (pads : Bool)
    (hcheck : checkEncryptCond data.length key.length encrypted.length pads = .kErrorOk)
    {x : Block} {ys : List Block} {tail : List Byte} (hdata : data = flat (x :: ys) ++ tail)
    (hcount : ys.length = data.length / 16 - 1) (hge : 16 ≤ data.length) (hbuf : 16 * (ys.length + 1) ≤ encrypted.length) :
    encryptCbc data key iv encrypted pads =
      let mid := flat (cbcBlocks rkeys (ivBlock iv) (x :: ys)) ++ encrypted.drop (16 * (ys.length + 1))
      if pads then do
        let ib ← memcpy (List.replicate 16 (padTag (16 - data.length % 16))) 0 data
          (data.length - data.length % 16) (data.length % 16)
        let v ← loadBlock mid (ys.length * 16)
        let ib ← xorData ib 0 v
        let encrypted ← encryptState rkeys ib 0 mid (data.length - data.length % 16)
        return (.kErrorOk, encrypted)
      else .ok (.kErrorOk, mid) := by
  let c := encryptBlock rkeys (xorBlock x (ivBlock iv))
  have hfirst : memcpy (List.replicate 16 0) 0 data 0 16 = .ok x.toList := by
    rw [hdata, flat_cons, List.append_assoc]
    exact first_of_long x _
  have hiv : xorIv x.toList iv = .ok (xorBlock x (ivBlock iv)).toList := by
    simpa using xorIv_append iv x []
  have hstate : encryptState rkeys (xorBlock x (ivBlock iv)).toList 0 encrypted 0 =
      .ok (c.toList ++ encrypted.drop 16) := by
    have h := cipherState_append [] [] [] encrypted (d := 0) (e := 0)
      (encryptBlock rkeys) (xorBlock x (ivBlock iv)) rfl rfl (by omega)
    simpa [encryptState] using h
  have hloop := forBlocks_encryptMid rkeys x c ys tail (encrypted.drop 16) (by rw [List.length_drop]; omega)
  rw [← hdata, hcount] at hloop
  have hmid : flat (c :: cbcBlocks rkeys c ys) ++ (encrypted.drop 16).drop (16 * (data.length / 16 - 1)) =
      flat (cbcBlocks rkeys (ivBlock iv) (x :: ys)) ++ encrypted.drop (16 * (ys.length + 1)) := by
    rw [List.drop_drop, hcount, Nat.mul_succ, Nat.add_comm 16]
    rfl
  rw [hmid] at hloop
  rw [encryptCbc]
  simp only [hcheck, hkey, ok_bind, ne_eq, not_true_eq_false, if_false, ge_iff_le, hge, decide_true, if_true, hfirst,
    hiv, hstate, hloop, Bool.and_true, padTag, hcount]
  rfl

theorem encryptCbc_plain (hkey : expandKey key = .ok rkeys) (hvalid : isValidKeySize key.length = true)
    (iv : Option Block) (x : Block) (ys : List Block) (hbuf : (flat (x :: ys)).length ≤ encrypted.length) :
    encryptCbc (flat (x :: ys)) key iv encrypted false =
      .ok (.kErrorOk, flat (cbcBlocks rkeys (ivBlock iv) (x :: ys)) ++ encrypted.drop (16 * (ys.length + 1))) := by
  have hlen : (flat (x :: ys)).length = 16 * (ys.length + 1) := length_flat _
  have hcheck := checkEncryptCond_plain.2 ⟨by rw [hlen, Nat.mul_mod_right], hvalid, hbuf⟩
  rw [encryptCbc_of_cons hkey iv false hcheck (List.append_nil _).symm (by omega) (by omega) (by omega)]
  rfl

/-- Data without a whole block is the padded block alone. -/
theorem encryptCbc_short (hkey : expandKey key = .ok rkeys) (iv : Option Block)
    (hcheck : checkEncryptCond data.length key.length encrypted.length true = .kErrorOk) (hshort : data.length < 16)
    (hbuf : 16 ≤ encrypted.length) {last : Block} (h : PaddedBlocks data [] data last) :
    encryptCbc data key iv encrypted true =
      .ok (.kErrorOk, (encryptBlock rkeys (xorBlock last (ivBlock iv))).toList ++ encrypted.drop 16) := by
  have hmod := Nat.mod_eq_of_lt hshort
  have hib := h.memcpy_eq
  rw [hmod, Nat.sub_self, padTag] at hib
  have hiv : xorIv last.toList iv = .ok (xorBlock last (ivBlock iv)).toList := by
    simpa using xorIv_append iv last []
  have hstate := cipherState_append [] [] [] encrypted (d := 0) (e := 0)
    (encryptBlock rkeys) (xorBlock last (ivBlock iv)) rfl rfl (by omega)
  rw [List.append_nil, List.nil_append, List.nil_append, List.nil_append] at hstate
  have hge : ¬ 16 ≤ data.length := by omega
  have hnone : data.length / 16 = 0 := Nat.div_eq_of_lt hshort
  rw [encryptCbc]
  simp only [hcheck, hkey, ok_bind, ne_eq, not_true_eq_false, if_false, ge_iff_le, hge, decide_false, hmod, hib, hiv,
    encryptState, hstate, Bool.and_false, Bool.false_eq_true, hnone, Nat.zero_sub, forBlocks]
  rfl

theorem encryptCbc_pads (hkey : expandKey key = .ok rkeys) (hvalid : isValidKeySize key.length = true)
    (iv : Option Block) (hsize : data.length < 2 ^ 63) (hbuf : getPaddedEncryptedSize data.length ≤ encrypted.length)
    {xs : List Block} {tail : List Byte} {last : Block} (h : PaddedBlocks data xs tail last) :
    encryptCbc data key iv encrypted true =
      .ok (.kErrorOk, flat (cbcBlocks rkeys (ivBlock iv) (xs ++ [last])) ++ encrypted.drop (16 * (xs.length + 1))) := by
  have hcheck := checkEncryptCond_pads.2 ⟨hvalid, hbuf⟩
  have hib := h.memcpy_eq
  have hcount := h.length_blocks
  rw [getPaddedEncryptedSize_eq hsize] at hbuf
  rcases xs with _ | ⟨x, ys⟩
  · have hshort : data.length < 16 := by
      rw [List.length_nil] at hcount
      omega
    obtain rfl : tail = data := h.data_eq.symm
    rw [encryptCbc_short hkey iv hcheck hshort (by omega) h]
    simp [cbcBlocks, cbcEncrypt]
  · have hcs : cbcBlocks rkeys (ivBlock iv) (x :: ys) = encryptBlock rkeys (xorBlock x (ivBlock iv)) ::
        cbcBlocks rkeys (encryptBlock rkeys (xorBlock x (ivBlock iv))) ys := rfl
    have hsnoc : cbcBlocks rkeys (ivBlock iv) (x :: ys ++ [last]) = cbcBlocks rkeys (ivBlock iv) (x :: ys) ++
        [encryptBlock rkeys (xorBlock last ((cbcBlocks rkeys (ivBlock iv) (x :: ys)).getLastD (ivBlock iv)))] :=
      cbcEncrypt_snoc _ _ _ _ _
    rw [hcs, List.getLastD_cons] at hsnoc
    rw [List.length_cons] at hcount
    rw [encryptCbc_of_cons hkey iv true hcheck h.data_eq (by omega) (by omega) (by omega)]
    rw [hcs, hsnoc]
    generalize encryptBlock rkeys (xorBlock x (ivBlock iv)) = c
    generalize hcs' : cbcBlocks rkeys c ys = cs
    have hlen : cs.length = ys.length := by rw [← hcs', cbcBlocks, length_cbcEncrypt]
    obtain ⟨init, hinit, hinitLen⟩ := exists_flat_getLastD c cs
    have hload := loadBlock_append (flat init) (encrypted.drop (16 * (ys.length + 1))) (d := ys.length * 16) (cs.getLastD c)
      (by rw [length_flat]; omega)
    rw [← List.append_assoc, ← hinit, ← flat_cons] at hload
    have hxor := xorData_append [] [] (d := 0) last (cs.getLastD c) rfl
    rw [List.nil_append, List.append_nil, List.nil_append, List.append_nil] at hxor
    have hstate := cipherState_append [] [] (flat (c :: cs)) (encrypted.drop (16 * (ys.length + 1))) (d := 0)
      (e := data.length - data.length % 16) (encryptBlock rkeys) (xorBlock last (cs.getLastD c)) rfl
      (by rw [length_flat, List.length_cons]; omega)
      (by rw [List.length_drop]; omega)
    rw [List.append_nil, List.nil_append] at hstate
    simp only [if_true, hib, ok_bind, hload, hxor, encryptState, hstate]
    rw [List.drop_drop, flat_append (c :: cs), flat_cons (encryptBlock _ _), flat_nil, List.append_nil,
      List.length_cons, Nat.mul_succ 16 (ys.length + 1)]
    rfl

end Plusaes

import NatServer.Plusaes.Encrypt
/-!
# What the decryptions write

All blocks but the last are written before the padding is looked at; the last
one without its padding.
-/

namespace Plusaes

open Buffer Blocks

theorem ulong_sub_one (k : ℕ) (h : k < 2 ^ 63) : ulong (((16 * (k + 1) : ℕ) : ℤ) / 16 - 1) = k := by
  rw [ulong]
  omega

theorem checkDecryptCond_plain {n k m : ℕ} :
    checkDecryptCond n k m false = .kErrorOk ↔ n % 16 = 0 ∧ isValidKeySize k = true ∧ n ≤ m := by
  simp only [checkDecryptCond]
  cases isValidKeySize k <;> by_cases hn : n % 16 = 0 <;> simp [hn]

theorem checkDecryptCond_padded {n k m : ℕ} :
    checkDecryptCond n k m true = .kErrorOk ↔ n % 16 = 0 ∧ isValidKeySize k = true ∧ ulong (n - 16) ≤ m := by
  simp only [checkDecryptCond]
  cases isValidKeySize k <;> by_cases hn : n % 16 = 0 <;> simp [hn]

/-- The padding byte 0 passes. -/
theorem checkPadding_iff {p : ℕ} {last : Block} :
    checkPadding p last = true ↔ p ≤ 16 ∧ List.replicate p (padTag p) <:+ last.toList := by
  rw [checkPadding]
  by_cases hp : p ≤ 16
  · have hsuffix : List.replicate p (padTag p) <:+ last.toList ↔ last.toList.drop (16 - p) = List.replicate p (padTag p) := by
      rw [List.suffix_iff_eq_drop, List.length_replicate, Vector.length_toList, eq_comm]
    rw [if_neg (by omega), hsuffix, List.eq_replicate_iff]
    simp only [List.all_eq_true, List.mem_range, beq_iff_eq, hp, true_and, List.length_drop, Vector.length_toList]
    have htag (b : Byte) : b.toNat = p ↔ b = padTag p := by
      rw [padTag, ← BitVec.toNat_inj, BitVec.toNat_ofNat, Nat.mod_eq_of_lt (by omega)]
    constructor
    · intro h
      refine ⟨by omega, fun b hb => ?_⟩
      obtain ⟨j, hj, rfl⟩ := List.mem_iff_getElem.1 hb
      rw [List.length_drop, Vector.length_toList] at hj
      have hidx : 16 - 1 - (p - 1 - j) = 16 - p + j := by omega
      have hbyte := h (p - 1 - j) (by omega)
      simp only [hidx] at hbyte
      rw [List.getElem_drop, Vector.getElem_toList, ← htag, hbyte]
    · rintro ⟨-, h⟩ i hi
      rw [htag]
      apply h
      rw [List.mem_iff_getElem]
      refine ⟨p - 1 - i, by rw [List.length_drop, Vector.length_toList]; omega, ?_⟩
      rw [List.getElem_drop, Vector.getElem_toList]
      congr 1
      omega
  · rw [if_pos (by omega)]
    simp [hp]

/-! ## The end of a decryption -/

section
variable (last : Block) (qs : List Block) (rest : List Byte)

theorem finishDecrypt_plain (h : 16 ≤ rest.length) :
    finishDecrypt last qs.length (flat qs ++ rest) none =
      .ok (.kErrorOk, flat (qs ++ [last]) ++ rest.drop 16, none) := by
  have hstore := storeBlock_append (flat qs) rest (e := qs.length * 16) last
    (by rw [length_flat, Nat.mul_comm]) h
  rw [finishDecrypt, hstore, ok_bind, flat_append, flat_cons, flat_nil, List.append_nil]
  rfl

/-- The padding byte is the last of the block. -/
theorem finishDecrypt_padded (p : ℕ) :
    finishDecrypt last qs.length (flat qs ++ rest) (some p) =
      if checkPadding (lastByte last).toNat last = true then
        if 16 - (lastByte last).toNat ≤ rest.length then
          .ok (.kErrorOk, flat qs ++ last.toList.take (16 - (lastByte last).toNat) ++ rest.drop (16 - (lastByte last).toNat),
            some (lastByte last).toNat)
        else .ok (.kErrorInvalidBufferSize, flat qs ++ rest, some (lastByte last).toNat)
      else .ok (.kErrorInvalidKey, flat qs ++ rest, some (lastByte last).toNat) := by
  rw [finishDecrypt]
  by_cases hpad : checkPadding (lastByte last).toNat last = true
  · have hle := (checkPadding_iff.1 hpad).1
    have hcs : ulong ((16 : ℤ) - ((lastByte last).toNat : ℤ)) = 16 - (lastByte last).toNat := by
      rw [ulong]
      omega
    have hcopy (hfit : 16 - (lastByte last).toNat ≤ rest.length) :
        memcpy (flat qs ++ rest) (qs.length * 16) last.toList 0 (16 - (lastByte last).toNat) =
          .ok (flat qs ++ last.toList.take (16 - (lastByte last).toNat) ++ rest.drop (16 - (lastByte last).toNat)) := by
      have h := memcpy_append (flat qs) rest [] (last.toList.take (16 - (lastByte last).toNat))
        (last.toList.drop (16 - (lastByte last).toNat)) (d := qs.length * 16) (e := 0) (n := 16 - (lastByte last).toNat)
        (by rw [length_flat, Nat.mul_comm]) rfl (by rw [List.length_take, Vector.length_toList]; omega) hfit
      rwa [List.nil_append, List.take_append_drop] at h
    have hfits : (flat qs ++ rest).length ≥ qs.length * 16 + (16 - (lastByte last).toNat) ↔
        16 - (lastByte last).toNat ≤ rest.length := by
      rw [List.length_append, length_flat]
      omega
    simp only [hpad, hcs, Bool.not_true, Bool.false_eq_true, if_false, if_true, hfits]
    split
    · rw [hcopy ‹_›, ok_bind]
      rfl
    · rfl
  · simp only [hpad, Bool.not_false, if_true, Bool.false_eq_true, if_false]
    rfl

end

/-! ## ECB -/

variable {rkeys : RoundKeys} {key decrypted : List Byte}

theorem decryptEcb_of_blocks (hkey : expandKey key = .ok rkeys) {cs : List Block} {c : Block} {p : Option ℕ}
    (hcheck : checkDecryptCond (flat (cs ++ [c])).length key.length decrypted.length p.isSome = .kErrorOk)
    (hsize : (flat (cs ++ [c])).length < 2 ^ 63) (hbuf : 16 * cs.length ≤ decrypted.length) :
    decryptEcb (flat (cs ++ [c])) key decrypted p =
      finishDecrypt (decryptBlock rkeys c) cs.length
        (flat (cs.map (decryptBlock rkeys)) ++ decrypted.drop (16 * cs.length)) p := by
  have hlen : (flat (cs ++ [c])).length = 16 * (cs.length + 1) := by rw [length_flat, List.length_append]; rfl
  have hbc := ulong_sub_one cs.length (by omega)
  rw [← hlen] at hbc
  have hdata : flat (cs ++ [c]) = flat cs ++ c.toList := by simp
  have hloop := forBlocks_map (decryptBlock rkeys) cs c.toList decrypted hbuf
  have hload := loadBlock_append (flat cs) [] (d := cs.length * 16) c (by rw [length_flat, Nat.mul_comm])
  rw [← hdata] at hloop
  rw [List.append_nil, ← hdata] at hload
  rw [decryptEcb]
  simp only [hcheck, hkey, hbc, ok_bind, ne_eq, not_true_eq_false, if_false, decryptState, hloop, hload]

/-! ## CBC -/

/-- The decryption of a list of blocks. -/
def cbcPlain (rkeys : RoundKeys) (v : Block) : List Block → List Block := cbcDecrypt (decryptBlock rkeys) xorBlock v

/-- The loop writes the text of the blocks after the first. -/
theorem forBlocks_decryptMid (rkeys : RoundKeys) (c q : Block) (cs : List Block) (tail rest : List Byte)
    (h : 16 * cs.length ≤ rest.length) :
    forBlocks (decryptMid rkeys (flat (c :: cs) ++ tail)) cs.length 1 (q.toList ++ rest) =
      .ok (flat (q :: cbcPlain rkeys c cs) ++ rest.drop (16 * cs.length)) := by
  have hfill := forBlocks_fill (decryptMid rkeys (flat (c :: cs) ++ tail)) (cbcPlain rkeys c cs) 1 q.toList
    rest (by rwa [cbcPlain, length_cbcDecrypt])
  rw [cbcPlain, length_cbcDecrypt] at hfill
  rw [cbcPlain, flat_cons]
  apply hfill
  intro os o os' rest houts hlen
  obtain ⟨as, b, bs, rfl, hos, rfl⟩ := cbcDecrypt_eq_append_cons _ _ _ houts
  obtain ⟨init, hinit, hcount⟩ := exists_flat_getLastD c as
  have has : as.length = os.length := by rw [← hos, length_cbcDecrypt]
  have hdata : flat (c :: (as ++ b :: bs)) ++ tail = flat (c :: as) ++ (b.toList ++ (flat bs ++ tail)) := by simp
  have hstate := cipherState_append (flat (c :: as)) (flat bs ++ tail) (q.toList ++ flat os) rest
    (d := (1 + os.length) * 16) (e := (1 + os.length) * 16) (decryptBlock rkeys) b
    (by rw [length_flat, List.length_cons]; omega) (by simp; omega) hlen
  have hprev := loadBlock_append (flat init) (b.toList ++ (flat bs ++ tail)) (d := (1 + os.length) * 16 - 16)
    (as.getLastD c) (by rw [length_flat]; omega)
  have hxor := xorData_append (q.toList ++ flat os) (rest.drop 16) (d := (1 + os.length) * 16)
    (decryptBlock rkeys b) (as.getLastD c) (by simp; omega)
  rw [← List.append_assoc (flat init), ← hinit, ← flat_cons] at hprev
  rw [List.append_assoc _ _ (rest.drop 16)] at hstate
  rw [decryptMid, hdata, decryptState, hstate, ok_bind, hprev, ok_bind, hxor, List.append_assoc _ _ (rest.drop 16)]

/-- Two blocks at least: the last one is kept apart. -/
theorem decryptCbc_of_cons (hkey : expandKey key = .ok rkeys) (iv : Option Block) {c₀ c : Block} {cs : List Block}
    {p : Option ℕ}
    (hcheck : checkDecryptCond (flat (c₀ :: cs ++ [c])).length key.length decrypted.length p.isSome = .kErrorOk)
    (hsize : (flat (c₀ :: cs ++ [c])).length < 2 ^ 63) (hbuf : 16 * (cs.length + 1) ≤ decrypted.length) :
    decryptCbc (flat (c₀ :: cs ++ [c])) key iv decrypted p =
      finishDecrypt (xorBlock (decryptBlock rkeys c) (cs.getLastD c₀)) (cs.length + 1)
        (flat (cbcPlain rkeys (ivBlock iv) (c₀ :: cs)) ++ decrypted.drop (16 * (cs.length + 1))) p := by
  have hlen : (flat (c₀ :: cs ++ [c])).length = 16 * (cs.length + 1 + 1) := by
    rw [length_flat, List.length_append]
    rfl
  have hbc := ulong_sub_one (cs.length + 1) (by omega)
  rw [← hlen] at hbc
  have hdata : flat (c₀ :: cs ++ [c]) = flat (c₀ :: cs) ++ c.toList := by simp
  let q := xorBlock (decryptBlock rkeys c₀) (ivBlock iv)
  have hfirst : decryptState rkeys (flat (c₀ :: cs ++ [c])) 0 decrypted 0 =
      .ok ((decryptBlock rkeys c₀).toList ++ decrypted.drop 16) := by
    have h := cipherState_append [] (flat (cs ++ [c])) [] decrypted (d := 0) (e := 0)
      (decryptBlock rkeys) c₀ rfl rfl (by omega)
    exact h
  have hiv := xorIv_append iv (decryptBlock rkeys c₀) (decrypted.drop 16)
  have hloop := forBlocks_decryptMid rkeys c₀ q cs c.toList (decrypted.drop 16)
    (by rw [List.length_drop]; omega)
  have hmid : flat (q :: cbcPlain rkeys c₀ cs) ++ (decrypted.drop 16).drop (16 * cs.length) =
      flat (cbcPlain rkeys (ivBlock iv) (c₀ :: cs)) ++ decrypted.drop (16 * (cs.length + 1)) := by
    rw [List.drop_drop, Nat.mul_succ, Nat.add_comm 16]
    rfl
  rw [← hdata, hmid] at hloop
  have hlast := loadBlock_append (flat (c₀ :: cs)) [] (d := (cs.length + 1) * 16) c
    (by rw [length_flat, List.length_cons, Nat.mul_comm])
  rw [List.append_nil, ← hdata] at hlast
  obtain ⟨init, hinit, hcount⟩ := exists_flat_getLastD c₀ cs
  have hprev := loadBlock_append (flat init) (c.toList) (d := (cs.length + 1) * 16 - 16) (cs.getLastD c₀)
    (by rw [length_flat]; omega)
  rw [← List.append_assoc, ← hinit, ← flat_cons, ← hdata] at hprev
  have hlong : (flat (c₀ :: cs ++ [c])).length > 16 := by omega
  rw [decryptCbc]
  simp only [hcheck, hkey, hbc, ok_bind, ne_eq, not_true_eq_false, if_false, hfirst, hiv, Nat.add_sub_cancel, hlong,
    if_true, hlast, hprev]
  rw [hloop, ok_bind]

/-- One block: it goes through the buffer, which is zeroed before the result
is written. -/
theorem decryptCbc_single (hkey : expandKey key = .ok rkeys) (iv : Option Block) {c : Block} {p : Option ℕ}
    (hcheck : checkDecryptCond 16 key.length decrypted.length p.isSome = .kErrorOk) (hbuf : 16 ≤ decrypted.length) :
    decryptCbc c.toList key iv decrypted p =
      finishDecrypt (xorBlock (decryptBlock rkeys c) (ivBlock iv)) 0 (List.replicate decrypted.length 0) p := by
  have hlen : c.toList.length = 16 := Vector.length_toList
  have hfirst : decryptState rkeys c.toList 0 decrypted 0 = .ok ((decryptBlock rkeys c).toList ++ decrypted.drop 16) := by
    have h := cipherState_append [] [] [] decrypted (d := 0) (e := 0)
      (decryptBlock rkeys) c rfl rfl hbuf
    rwa [List.append_nil] at h
  have hiv := xorIv_append iv (decryptBlock rkeys c) (decrypted.drop 16)
  have hcopy := first_of_long (xorBlock (decryptBlock rkeys c) (ivBlock iv)) (decrypted.drop 16)
  have hload := loadBlock_append [] [] (d := 0) (xorBlock (decryptBlock rkeys c) (ivBlock iv)) rfl
  rw [List.nil_append, List.append_nil] at hload
  have hbc : ulong (((16 : ℕ) : ℤ) / 16 - 1) = 0 := by decide
  have htotal : ((xorBlock (decryptBlock rkeys c) (ivBlock iv)).toList ++ decrypted.drop 16).length = decrypted.length := by
    rw [List.length_append, Vector.length_toList, List.length_drop]
    omega
  rw [decryptCbc]
  simp only [hlen, hcheck, hkey, hbc, ok_bind, ne_eq, not_true_eq_false, if_false, hfirst, hiv, Nat.zero_sub,
    forBlocks, gt_iff_lt, Nat.lt_irrefl, hcopy, hload, htotal]

end Plusaes

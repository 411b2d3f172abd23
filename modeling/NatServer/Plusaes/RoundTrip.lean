import NatServer.Plusaes.Decrypt
/-!
# Round trips

What was encrypted comes back, and what a padded decryption accepts was
encrypted, but for texts that end in the byte 0.
-/

namespace Plusaes

open Buffer Blocks

section
variable {data : List Byte} {xs : List Block} {tail : List Byte} {last : Block}

theorem PaddedBlocks.last_byte (h : PaddedBlocks data xs tail last) : (lastByte last).toNat = 16 - data.length % 16 := by
  have hmod := Nat.mod_lt data.length (by decide : 0 < 16)
  have hget : last.toList[15]? = some (padTag (16 - data.length % 16)) := by
    rw [h.last_eq, List.getElem?_append_right (by rw [h.length_tail]; omega), List.getElem?_replicate,
      if_pos (by rw [h.length_tail]; omega)]
  rw [getElem?_lastByte, Option.some.injEq] at hget
  rw [hget, padTag, BitVec.toNat_ofNat, Nat.mod_eq_of_lt (by omega)]

theorem PaddedBlocks.checkPadding_eq (h : PaddedBlocks data xs tail last) :
    checkPadding (lastByte last).toNat last = true := by
  rw [checkPadding_iff, h.last_byte]
  exact ⟨Nat.sub_le .., h.last_eq ▸ List.suffix_append ..⟩

/-- What is left of the last block without its padding is the rest of the
data. -/
theorem PaddedBlocks.take_last (h : PaddedBlocks data xs tail last) :
    last.toList.take (16 - (lastByte last).toNat) = tail := by
  have hmod := Nat.mod_lt data.length (by decide : 0 < 16)
  rw [h.last_byte, h.last_eq, List.take_append_of_le_length (by rw [h.length_tail]; omega), List.take_of_length_le]
  rw [h.length_tail]
  omega

end

variable {rkeys : RoundKeys} {data key encrypted decrypted : List Byte}

/-- What `g` undoes it writes back to where the block came from. -/
theorem cipherState_back {f g : Block → Block} (hgf : ∀ b, g (f b) = b) {out out' : List Byte} {d e : ℕ}
    (h : cipherState f data d out e = .ok out') : cipherState g out' e data d = .ok data := by
  rw [cipherState] at h
  rcases hload : loadBlock data d with fault | b
  · rw [hload, error_bind] at h
    cases h
  · rw [hload, ok_bind] at h
    obtain ⟨xs, ys, rfl, rfl⟩ := Buffer.load_eq_some.1 (orFault_eq_ok.1 hload)
    have hstore := orFault_eq_ok.1 h
    rw [Buffer.store] at hstore
    split at hstore
    next hfit =>
      cases hstore
      have hback := cipherState_append (out.take e) (out.drop (e + 16)) xs (b.toList ++ ys) (d := e) (e := xs.length) g
        (f b) (by rw [List.length_take]; omega) rfl (by simp)
      rw [← List.append_assoc, ← List.append_assoc] at hback
      rw [hback, hgf]
      simp
    next => cases hstore

/-- One block: each call takes back what the other wrote. -/
theorem state_inverse {out out' : List Byte} {d e : ℕ} :
    (encryptState rkeys data d out e = .ok out' → decryptState rkeys out' e data d = .ok data) ∧
      (decryptState rkeys data d out e = .ok out' → encryptState rkeys out' e data d = .ok data) :=
  ⟨cipherState_back (decryptBlock_encryptBlock rkeys), cipherState_back (encryptBlock_decryptBlock rkeys)⟩

theorem state_inverse_zeros :
    let rkeys : RoundKeys := ⟨[Vector.replicate 4 0, Vector.replicate 4 0], by decide⟩
    let data : List Byte := List.replicate 16 0
    decryptState rkeys (encryptBlock rkeys (Vector.replicate 16 0)).toList 0 data 0 = .ok data ∧
      encryptState rkeys (decryptBlock rkeys (Vector.replicate 16 0)).toList 0 data 0 = .ok data :=
  have h (f : Block → Block) : cipherState f (List.replicate 16 0) 0 (List.replicate 16 0) 0 =
      .ok (f (Vector.replicate 16 0)).toList := by
    simpa using cipherState_append [] [] [] (List.replicate 16 0) (d := 0) (e := 0) f (Vector.replicate 16 0) rfl rfl
      (by decide)
  ⟨state_inverse.1 (h _), state_inverse.2 (h _)⟩

theorem finishDecrypt_paddedBlocks {xs : List Block} {tail : List Byte} {last : Block}
    (h : PaddedBlocks data xs tail last) (rest : List Byte) (p : ℕ) (hfit : tail.length ≤ rest.length) :
    finishDecrypt last xs.length (flat xs ++ rest) (some p) =
      .ok (.kErrorOk, data ++ rest.drop tail.length, some (16 - data.length % 16)) := by
  have htail : 16 - (lastByte last).toNat = tail.length := by
    have hmod := Nat.mod_lt data.length (by decide : 0 < 16)
    rw [h.last_byte, h.length_tail]
    omega
  rw [finishDecrypt_padded, if_pos h.checkPadding_eq, h.take_last, htail, if_pos hfit, ← h.data_eq, h.last_byte]

/-- A ciphertext of at least one block. -/
theorem decryptCbc_eq (hkey : expandKey key = .ok rkeys) (iv : Option Block) {cs qs : List Block} {last : Block}
    {p : Option ℕ} (hplain : cbcPlain rkeys (ivBlock iv) cs = qs ++ [last])
    (hcheck : checkDecryptCond (flat cs).length key.length decrypted.length p.isSome = .kErrorOk)
    (hsize : (flat cs).length < 2 ^ 63) (hbuf : 16 * qs.length ≤ decrypted.length) (hblock : 16 ≤ decrypted.length) :
    decryptCbc (flat cs) key iv decrypted p =
      finishDecrypt last qs.length
        (flat qs ++ if qs = [] then List.replicate decrypted.length 0 else decrypted.drop (16 * qs.length)) p := by
  have hlen := congrArg List.length hplain
  rw [cbcPlain, length_cbcDecrypt, List.length_append, List.length_singleton] at hlen
  rcases cs with _ | ⟨c₀, cs⟩
  · cases hlen
  · rcases List.eq_nil_or_concat cs with rfl | ⟨cs, c, rfl⟩
    · obtain rfl : qs = [] := List.eq_nil_of_length_eq_zero (by simpa using hlen.symm)
      have hlast : xorBlock (decryptBlock rkeys c₀) (ivBlock iv) = last := (List.cons.inj hplain).1
      rw [flat_cons, flat_nil, List.append_nil] at hcheck ⊢
      rw [Vector.length_toList] at hcheck
      rw [decryptCbc_single hkey iv hcheck hblock, hlast]
      rfl
    · rw [List.concat_eq_append, ← List.cons_append] at hplain hcheck hsize ⊢
      rw [cbcPlain, cbcDecrypt_snoc, List.getLastD_cons] at hplain
      obtain ⟨hqs, hlast⟩ := List.append_inj' hplain rfl
      have hcount : qs.length = cs.length + 1 := by rw [← hqs, length_cbcDecrypt, List.length_cons]
      have hne : qs ≠ [] := by
        rintro rfl
        cases hcount
      rw [decryptCbc_of_cons hkey iv hcheck hsize (by omega), if_neg hne, hcount]
      rw [cbcPlain, hqs, (List.cons.inj hlast).1]

theorem cbcPlain_cbcBlocks (rkeys : RoundKeys) (v : Block) (bs : List Block) : cbcPlain rkeys v (cbcBlocks rkeys v bs) = bs :=
  cbcDecrypt_cbcEncrypt v xorBlock_xorBlock (decryptBlock_encryptBlock rkeys) bs

theorem cbcBlocks_cbcPlain (rkeys : RoundKeys) (v : Block) (bs : List Block) : cbcBlocks rkeys v (cbcPlain rkeys v bs) = bs :=
  cbcEncrypt_cbcDecrypt v xorBlock_xorBlock (encryptBlock_decryptBlock rkeys) bs

/-- The decryption of padded data. The buffer has to hold a whole block even
where the data is shorter; what it holds behind the data is kept, or zeroed
where there was one block only. -/
theorem decryptCbc_padded (hkey : expandKey key = .ok rkeys) (iv : Option Block) (p : ℕ)
    (hvalid : isValidKeySize key.length = true) (hsize : data.length + 16 < 2 ^ 63)
    (hdec : data.length ≤ decrypted.length) (hblock : 16 ≤ decrypted.length) {xs : List Block} {tail : List Byte}
    {last : Block} (h : PaddedBlocks data xs tail last) :
    (flat (cbcBlocks rkeys (ivBlock iv) (xs ++ [last]))).length = getPaddedEncryptedSize data.length ∧
      decryptCbc (flat (cbcBlocks rkeys (ivBlock iv) (xs ++ [last]))) key iv decrypted (some p) =
        .ok (.kErrorOk, data ++ (if data.length < 16 then List.replicate (decrypted.length - data.length) 0
          else decrypted.drop data.length), some (16 - data.length % 16)) := by
  have hcount := h.length_blocks
  have htail := h.length_tail
  have hpadded := getPaddedEncryptedSize_eq (n := data.length) (by omega)
  have hcs : (flat (cbcBlocks rkeys (ivBlock iv) (xs ++ [last]))).length = getPaddedEncryptedSize data.length := by
    rw [length_flat, cbcBlocks, length_cbcEncrypt, hpadded, ← hcount, List.length_append, List.length_singleton]
  have hcheck : checkDecryptCond (getPaddedEncryptedSize data.length) key.length decrypted.length true = .kErrorOk := by
    rw [checkDecryptCond_padded, hpadded]
    refine ⟨Nat.mul_mod_right .., hvalid, ?_⟩
    rw [ulong]
    omega
  have hplain := cbcPlain_cbcBlocks rkeys (ivBlock iv) (xs ++ [last])
  have hrest : tail.length ≤ (if xs = [] then List.replicate decrypted.length 0
        else decrypted.drop (16 * xs.length)).length ∧
      (if xs = [] then List.replicate decrypted.length 0 else decrypted.drop (16 * xs.length)).drop tail.length =
        if data.length < 16 then List.replicate (decrypted.length - data.length) 0 else decrypted.drop data.length := by
    by_cases hxs : xs = []
    · have hshort : data.length < 16 := by
        rw [hxs, List.length_nil] at hcount
        omega
      rw [if_pos hxs, if_pos hshort, List.length_replicate, List.drop_replicate, htail, Nat.mod_eq_of_lt hshort]
      exact ⟨hdec, rfl⟩
    · have hpos := List.length_pos_iff.2 hxs
      rw [if_neg hxs, if_neg (by omega), List.length_drop, List.drop_drop]
      refine ⟨by omega, ?_⟩
      congr 1
      omega
  refine ⟨hcs, ?_⟩
  rw [decryptCbc_eq hkey iv hplain (by rwa [hcs]) (by omega) (by omega) hblock,
    finishDecrypt_paddedBlocks h _ p hrest.1, hrest.2]

/-- A padded ciphertext gives the data back, with the size of its padding. -/
theorem decryptCbc_encryptCbc (iv : Option Block) (p : ℕ) (hvalid : isValidKeySize key.length = true)
    (hsize : data.length + 16 < 2 ^ 63) (henc : getPaddedEncryptedSize data.length ≤ encrypted.length)
    (hdec : data.length ≤ decrypted.length) (hblock : 16 ≤ decrypted.length) :
    ∃ enc, encryptCbc data key iv encrypted true = .ok (.kErrorOk, enc) ∧
      decryptCbc (enc.take (getPaddedEncryptedSize data.length)) key iv decrypted (some p) =
        .ok (.kErrorOk, data ++ (if data.length < 16 then List.replicate (decrypted.length - data.length) 0
          else decrypted.drop data.length), some (16 - data.length % 16)) := by
  obtain ⟨rkeys, hkey⟩ := expandKey_of_valid hvalid
  obtain ⟨xs, tail, last, h⟩ := exists_paddedBlocks data
  obtain ⟨hcs, hback⟩ := decryptCbc_padded hkey iv p hvalid hsize hdec hblock h
  refine ⟨_, encryptCbc_pads hkey hvalid iv (by omega) henc h, ?_⟩
  rw [List.take_left' hcs, hback]

theorem decryptCbc_encryptCbc_seventeen :
    let data : List Byte := (List.range 17).map (BitVec.ofNat 8)
    ∃ enc, encryptCbc data (List.replicate 16 0) none (List.replicate 32 0) true = .ok (.kErrorOk, enc) ∧
      decryptCbc (enc.take 32) (List.replicate 16 0) none (List.replicate 32 0) (some 0) =
        .ok (.kErrorOk, data ++ List.replicate 15 0, some 15) :=
  decryptCbc_encryptCbc none 0 (by decide) (by decide) (by decide) (by decide) (by decide)

theorem decryptEcb_encryptEcb (p : ℕ) (hvalid : isValidKeySize key.length = true) (hsize : data.length + 16 < 2 ^ 63)
    (henc : getPaddedEncryptedSize data.length ≤ encrypted.length) (hdec : data.length ≤ decrypted.length) :
    ∃ enc, encryptEcb data key encrypted true = .ok (.kErrorOk, enc) ∧
      decryptEcb (enc.take (getPaddedEncryptedSize data.length)) key decrypted (some p) =
        .ok (.kErrorOk, data ++ decrypted.drop data.length, some (16 - data.length % 16)) := by
  obtain ⟨rkeys, hkey⟩ := expandKey_of_valid hvalid
  obtain ⟨xs, tail, last, h⟩ := exists_paddedBlocks data
  have hcount := h.length_blocks
  have htail := h.length_tail
  have hpadded := getPaddedEncryptedSize_eq (n := data.length) (by omega)
  have hmap : (xs ++ [last]).map (encryptBlock rkeys) = xs.map (encryptBlock rkeys) ++ [encryptBlock rkeys last] := by
    simp
  have hcs : (flat (xs.map (encryptBlock rkeys) ++ [encryptBlock rkeys last])).length =
      getPaddedEncryptedSize data.length := by
    rw [length_flat, List.length_append, List.length_map, List.length_singleton, hpadded, hcount]
  have hcheck : checkDecryptCond (getPaddedEncryptedSize data.length) key.length decrypted.length true = .kErrorOk := by
    rw [checkDecryptCond_padded, hpadded]
    refine ⟨Nat.mul_mod_right .., hvalid, ?_⟩
    rw [ulong]
    omega
  have hback : (xs.map (encryptBlock rkeys)).map (decryptBlock rkeys) = xs := by
    rw [List.map_map]
    simp [Function.comp_def]
  have hdrop : (decrypted.drop (16 * xs.length)).drop tail.length = decrypted.drop data.length := by
    rw [List.drop_drop]
    congr 1
    omega
  refine ⟨_, encryptEcb_pads hkey hvalid (by omega) henc h, ?_⟩
  rw [hmap, List.take_left' hcs, decryptEcb_of_blocks hkey (by rwa [hcs]) (by omega) (by rw [List.length_map]; omega),
    hback, List.length_map, decryptBlock_encryptBlock,
    finishDecrypt_paddedBlocks h _ p (by rw [List.length_drop]; omega), hdrop]

theorem decryptEcb_encryptEcb_seventeen :
    let data : List Byte := (List.range 17).map (BitVec.ofNat 8)
    ∃ enc, encryptEcb data (List.replicate 16 0) (List.replicate 32 0) true = .ok (.kErrorOk, enc) ∧
      decryptEcb (enc.take 32) (List.replicate 16 0) (List.replicate 17 0) (some 0) = .ok (.kErrorOk, data, some 15) :=
  decryptEcb_encryptEcb 0 (by decide) (by decide) (by decide) (by decide)

/-! ## Without padding -/

/-- Blocks decrypt to as many, the last of which is looked at for padding. -/
theorem cbcPlain_concat (rkeys : RoundKeys) (v : Block) {cs : List Block} (hne : cs ≠ []) :
    ∃ qs last, cbcPlain rkeys v cs = qs ++ [last] ∧ cs.length = qs.length + 1 := by
  have hlen : (cbcPlain rkeys v cs).length = cs.length := length_cbcDecrypt ..
  rcases List.eq_nil_or_concat (cbcPlain rkeys v cs) with h | ⟨qs, last, h⟩
  · rw [h] at hlen
    exact absurd (List.eq_nil_of_length_eq_zero hlen.symm) hne
  · rw [List.concat_eq_append] at h
    exact ⟨qs, last, h, by rw [← hlen, h, List.length_append, List.length_singleton]⟩

/-- What is left of the buffer behind the blocks decrypted so far. -/
theorem le_length_rest {qs : List Block} {n : ℕ} (h : 16 * qs.length + n ≤ decrypted.length) :
    n ≤ (if qs = [] then List.replicate decrypted.length 0 else decrypted.drop (16 * qs.length)).length := by
  split
  · rw [List.length_replicate]
    omega
  · rw [List.length_drop]
    omega

/-- The text of whole blocks, as an unpadded decryption leaves it; with more
than one block the buffer behind it is left as it was. -/
theorem decryptCbc_plain_eq (hkey : expandKey key = .ok rkeys) (hvalid : isValidKeySize key.length = true)
    (iv : Option Block) (cs : List Block) (hne : cs ≠ []) (hsize : (flat cs).length < 2 ^ 63)
    (hdec : (flat cs).length ≤ decrypted.length) :
    ∃ rest, (1 < cs.length → rest = decrypted.drop (16 * cs.length)) ∧ decryptCbc (flat cs) key iv decrypted none =
      .ok (.kErrorOk, flat (cbcPlain rkeys (ivBlock iv) cs) ++ rest, none) := by
  obtain ⟨qs, last, hplain, hcount⟩ := cbcPlain_concat rkeys (ivBlock iv) hne
  have hflat := length_flat cs
  have hcheck : checkDecryptCond (flat cs).length key.length decrypted.length (none : Option ℕ).isSome = .kErrorOk :=
    checkDecryptCond_plain.2 ⟨by rw [hflat, Nat.mul_mod_right], hvalid, hdec⟩
  rw [decryptCbc_eq hkey iv hplain hcheck hsize (by omega) (by omega),
    finishDecrypt_plain _ _ _ (le_length_rest (by omega)), hplain]
  refine ⟨_, fun hmore => ?_, rfl⟩
  have hqs : qs ≠ [] := by
    rintro rfl
    rw [hcount] at hmore
    exact absurd hmore (by decide)
  rw [if_neg hqs, List.drop_drop, hcount, Nat.mul_succ]

/-- Whole blocks without padding: either direction undoes the other. -/
theorem cbc_plain_inverse (iv : Option Block) (hvalid : isValidKeySize key.length = true) (hdvd : 16 ∣ data.length)
    (hne : data ≠ []) (hsize : data.length < 2 ^ 63) (henc : data.length ≤ encrypted.length)
    (hdec : data.length ≤ decrypted.length) :
    (∃ enc dec, encryptCbc data key iv encrypted false = .ok (.kErrorOk, enc) ∧
      decryptCbc (enc.take data.length) key iv decrypted none = .ok (.kErrorOk, dec, none) ∧
      dec.take data.length = data) ∧
    ∃ dec, decryptCbc data key iv decrypted none = .ok (.kErrorOk, dec, none) ∧
      encryptCbc (dec.take data.length) key iv encrypted false =
        .ok (.kErrorOk, data ++ encrypted.drop data.length) := by
  obtain ⟨rkeys, hkey⟩ := expandKey_of_valid hvalid
  obtain ⟨bs, rfl⟩ := exists_flat (by decide : 0 < 16) hdvd
  obtain ⟨x, ys, rfl⟩ : ∃ x ys, bs = x :: ys := List.exists_cons_of_ne_nil (by rintro rfl; exact hne rfl)
  have hlen := length_flat (x :: ys)
  constructor
  · have hcs : (flat (cbcBlocks rkeys (ivBlock iv) (x :: ys))).length = (flat (x :: ys)).length := by
      rw [length_flat, hlen, cbcBlocks, length_cbcEncrypt]
    obtain ⟨rest, -, hback⟩ := decryptCbc_plain_eq hkey hvalid iv
      (cbcBlocks rkeys (ivBlock iv) (x :: ys)) (List.cons_ne_nil _ _) (by omega) (hcs.trans_le hdec)
    rw [cbcPlain_cbcBlocks _] at hback
    refine ⟨_, flat (x :: ys) ++ rest, encryptCbc_plain hkey hvalid iv x ys henc, ?_, List.take_left⟩
    rw [List.take_left' hcs]
    exact hback
  · obtain ⟨rest, -, hplain⟩ := decryptCbc_plain_eq hkey hvalid iv _ (List.cons_ne_nil x ys) hsize hdec
    have hps : (flat (cbcPlain rkeys (ivBlock iv) (x :: ys))).length = (flat (x :: ys)).length := by
      rw [length_flat, hlen, cbcPlain, length_cbcDecrypt]
    have hcons : cbcPlain rkeys (ivBlock iv) (x :: ys) =
        xorBlock (decryptBlock rkeys x) (ivBlock iv) :: cbcPlain rkeys x ys := rfl
    have hfit : (flat (xorBlock (decryptBlock rkeys x) (ivBlock iv) :: cbcPlain rkeys x ys)).length ≤
        encrypted.length := by
      rw [← hcons, hps]
      exact henc
    have hforth := encryptCbc_plain hkey hvalid iv _ _ hfit
    rw [← hcons, cbcBlocks_cbcPlain _] at hforth
    refine ⟨_, hplain, ?_⟩
    rw [List.take_left' hps, hforth, hlen, cbcPlain, length_cbcDecrypt, List.length_cons]

theorem cbc_plain_inverse_two :
    let data : List Byte := (List.range 32).map (BitVec.ofNat 8)
    let key : List Byte := List.replicate 16 0
    let buf : List Byte := List.replicate 32 0
    (∃ enc dec, encryptCbc data key none buf false = .ok (.kErrorOk, enc) ∧
      decryptCbc (enc.take 32) key none buf none = .ok (.kErrorOk, dec, none) ∧ dec.take 32 = data) ∧
    ∃ dec, decryptCbc data key none buf none = .ok (.kErrorOk, dec, none) ∧
      encryptCbc (dec.take 32) key none buf false = .ok (.kErrorOk, data) :=
  cbc_plain_inverse none (by decide) (by decide) (by decide) (by decide) (by decide) (by decide)

/-! ## What is accepted -/

/-- The padding is intact where it is that of some data, or the last byte
is 0. -/
theorem checkPadding_last_iff (qs : List Block) (last : Block) :
    checkPadding (lastByte last).toNat last = true ↔
      (∃ msg, pad padTag 16 msg = flat (qs ++ [last])) ∨ lastByte last = 0 := by
  have htext : flat (qs ++ [last]) = flat qs ++ last.toList := by simp
  constructor
  · intro h
    obtain ⟨hle, hsuffix⟩ := checkPadding_iff.1 h
    by_cases hzero : lastByte last = 0
    · exact .inr hzero
    · refine .inl ((exists_pad_iff padTag (by decide)).2 ⟨⟨_, length_flat _⟩, (lastByte last).toNat, ?_, hle, ?_⟩)
      · exact Nat.pos_of_ne_zero fun h0 => hzero (BitVec.eq_of_toNat_eq h0)
      · rw [htext]
        exact hsuffix.trans (List.suffix_append ..)
  · rintro (⟨msg, hmsg⟩ | hzero)
    · obtain ⟨xs, tail, last', h⟩ := exists_paddedBlocks msg
      have heq := flat_injective (by decide : 0 < 16) (h.pad_eq.symm.trans hmsg)
      obtain ⟨-, hlast⟩ := List.append_inj' heq rfl
      rw [← (List.cons.inj hlast).1]
      exact h.checkPadding_eq
    · rw [hzero]
      exact checkPadding_iff.2 ⟨by decide, List.nil_suffix⟩

/-- A buffer of the padded size holds the ciphertext and nothing else. -/
theorem encryptCbc_exact (hkey : expandKey key = .ok rkeys) (hvalid : isValidKeySize key.length = true)
    (iv : Option Block) (hsize : data.length < 2 ^ 63) (henc : encrypted.length = getPaddedEncryptedSize data.length)
    {xs : List Block} {tail : List Byte} {last : Block} (h : PaddedBlocks data xs tail last) :
    encryptCbc data key iv encrypted true = .ok (.kErrorOk, flat (cbcBlocks rkeys (ivBlock iv) (xs ++ [last]))) := by
  rw [encryptCbc_pads hkey hvalid iv hsize henc.ge h, List.drop_of_length_le, List.append_nil]
  rw [henc, getPaddedEncryptedSize_eq hsize, h.length_blocks]

/-- Whether a padded decryption succeeds is up to the last block. -/
theorem decryptCbc_accepts_last (hkey : expandKey key = .ok rkeys) (hvalid : isValidKeySize key.length = true)
    (iv : Option Block) (p : ℕ) {cs qs : List Block} {last : Block} (hqs : cbcPlain rkeys (ivBlock iv) cs = qs ++ [last])
    (hcount : cs.length = qs.length + 1) (hsize : (flat cs).length < 2 ^ 63)
    (hdec : (flat cs).length ≤ decrypted.length) :
    (∃ dec q, decryptCbc (flat cs) key iv decrypted (some p) = .ok (.kErrorOk, dec, q)) ↔
      checkPadding (lastByte last).toNat last = true := by
  have hflat := length_flat cs
  have hcheck : checkDecryptCond (flat cs).length key.length decrypted.length (some p).isSome = .kErrorOk := by
    refine checkDecryptCond_padded.2 ⟨by rw [hflat, Nat.mul_mod_right], hvalid, ?_⟩
    rw [ulong]
    omega
  have hrest : 16 - (lastByte last).toNat ≤ (if qs = [] then List.replicate decrypted.length 0
      else decrypted.drop (16 * qs.length)).length := le_length_rest (by omega)
  rw [decryptCbc_eq hkey iv hqs hcheck hsize (by omega) (by omega), finishDecrypt_padded, if_pos hrest]
  split <;> simp [*]

theorem getElem?_last_byte (qs : List Block) (last : Block) (rest : List Byte) :
    (flat (qs ++ [last]) ++ rest)[16 * (qs.length + 1) - 1]? = some (lastByte last) := by
  have hidx : 16 * (qs.length + 1) - 1 - (flat qs).length = 15 := by
    rw [length_flat]
    omega
  rw [flat_append, flat_cons, flat_nil, List.append_nil, List.append_assoc,
    List.getElem?_append_right (by rw [length_flat]; omega), hidx, List.getElem?_append_left (by simp),
    getElem?_lastByte]

/-- The ciphertexts of data are the blocks that decrypt to padded data. -/
theorem encryptCbc_eq_iff (hkey : expandKey key = .ok rkeys) (hvalid : isValidKeySize key.length = true)
    (iv : Option Block) {cs : List Block} (hsize : (flat cs).length < 2 ^ 63) :
    (∃ msg, getPaddedEncryptedSize msg.length = (flat cs).length ∧ msg.length < (flat cs).length ∧
      encryptCbc msg key iv (List.replicate (flat cs).length 0) true = .ok (.kErrorOk, flat cs)) ↔
      ∃ msg, pad padTag 16 msg = flat (cbcPlain rkeys (ivBlock iv) cs) := by
  have hflat := length_flat cs
  constructor
  · rintro ⟨msg, hsame, hless, hmsg⟩
    obtain ⟨xs, tail, last, h⟩ := exists_paddedBlocks msg
    rw [encryptCbc_exact hkey hvalid iv (by omega) (by rw [List.length_replicate, hsame]) h] at hmsg
    have hblocks : cbcBlocks rkeys (ivBlock iv) (xs ++ [last]) = cs := by
      simp only [Except.ok.injEq, Prod.mk.injEq, true_and] at hmsg
      exact flat_injective (by decide) hmsg
    exact ⟨msg, by rw [h.pad_eq, ← hblocks, cbcPlain_cbcBlocks _]⟩
  · rintro ⟨msg, hmsg⟩
    obtain ⟨xs, tail, last, h⟩ := exists_paddedBlocks msg
    have heq := flat_injective (by decide : 0 < 16) (h.pad_eq.symm.trans hmsg)
    have hsum : msg.length / 16 + 1 = cs.length := by
      have hlen := congrArg List.length heq
      rwa [cbcPlain, length_cbcDecrypt, List.length_append, List.length_singleton, h.length_blocks] at hlen
    have hpadded := getPaddedEncryptedSize_eq (n := msg.length) (by omega)
    have hsame : getPaddedEncryptedSize msg.length = (flat cs).length := by omega
    refine ⟨msg, hsame, by omega, ?_⟩
    rw [encryptCbc_exact hkey hvalid iv (by omega) (by rw [List.length_replicate, hsame]) h, heq, cbcBlocks_cbcPlain _]

/-- A padded decryption succeeds on the encryptions of data, and on texts that
end in the byte 0, which it takes for a padding of no bytes. -/
theorem decryptCbc_accepts_iff (iv : Option Block) (p : ℕ) (hvalid : isValidKeySize key.length = true)
    (hdvd : 16 ∣ data.length) (hne : data ≠ []) (hsize : data.length < 2 ^ 63)
    (hdec : data.length ≤ decrypted.length) :
    (∃ dec q, decryptCbc data key iv decrypted (some p) = .ok (.kErrorOk, dec, q)) ↔
      (∃ msg, getPaddedEncryptedSize msg.length = data.length ∧ msg.length < data.length ∧
        encryptCbc msg key iv (List.replicate data.length 0) true = .ok (.kErrorOk, data)) ∨
      ∃ dec, decryptCbc data key iv decrypted none = .ok (.kErrorOk, dec, none) ∧ dec[data.length - 1]? = some 0 := by
  obtain ⟨rkeys, hkey⟩ := expandKey_of_valid hvalid
  obtain ⟨cs, rfl⟩ := exists_flat (by decide : 0 < 16) hdvd
  have hcs : cs ≠ [] := by
    rintro rfl
    exact hne rfl
  obtain ⟨rest, -, hplain⟩ := decryptCbc_plain_eq hkey hvalid iv cs hcs hsize hdec
  obtain ⟨qs, last, hqs, hcount⟩ := cbcPlain_concat rkeys (ivBlock iv) hcs
  have hget := getElem?_last_byte qs last rest
  rw [← hqs, ← hcount, ← length_flat] at hget
  rw [decryptCbc_accepts_last hkey hvalid iv p hqs hcount hsize hdec, encryptCbc_eq_iff hkey hvalid iv hsize, hqs,
    checkPadding_last_iff, hplain]
  refine or_congr_right ⟨fun h => ⟨_, rfl, by rw [hget, h]⟩, ?_⟩
  rintro ⟨dec, h, hzero⟩
  cases h
  rw [hget] at hzero
  exact Option.some.inj hzero

theorem decryptCbc_accepts_iff_two :
    let data : List Byte := (List.range 32).map (BitVec.ofNat 8)
    let key : List Byte := List.replicate 16 0
    let buf : List Byte := List.replicate 32 0
    (∃ dec q, decryptCbc data key none buf (some 0) = .ok (.kErrorOk, dec, q)) ↔
      (∃ msg, getPaddedEncryptedSize msg.length = 32 ∧ msg.length < 32 ∧
        encryptCbc msg key none buf true = .ok (.kErrorOk, data)) ∨
      ∃ dec, decryptCbc data key none buf none = .ok (.kErrorOk, dec, none) ∧ dec[31]? = some 0 :=
  decryptCbc_accepts_iff none 0 (by decide) (by decide) (by decide) (by decide) (by decide)

/-! ## Tampering -/

/-- A changed block of the ciphertext changes its own block of the text, and
the next one in just the bits that were changed: no other block and no byte
behind the text. Nothing reports it. -/
theorem decryptCbc_tampered (iv : Option Block) (hvalid : isValidKeySize key.length = true) (xs ys : List Block)
    (c c' d : Block) (hsize : (flat (xs ++ c :: d :: ys)).length < 2 ^ 63)
    (hdec : (flat (xs ++ c :: d :: ys)).length ≤ decrypted.length) :
    ∃ (ps rs : List Block) (p p' q : Block), ps.length = xs.length ∧ rs.length = ys.length ∧ (p = p' ↔ c = c') ∧
      decryptCbc (flat (xs ++ c :: d :: ys)) key iv decrypted none = .ok (.kErrorOk,
        flat (ps ++ p :: q :: rs) ++ decrypted.drop (16 * (xs.length + (ys.length + 2))), none) ∧
      decryptCbc (flat (xs ++ c' :: d :: ys)) key iv decrypted none = .ok (.kErrorOk,
        flat (ps ++ p' :: xorBlock q (xorBlock c c') :: rs) ++ decrypted.drop (16 * (xs.length + (ys.length + 2))),
        none) := by
  obtain ⟨rkeys, hkey⟩ := expandKey_of_valid hvalid
  have hcount (b : Block) : (xs ++ b :: d :: ys).length = xs.length + (ys.length + 2) := List.length_append
  have hlen : (flat (xs ++ c' :: d :: ys)).length = (flat (xs ++ c :: d :: ys)).length := by
    rw [length_flat, length_flat, hcount, hcount]
  obtain ⟨rest, hrest, hplain⟩ := decryptCbc_plain_eq hkey hvalid iv (xs ++ c :: d :: ys) (by simp) hsize hdec
  obtain ⟨rest', hrest', hplain'⟩ := decryptCbc_plain_eq hkey hvalid iv (xs ++ c' :: d :: ys) (by simp) (by omega)
    (hlen.trans_le hdec)
  rw [hcount] at hrest hrest'
  rw [hrest (by omega), cbcPlain, cbcDecrypt_middle] at hplain
  rw [hrest' (by omega), cbcPlain, cbcDecrypt_middle] at hplain'
  have hnext : xorBlock (decryptBlock rkeys d) c' = xorBlock (xorBlock (decryptBlock rkeys d) c) (xorBlock c c') := by
    ext1 i hi
    have hcancel (x y z : Byte) : x ^^^ z = x ^^^ y ^^^ (y ^^^ z) := by
      rw [BitVec.xor_assoc, ← BitVec.xor_assoc y, BitVec.xor_self, BitVec.zero_xor]
    simpa only [xorBlock, Vector.getElem_zipWith] using hcancel _ _ _
  rw [hnext] at hplain'
  refine ⟨_, _, _, _, _, length_cbcDecrypt .., length_cbcDecrypt .., ?_, hplain, hplain'⟩
  constructor
  · intro h
    have hblocks := congrArg (fun b => xorBlock b (xs.getLastD (ivBlock iv))) h
    simp only [xorBlock_xorBlock] at hblocks
    have hback := congrArg (encryptBlock rkeys) hblocks
    rwa [encryptBlock_decryptBlock, encryptBlock_decryptBlock] at hback
  · rintro rfl
    rfl

theorem decryptCbc_tampered_three :
    let zeros : Block := Vector.replicate 16 0
    let ones : Block := Vector.replicate 16 1
    let key : List Byte := List.replicate 16 0
    let decrypted : List Byte := List.replicate 49 0
    ∃ (ps rs : List Block) (p p' q : Block), ps.length = 0 ∧ rs.length = 1 ∧ (p = p' ↔ zeros = ones) ∧
      decryptCbc (flat [zeros, zeros, ones]) key none decrypted none =
        .ok (.kErrorOk, flat (ps ++ p :: q :: rs) ++ [0], none) ∧
      decryptCbc (flat [ones, zeros, ones]) key none decrypted none =
        .ok (.kErrorOk, flat (ps ++ p' :: xorBlock q (xorBlock zeros ones) :: rs) ++ [0], none) :=
  decryptCbc_tampered none (by decide) [] [Vector.replicate 16 1] _ _ _ (by decide) (by decide)

end Plusaes

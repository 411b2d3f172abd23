import NatServer.Plusaes.RoundTrip
/-!
# Accesses outside the buffers

The size checks keep the calls inside the buffers, with the exceptions listed
here: no data and no padding, and a single block decrypted into less.
-/

namespace Plusaes

open Buffer Blocks

variable {rkeys : RoundKeys} {data key encrypted decrypted : List Byte} {iv : Option Block} {pads : Bool} {p : Option ℕ}

theorem encryptEcb_of_check (h : checkEncryptCond data.length key.length encrypted.length pads ≠ .kErrorOk) :
    encryptEcb data key encrypted pads =
      .ok (checkEncryptCond data.length key.length encrypted.length pads, encrypted) := by
  rw [encryptEcb]
  simp only [ne_eq, h, not_false_eq_true, if_true]
  rfl

theorem encryptCbc_of_check (h : checkEncryptCond data.length key.length encrypted.length pads ≠ .kErrorOk) :
    encryptCbc data key iv encrypted pads =
      .ok (checkEncryptCond data.length key.length encrypted.length pads, encrypted) := by
  rw [encryptCbc]
  simp only [ne_eq, h, not_false_eq_true, if_true]
  rfl

theorem decryptEcb_of_check (h : checkDecryptCond data.length key.length decrypted.length p.isSome ≠ .kErrorOk) :
    decryptEcb data key decrypted p =
      .ok (checkDecryptCond data.length key.length decrypted.length p.isSome, decrypted, p) := by
  rw [decryptEcb]
  simp only [ne_eq, h, not_false_eq_true, if_true]
  rfl

theorem decryptCbc_of_check (h : checkDecryptCond data.length key.length decrypted.length p.isSome ≠ .kErrorOk) :
    decryptCbc data key iv decrypted p =
      .ok (checkDecryptCond data.length key.length decrypted.length p.isSome, decrypted, p) := by
  rw [decryptCbc]
  simp only [ne_eq, h, not_false_eq_true, if_true]
  rfl

/-! ## Encryption -/

theorem encryptEcb_safe (hsize : data.length < 2 ^ 63) : ∃ r, encryptEcb data key encrypted pads = .ok r := by
  by_cases hcheck : checkEncryptCond data.length key.length encrypted.length pads = .kErrorOk
  · cases pads with
    | true =>
      obtain ⟨hvalid, hbuf⟩ := checkEncryptCond_pads.1 hcheck
      obtain ⟨rkeys, hkey⟩ := expandKey_of_valid hvalid
      obtain ⟨xs, tail, last, h⟩ := exists_paddedBlocks data
      exact ⟨_, encryptEcb_pads hkey hvalid hsize hbuf h⟩
    | false =>
      obtain ⟨hmod, hvalid, hbuf⟩ := checkEncryptCond_plain.1 hcheck
      obtain ⟨rkeys, hkey⟩ := expandKey_of_valid hvalid
      obtain ⟨bs, rfl⟩ := exists_flat (by decide : 0 < 16) (Nat.dvd_of_mod_eq_zero hmod)
      exact ⟨_, encryptEcb_plain hkey hvalid hbuf⟩
  · exact ⟨_, encryptEcb_of_check hcheck⟩

theorem encryptEcb_safe_seventeen :
    ∃ r, encryptEcb (List.replicate 17 1) (List.replicate 16 0) (List.replicate 32 0) true = .ok r :=
  encryptEcb_safe (by decide)

/-- Without data a block of sixteen padding bytes is written all the same. -/
theorem encryptCbc_empty (hvalid : isValidKeySize key.length = true) :
    (∃ f, encryptCbc [] key iv encrypted false = .error f) ↔ encrypted.length < 16 := by
  obtain ⟨rkeys, hkey⟩ := expandKey_of_valid hvalid
  have hcheck : checkEncryptCond 0 key.length encrypted.length false = .kErrorOk :=
    checkEncryptCond_plain.2 ⟨rfl, hvalid, Nat.zero_le _⟩
  let s : Block := Vector.replicate 16 16
  have hs : memcpy (List.replicate 16 (BitVec.ofNat 8 (16 - 0 % 16))) 0 [] 0 0 = .ok s.toList := by decide
  have hiv := xorIv_append iv s []
  rw [List.append_nil, List.append_nil] at hiv
  have hstate : encryptState rkeys (xorBlock s (ivBlock iv)).toList 0 encrypted 0 =
      storeBlock encrypted 0 (encryptBlock rkeys (xorBlock s (ivBlock iv))) := by
    have hload := loadBlock_append [] [] (d := 0) (xorBlock s (ivBlock iv)) rfl
    rw [List.nil_append, List.append_nil] at hload
    rw [encryptState, cipherState, hload, ok_bind]
  rw [encryptCbc]
  simp only [hcheck, hkey, ok_bind, ne_eq, not_true_eq_false, if_false, List.length_nil, ge_iff_le,
    (by decide : ¬ 16 ≤ 0), decide_false, Bool.false_eq_true, hs, hiv, hstate, Nat.zero_div, Nat.zero_sub, forBlocks,
    Bool.false_and]
  rcases hstore : storeBlock encrypted 0 (encryptBlock rkeys (xorBlock s (ivBlock iv))) with f | buf
  · have hnone := Buffer.store_eq_none.1 (orFault_eq_error.1 hstore).1
    rw [error_bind]
    exact ⟨fun _ => by omega, fun _ => ⟨f, rfl⟩⟩
  · have hsome := orFault_eq_ok.1 hstore
    have hfit : ¬ encrypted.length < 0 + 16 := fun h => by
      rw [Buffer.store_eq_none.2 h] at hsome
      cases hsome
    constructor
    · rintro ⟨f, hf⟩
      cases hf
    · intro h
      omega

/-- Encrypting leaves the buffers only where CBC is given no data, no padding
and a buffer shorter than a block. -/
theorem encryptCbc_faults_iff (hsize : data.length < 2 ^ 63) :
    (∃ f, encryptCbc data key iv encrypted pads = .error f) ↔
      isValidKeySize key.length = true ∧ pads = false ∧ data = [] ∧ encrypted.length < 16 := by
  by_cases hcheck : checkEncryptCond data.length key.length encrypted.length pads = .kErrorOk
  · cases pads with
    | true =>
      obtain ⟨hvalid, hbuf⟩ := checkEncryptCond_pads.1 hcheck
      obtain ⟨rkeys, hkey⟩ := expandKey_of_valid hvalid
      obtain ⟨xs, tail, last, h⟩ := exists_paddedBlocks data
      rw [encryptCbc_pads hkey hvalid iv hsize hbuf h]
      simp
    | false =>
      obtain ⟨hmod, hvalid, hbuf⟩ := checkEncryptCond_plain.1 hcheck
      obtain ⟨rkeys, hkey⟩ := expandKey_of_valid hvalid
      obtain ⟨bs, rfl⟩ := exists_flat (by decide : 0 < 16) (Nat.dvd_of_mod_eq_zero hmod)
      rcases bs with _ | ⟨x, ys⟩
      · rw [flat_nil, encryptCbc_empty hvalid]
        simp [hvalid]
      · rw [encryptCbc_plain hkey hvalid iv x ys hbuf]
        simp
  · rw [encryptCbc_of_check hcheck]
    constructor
    · rintro ⟨f, hf⟩
      cases hf
    · rintro ⟨hvalid, rfl, rfl, -⟩
      exact absurd (checkEncryptCond_plain.2 ⟨rfl, hvalid, Nat.zero_le _⟩) hcheck

theorem encryptCbc_faults_empty : ∃ f, encryptCbc [] (List.replicate 16 0) none [] false = .error f :=
  (encryptCbc_faults_iff (by decide)).2 ⟨by decide, rfl, rfl, by decide⟩

/-! ## Decryption -/

theorem finishDecrypt_safe (last : Block) (qs : List Block) (rest : List Byte) (h : p = none → 16 ≤ rest.length) :
    ∃ r, finishDecrypt last qs.length (flat qs ++ rest) p = .ok r := by
  cases p with
  | none => exact ⟨_, finishDecrypt_plain last qs rest (h rfl)⟩
  | some p =>
    rw [finishDecrypt_padded]
    split
    · split
      · exact ⟨_, rfl⟩
      · exact ⟨_, rfl⟩
    · exact ⟨_, rfl⟩

/-- What the checks of a decryption leave: the sizes of data that passes. -/
theorem checkDecryptCond_sizes (hsize : data.length < 2 ^ 63) (hdec : decrypted.length < 2 ^ 63)
    (h : checkDecryptCond data.length key.length decrypted.length p.isSome = .kErrorOk) :
    16 ∣ data.length ∧ isValidKeySize key.length = true ∧ data.length ≤ decrypted.length + 16 ∧
      (p = none → data.length ≤ decrypted.length) ∧ (p ≠ none → data ≠ []) := by
  cases p with
  | none =>
    obtain ⟨hmod, hvalid, hle⟩ := checkDecryptCond_plain.1 h
    exact ⟨Nat.dvd_of_mod_eq_zero hmod, hvalid, by omega, fun _ => hle, fun h => absurd rfl h⟩
  | some p =>
    obtain ⟨hmod, hvalid, hle⟩ := checkDecryptCond_padded.1 h
    rw [ulong] at hle
    refine ⟨Nat.dvd_of_mod_eq_zero hmod, hvalid, by omega, by rintro ⟨⟩, ?_⟩
    rintro - rfl
    rw [List.length_nil] at hle
    omega

theorem forBlocks_error (body : ℕ → List Byte → Except Fault (List Byte)) {count i : ℕ} {buf : List Byte} {f : Fault}
    (hcount : 0 < count) (h : body i buf = .error f) : forBlocks body count i buf = .error f := by
  obtain ⟨n, rfl⟩ := Nat.exists_eq_succ_of_ne_zero hcount.ne'
  rw [Nat.succ_eq_add_one, forBlocks, h, error_bind]

theorem decryptEcb_faults_iff (hsize : data.length < 2 ^ 63) (hdec : decrypted.length < 2 ^ 63) :
    (∃ f, decryptEcb data key decrypted p = .error f) ↔
      isValidKeySize key.length = true ∧ p = none ∧ data = [] := by
  by_cases hcheck : checkDecryptCond data.length key.length decrypted.length p.isSome = .kErrorOk
  · obtain ⟨hdvd, hvalid, hle, hplain, hne⟩ := checkDecryptCond_sizes hsize hdec hcheck
    obtain ⟨rkeys, hkey⟩ := expandKey_of_valid hvalid
    obtain ⟨cs, rfl⟩ := exists_flat (by decide : 0 < 16) hdvd
    rcases List.eq_nil_or_concat cs with rfl | ⟨cs, c, rfl⟩
    · obtain rfl : p = none := by
        by_contra hp
        exact hne hp rfl
      have hbc : 0 < ulong (((0 : ℕ) : ℤ) / 16 - 1) := by decide
      have hfirst : decryptState rkeys [] (0 * 16) decrypted (0 * 16) = .error .outOfBounds := rfl
      have hloop := forBlocks_error (fun i buf => decryptState rkeys [] (i * 16) buf (i * 16)) hbc hfirst
      have hpass : checkDecryptCond 0 key.length decrypted.length false = .kErrorOk := hcheck
      rw [decryptEcb]
      simp only [hpass, Option.isSome_none, hkey, ok_bind, ne_eq, not_true_eq_false, if_false, flat_nil,
        List.length_nil, hloop, error_bind]
      simp [hvalid]
    · rw [List.concat_eq_append] at *
      have hflat : (flat (cs ++ [c])).length = 16 * (cs.length + 1) := by
        rw [length_flat, List.length_append, List.length_singleton]
      obtain ⟨r, hr⟩ := finishDecrypt_safe (p := p) (decryptBlock rkeys c) (cs.map (decryptBlock rkeys))
        (decrypted.drop (16 * cs.length)) (by
          intro hp
          have := hplain hp
          rw [List.length_drop]
          omega)
      rw [List.length_map] at hr
      rw [decryptEcb_of_blocks hkey hcheck hsize (by omega), hr]
      simp
  · rw [decryptEcb_of_check hcheck]
    constructor
    · rintro ⟨f, hf⟩
      cases hf
    · rintro ⟨hvalid, rfl, rfl⟩
      exact absurd (checkDecryptCond_plain.2 ⟨rfl, hvalid, Nat.zero_le _⟩) hcheck

theorem decryptEcb_faults_empty : ∃ f, decryptEcb [] (List.replicate 16 0) [] none = .error f :=
  (decryptEcb_faults_iff (by decide) (by decide)).2 ⟨by decide, rfl, rfl⟩

/-- The first block is decrypted into the buffer itself. -/
theorem decryptCbc_of_first (hkey : expandKey key = .ok rkeys)
    (hcheck : checkDecryptCond data.length key.length decrypted.length p.isSome = .kErrorOk)
    (hfirst : decryptState rkeys data 0 decrypted 0 = .error .outOfBounds) :
    decryptCbc data key iv decrypted p = .error .outOfBounds := by
  rw [decryptCbc]
  simp only [hcheck, hkey, ok_bind, ne_eq, not_true_eq_false, if_false, hfirst, error_bind]

/-- A single block is decrypted into the buffer before its padding is known. -/
theorem decryptCbc_single_faults (hkey : expandKey key = .ok rkeys) (c : Block)
    (hcheck : checkDecryptCond c.toList.length key.length decrypted.length p.isSome = .kErrorOk) :
    (∃ f, decryptCbc c.toList key iv decrypted p = .error f) ↔ decrypted.length < 16 := by
  constructor
  · rintro ⟨f, hf⟩
    by_contra hfit
    obtain ⟨r, hr⟩ := finishDecrypt_safe (p := p) (xorBlock (decryptBlock rkeys c) (ivBlock iv)) []
      (List.replicate decrypted.length 0) (by rw [List.length_replicate]; omega)
    rw [flat_nil, List.nil_append, List.length_nil] at hr
    rw [Vector.length_toList] at hcheck
    rw [decryptCbc_single hkey iv hcheck (by omega), hr] at hf
    cases hf
  · intro hshort
    have hload := loadBlock_append [] [] (d := 0) c rfl
    rw [List.nil_append, List.append_nil] at hload
    have hfirst : decryptState rkeys c.toList 0 decrypted 0 = .error .outOfBounds := by
      rw [decryptState, cipherState, hload, ok_bind]
      exact orFault_eq_error.2 ⟨Buffer.store_eq_none.2 (by omega), rfl⟩
    exact ⟨_, decryptCbc_of_first hkey hcheck hfirst⟩

/-- From two blocks on the size checks are enough. -/
theorem decryptCbc_cons_safe (hkey : expandKey key = .ok rkeys) (c₀ : Block) (cs : List Block) (c : Block)
    (hcheck : checkDecryptCond (flat (c₀ :: cs ++ [c])).length key.length decrypted.length p.isSome = .kErrorOk)
    (hsize : (flat (c₀ :: cs ++ [c])).length < 2 ^ 63) (hdec : decrypted.length < 2 ^ 63) :
    ∃ r, decryptCbc (flat (c₀ :: cs ++ [c])) key iv decrypted p = .ok r := by
  obtain ⟨-, -, hle, hplain, -⟩ := checkDecryptCond_sizes hsize hdec hcheck
  have hflat : (flat (c₀ :: cs ++ [c])).length = 16 * (cs.length + 1 + 1) := by
    rw [length_flat, List.length_append]
    rfl
  have hrest : p = none → 16 ≤ (decrypted.drop (16 * (cs.length + 1))).length := by
    intro hp
    have := hplain hp
    rw [List.length_drop]
    omega
  obtain ⟨r, hr⟩ := finishDecrypt_safe (xorBlock (decryptBlock rkeys c) (cs.getLastD c₀))
    (cbcPlain rkeys (ivBlock iv) (c₀ :: cs)) (decrypted.drop (16 * (cs.length + 1))) hrest
  have hcount : (cbcPlain rkeys (ivBlock iv) (c₀ :: cs)).length = cs.length + 1 := length_cbcDecrypt ..
  rw [hcount] at hr
  exact ⟨r, by rw [decryptCbc_of_cons hkey iv hcheck hsize (by omega), hr]⟩

/-- Decrypting leaves the buffers where there is no data and the padding is
kept, and where a single block is to lose its padding and goes into less. -/
theorem decryptCbc_faults_iff (hsize : data.length < 2 ^ 63) (hdec : decrypted.length < 2 ^ 63) :
    (∃ f, decryptCbc data key iv decrypted p = .error f) ↔
      isValidKeySize key.length = true ∧
        (p = none ∧ data = [] ∨ p ≠ none ∧ data.length = 16 ∧ decrypted.length < 16) := by
  by_cases hcheck : checkDecryptCond data.length key.length decrypted.length p.isSome = .kErrorOk
  · obtain ⟨hdvd, hvalid, hle, hplain, hne⟩ := checkDecryptCond_sizes hsize hdec hcheck
    obtain ⟨rkeys, hkey⟩ := expandKey_of_valid hvalid
    obtain ⟨cs, rfl⟩ := exists_flat (by decide : 0 < 16) hdvd
    rcases cs with _ | ⟨c₀, cs⟩
    · obtain rfl : p = none := by
        by_contra hp
        exact hne hp rfl
      rw [flat_nil] at hcheck ⊢
      rw [decryptCbc_of_first hkey hcheck rfl]
      simp [hvalid]
    · rcases List.eq_nil_or_concat cs with rfl | ⟨cs, c, rfl⟩
      · have hflat : flat [c₀] = c₀.toList := by simp
        rw [hflat] at hcheck hplain ⊢
        rw [decryptCbc_single_faults hkey c₀ hcheck]
        rw [Vector.length_toList] at hplain ⊢
        have hp : decrypted.length < 16 → p ≠ none := fun hshort hp => absurd (hplain hp) (by omega)
        have hdata : c₀.toList ≠ [] := fun h => absurd (congrArg List.length h) (by simp)
        simp only [hvalid, hdata, and_false, false_or, true_and]
        exact ⟨fun h => ⟨hp h, h⟩, fun h => h.2⟩
      · rw [List.concat_eq_append, ← List.cons_append] at *
        obtain ⟨r, hr⟩ := decryptCbc_cons_safe hkey c₀ cs c hcheck hsize hdec
        have hflat : (flat (c₀ :: cs ++ [c])).length = 16 * (cs.length + 1 + 1) := by
          rw [length_flat, List.length_append]
          rfl
        rw [hr, hflat]
        simp
  · rw [decryptCbc_of_check hcheck]
    constructor
    · rintro ⟨f, hf⟩
      cases hf
    · rintro ⟨hvalid, ⟨rfl, rfl⟩ | ⟨hp, hlen, hshort⟩⟩
      · exact absurd (checkDecryptCond_plain.2 ⟨rfl, hvalid, Nat.zero_le _⟩) hcheck
      · obtain ⟨p, rfl⟩ := Option.ne_none_iff_exists'.1 hp
        refine absurd (checkDecryptCond_padded.2 ⟨by rw [hlen], hvalid, ?_⟩) hcheck
        rw [hlen]
        exact Nat.zero_le _

theorem decryptCbc_faults_single :
    ∃ f, decryptCbc (List.replicate 16 0) (List.replicate 16 0) none [] (some 0) = .error f :=
  (decryptCbc_faults_iff (by decide) (by decide)).2 ⟨by decide, .inr ⟨nofun, rfl, by decide⟩⟩

end Plusaes

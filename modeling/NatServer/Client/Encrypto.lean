import NatServer.Plusaes.RoundTrip
/-!
# The client's encryption

`encrypto` encrypts under a key and a start value that are part of the program.
What it returns can be decrypted, and shows how far two messages agree.
-/

namespace NatServer

open Plusaes Buffer Blocks

/-- The characters without the terminating zero. -/
def keyFromString {n : ℕ} (keyStr : Vector Byte (n + 1)) : List Byte := keyStr.toList.take n

/-- `"helloharryhannah"`. -/
def encryptoKey : List Byte :=
  keyFromString #v[0x68, 0x65, 0x6c, 0x6c, 0x6f, 0x68, 0x61, 0x72, 0x72, 0x79, 0x68, 0x61, 0x6e, 0x6e, 0x61, 0x68, 0x00]

def encryptoIv : Block :=
  #v[0x00, 0x01, 0x02, 0x03, 0x04, 0x05, 0x06, 0x07, 0x08, 0x09, 0x0A, 0x0B, 0x0C, 0x0D, 0x0E, 0x0F]

/-- The `Error` of the call is not looked at. -/
def encrypto (msg : List Byte) : Except Plusaes.Fault (List Byte) := do
  let encryptedSize := getPaddedEncryptedSize msg.length
  let encrypted := List.replicate encryptedSize 0
  let (_, encrypted) ← encryptCbc msg encryptoKey (some encryptoIv) encrypted true
  return encrypted

theorem isValidKeySize_encryptoKey : isValidKeySize encryptoKey.length = true := by decide

theorem encrypto_eq {rkeys : RoundKeys} (hkey : expandKey encryptoKey = .ok rkeys) {msg : List Byte}
    (hsize : msg.length < 2 ^ 63) {xs : List Block} {tail : List Byte} {last : Block}
    (h : PaddedBlocks msg xs tail last) :
    encrypto msg = .ok (flat (cbcBlocks rkeys encryptoIv (xs ++ [last]))) := by
  have hlen : (List.replicate (getPaddedEncryptedSize msg.length) (0 : Byte)).length = getPaddedEncryptedSize msg.length :=
    List.length_replicate
  have henc := encryptCbc_exact hkey isValidKeySize_encryptoKey (some encryptoIv) hsize hlen h
  rw [encrypto]
  simp only [henc, ok_bind]
  rfl

/-- The call always succeeds, and the decryption with the same key and start
value gives the message back in any buffer that is large enough. -/
theorem decryptCbc_encrypto {msg decrypted : List Byte} (p : ℕ) (hsize : msg.length + 16 < 2 ^ 63)
    (hdec : msg.length ≤ decrypted.length) (hblock : 16 ≤ decrypted.length) :
    ∃ enc dec, encrypto msg = .ok enc ∧ enc.length = msg.length + 16 - msg.length % 16 ∧
      decryptCbc enc encryptoKey (some encryptoIv) decrypted (some p) =
        .ok (.kErrorOk, dec, some (16 - msg.length % 16)) ∧
      dec.take msg.length = msg := by
  obtain ⟨rkeys, hkey⟩ := expandKey_of_valid isValidKeySize_encryptoKey
  obtain ⟨xs, tail, last, h⟩ := exists_paddedBlocks msg
  obtain ⟨hlen, hback⟩ := decryptCbc_padded hkey (some encryptoIv) p isValidKeySize_encryptoKey hsize hdec hblock h
  refine ⟨_, _, encrypto_eq hkey (by omega) h, ?_, hback, List.take_left⟩
  rw [ivBlock, Option.getD_some] at hlen
  rw [hlen, getPaddedEncryptedSize_eq (by omega)]
  omega

theorem decryptCbc_encrypto_two :
    ∃ enc dec, encrypto [0x68, 0x69] = .ok enc ∧ enc.length = 16 ∧
      decryptCbc enc encryptoKey (some encryptoIv) (List.replicate 16 0) (some 0) = .ok (.kErrorOk, dec, some 14) ∧
      dec.take 2 = [0x68, 0x69] :=
  decryptCbc_encrypto 0 (by decide) (by decide) (by decide)

/-- Two results agree on as many blocks as the padded messages do: equal
beginnings show. -/
theorem encrypto_take_iff {m m' e e' : List Byte} (hsize : m.length < 2 ^ 63) (hsize' : m'.length < 2 ^ 63)
    (h : encrypto m = .ok e) (h' : encrypto m' = .ok e') (k : ℕ) :
    e.take (16 * k) = e'.take (16 * k) ↔ (pad padTag 16 m).take (16 * k) = (pad padTag 16 m').take (16 * k) := by
  obtain ⟨rkeys, hkey⟩ := expandKey_of_valid isValidKeySize_encryptoKey
  obtain ⟨xs, tail, last, hm⟩ := exists_paddedBlocks m
  obtain ⟨xs', tail', last', hm'⟩ := exists_paddedBlocks m'
  rw [encrypto_eq hkey hsize hm] at h
  rw [encrypto_eq hkey hsize' hm'] at h'
  cases h
  cases h'
  rw [hm.pad_eq, hm'.pad_eq, take_flat, take_flat, take_flat, take_flat, (flat_injective (by decide)).eq_iff,
    (flat_injective (by decide)).eq_iff]
  exact take_cbcEncrypt_inj _ xorBlock_xorBlock (decryptBlock_encryptBlock rkeys)

/-- Two messages with the same first sixteen bytes. -/
theorem encrypto_take_iff_shared :
    ∃ e e', encrypto (List.replicate 16 0 ++ [1]) = .ok e ∧ encrypto (List.replicate 16 0 ++ [2]) = .ok e' ∧
      e.take (16 * 1) = e'.take (16 * 1) := by
  obtain ⟨rkeys, hkey⟩ := expandKey_of_valid isValidKeySize_encryptoKey
  obtain ⟨xs, tail, last, hm⟩ := exists_paddedBlocks (List.replicate 16 0 ++ [1])
  obtain ⟨xs', tail', last', hm'⟩ := exists_paddedBlocks (List.replicate 16 0 ++ [2])
  have h := encrypto_eq hkey (by decide) hm
  have h' := encrypto_eq hkey (by decide) hm'
  exact ⟨_, _, h, h', (encrypto_take_iff (by decide) (by decide) h h' 1).2 rfl⟩

end NatServer

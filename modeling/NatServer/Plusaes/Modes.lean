import NatServer.Plusaes.Schedule
import NatServer.Lib.Buffer
/-!
# Modes of operation

The buffers are lists whose length is the size the caller passes with them;
an access outside one is a fault. Sizes are `unsigned long`, so a subtraction
below zero wraps around (`ulong`).
-/

namespace Plusaes

open Buffer (flat flat_nil flat_cons flat_append length_flat)

/-- An integer as `unsigned long`. -/
def ulong (n : ℤ) : ℕ := (n % 2 ^ 64).toNat

inductive Error
  | kErrorOk
  | kErrorInvalidDataSize
  | kErrorInvalidKeySize
  | kErrorInvalidBufferSize
  | kErrorInvalidKey
  | kErrorInvalidNonceSize
  deriving DecidableEq, Repr

def isValidKeySize (keySize : ℕ) : Bool :=
  !(keySize ≠ 16 && keySize ≠ 24 && keySize ≠ 32)

def getPaddedEncryptedSize (dataSize : ℕ) : ℕ := ulong (dataSize + 16 - dataSize % 16)

def checkEncryptCond (dataSize keySize encryptedSize : ℕ) (pads : Bool) : Error :=
  if !pads && dataSize % 16 ≠ 0 then .kErrorInvalidDataSize
  else if !isValidKeySize keySize then .kErrorInvalidKeySize
  else if pads then
    if encryptedSize < getPaddedEncryptedSize dataSize then .kErrorInvalidBufferSize else .kErrorOk
  else if encryptedSize < dataSize then .kErrorInvalidBufferSize
  else .kErrorOk

/-- `padded` is whether the pointer `padded_size` is given. -/
def checkDecryptCond (dataSize keySize decryptedSize : ℕ) (padded : Bool) : Error :=
  if dataSize % 16 ≠ 0 then .kErrorInvalidDataSize
  else if !isValidKeySize keySize then .kErrorInvalidKeySize
  else if !padded then
    if decryptedSize < dataSize then .kErrorInvalidBufferSize else .kErrorOk
  else if decryptedSize < ulong (dataSize - 16) then .kErrorInvalidBufferSize
  else .kErrorOk

def checkPadding (padding : ℕ) (data : Block) : Bool :=
  if padding > 16 then false
  else (List.range padding).all fun i => data[16 - 1 - i].toNat == padding

/-! ## Memory -/

def orFault {α : Type} : Option α → Except Fault α
  | some a => .ok a
  | none => .error .outOfBounds

/-- The sixteen bytes at `data + off`. -/
def loadBlock (data : List Byte) (off : ℕ) : Except Fault Block := orFault (Buffer.load data off 16)

def storeBlock (data : List Byte) (off : ℕ) (block : Block) : Except Fault (List Byte) :=
  orFault (Buffer.store data off block)

def memcpy (dst : List Byte) (d : ℕ) (src : List Byte) (s n : ℕ) : Except Fault (List Byte) :=
  orFault (Buffer.copy dst d src s n)

def xorBlock (a b : Block) : Block := Vector.zipWith (· ^^^ ·) a b

def xorData (data : List Byte) (off : ℕ) (v : Block) : Except Fault (List Byte) := do
  let block ← loadBlock data off
  storeBlock data off (xorBlock block v)

/-- `f` of the block at `data + d`, written at `out + e`. -/
def cipherState (f : Block → Block) (data : List Byte) (d : ℕ) (out : List Byte) (e : ℕ) : Except Fault (List Byte) := do
  let block ← loadBlock data d
  storeBlock out e (f block)

def encryptState (rkeys : RoundKeys) : List Byte → ℕ → List Byte → ℕ → Except Fault (List Byte) :=
  cipherState (encryptBlock rkeys)

def decryptState (rkeys : RoundKeys) : List Byte → ℕ → List Byte → ℕ → Except Fault (List Byte) :=
  cipherState (decryptBlock rkeys)

/-- `for (; count turns; ++i)` over a buffer that the body changes. -/
def forBlocks (body : ℕ → List Byte → Except Fault (List Byte)) : ℕ → ℕ → List Byte → Except Fault (List Byte)
  | 0, _, buf => .ok buf
  | count + 1, i, buf => do
    let buf ← body i buf
    forBlocks body count (i + 1) buf

/-! ## ECB -/

def encryptEcb (data key encrypted : List Byte) (pads : Bool) : Except Fault (Error × List Byte) := do
  let e := checkEncryptCond data.length key.length encrypted.length pads
  if e ≠ .kErrorOk then return (e, encrypted)
  let rkeys ← expandKey key
  let bc := data.length / 16
  let encrypted ← forBlocks (fun i buf => encryptState rkeys data (i * 16) buf (i * 16)) bc 0 encrypted
  if pads then
    let rem := data.length % 16
    let padV : Byte := BitVec.ofNat 8 (16 - rem)
    let ib ← memcpy (List.replicate 16 padV) 0 data (data.length - rem) rem
    let encrypted ← encryptState rkeys ib 0 encrypted (data.length - rem)
    return (.kErrorOk, encrypted)
  return (.kErrorOk, encrypted)

/-- `last[kStateSize - 1]`. -/
def lastByte (last : Block) : Byte := last.get ⟨15, by decide⟩

theorem getElem?_lastByte (last : Block) : last.toList[15]? = some (lastByte last) := by
  rw [Vector.getElem?_toList, Vector.getElem?_eq_getElem (by decide)]
  rfl

/-- The end of both decryptions: the last block, without its padding where
`padded_size` is given, goes behind `bc` blocks. -/
def finishDecrypt (last : Block) (bc : ℕ) (decrypted : List Byte) (paddedSize : Option ℕ) :
    Except Fault (Error × List Byte × Option ℕ) :=
  match paddedSize with
  | some _ => do
    let padded := (lastByte last).toNat
    let cs := ulong (16 - padded)
    if !checkPadding padded last then return (.kErrorInvalidKey, decrypted, some padded)
    if decrypted.length ≥ bc * 16 + cs then
      let decrypted ← memcpy decrypted (bc * 16) last.toList 0 cs
      return (.kErrorOk, decrypted, some padded)
    return (.kErrorInvalidBufferSize, decrypted, some padded)
  | none => do
    let decrypted ← storeBlock decrypted (bc * 16) last
    return (.kErrorOk, decrypted, none)

def decryptEcb (data key decrypted : List Byte) (paddedSize : Option ℕ) :
    Except Fault (Error × List Byte × Option ℕ) := do
  let e := checkDecryptCond data.length key.length decrypted.length paddedSize.isSome
  if e ≠ .kErrorOk then return (e, decrypted, paddedSize)
  let rkeys ← expandKey key
  let bc := ulong (data.length / 16 - 1)
  let decrypted ← forBlocks (fun i buf => decryptState rkeys data (i * 16) buf (i * 16)) bc 0 decrypted
  let c ← loadBlock data (bc * 16)
  finishDecrypt (decryptBlock rkeys c) bc decrypted paddedSize

/-! ## CBC -/

/-- `if (iv) xor_data(data, *iv)`. -/
def xorIv (data : List Byte) : Option Block → Except Fault (List Byte)
  | some iv => xorData data 0 iv
  | none => .ok data

/-- The body of the loop of `encrypt_cbc`. -/
def encryptMid (rkeys : RoundKeys) (data : List Byte) (i : ℕ) (encrypted : List Byte) : Except Fault (List Byte) := do
  let s ← loadBlock data (i * 16)
  let v ← loadBlock encrypted (i * 16 - 16)
  storeBlock encrypted (i * 16) (encryptBlock rkeys (xorBlock s v))

def encryptCbc (data key : List Byte) (iv : Option Block) (encrypted : List Byte) (pads : Bool) :
    Except Fault (Error × List Byte) := do
  let e := checkEncryptCond data.length key.length encrypted.length pads
  if e ≠ .kErrorOk then return (e, encrypted)
  let rkeys ← expandKey key
  let ge16 : Bool := data.length ≥ 16
  let rem := data.length % 16
  let padV : Byte := BitVec.ofNat 8 (16 - rem)
  -- a first block is encrypted also where there is neither data nor padding
  let s ←
    if ge16 then memcpy (List.replicate 16 0) 0 data 0 16
    else memcpy (List.replicate 16 padV) 0 data 0 data.length
  let s ← xorIv s iv
  let encrypted ← encryptState rkeys s 0 encrypted 0
  let bc := data.length / 16
  let encrypted ← forBlocks (encryptMid rkeys data) (bc - 1) 1 encrypted
  if pads && ge16 then
    let ib ← memcpy (List.replicate 16 padV) 0 data (data.length - rem) rem
    let v ← loadBlock encrypted ((bc - 1) * 16)
    let ib ← xorData ib 0 v
    let encrypted ← encryptState rkeys ib 0 encrypted (data.length - rem)
    return (.kErrorOk, encrypted)
  return (.kErrorOk, encrypted)

/-- The body of the loop of `decrypt_cbc`. -/
def decryptMid (rkeys : RoundKeys) (data : List Byte) (i : ℕ) (decrypted : List Byte) : Except Fault (List Byte) := do
  let decrypted ← decryptState rkeys data (i * 16) decrypted (i * 16)
  let v ← loadBlock data (i * 16 - 16)
  xorData decrypted (i * 16) v

def decryptCbc (data key : List Byte) (iv : Option Block) (decrypted : List Byte) (paddedSize : Option ℕ) :
    Except Fault (Error × List Byte × Option ℕ) := do
  let e := checkDecryptCond data.length key.length decrypted.length paddedSize.isSome
  if e ≠ .kErrorOk then return (e, decrypted, paddedSize)
  let rkeys ← expandKey key
  let decrypted ← decryptState rkeys data 0 decrypted 0
  let decrypted ← xorIv decrypted iv
  let bc := ulong (data.length / 16 - 1)
  let decrypted ← forBlocks (decryptMid rkeys data) (bc - 1) 1 decrypted
  if data.length > 16 then
    let c ← loadBlock data (bc * 16)
    let v ← loadBlock data (bc * 16 - 16)
    finishDecrypt (xorBlock (decryptBlock rkeys c) v) bc decrypted paddedSize
  else
    let last ← memcpy (List.replicate 16 0) 0 decrypted 0 data.length
    let last ← loadBlock last 0
    finishDecrypt last bc (List.replicate decrypted.length 0) paddedSize

/-! ## CTR -/

/-- The bytes from index `n - 1` down, with the carry `c`. -/
def incrFrom : (n : ℕ) → n ≤ 16 → ℕ → Block → Block
  | 0, _, _, counter => counter
  | n + 1, h, c, counter =>
    let c := c + counter[n].toNat
    incrFrom n (Nat.le_of_succ_le h) (c / 256) (counter.set n (BitVec.ofNat 8 c))

def incrCounter (counter : Block) : Block := incrFrom 16 (by decide) 1 counter

/-- The loop over the bytes from `pos` on. -/
def ctrLoop (rkeys : RoundKeys) : List Byte → ℕ → Block → Block → List Byte
  | [], _, _, _ => []
  | b :: rest, blkpos, blk, counter =>
    if blkpos = 16 then
      let blk := encryptBlock rkeys counter
      (b ^^^ blk.toList.getD 0 0) :: ctrLoop rkeys rest 1 blk (incrCounter counter)
    else (b ^^^ blk.toList.getD blkpos 0) :: ctrLoop rkeys rest (blkpos + 1) blk counter

def cryptCtr (data key nonce : List Byte) : Except Fault (Error × List Byte) := do
  if nonce.length > 16 then return (.kErrorInvalidNonceSize, data)
  if !isValidKeySize key.length then return (.kErrorInvalidKeySize, data)
  let rkeys ← expandKey key
  let counter ← memcpy (List.replicate 16 0) 0 nonce 0 nonce.length
  let counter ← loadBlock counter 0
  -- the block is not read before it is filled
  let blk := Vector.replicate 16 0
  return (.kErrorOk, ctrLoop rkeys data 16 blk counter)

/-! ## Rules -/

@[simp] theorem orFault_some {α : Type} (a : α) : orFault (some a) = .ok a := rfl

theorem orFault_eq_ok {α : Type} {x : Option α} {a : α} : orFault x = .ok a ↔ x = some a := by
  cases x <;> simp [orFault]

theorem orFault_eq_error {α : Type} {x : Option α} {e : Fault} : orFault x = .error e ↔ x = none ∧ e = .outOfBounds := by
  cases x <;> simp [orFault, eq_comm]

/-- A `do` block goes on where a call returned. -/
theorem ok_bind {α β : Type} (a : α) (f : α → Except Fault β) : ((Except.ok a : Except Fault α) >>= f) = f a := rfl

theorem error_bind {α β : Type} (e : Fault) (f : α → Except Fault β) :
    ((Except.error e : Except Fault α) >>= f) = .error e := rfl

section
variable (xs rest ys cells zs : List Byte) {d e n : ℕ}

theorem loadBlock_append (v : Block) (hd : d = xs.length) : loadBlock (xs ++ (v.toList ++ ys)) d = .ok v := by
  subst hd
  rw [loadBlock, Buffer.load_append, orFault_some]

theorem storeBlock_append (v : Block) (he : e = xs.length) (h : 16 ≤ rest.length) :
    storeBlock (xs ++ rest) e v = .ok (xs ++ v.toList ++ rest.drop 16) := by
  subst he
  rw [storeBlock, Buffer.store_append xs rest v h, orFault_some]

theorem memcpy_append (hd : d = xs.length) (he : e = ys.length) (hn : n = cells.length) (h : n ≤ rest.length) :
    memcpy (xs ++ rest) d (ys ++ (cells ++ zs)) e n = .ok (xs ++ cells ++ rest.drop n) := by
  subst hd he hn
  have hv := Buffer.copy_append xs rest ys zs (⟨cells.toArray, by simp⟩ : Vector Byte cells.length) h
  simp only [Vector.toList_mk] at hv
  rw [memcpy, hv, orFault_some]

theorem xorData_append (v w : Block) (hd : d = xs.length) :
    xorData (xs ++ (v.toList ++ ys)) d w = .ok (xs ++ ((xorBlock v w).toList ++ ys)) := by
  have hlen : 16 ≤ (v.toList ++ ys).length := by simp
  rw [xorData, loadBlock_append _ _ v hd, ok_bind, storeBlock_append _ _ _ hd hlen]
  simp

end

theorem cipherState_append (xs ys zs rest : List Byte) {d e : ℕ} (f : Block → Block) (v : Block) (hd : d = xs.length)
    (he : e = zs.length) (h : 16 ≤ rest.length) :
    cipherState f (xs ++ (v.toList ++ ys)) d (zs ++ rest) e = .ok (zs ++ (f v).toList ++ rest.drop 16) := by
  rw [cipherState, loadBlock_append _ _ v hd, ok_bind, storeBlock_append _ _ _ he h]

/-- A loop that writes the blocks `outs` one behind the other, each by its own
turn, leaves them behind what was there. -/
theorem forBlocks_fill (body : ℕ → List Byte → Except Fault (List Byte)) (outs : List Block) (k : ℕ)
    (pre rest : List Byte) (h : 16 * outs.length ≤ rest.length)
    (hbody : ∀ (os : List Block) (o : Block) (os' : List Block) (rest : List Byte), outs = os ++ o :: os' →
      16 ≤ rest.length →
      body (k + os.length) (pre ++ flat os ++ rest) = .ok (pre ++ flat os ++ o.toList ++ rest.drop 16)) :
    forBlocks body outs.length k (pre ++ rest) = .ok (pre ++ flat outs ++ rest.drop (16 * outs.length)) := by
  induction outs generalizing k pre rest with
  | nil => simp [forBlocks]
  | cons o outs ih =>
    rw [List.length_cons] at h
    have hfirst := hbody [] o outs rest rfl (by omega)
    rw [flat_nil, List.append_nil, List.length_nil, Nat.add_zero] at hfirst
    have hrest := ih (k + 1) (pre ++ o.toList) (rest.drop 16) (by rw [List.length_drop]; omega) (by
      intro os o' os' rest' houts hlen
      have hturn := hbody (o :: os) o' os' rest' (by rw [houts, List.cons_append]) hlen
      rw [List.length_cons, flat_cons, ← List.append_assoc pre] at hturn
      rwa [Nat.add_right_comm])
    rw [List.length_cons, forBlocks, hfirst, ok_bind, hrest, List.drop_drop, flat_cons, ← List.append_assoc pre,
      Nat.mul_succ, Nat.add_comm 16]

@[simp] theorem xorBlock_xorBlock (a b : Block) : xorBlock (xorBlock a b) b = a := by
  ext1 i hi
  simp only [xorBlock, Vector.getElem_zipWith, BitVec.xor_assoc, BitVec.xor_self, BitVec.xor_zero]

theorem isValidKeySize_iff {n : ℕ} : isValidKeySize n = true ↔ n = 16 ∨ n = 24 ∨ n = 32 := by
  simp [isValidKeySize]
  omega

/-- The size check is the one `expandKey` makes. -/
theorem expandKey_of_valid {key : List Byte} (h : isValidKeySize key.length = true) : ∃ rkeys, expandKey key = .ok rkeys := by
  have hsize := isValidKeySize_iff.1 h
  obtain ⟨nr, hnr⟩ : ∃ nr, getRoundCount key.length = .ok nr := by
    rcases hsize with hk | hk | hk <;> rw [hk] <;> exact ⟨_, rfl⟩
  rw [expandKey, if_neg (by omega)]
  simp only [hnr]
  exact ⟨_, rfl⟩

end Plusaes

import NatServer.Plusaes.Byte
/-!
# The block cipher

The state is four words, byte `r` of word `c` in row `r` and column `c`. Each
step of a round has its inverse, so that `decryptBlock` undoes `encryptBlock`
under any round keys, and the other way round.
-/

namespace Plusaes

open Binary

abbrev State := Vector Word 4
abbrev RoundKey := State
abbrev Block := Vector Byte 16

def addRoundKey (key : RoundKey) (state : State) : State := Vector.zipWith (· ^^^ ·) state key

def subBytes (state : State) : State := state.map subWord

def invSubBytes (state : State) : State := state.map invSubWord

/-- The mask `m2` of row `r`. -/
def rowMask (r : ℕ) : Word := 0xFF <<< (r * 8)

/-- Row `r` of the state from row `r` of `ori`, moved by `shift` columns. -/
def moveRow (ori : State) (shift r : ℕ) (state : State) : State :=
  Vector.ofFn fun c : Fin 4 => (state[c] &&& ~~~rowMask r) ||| (ori[(c.val + shift) % 4] &&& rowMask r)

def shiftRows (ori : State) : State :=
  [1, 2, 3].foldl (fun state r => moveRow ori r r state) ori

def invShiftRows (ori : State) : State :=
  [1, 2, 3].foldl (fun state r => moveRow ori (4 - r) r state) ori

def mixColumn (w : Word) : Word :=
  let v0_1 := byte w 0
  let v1_1 := byte w 1
  let v2_1 := byte w 2
  let v3_1 := byte w 3
  let v0_2 := mul2 v0_1
  let v1_2 := mul2 v1_1
  let v2_2 := mul2 v2_1
  let v3_2 := mul2 v3_1
  let v0_3 := v0_2 ^^^ v0_1
  let v1_3 := v1_2 ^^^ v1_1
  let v2_3 := v2_2 ^^^ v2_1
  let v3_3 := v3_2 ^^^ v3_1
  word (v0_2 ^^^ v1_3 ^^^ v2_1 ^^^ v3_1) (v0_1 ^^^ v1_2 ^^^ v2_3 ^^^ v3_1)
    (v0_1 ^^^ v1_1 ^^^ v2_2 ^^^ v3_3) (v0_3 ^^^ v1_1 ^^^ v2_1 ^^^ v3_2)

def mixColumns (state : State) : State := state.map mixColumn

def invMixColumn (w : Word) : Word :=
  let v0 := byte w 0
  let v1 := byte w 1
  let v2 := byte w 2
  let v3 := byte w 3
  word (mul v0 0x0E ^^^ mul v1 0x0B ^^^ mul v2 0x0D ^^^ mul v3 0x09)
    (mul v0 0x09 ^^^ mul v1 0x0E ^^^ mul v2 0x0B ^^^ mul v3 0x0D)
    (mul v0 0x0D ^^^ mul v1 0x09 ^^^ mul v2 0x0E ^^^ mul v3 0x0B)
    (mul v0 0x0B ^^^ mul v1 0x0D ^^^ mul v2 0x09 ^^^ mul v3 0x0E)

def invMixColumns (state : State) : State := state.map invMixColumn

/-- The machine is little-endian: the first byte of four is the lowest. -/
def copyBytesToState (data : Block) : State :=
  Vector.ofFn fun c : Fin 4 =>
    word data[4 * c.val] data[4 * c.val + 1] data[4 * c.val + 2] data[4 * c.val + 3]

def copyStateToBytes (state : State) : Block :=
  Vector.ofFn fun i : Fin 16 => byte state[i.val / 4] (i.val % 4)

/-- At least two keys: one before the rounds and one in the last round. -/
structure RoundKeys where
  keys : List RoundKey
  two_le : 2 ≤ keys.length

namespace RoundKeys
variable (rkeys : RoundKeys)

theorem ne_nil : rkeys.keys ≠ [] := by
  intro h
  have := rkeys.two_le
  simp [h] at this

/-- `rkeys[0]`. -/
def front : RoundKey := rkeys.keys.head rkeys.ne_nil

/-- `rkeys[i]` for `i` from 1 below `rkeys.size() - 1`. -/
def middle : List RoundKey := rkeys.keys.tail.dropLast

def back : RoundKey := rkeys.keys.getLast rkeys.ne_nil

end RoundKeys

/-- The body of the loop of `encrypt_state`. -/
def encryptRound (s : State) (key : RoundKey) : State := addRoundKey key (mixColumns (shiftRows (subBytes s)))

/-- The body of the loop of `decrypt_state`. -/
def decryptRound (s : State) (key : RoundKey) : State := invSubBytes (invShiftRows (invMixColumns (addRoundKey key s)))

/-- What `encrypt_state` computes from the block it reads. -/
def encryptBlock (rkeys : RoundKeys) (data : Block) : Block :=
  let s := addRoundKey rkeys.front (copyBytesToState data)
  let s := rkeys.middle.foldl encryptRound s
  copyStateToBytes (addRoundKey rkeys.back (shiftRows (subBytes s)))

/-- What `decrypt_state` computes from the block it reads. -/
def decryptBlock (rkeys : RoundKeys) (data : Block) : Block :=
  let s := invSubBytes (invShiftRows (addRoundKey rkeys.back (copyBytesToState data)))
  let s := rkeys.middle.reverse.foldl decryptRound s
  copyStateToBytes (addRoundKey rkeys.front s)

/-! ## Each step and its inverse -/

@[simp] theorem addRoundKey_addRoundKey (key : RoundKey) (s : State) : addRoundKey key (addRoundKey key s) = s := by
  ext1 c hc
  simp only [addRoundKey, Vector.getElem_zipWith, BitVec.xor_assoc, BitVec.xor_self, BitVec.xor_zero]

@[simp] theorem invSubBytes_subBytes (s : State) : invSubBytes (subBytes s) = s := by
  ext1 c hc
  simp [invSubBytes, subBytes]

/-- The masks keep the other rows and take this one. -/
theorem byte_moveRow (ori s : State) (shift : ℕ) {r c k : ℕ} (hr : r < 4) (hc : c < 4) (hk : k < 4) :
    byte (moveRow ori shift r s)[c] k = if k = r then byte ori[(c + shift) % 4] k else byte s[c] k := by
  have hmask : byte (rowMask r) k = (if k = r then 0xFF else 0) ∧
      byte (~~~rowMask r) k = (if k = r then 0 else 0xFF) := by
    interval_cases r <;> interval_cases k <;> decide
  have hones (b : Byte) : b &&& 255#8 = b := BitVec.and_allOnes
  simp only [moveRow, Vector.getElem_ofFn, byte_or, byte_and, hmask.1, hmask.2]
  split <;> simp [hones]

theorem byte_shiftRows (s : State) {c k : ℕ} (hc : c < 4) (hk : k < 4) :
    byte (shiftRows s)[c] k = byte s[(c + k) % 4] k := by
  simp only [shiftRows, List.foldl_cons, List.foldl_nil]
  rw [byte_moveRow _ _ _ (by decide) hc hk, byte_moveRow _ _ _ (by decide) hc hk, byte_moveRow _ _ _ (by decide) hc hk]
  interval_cases k <;> simp [Nat.mod_eq_of_lt hc]

theorem byte_invShiftRows (s : State) {c k : ℕ} (hc : c < 4) (hk : k < 4) :
    byte (invShiftRows s)[c] k = byte s[(c + (4 - k)) % 4] k := by
  simp only [invShiftRows, List.foldl_cons, List.foldl_nil]
  rw [byte_moveRow _ _ _ (by decide) hc hk, byte_moveRow _ _ _ (by decide) hc hk, byte_moveRow _ _ _ (by decide) hc hk]
  interval_cases k <;> simp [Nat.mod_eq_of_lt hc]

@[simp] theorem invShiftRows_shiftRows (s : State) : invShiftRows (shiftRows s) = s := by
  ext1 c hc
  apply word_ext
  intro k hk
  rw [byte_invShiftRows _ hc hk, byte_shiftRows _ (Nat.mod_lt _ (by decide)) hk]
  congr 2
  omega

/-! The columns are multiplied by a fixed polynomial, and by its inverse. -/

theorem residue_constants :
    let x := AdjoinRoot.root (modulus reduction)
    residue reduction 0x0E = x ^ 3 + x ^ 2 + x ∧ residue reduction 0x0B = x ^ 3 + x + 1 ∧
      residue reduction 0x0D = x ^ 3 + x ^ 2 + 1 ∧ residue reduction 0x09 = x ^ 3 + 1 := by
  have h0E : (0x0E : Byte) = mul2 (mul2 (mul2 1 ^^^ 1) ^^^ 1) := by decide
  have h0B : (0x0B : Byte) = mul2 (mul2 (mul2 1) ^^^ 1) ^^^ 1 := by decide
  have h0D : (0x0D : Byte) = mul2 (mul2 (mul2 1 ^^^ 1)) ^^^ 1 := by decide
  have h09 : (0x09 : Byte) = mul2 (mul2 (mul2 1)) ^^^ 1 := by decide
  rw [h0E, h0B, h0D, h09]
  simp only [residue_mul2, residue_xor, residue_one reduction (by decide : 0 < 8)]
  refine ⟨?_, ?_, ?_, ?_⟩ <;> ring

/-- The first row of the product of the two matrices; the others are its
rotations. -/
theorem column_inverse {R : Type} [CommRing R] (h2 : (2 : R) = 0) (x v0 v1 v2 v3 : R) :
    (x ^ 3 + x ^ 2 + x) * (x * v0 + (x + 1) * v1 + v2 + v3) + (x ^ 3 + x + 1) * (v0 + x * v1 + (x + 1) * v2 + v3) +
        (x ^ 3 + x ^ 2 + 1) * (v0 + v1 + x * v2 + (x + 1) * v3) + (x ^ 3 + 1) * ((x + 1) * v0 + v1 + v2 + x * v3) =
      v0 := by
  linear_combination ((1 + x + x ^ 2 + 2 * x ^ 3 + x ^ 4) * v0 + (1 + x + 2 * x ^ 2 + 2 * x ^ 3 + x ^ 4) * v1 +
    (1 + 2 * x + x ^ 2 + 2 * x ^ 3 + x ^ 4) * (v2 + v3)) * h2

@[simp] theorem invMixColumn_mixColumn (w : Word) : invMixColumn (mixColumn w) = w := by
  obtain ⟨h0E, h0B, h0D, h09⟩ := residue_constants
  have hrow := column_inverse (two_eq_zero reduction) (AdjoinRoot.root (modulus reduction))
  let v (k : ℕ) := residue reduction (byte w k)
  apply word_ext
  intro k hk
  apply residue_injective reduction
  interval_cases k
  all_goals
    simp only [invMixColumn, mixColumn, byte_word_zero, byte_word_one, byte_word_two, byte_word_three, residue_xor,
      residue_mul, residue_mul2, h0E, h0B, h0D, h09]
  · linear_combination hrow (v 0) (v 1) (v 2) (v 3)
  · linear_combination hrow (v 1) (v 2) (v 3) (v 0)
  · linear_combination hrow (v 2) (v 3) (v 0) (v 1)
  · linear_combination hrow (v 3) (v 0) (v 1) (v 2)

@[simp] theorem invMixColumns_mixColumns (s : State) : invMixColumns (mixColumns s) = s := by
  ext1 c hc
  simp [invMixColumns, mixColumns]

@[simp] theorem copyBytesToState_copyStateToBytes (s : State) : copyBytesToState (copyStateToBytes s) = s := by
  ext1 c hc
  simp only [copyBytesToState, copyStateToBytes, Vector.getElem_ofFn]
  interval_cases c <;> exact word_byte _

@[simp] theorem copyStateToBytes_copyBytesToState (data : Block) : copyStateToBytes (copyBytesToState data) = data := by
  ext1 i hi
  simp only [copyBytesToState, copyStateToBytes, Vector.getElem_ofFn]
  interval_cases i <;> simp <;> rfl

/-! ## The whole block -/

/-- Steps with left inverses are undone in the other order. -/
theorem foldl_reverse_foldl {σ κ : Type} {f g : σ → κ → σ} (hgf : ∀ s k, g (f s k) k = s) (ks : List κ) (s : σ) :
    ks.reverse.foldl g (ks.foldl f s) = s := by
  induction ks generalizing s with
  | nil => rfl
  | cons k ks ih => simp only [List.reverse_cons, List.foldl_append, List.foldl_cons, List.foldl_nil, ih, hgf]

variable (rkeys : RoundKeys)

@[simp] theorem decryptBlock_encryptBlock (data : Block) : decryptBlock rkeys (encryptBlock rkeys data) = data := by
  have hround (s : State) (key : RoundKey) : decryptRound (encryptRound s key) key = s := by
    simp [decryptRound, encryptRound]
  simp only [decryptBlock, encryptBlock, copyBytesToState_copyStateToBytes, addRoundKey_addRoundKey,
    invShiftRows_shiftRows, invSubBytes_subBytes, foldl_reverse_foldl hround, copyStateToBytes_copyBytesToState]

/-- There are finitely many blocks, so the inverse on one side is one on both. -/
@[simp] theorem encryptBlock_decryptBlock (data : Block) : encryptBlock rkeys (decryptBlock rkeys data) = data := by
  have hleft : Function.LeftInverse (decryptBlock rkeys) (encryptBlock rkeys) := decryptBlock_encryptBlock rkeys
  have hbyte : Finite Byte := Finite.of_injective BitVec.toFin fun _ _ => BitVec.toFin_inj.1
  have hblock : Finite Block := Finite.of_injective (fun (b : Block) (i : Fin 16) => b[i]) fun a b h =>
    Vector.ext fun i hi => congrFun h ⟨i, hi⟩
  exact hleft.rightInverse_of_surjective (Finite.surjective_of_injective hleft.injective) data

theorem encryptBlock_injective : Function.Injective (encryptBlock rkeys) :=
  Function.LeftInverse.injective (decryptBlock_encryptBlock rkeys)

end Plusaes

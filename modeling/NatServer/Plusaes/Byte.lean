import NatServer.Lib.Binary
import Mathlib.Data.Vector.Basic
import Mathlib.Tactic.IntervalCases
/-!
# Bytes, words and the field of the cipher

The tables and the byte arithmetic of the cipher. `mul2` and `mul` compute in
the ring of bytes modulo `X ^ 8 + X ^ 4 + X ^ 3 + X + 1` (`residue_mul`), and
`kSbox` is the table of an affine map of the inverses there (`kSbox_eq`).
-/

namespace Plusaes

abbrev Byte := BitVec 8
abbrev Word := BitVec 32

/-- `(w >> 8 * k) & 0xFF`. -/
def byte (w : Word) (k : ℕ) : Byte := (w >>> (8 * k)).setWidth 8

/-- `b0 << 0 | b1 << 8 | b2 << 16 | b3 << 24`. -/
def word (b0 b1 b2 b3 : Byte) : Word :=
  b0.setWidth 32 ||| b1.setWidth 32 <<< 8 ||| b2.setWidth 32 <<< 16 ||| b3.setWidth 32 <<< 24

set_option maxRecDepth 2048 in
def kSbox : Vector Byte 256 :=
  #v[0x63, 0x7c, 0x77, 0x7b, 0xf2, 0x6b, 0x6f, 0xc5, 0x30, 0x01, 0x67, 0x2b, 0xfe, 0xd7, 0xab, 0x76,
    0xca, 0x82, 0xc9, 0x7d, 0xfa, 0x59, 0x47, 0xf0, 0xad, 0xd4, 0xa2, 0xaf, 0x9c, 0xa4, 0x72, 0xc0,
    0xb7, 0xfd, 0x93, 0x26, 0x36, 0x3f, 0xf7, 0xcc, 0x34, 0xa5, 0xe5, 0xf1, 0x71, 0xd8, 0x31, 0x15,
    0x04, 0xc7, 0x23, 0xc3, 0x18, 0x96, 0x05, 0x9a, 0x07, 0x12, 0x80, 0xe2, 0xeb, 0x27, 0xb2, 0x75,
    0x09, 0x83, 0x2c, 0x1a, 0x1b, 0x6e, 0x5a, 0xa0, 0x52, 0x3b, 0xd6, 0xb3, 0x29, 0xe3, 0x2f, 0x84,
    0x53, 0xd1, 0x00, 0xed, 0x20, 0xfc, 0xb1, 0x5b, 0x6a, 0xcb, 0xbe, 0x39, 0x4a, 0x4c, 0x58, 0xcf,
    0xd0, 0xef, 0xaa, 0xfb, 0x43, 0x4d, 0x33, 0x85, 0x45, 0xf9, 0x02, 0x7f, 0x50, 0x3c, 0x9f, 0xa8,
    0x51, 0xa3, 0x40, 0x8f, 0x92, 0x9d, 0x38, 0xf5, 0xbc, 0xb6, 0xda, 0x21, 0x10, 0xff, 0xf3, 0xd2,
    0xcd, 0x0c, 0x13, 0xec, 0x5f, 0x97, 0x44, 0x17, 0xc4, 0xa7, 0x7e, 0x3d, 0x64, 0x5d, 0x19, 0x73,
    0x60, 0x81, 0x4f, 0xdc, 0x22, 0x2a, 0x90, 0x88, 0x46, 0xee, 0xb8, 0x14, 0xde, 0x5e, 0x0b, 0xdb,
    0xe0, 0x32, 0x3a, 0x0a, 0x49, 0x06, 0x24, 0x5c, 0xc2, 0xd3, 0xac, 0x62, 0x91, 0x95, 0xe4, 0x79,
    0xe7, 0xc8, 0x37, 0x6d, 0x8d, 0xd5, 0x4e, 0xa9, 0x6c, 0x56, 0xf4, 0xea, 0x65, 0x7a, 0xae, 0x08,
    0xba, 0x78, 0x25, 0x2e, 0x1c, 0xa6, 0xb4, 0xc6, 0xe8, 0xdd, 0x74, 0x1f, 0x4b, 0xbd, 0x8b, 0x8a,
    0x70, 0x3e, 0xb5, 0x66, 0x48, 0x03, 0xf6, 0x0e, 0x61, 0x35, 0x57, 0xb9, 0x86, 0xc1, 0x1d, 0x9e,
    0xe1, 0xf8, 0x98, 0x11, 0x69, 0xd9, 0x8e, 0x94, 0x9b, 0x1e, 0x87, 0xe9, 0xce, 0x55, 0x28, 0xdf,
    0x8c, 0xa1, 0x89, 0x0d, 0xbf, 0xe6, 0x42, 0x68, 0x41, 0x99, 0x2d, 0x0f, 0xb0, 0x54, 0xbb, 0x16]

set_option maxRecDepth 2048 in
def kInvSbox : Vector Byte 256 :=
  #v[0x52, 0x09, 0x6a, 0xd5, 0x30, 0x36, 0xa5, 0x38, 0xbf, 0x40, 0xa3, 0x9e, 0x81, 0xf3, 0xd7, 0xfb,
    0x7c, 0xe3, 0x39, 0x82, 0x9b, 0x2f, 0xff, 0x87, 0x34, 0x8e, 0x43, 0x44, 0xc4, 0xde, 0xe9, 0xcb,
    0x54, 0x7b, 0x94, 0x32, 0xa6, 0xc2, 0x23, 0x3d, 0xee, 0x4c, 0x95, 0x0b, 0x42, 0xfa, 0xc3, 0x4e,
    0x08, 0x2e, 0xa1, 0x66, 0x28, 0xd9, 0x24, 0xb2, 0x76, 0x5b, 0xa2, 0x49, 0x6d, 0x8b, 0xd1, 0x25,
    0x72, 0xf8, 0xf6, 0x64, 0x86, 0x68, 0x98, 0x16, 0xd4, 0xa4, 0x5c, 0xcc, 0x5d, 0x65, 0xb6, 0x92,
    0x6c, 0x70, 0x48, 0x50, 0xfd, 0xed, 0xb9, 0xda, 0x5e, 0x15, 0x46, 0x57, 0xa7, 0x8d, 0x9d, 0x84,
    0x90, 0xd8, 0xab, 0x00, 0x8c, 0xbc, 0xd3, 0x0a, 0xf7, 0xe4, 0x58, 0x05, 0xb8, 0xb3, 0x45, 0x06,
    0xd0, 0x2c, 0x1e, 0x8f, 0xca, 0x3f, 0x0f, 0x02, 0xc1, 0xaf, 0xbd, 0x03, 0x01, 0x13, 0x8a, 0x6b,
    0x3a, 0x91, 0x11, 0x41, 0x4f, 0x67, 0xdc, 0xea, 0x97, 0xf2, 0xcf, 0xce, 0xf0, 0xb4, 0xe6, 0x73,
    0x96, 0xac, 0x74, 0x22, 0xe7, 0xad, 0x35, 0x85, 0xe2, 0xf9, 0x37, 0xe8, 0x1c, 0x75, 0xdf, 0x6e,
    0x47, 0xf1, 0x1a, 0x71, 0x1d, 0x29, 0xc5, 0x89, 0x6f, 0xb7, 0x62, 0x0e, 0xaa, 0x18, 0xbe, 0x1b,
    0xfc, 0x56, 0x3e, 0x4b, 0xc6, 0xd2, 0x79, 0x20, 0x9a, 0xdb, 0xc0, 0xfe, 0x78, 0xcd, 0x5a, 0xf4,
    0x1f, 0xdd, 0xa8, 0x33, 0x88, 0x07, 0xc7, 0x31, 0xb1, 0x12, 0x10, 0x59, 0x27, 0x80, 0xec, 0x5f,
    0x60, 0x51, 0x7f, 0xa9, 0x19, 0xb5, 0x4a, 0x0d, 0x2d, 0xe5, 0x7a, 0x9f, 0x93, 0xc9, 0x9c, 0xef,
    0xa0, 0xe0, 0x3b, 0x4d, 0xae, 0x2a, 0xf5, 0xb0, 0xc8, 0xeb, 0xbb, 0x3c, 0x83, 0x53, 0x99, 0x61,
    0x17, 0x2b, 0x04, 0x7e, 0xba, 0x77, 0xd6, 0x26, 0xe1, 0x69, 0x14, 0x63, 0x55, 0x21, 0x0c, 0x7d]

/-- The entry of a table at a byte. -/
def lookup (table : Vector Byte 256) (b : Byte) : Byte := table.get b.toFin

def subWord (w : Word) : Word :=
  word (lookup kSbox (byte w 0)) (lookup kSbox (byte w 1)) (lookup kSbox (byte w 2)) (lookup kSbox (byte w 3))

def invSubWord (w : Word) : Word :=
  word (lookup kInvSbox (byte w 0)) (lookup kInvSbox (byte w 1)) (lookup kInvSbox (byte w 2))
    (lookup kInvSbox (byte w 3))

def rotWord (v : Word) : Word := ((v >>> 8) &&& 0x00FFFFFF) ||| ((v &&& 0xFF) <<< 24)

def mul2 (b : Byte) : Byte :=
  let m2 : Byte := b <<< 1
  -- the constant is wider than the byte, whose top bit it does not keep
  if b &&& 0x80 ≠ 0 then (m2.setWidth 32 ^^^ (0x011B : Word)).setWidth 8 else m2

def mul (b m : Byte) : Byte :=
  ((List.range 8).foldl (fun (vt : Byte × Byte) i =>
    (if (m >>> i) &&& 0x01 ≠ 0 then vt.1 ^^^ vt.2 else vt.1, mul2 vt.2)) (0, b)).1

/-! ## Bytes of a word -/

theorem getLsbD_byte (w : Word) (k i : ℕ) : (byte w k).getLsbD i = (decide (i < 8) && w.getLsbD (8 * k + i)) := by
  simp [byte]

theorem byte_word (b0 b1 b2 b3 : Byte) {k : ℕ} (hk : k < 4) :
    byte (word b0 b1 b2 b3) k = #v[b0, b1, b2, b3][k] := by
  apply BitVec.eq_of_getLsbD_eq
  intro i hi
  interval_cases k
  all_goals
    simp only [getLsbD_byte, word, BitVec.getLsbD_or, BitVec.getLsbD_shiftLeft, BitVec.getLsbD_setWidth]
    interval_cases i <;> simp

section
variable (b0 b1 b2 b3 : Byte)

@[simp] theorem byte_word_zero : byte (word b0 b1 b2 b3) 0 = b0 := byte_word b0 b1 b2 b3 (by decide)

@[simp] theorem byte_word_one : byte (word b0 b1 b2 b3) 1 = b1 := byte_word b0 b1 b2 b3 (by decide)

@[simp] theorem byte_word_two : byte (word b0 b1 b2 b3) 2 = b2 := byte_word b0 b1 b2 b3 (by decide)

@[simp] theorem byte_word_three : byte (word b0 b1 b2 b3) 3 = b3 := byte_word b0 b1 b2 b3 (by decide)

end

@[simp] theorem word_byte (w : Word) : word (byte w 0) (byte w 1) (byte w 2) (byte w 3) = w := by
  apply BitVec.eq_of_getLsbD_eq
  intro i hi
  simp only [getLsbD_byte, word, BitVec.getLsbD_or, BitVec.getLsbD_shiftLeft, BitVec.getLsbD_setWidth]
  interval_cases i <;> simp

theorem word_ext {w w' : Word} (h : ∀ k < 4, byte w k = byte w' k) : w = w' := by
  rw [← word_byte w, ← word_byte w', h 0 (by decide), h 1 (by decide), h 2 (by decide), h 3 (by decide)]

theorem byte_and (a b : Word) (k : ℕ) : byte (a &&& b) k = byte a k &&& byte b k := by
  simp [byte, BitVec.ushiftRight_and_distrib]

theorem byte_or (a b : Word) (k : ℕ) : byte (a ||| b) k = byte a k ||| byte b k := by
  simp [byte, BitVec.ushiftRight_or_distrib]

/-! ## The tables -/

@[simp] theorem lookup_kInvSbox_kSbox (b : Byte) : lookup kInvSbox (lookup kSbox b) = b := by
  revert b
  decide +kernel

@[simp] theorem invSubWord_subWord (w : Word) : invSubWord (subWord w) = w := by
  simp [invSubWord, subWord]

/-! ## The ring of bytes -/

open Binary

/-- `X ^ 4 + X ^ 3 + X + 1`, to which the ring reduces `X ^ 8`. -/
def reduction : Byte := 0x1B

theorem mul2_eq_timesX (b : Byte) : mul2 b = timesX reduction b := by
  revert b
  decide +kernel

theorem residue_mul2 (b : Byte) : residue reduction (mul2 b) = AdjoinRoot.root (modulus reduction) * residue reduction b := by
  rw [mul2_eq_timesX, residue_timesX]

/-- `mul` is the product of the ring. -/
theorem residue_mul (b m : Byte) : residue reduction (mul b m) = residue reduction b * residue reduction m := by
  have hstep (vt : Byte × Byte) (i : ℕ) :
      (if (m >>> i) &&& 0x01 ≠ 0 then vt.1 ^^^ vt.2 else vt.1, mul2 vt.2) = mulStep reduction m vt i := by
    have hbit : (m >>> i) &&& 0x01 ≠ 0 ↔ m.getLsbD i = true := by
      rw [show (0x01 : Byte) = 1#8 from rfl, BitVec.and_one_eq_setWidth_ofBool_getLsbD, BitVec.getLsbD_ushiftRight]
      cases m.getLsbD (i + 0) <;> simp
    rw [mulStep, mul2_eq_timesX]
    simp only [hbit]
  rw [mul]
  simp only [hstep]
  rw [Binary.residue_mul, mul_comm]

/-- The field's inverse followed by this map is the table. -/
def affine (b : Byte) : Byte :=
  b ^^^ b.rotateLeft 1 ^^^ b.rotateLeft 2 ^^^ b.rotateLeft 3 ^^^ b.rotateLeft 4 ^^^ 0x63

def invAffine (b : Byte) : Byte := b.rotateLeft 1 ^^^ b.rotateLeft 3 ^^^ b.rotateLeft 6 ^^^ 0x05

theorem lookup_kSbox_cases (b : Byte) :
    lookup kSbox b = affine (invAffine (lookup kSbox b)) ∧
      (b = 0 ∧ invAffine (lookup kSbox b) = 0 ∨ mul b (invAffine (lookup kSbox b)) = 1) := by
  revert b
  decide +kernel

/-- The table is the inverse of the ring, which exists for all but 0, and the
affine map. -/
theorem kSbox_eq (b : Byte) :
    ∃ c, lookup kSbox b = affine c ∧ (b = 0 ∧ c = 0 ∨ residue reduction b * residue reduction c = 1) := by
  obtain ⟨haffine, hzero | hinv⟩ := lookup_kSbox_cases b
  · exact ⟨_, haffine, .inl hzero⟩
  · refine ⟨_, haffine, .inr ?_⟩
    rw [← residue_mul, hinv, residue_one reduction (by decide)]

/-- `mul` is determined by the product of the ring, and `mul2` is its shortcut
for the factor 2. -/
theorem mul_eq_iff (b m p : Byte) :
    (mul b m = p ↔ residue reduction p = residue reduction b * residue reduction m) ∧ mul2 b = mul b 0x02 := by
  have htwo : (0x02 : Byte) = mul2 1 := by decide
  constructor
  · rw [← residue_mul, (residue_injective reduction).eq_iff, eq_comm]
  · apply residue_injective reduction
    rw [residue_mul, htwo, residue_mul2, residue_mul2, residue_one reduction (by decide)]
    ring

end Plusaes

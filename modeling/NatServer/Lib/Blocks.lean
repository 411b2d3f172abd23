import Mathlib.Data.List.Basic
import Mathlib.Data.List.Infix
import Mathlib.Logic.Function.Basic
/-!
# Block chaining and padding

Over any block type with an encryption, its inverse and a mask that undoes
itself: chaining encrypts each block masked with the block before it, and
decrypting needs only two blocks of the ciphertext for one of the text. The
padding fills the last block with its own length.
-/

namespace Blocks
variable {B : Type}

section Chaining
variable (E D : B → B) (mask : B → B → B)

def cbcEncrypt : B → List B → List B
  | _, [] => []
  | v, b :: bs => E (mask b v) :: cbcEncrypt (E (mask b v)) bs

def cbcDecrypt : B → List B → List B
  | _, [] => []
  | v, c :: cs => mask (D c) v :: cbcDecrypt c cs

variable (v : B)

@[simp] theorem length_cbcEncrypt (bs : List B) : (cbcEncrypt E mask v bs).length = bs.length := by
  induction bs generalizing v with
  | nil => rfl
  | cons b bs ih => simp [cbcEncrypt, ih]

@[simp] theorem length_cbcDecrypt (cs : List B) : (cbcDecrypt D mask v cs).length = cs.length := by
  induction cs generalizing v with
  | nil => rfl
  | cons c cs ih => simp [cbcDecrypt, ih]

/-- Chaining goes on from the last block. -/
theorem cbcEncrypt_append (xs ys : List B) :
    cbcEncrypt E mask v (xs ++ ys) =
      cbcEncrypt E mask v xs ++ cbcEncrypt E mask ((cbcEncrypt E mask v xs).getLastD v) ys := by
  induction xs generalizing v with
  | nil => rfl
  | cons x xs ih => simp only [List.cons_append, cbcEncrypt, ih, List.getLastD_cons]

theorem cbcDecrypt_append (xs ys : List B) :
    cbcDecrypt D mask v (xs ++ ys) = cbcDecrypt D mask v xs ++ cbcDecrypt D mask (xs.getLastD v) ys := by
  induction xs generalizing v with
  | nil => rfl
  | cons x xs ih => simp only [List.cons_append, cbcDecrypt, ih, List.getLastD_cons]

theorem cbcEncrypt_snoc (xs : List B) (b : B) :
    cbcEncrypt E mask v (xs ++ [b]) =
      cbcEncrypt E mask v xs ++ [E (mask b ((cbcEncrypt E mask v xs).getLastD v))] :=
  cbcEncrypt_append E mask v xs [b]

theorem cbcDecrypt_snoc (xs : List B) (c : B) :
    cbcDecrypt D mask v (xs ++ [c]) = cbcDecrypt D mask v xs ++ [mask (D c) (xs.getLastD v)] :=
  cbcDecrypt_append D mask v xs [c]

/-- A block of the ciphertext, from the block of the text and the one before. -/
theorem cbcEncrypt_eq_append_cons {bs cs cs' : List B} {c : B} (h : cbcEncrypt E mask v bs = cs ++ c :: cs') :
    ∃ xs b ys, bs = xs ++ b :: ys ∧ cbcEncrypt E mask v xs = cs ∧ c = E (mask b (cs.getLastD v)) := by
  induction cs generalizing v bs with
  | nil =>
    rcases bs with _ | ⟨b, bs⟩
    · cases h
    · exact ⟨[], b, bs, rfl, rfl, (List.cons.inj h).1.symm⟩
  | cons d cs ih =>
    rcases bs with _ | ⟨b, bs⟩
    · cases h
    · obtain ⟨rfl, htail⟩ := List.cons.inj h
      obtain ⟨xs, b', ys, rfl, rfl, hc⟩ := ih _ htail
      exact ⟨b :: xs, b', ys, rfl, rfl, by rw [List.getLastD_cons]; exact hc⟩

theorem cbcDecrypt_eq_append_cons {bs cs cs' : List B} {c : B} (h : cbcDecrypt D mask v bs = cs ++ c :: cs') :
    ∃ xs b ys, bs = xs ++ b :: ys ∧ cbcDecrypt D mask v xs = cs ∧ c = mask (D b) (xs.getLastD v) := by
  induction cs generalizing v bs with
  | nil =>
    rcases bs with _ | ⟨b, bs⟩
    · cases h
    · exact ⟨[], b, bs, rfl, rfl, (List.cons.inj h).1.symm⟩
  | cons d cs ih =>
    rcases bs with _ | ⟨b, bs⟩
    · cases h
    · obtain ⟨rfl, htail⟩ := List.cons.inj h
      obtain ⟨xs, b', ys, rfl, rfl, hc⟩ := ih _ htail
      exact ⟨b :: xs, b', ys, rfl, rfl, by rw [List.getLastD_cons]; exact hc⟩

theorem take_cbcEncrypt (bs : List B) (k : ℕ) :
    (cbcEncrypt E mask v bs).take k = cbcEncrypt E mask v (bs.take k) := by
  induction bs generalizing v k with
  | nil => simp [cbcEncrypt]
  | cons b bs ih =>
    cases k with
    | zero => rfl
    | succ k => simp only [cbcEncrypt, List.take_succ_cons, ih]

section Inverse
variable {E D mask} (hmask : ∀ a b, mask (mask a b) b = a)
include hmask

theorem cbcDecrypt_cbcEncrypt (hD : ∀ b, D (E b) = b) (bs : List B) :
    cbcDecrypt D mask v (cbcEncrypt E mask v bs) = bs := by
  induction bs generalizing v with
  | nil => rfl
  | cons b bs ih => simp only [cbcEncrypt, cbcDecrypt, hD, hmask, ih]

theorem cbcEncrypt_cbcDecrypt (hE : ∀ b, E (D b) = b) (cs : List B) :
    cbcEncrypt E mask v (cbcDecrypt D mask v cs) = cs := by
  induction cs generalizing v with
  | nil => rfl
  | cons c cs ih => simp only [cbcEncrypt, cbcDecrypt, hmask, hE, ih]

theorem cbcEncrypt_injective (hD : ∀ b, D (E b) = b) : Function.Injective (cbcEncrypt E mask v) :=
  Function.LeftInverse.injective (cbcDecrypt_cbcEncrypt v hmask hD)

/-- Two ciphertexts under one start agree exactly as far as the texts do. -/
theorem take_cbcEncrypt_inj (hD : ∀ b, D (E b) = b) {bs cs : List B} {k : ℕ} :
    (cbcEncrypt E mask v bs).take k = (cbcEncrypt E mask v cs).take k ↔ bs.take k = cs.take k := by
  rw [take_cbcEncrypt, take_cbcEncrypt]
  exact (cbcEncrypt_injective v hmask hD).eq_iff

end Inverse

/-- A block of the ciphertext matters to its own block of the text and the
next one. -/
theorem cbcDecrypt_middle (xs ys : List B) (c d : B) :
    cbcDecrypt D mask v (xs ++ c :: d :: ys) =
      cbcDecrypt D mask v xs ++ mask (D c) (xs.getLastD v) :: mask (D d) c :: cbcDecrypt D mask d ys := by
  rw [cbcDecrypt_append]
  rfl

end Chaining

/-! ## Padding -/

section Padding
variable {α : Type} (tag : ℕ → α) (size : ℕ)

/-- How many cells the padding of `n` cells has: 1 to `size`. -/
def padLength (n : ℕ) : ℕ := size - n % size

def pad (data : List α) : List α := data ++ List.replicate (padLength size data.length) (tag (padLength size data.length))

variable {size}

theorem padLength_le (n : ℕ) : padLength size n ≤ size := Nat.sub_le ..

variable (hsize : 0 < size)
include hsize

theorem padLength_pos (n : ℕ) : 0 < padLength size n :=
  Nat.sub_pos_of_lt (Nat.mod_lt n hsize)

theorem add_padLength (n : ℕ) : n + padLength size n = size * (n / size + 1) := by
  have hmod := Nat.mod_lt n hsize
  have hdiv := Nat.div_add_mod n size
  rw [padLength, Nat.mul_succ]
  omega

theorem length_pad (data : List α) : (pad tag size data).length = size * (data.length / size + 1) := by
  rw [pad, List.length_append, List.length_replicate, add_padLength hsize]

/-- The padded lists: whole blocks that end in their padding. -/
theorem exists_pad_iff {xs : List α} :
    (∃ data, pad tag size data = xs) ↔
      size ∣ xs.length ∧ ∃ n, 0 < n ∧ n ≤ size ∧ List.replicate n (tag n) <:+ xs := by
  constructor
  · rintro ⟨data, rfl⟩
    refine ⟨⟨_, length_pad tag hsize data⟩, padLength size data.length, padLength_pos hsize _, padLength_le _, ?_⟩
    exact ⟨data, rfl⟩
  · rintro ⟨hdvd, n, hn, hle, data, rfl⟩
    rw [List.length_append, List.length_replicate] at hdvd
    have hpad : padLength size data.length = n := by
      obtain ⟨k, hk⟩ := hdvd
      rw [padLength]
      rcases Nat.lt_or_eq_of_le hle with hlt | rfl
      · have hmod : (data.length + n) % size = 0 := by rw [hk, Nat.mul_mod_right]
        rw [← Nat.mod_add_mod] at hmod
        have hr := Nat.mod_lt data.length hsize
        by_cases hsum : data.length % size + n < size
        · rw [Nat.mod_eq_of_lt hsum] at hmod
          omega
        · rw [Nat.mod_eq_sub_mod (by omega), Nat.mod_eq_of_lt (by omega)] at hmod
          omega
      · have hmod : data.length % n = 0 := by rw [← Nat.add_mod_right, hk, Nat.mul_mod_right]
        omega
    exact ⟨data, by rw [pad, hpad]⟩

end Padding

end Blocks

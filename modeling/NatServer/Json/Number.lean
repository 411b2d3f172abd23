import Mathlib.Algebra.Group.Int.Defs
import Mathlib.Algebra.Group.Nat.Defs
import Mathlib.Data.List.Sort
/-!
# JSON numbers

The number states of the lexer (`scan_number`), the 64-bit integers it tries
first, and the literals it keeps as floats. Integers, the only numbers the
program itself writes, are exact. A double is represented by the literal it was
read from. Its cast to `unsigned short` is that of the nearest double; what is
not as in `json.hpp` is its text, which there is the shortest that reads as the
same double (`1.50` is printed as `1.5`) and here is the literal as it stands.
-/

namespace Json

/-- The goto labels of `scan_number`. -/
inductive NumState where
  | minus
  | zero
  | any1
  | decimal1
  | decimal2
  | exponent
  | sign
  | any2
  deriving DecidableEq, Repr

namespace NumState

def init (c : Char) : Option NumState :=
  if c = '-' then some minus
  else if c = '0' then some zero
  else if c.isDigit then some any1
  else none

/-- The state after one more character of the number, if it continues. -/
def next : NumState → Char → Option NumState
  | minus, c => if c = '0' then some zero else if c.isDigit then some any1 else none
  | zero, c => if c = '.' then some decimal1 else if c = 'e' ∨ c = 'E' then some exponent else none
  | any1, c =>
    if c.isDigit then some any1
    else if c = '.' then some decimal1
    else if c = 'e' ∨ c = 'E' then some exponent
    else none
  | decimal1, c => if c.isDigit then some decimal2 else none
  | decimal2, c =>
    if c.isDigit then some decimal2 else if c = 'e' ∨ c = 'E' then some exponent else none
  | exponent, c =>
    if c = '+' ∨ c = '-' then some sign else if c.isDigit then some any2 else none
  | sign, c => if c.isDigit then some any2 else none
  | any2, c => if c.isDigit then some any2 else none

/-- The states from which `scan_number_done` is reached. -/
def isFinal : NumState → Bool
  | zero | any1 | decimal2 | any2 => true
  | _ => false

/-- The state after a whole literal. -/
def scan : List Char → Option NumState
  | [] => none
  | c :: cs => (init c).bind fun st => cs.foldlM next st

end NumState

/-! ## Integers -/

/-- A value of `number_integer_t` (`int64_t`) or `number_unsigned_t` (`uint64_t`). -/
structure Integer where
  val : Int
  lower : -(2 ^ 63) ≤ val
  upper : val < 2 ^ 64
  deriving DecidableEq

def Integer.ofUInt16 (n : UInt16) : Integer :=
  ⟨n.toNat, by omega, by have := n.toNat_lt; omega⟩

/-- The value of a string of decimal digits. -/
def ofDigits (ds : List Char) : Nat := Nat.ofDigitChars 10 ds 0

/-- The integer a literal without `.` and exponent denotes (`strtoull`, `strtoll`). -/
def intOf : List Char → Int
  | '-' :: ds => -(ofDigits ds : Int)
  | ds => ofDigits ds

/-- The literal as a 64-bit integer, if it is one in range. -/
def toInteger? (lit : List Char) : Option Integer :=
  match NumState.scan lit with
  | some .zero | some .any1 =>
    if h : -(2 ^ 63) ≤ intOf lit ∧ intOf lit < 2 ^ 64 then some ⟨intOf lit, h.1, h.2⟩ else none
  | _ => none

/-- `dump_integer`. -/
def Integer.dump (n : Integer) : List Char :=
  if n.val < 0 then '-' :: Nat.toDigits 10 n.val.natAbs else Nat.toDigits 10 n.val.natAbs

/-! ## Floats -/

/-- The parts of a float literal: negative, mantissa digits, decimal exponent. -/
def floatParts (lit : List Char) : Bool × List Char × Int :=
  let (neg, cs) := match lit with
    | '-' :: cs => (true, cs)
    | cs => (false, cs)
  let whole := cs.takeWhile Char.isDigit
  let cs := cs.dropWhile Char.isDigit
  let (frac, cs) := match cs with
    | '.' :: cs => (cs.takeWhile Char.isDigit, cs.dropWhile Char.isDigit)
    | cs => ([], cs)
  let exp : Int := match cs with
    | _ :: '-' :: ds => -(ofDigits ds : Int)
    | _ :: '+' :: ds => ofDigits ds
    | _ :: ds => ofDigits ds
    | [] => 0
  (neg, whole ++ frac, exp - frac.length)

/-- The double nearest to the literal is not infinite: the literal is below
the midpoint between the largest double and `2 ^ 1024`. -/
def isFinite (lit : List Char) : Bool :=
  let (_, ds, e) := floatParts lit
  let m := ofDigits ds
  m = 0 || (Nat.toDigits 10 m).length + e < 309 ||
    ((Nat.toDigits 10 m).length + e = 309 && m * 10 ^ e.toNat < (2 ^ 1024 - 2 ^ 970) * 10 ^ (-e).toNat)

/-- The literals the lexer keeps as floats. -/
def isFloatLit (lit : List Char) : Bool :=
  (NumState.scan lit).any NumState.isFinal && (toInteger? lit).isNone && isFinite lit

/-- A finite double, as the literal it was read from. -/
structure FloatLit where
  text : List Char
  isFloat : isFloatLit text = true
  deriving DecidableEq

/-- The integral part of the double nearest to `num / den`, a number below
`2 ^ 52`: the next integer where the number is within half a unit in the last
place of it, which is even and so wins a tie. -/
def truncNearest (num den : Nat) : Nat :=
  let k := num / den
  let bits := if k = 0 then 0 else k.log2 + 1
  if (k + 1) * den * 2 ^ 54 ≤ num * 2 ^ 54 + den * 2 ^ bits then k + 1 else k

/-- `static_cast<unsigned short>` of the double nearest to the literal: its
integral part, modulo `2 ^ 16` (C++ leaves open what comes of one that does not
fit). -/
def FloatLit.toUInt16 (f : FloatLit) : UInt16 :=
  let (neg, ds, e) := floatParts f.text
  let n : Int := if ds.length + e < 0 then 0 else truncNearest (ofDigits ds * 10 ^ e.toNat) (10 ^ (-e).toNat)
  UInt16.ofNat ((if neg then -n else n) % 2 ^ 16).toNat

example : FloatLit.toUInt16 ⟨"79.99999999999999999999".toList, by decide +kernel⟩ = 80 := by decide +kernel

/-- `static_cast<unsigned short>` of a 64-bit integer. -/
def Integer.toUInt16 (n : Integer) : UInt16 := UInt16.ofNat (n.val % 2 ^ 16).toNat

@[simp] theorem Integer.toUInt16_ofUInt16 (p : UInt16) : (ofUInt16 p).toUInt16 = p := by
  have h : ((p.toNat : Int) % 2 ^ 16).toNat = p.toNat := by have := p.toNat_lt; omega
  simp only [toUInt16, ofUInt16]
  rw [h]
  exact UInt16.ofNat_toNat

/-! ## A printed integer is read back -/

theorem head_toDigits {n : Nat} (h : 0 < n) : (Nat.toDigits 10 n).head? ≠ some '0' := by
  induction n using Nat.base_induction 10 (by decide) with
  | single m hm =>
    simp [Nat.toDigits_of_lt_base hm, Nat.ne_of_gt h]
  | digit m k hk hm ih =>
    rw [← Nat.toDigits_append_toDigits (by decide) hm hk, List.head?_append_of_ne_nil _ Nat.toDigits_ne_nil]
    exact ih hm

/-- A positive number's digits start with a nonzero one. -/
theorem toDigits_pos {n : Nat} (h : 0 < n) :
    ∃ d ds, Nat.toDigits 10 n = d :: ds ∧ d.isDigit = true ∧ d ≠ '0' ∧ ∀ c ∈ ds, c.isDigit = true := by
  obtain ⟨d, ds, hd⟩ := List.exists_cons_of_ne_nil (Nat.toDigits_ne_nil (n := n) (b := 10))
  have hall : ∀ c ∈ d :: ds, c.isDigit = true := fun c hc =>
    Nat.isDigit_of_mem_toDigits (by decide) (by decide) (hd ▸ hc)
  refine ⟨d, ds, hd, hall d (by simp), ?_, fun c hc => hall c (by simp [hc])⟩
  rintro rfl
  exact head_toDigits h (by simp [hd])

theorem foldlM_any1 {ds : List Char} (h : ∀ c ∈ ds, c.isDigit = true) :
    ds.foldlM NumState.next .any1 = some .any1 := by
  induction ds with
  | nil => rfl
  | cons c ds ih =>
    rw [List.foldlM_cons, NumState.next, if_pos (h c (by simp))]
    exact ih fun x hx => h x (by simp [hx])

theorem isDigit_ne {c d : Char} (hc : c.isDigit = true) (hd : d.isDigit = false) : c ≠ d := by
  rintro rfl
  simp [hc] at hd

theorem scan_toDigits (n : Nat) :
    NumState.scan (Nat.toDigits 10 n) = some .zero ∨ NumState.scan (Nat.toDigits 10 n) = some .any1 := by
  rcases Nat.eq_zero_or_pos n with rfl | h
  · exact .inl rfl
  · obtain ⟨d, ds, e, hd, h0, hds⟩ := toDigits_pos h
    right
    rw [e, NumState.scan, NumState.init, if_neg (isDigit_ne hd rfl), if_neg h0, if_pos hd]
    exact foldlM_any1 hds

theorem scan_neg_toDigits {n : Nat} (h : 0 < n) : NumState.scan ('-' :: Nat.toDigits 10 n) = some .any1 := by
  obtain ⟨d, ds, e, hd, h0, hds⟩ := toDigits_pos h
  rw [e]
  simp only [NumState.scan, NumState.init, if_true, Option.bind_some, List.foldlM_cons, NumState.next, if_neg h0,
    if_pos hd]
  exact foldlM_any1 hds

theorem Integer.scan_dump (n : Integer) :
    NumState.scan n.dump = some .zero ∨ NumState.scan n.dump = some .any1 := by
  unfold dump
  split
  · exact .inr (scan_neg_toDigits (by omega))
  · exact scan_toDigits _

theorem intOf_toDigits (n : Nat) : intOf (Nat.toDigits 10 n) = n := by
  have hd : ∀ c ∈ Nat.toDigits 10 n, c ≠ '-' := fun c hc =>
    isDigit_ne (Nat.isDigit_of_mem_toDigits (by decide) (by decide) hc) rfl
  unfold intOf
  split
  · next ds e => exact absurd rfl (hd '-' (by simp [e]))
  · simp [ofDigits]

theorem Integer.intOf_dump (n : Integer) : intOf n.dump = n.val := by
  unfold dump
  split
  · simp only [intOf, ofDigits, Nat.ofDigitChars_ten_toDigits]; omega
  · rw [intOf_toDigits]; omega

theorem Integer.toInteger?_dump (n : Integer) : toInteger? n.dump = some n := by
  have hb : -(2 ^ 63) ≤ intOf n.dump ∧ intOf n.dump < 2 ^ 64 := by
    rw [n.intOf_dump]; exact ⟨n.lower, n.upper⟩
  unfold toInteger?
  rcases n.scan_dump with h | h <;>
  · rw [h]
    simp only [dif_pos hb, Option.some.injEq]
    cases n; simp [Integer.intOf_dump]

end Json

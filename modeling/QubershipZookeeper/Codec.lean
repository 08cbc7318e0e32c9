import Mathlib.Data.List.Basic
import Mathlib.Data.List.Induction
import Mathlib.Algebra.Order.Ring.Nat
import Mathlib.Tactic.Ring

/-!
# Big-endian numbers and prefix-free encodings

A general layer for binary formats, with nothing of any particular format in
it: fixed-width big-endian numbers (`natToBytes`, `bytesToNat`, `bytesToInt`)
with their round trips, the slices of a dynamic language that count from the
end when the bound is negative (`sliceTo`, `sliceFrom`), and **prefix-free**
encoders (`PrefixFree`) — those whose end can be told from what has been read.
-/

/-- A byte string. -/
abbrev Bytes : Type := List UInt8

namespace Codec

/-! ## Fixed-width numbers -/

/-- The `w` big-endian bytes of `n`, most significant first. -/
def natToBytes : ℕ → ℕ → Bytes
  | 0, _ => []
  | w + 1, n => natToBytes w (n / 256) ++ [UInt8.ofNat n]

/-- The number a big-endian byte string stands for. -/
def bytesToNat (bs : Bytes) : ℕ := bs.foldl (fun n b => n * 256 + b.toNat) 0

/-- The two's complement number a big-endian byte string stands for. -/
def bytesToInt (bs : Bytes) : ℤ := Int.bmod (bytesToNat bs) (256 ^ bs.length)

/-- An encoded number has the width of its format. -/
@[simp] theorem length_natToBytes (w n : ℕ) : (natToBytes w n).length = w := by
  induction w generalizing n with
  | zero => rfl
  | succ w ih => simp [natToBytes, ih]

theorem bytesToNat_concat (bs : Bytes) (b : UInt8) :
    bytesToNat (bs ++ [b]) = bytesToNat bs * 256 + b.toNat := by
  simp [bytesToNat, List.foldl_append]

/-- Reading back what was written, as long as it fits. -/
theorem bytesToNat_natToBytes {w n : ℕ} (h : n < 256 ^ w) : bytesToNat (natToBytes w n) = n := by
  induction w generalizing n with
  | zero =>
    have : n = 0 := by simpa using h
    simp [natToBytes, bytesToNat, this]
  | succ w ih =>
    have hq : n / 256 < 256 ^ w := by
      rw [Nat.div_lt_iff_lt_mul (by norm_num)]
      rwa [pow_succ] at h
    rw [natToBytes, bytesToNat_concat, ih hq, UInt8.toNat_ofNat']
    omega

/-- A number of so many bytes is below the bound of that width. -/
theorem bytesToNat_lt (bs : Bytes) : bytesToNat bs < 256 ^ bs.length := by
  induction bs using List.reverseRecOn with
  | nil => simp [bytesToNat]
  | append_singleton bs b ih =>
    have hb := b.toNat_lt
    rw [bytesToNat_concat, List.length_append, List.length_singleton, pow_succ]
    omega

/-- Writing again what was read. -/
theorem natToBytes_bytesToNat (bs : Bytes) : natToBytes bs.length (bytesToNat bs) = bs := by
  induction bs using List.reverseRecOn with
  | nil => rfl
  | append_singleton bs b ih =>
    have hb := b.toNat_lt
    have hdiv : (bytesToNat bs * 256 + b.toNat) / 256 = bytesToNat bs := by omega
    have hlast : UInt8.ofNat (bytesToNat bs * 256 + b.toNat) = b := by
      apply UInt8.toNat_inj.mp
      rw [UInt8.toNat_ofNat']
      omega
    rw [bytesToNat_concat, List.length_append, List.length_singleton, natToBytes, hdiv, ih, hlast]

/-- Reading back a machine word, unsigned. -/
theorem bytesToNat_word {k : ℕ} (v : BitVec (8 * k)) :
    bytesToNat (natToBytes k v.toNat) = v.toNat := by
  apply bytesToNat_natToBytes
  have := v.isLt
  rwa [pow_mul] at this

/-- Reading back a machine word, signed. -/
theorem bytesToInt_word {k : ℕ} (v : BitVec (8 * k)) :
    bytesToInt (natToBytes k v.toNat) = v.toInt := by
  rw [bytesToInt, bytesToNat_word, length_natToBytes, BitVec.toInt_eq_toNat_bmod, pow_mul]
  norm_num

/-! ## Slices with a negative bound -/

variable {α : Type}

/-- `xs[:k]`: a negative `k` counts from the end. -/
def sliceTo (xs : List α) (k : ℤ) : List α :=
  if 0 ≤ k then xs.take k.toNat else xs.take (xs.length - (-k).toNat)

/-- `xs[k:]`: a negative `k` counts from the end. -/
def sliceFrom (xs : List α) (k : ℤ) : List α :=
  if 0 ≤ k then xs.drop k.toNat else xs.drop (xs.length - (-k).toNat)

/-- A slice up to the length of the first part is the first part. -/
theorem sliceTo_append {xs ys : List α} {k : ℤ} (hk : k = xs.length) :
    sliceTo (xs ++ ys) k = xs := by
  subst hk
  simp [sliceTo]

/-- A slice from there on is the second part. -/
theorem sliceFrom_append {xs ys : List α} {k : ℤ} (hk : k = xs.length) :
    sliceFrom (xs ++ ys) k = ys := by
  subst hk
  simp [sliceFrom]

/-- Cutting at `-1` leaves at most one element behind. -/
theorem length_sliceFrom_neg_one (xs : List α) : (sliceFrom xs (-1)).length ≤ 1 := by
  simp only [sliceFrom, show ¬ (0 : ℤ) ≤ -1 by decide, if_false, List.length_drop]
  norm_num
  omega

/-! ## Prefix-free encoders -/

/-- No encoding is a proper initial part of another one, so a reader always
knows where an encoding ends. -/
def PrefixFree (e : α → Bytes) : Prop := ∀ a b x y, e a ++ x = e b ++ y → e a = e b

/-- A sequence of prefix-free encodings, none of which is empty, can be cut back
into its parts. -/
theorem PrefixFree.map_eq_of_flatMap_eq {e : α → Bytes} (he : PrefixFree e)
    (hne : ∀ a, e a ≠ []) :
    ∀ {xs ys : List α}, xs.flatMap e = ys.flatMap e → xs.map e = ys.map e := by
  intro xs
  induction xs with
  | nil =>
    intro ys h
    cases ys with
    | nil => rfl
    | cons y ys =>
      rw [List.flatMap_nil, List.flatMap_cons] at h
      exact absurd (List.append_eq_nil_iff.mp h.symm).1 (hne y)
  | cons x xs ih =>
    intro ys h
    cases ys with
    | nil =>
      rw [List.flatMap_nil, List.flatMap_cons] at h
      exact absurd (List.append_eq_nil_iff.mp h).1 (hne x)
    | cons y ys =>
      rw [List.flatMap_cons, List.flatMap_cons] at h
      have hxy := he _ _ _ _ h
      rw [hxy] at h
      rw [List.map_cons, List.map_cons, hxy, ih (List.append_cancel_left h)]

/-- Encodings that are never empty take at least a byte for each item. -/
theorem length_le_length_flatMap {e : α → Bytes} (hne : ∀ a, e a ≠ []) (xs : List α) :
    xs.length ≤ (xs.flatMap e).length := by
  induction xs with
  | nil => simp
  | cons x xs ih =>
    have hx : 0 < (e x).length := List.length_pos_iff.mpr (hne x)
    rw [List.flatMap_cons, List.length_append, List.length_cons]
    omega

end Codec

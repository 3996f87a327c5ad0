/-
# ConfigDrive.Proofs.Text.Utf8Order — texts are ordered as their bytes are.

Texts are compared by their characters, file names on a disk by their bytes.  Both orders are the same:
of two different characters the smaller one is also the first in bytes, and it is so at some byte of both,
whatever comes after them (`Before`).
-/
import ConfigDrive.Text.Utf8
import Mathlib.Data.String.Basic

namespace ConfigDrive.Text.Utf8

/-- One byte string comes before another at some byte of both. -/
inductive Before : List UInt8 → List UInt8 → Prop
  | here {x y : UInt8} (h : x < y) (xs ys : List UInt8) : Before (x :: xs) (y :: ys)
  | there (x : UInt8) {xs ys : List UInt8} (h : Before xs ys) : Before (x :: xs) (x :: ys)

variable {xs ys : List UInt8}

/-- What follows does not matter. -/
theorem Before.append (h : Before xs ys) (us vs : List UInt8) : Before (xs ++ us) (ys ++ vs) := by
  induction h with
  | here h xs ys => exact .here h _ _
  | there x h ih => exact .there x ih

theorem Before.lt (h : Before xs ys) : xs < ys := by
  induction h with
  | here h xs ys => exact List.cons_lt_cons_iff.mpr (.inl h)
  | there x h ih => exact List.cons_lt_cons_iff.mpr (.inr ⟨rfl, ih⟩)

theorem before_cons {a b : Nat} (hb : b < 256) (h : a < b ∨ a = b ∧ Before xs ys) :
    Before (UInt8.ofNat a :: xs) (UInt8.ofNat b :: ys) := by
  rcases h with hlt | ⟨rfl, hrest⟩
  · refine .here ?_ _ _
    rw [UInt8.lt_iff_toNat_lt, UInt8.toNat_ofNat_of_lt' (hlt.trans hb), UInt8.toNat_ofNat_of_lt' hb]
    exact hlt
  · exact .there _ hrest

/-- **Of two characters** the smaller one comes before the other. -/
theorem utf8EncodeChar_before {c d : Char} (h : c < d) :
    Before (String.utf8EncodeChar c) (String.utf8EncodeChar d) := by
  have hv : c.val.toNat < d.val.toNat := h
  have hmax : d.val.toNat < 0x110000 := by
    rcases d.valid with hd | ⟨-, hd⟩
    · exact Nat.lt_trans hd (by decide)
    · exact hd
  rw [String.utf8EncodeChar, String.utf8EncodeChar]
  generalize c.val.toNat = v at hv
  generalize d.val.toNat = w at hv hmax
  -- a character with more bytes has a greater first byte; with as many, the first digit that
  -- differs decides
  split
  · split
    · exact before_cons (by omega) (.inl hv)
    split
    · exact before_cons (by omega) (.inl (by omega))
    split <;> exact before_cons (by omega) (.inl (by omega))
  split
  · rw [if_neg (by omega)]
    split
    · refine before_cons (by omega) ?_
      rcases Nat.lt_or_ge (v / 64) (w / 64) with hlead | hlead
      · exact .inl (by omega)
      · exact .inr ⟨by omega, before_cons (by omega) (.inl (by omega))⟩
    split <;> exact before_cons (by omega) (.inl (by omega))
  split
  · rw [if_neg (by omega), if_neg (by omega)]
    split
    · refine before_cons (by omega) ?_
      rcases Nat.lt_or_ge (v / 4096) (w / 4096) with hlead | hlead
      · exact .inl (by omega)
      refine .inr ⟨by omega, before_cons (by omega) ?_⟩
      rcases Nat.lt_or_ge (v / 64) (w / 64) with hmiddle | hmiddle
      · exact .inl (by omega)
      · exact .inr ⟨by omega, before_cons (by omega) (.inl (by omega))⟩
    · exact before_cons (by omega) (.inl (by omega))
  · rw [if_neg (by omega), if_neg (by omega), if_neg (by omega)]
    refine before_cons (by omega) ?_
    rcases Nat.lt_or_ge (v / 262144) (w / 262144) with hlead | hlead
    · exact .inl (by omega)
    refine .inr ⟨by omega, before_cons (by omega) ?_⟩
    rcases Nat.lt_or_ge (v / 4096) (w / 4096) with hsecond | hsecond
    · exact .inl (by omega)
    refine .inr ⟨by omega, before_cons (by omega) ?_⟩
    rcases Nat.lt_or_ge (v / 64) (w / 64) with hthird | hthird
    · exact .inl (by omega)
    · exact .inr ⟨by omega, before_cons (by omega) (.inl (by omega))⟩

/-- The smaller text has the smaller bytes. -/
theorem encode_lt {s t : List Char} (h : s < t) : encode s < encode t := by
  induction s generalizing t with
  | nil =>
      cases t with
      | nil => exact absurd h (lt_irrefl _)
      | cons d t =>
          have hbytes : encode (d :: t) ≠ [] := by
            simp [encode, String.utf8EncodeChar_ne_nil]
          obtain ⟨x, xs, hx⟩ := List.exists_cons_of_ne_nil hbytes
          rw [hx]
          exact List.nil_lt_cons x xs
  | cons c s ih =>
      cases t with
      | nil => exact absurd h (List.not_lt_nil _)
      | cons d t =>
          rcases List.cons_lt_cons_iff.mp h with hcd | ⟨rfl, hst⟩
          · exact ((utf8EncodeChar_before hcd).append _ _).lt
          · exact List.append_left_lt (ih hst)

/-- **Texts are ordered as their bytes are.** -/
theorem le_iff_encode_le (a b : String) : a ≤ b ↔ encode a.toList ≤ encode b.toList := by
  rw [String.le_iff_toList_le]
  constructor
  · intro hle
    rcases hle.lt_or_eq with hlt | heq
    · exact List.le_of_lt (encode_lt hlt)
    · rw [heq]
      exact List.le_refl _
  · intro hle
    by_contra hnot
    exact hle (encode_lt (lt_of_not_ge hnot))

end ConfigDrive.Text.Utf8

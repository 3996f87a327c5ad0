/-
# ConfigDrive.Proofs.Text.Utf8 — the bytes of a text are read as that text.

The bytes of a character take the reader from the boundary before it to the boundary after it, whatever
follows, so a text is read back character by character and without a broken sequence.  A byte below 0x80
is a character wherever it stands, even after a broken sequence, so what stands before it and what stands
after it are read by themselves (`decodeLossy_append_ascii`).
-/
import ConfigDrive.Text.Utf8
import Mathlib.Data.String.Basic

namespace ConfigDrive.Text.Utf8

/-! ## One byte -/

theorem toNat_ofNat {n : Nat} (h : n < 256) : (UInt8.ofNat n).toNat = n :=
  UInt8.toNat_ofNat_of_lt' h

/-- A byte between the bounds completes a character or continues it. -/
theorem push_ofNat {p : Pending} {n : Nat} (hn : n < 256) (hlow : p.low ≤ n) (hhigh : n ≤ p.high) :
    p.push (UInt8.ofNat n) =
      match p.missing with
      | 0 => .complete (Char.ofNat (p.bits * 64 + (n - 0x80)))
      | k + 1 => .wait ⟨k, p.bits * 64 + (n - 0x80), 0x80, 0xBF⟩ := by
  rw [Pending.push, toNat_ofNat hn]
  dsimp only
  refine Eq.trans (if_pos ?_) ?_
  · rw [decide_eq_true hlow, decide_eq_true hhigh]
    rfl
  · cases p.missing <;> rfl

/-- The first of two bytes. -/
theorem lead_two {n : Nat} (hlow : 0xC2 ≤ n) (hhigh : n < 0xE0) :
    lead (UInt8.ofNat n) = .wait ⟨0, n - 0xC0, 0x80, 0xBF⟩ := by
  rw [lead, toNat_ofNat (by omega)]
  rw [if_neg (by omega), if_neg (by omega), if_pos hhigh]

/-- The first of three bytes.  The second one has bounds that depend on it. -/
theorem lead_three {n : Nat} (hlow : 0xE0 ≤ n) (hhigh : n < 0xF0) :
    lead (UInt8.ofNat n) =
      .wait ⟨1, n - 0xE0, if n = 0xE0 then 0xA0 else 0x80, if n = 0xED then 0x9F else 0xBF⟩ := by
  rw [lead, toNat_ofNat (by omega)]
  rw [if_neg (by omega), if_neg (by omega), if_neg (by omega)]
  by_cases hE0 : n = 0xE0
  · subst hE0
    rfl
  by_cases hED : n = 0xED
  · subst hED
    rfl
  rw [if_neg (by simpa using hE0), if_neg (by simpa using hED), if_pos hhigh, if_neg hE0, if_neg hED]

/-- The first of four bytes. -/
theorem lead_four {n : Nat} (hlow : 0xF0 ≤ n) (hhigh : n ≤ 0xF4) :
    lead (UInt8.ofNat n) =
      .wait ⟨2, n - 0xF0, if n = 0xF0 then 0x90 else 0x80, if n = 0xF4 then 0x8F else 0xBF⟩ := by
  rw [lead, toNat_ofNat (by omega)]
  rw [if_neg (by omega), if_neg (by omega), if_neg (by omega), if_neg (by simp; omega),
    if_neg (by simp; omega), if_neg (by omega)]
  by_cases hF0 : n = 0xF0
  · subst hF0
    rfl
  by_cases hF4 : n = 0xF4
  · subst hF4
    rfl
  rw [if_neg (by simpa using hF0), if_pos (by omega), if_neg hF0, if_neg hF4]

/-! ## One character -/

/-- **A character is read from its bytes**, and the reader is at a boundary again. -/
theorem unitsFrom_utf8EncodeChar (c : Char) (rest : List UInt8) :
    unitsFrom none (String.utf8EncodeChar c ++ rest) = some c :: unitsFrom none rest := by
  have hc : Char.ofNat c.val.toNat = c := Char.ofNat_toNat c
  have hvalid : c.val.toNat < 0xD800 ∨ 0xDFFF < c.val.toNat ∧ c.val.toNat < 0x110000 := c.valid
  rw [String.utf8EncodeChar]
  generalize c.val.toNat = v at hc hvalid
  split
  · show unitsFrom none (UInt8.ofNat v :: rest) = _
    rw [unitsFrom, lead, toNat_ofNat (by omega), if_pos (by omega), hc]
  split
  · show unitsFrom none (_ :: _ :: rest) = _
    rw [unitsFrom, lead_two (by omega) (by omega)]
    dsimp only
    rw [unitsFrom, push_ofNat (by omega) (by dsimp only; omega) (by dsimp only; omega)]
    dsimp only
    rw [show (v / 64 % 32 + 192 - 192) * 64 + (v % 64 + 128 - 128) = v by omega, hc]
  split
  · show unitsFrom none (_ :: _ :: _ :: rest) = _
    rw [unitsFrom, lead_three (by omega) (by omega)]
    dsimp only
    rw [unitsFrom, push_ofNat (by omega) (by dsimp only; split <;> omega) (by dsimp only; split <;> omega)]
    dsimp only
    rw [unitsFrom, push_ofNat (by omega) (by dsimp only; omega) (by dsimp only; omega)]
    dsimp only
    rw [show ((v / 4096 % 16 + 224 - 224) * 64 + (v / 64 % 64 + 128 - 128)) * 64 +
      (v % 64 + 128 - 128) = v by omega, hc]
  · show unitsFrom none (_ :: _ :: _ :: _ :: rest) = _
    rw [unitsFrom, lead_four (by omega) (by omega)]
    dsimp only
    rw [unitsFrom, push_ofNat (by omega) (by dsimp only; split <;> omega) (by dsimp only; split <;> omega)]
    dsimp only
    rw [unitsFrom, push_ofNat (by omega) (by dsimp only; omega) (by dsimp only; omega)]
    dsimp only
    rw [unitsFrom, push_ofNat (by omega) (by dsimp only; omega) (by dsimp only; omega)]
    dsimp only
    rw [show (((v / 262144 % 8 + 240 - 240) * 64 + (v / 4096 % 64 + 128 - 128)) * 64 +
      (v / 64 % 64 + 128 - 128)) * 64 + (v % 64 + 128 - 128) = v by omega, hc]

/-- A byte below 0x80 belongs to a character of one byte. -/
theorem eq_ofNat_of_mem {c : Char} {b : UInt8} (hb : b.toNat < 0x80)
    (h : b ∈ String.utf8EncodeChar c) : c = Char.ofNat b.toNat := by
  have hc : Char.ofNat c.val.toNat = c := Char.ofNat_toNat c
  have hbyte : ∀ n : Nat, n < 256 → b = UInt8.ofNat n → n = b.toNat := by
    rintro n hn rfl
    exact (toNat_ofNat hn).symm
  rw [String.utf8EncodeChar] at h
  generalize c.val.toNat = v at hc h
  split at h
  · rw [← hbyte v (by omega) (List.mem_singleton.mp h)]
    exact hc.symm
  -- the bytes of any other character are above it
  split at h
  · rcases List.mem_pair.mp h with heq | heq <;> have := hbyte _ (by omega) heq <;> omega
  split at h <;> simp only [List.mem_cons, List.not_mem_nil, or_false] at h
  · rcases h with heq | heq | heq <;> have := hbyte _ (by omega) heq <;> omega
  · rcases h with heq | heq | heq | heq <;> have := hbyte _ (by omega) heq <;> omega

theorem toNat_char_ofNat {n : Nat} (h : n < 0x80) : (Char.ofNat n).toNat = n := by
  rw [Char.ofNat, dif_pos (.inl (by omega))]
  exact UInt32.toNat_ofNatLT ..

/-- A character below 0x80 has one byte. -/
theorem utf8EncodeChar_ofNat {n : Nat} (h : n < 0x80) :
    String.utf8EncodeChar (Char.ofNat n) = [UInt8.ofNat n] := by
  have hvalue : (Char.ofNat n).val.toNat = n := toNat_char_ofNat h
  rw [String.utf8EncodeChar, hvalue]
  exact if_pos (by omega)

/-! ## Texts -/

theorem encode_cons (c : Char) (s : List Char) :
    encode (c :: s) = String.utf8EncodeChar c ++ encode s :=
  List.flatMap_cons

theorem encode_append (s t : List Char) : encode (s ++ t) = encode s ++ encode t :=
  List.flatMap_append

/-- Bytes below 0x80 are the bytes of their characters. -/
theorem encode_map_ofNat {bs : List UInt8} (h : ∀ b ∈ bs, b.toNat < 0x80) :
    encode (bs.map fun b => Char.ofNat b.toNat) = bs := by
  induction bs with
  | nil => rfl
  | cons b bs ih =>
      obtain ⟨hb, hbs⟩ := List.forall_mem_cons.mp h
      rw [List.map_cons, encode_cons, utf8EncodeChar_ofNat hb, UInt8.ofNat_toNat, ih hbs]
      rfl

/-- A text whose first byte is below 0x80 begins with that character. -/
theorem exists_of_encode_eq_cons {s : List Char} {b : UInt8} {bs : List UInt8} (hb : b.toNat < 0x80)
    (h : encode s = b :: bs) : ∃ t, s = Char.ofNat b.toNat :: t ∧ encode t = bs := by
  cases s with
  | nil => cases h
  | cons c t =>
      rw [encode_cons] at h
      obtain ⟨x, xs, hx⟩ := List.exists_cons_of_ne_nil (String.utf8EncodeChar_ne_nil (c := c))
      have hfirst : x = b := by
        rw [hx] at h
        exact (List.cons.inj h).1
      obtain rfl := eq_ofNat_of_mem hb (c := c) (by rw [hx, hfirst]; exact List.mem_cons_self)
      rw [utf8EncodeChar_ofNat hb] at h
      exact ⟨t, rfl, (List.cons.inj h).2⟩

/-- **The bytes of a text are read as that text**, and then the bytes that follow them. -/
theorem units_encode_append (s : List Char) (bytes : List UInt8) :
    units (encode s ++ bytes) = s.map some ++ units bytes := by
  induction s with
  | nil => rfl
  | cons c s ih =>
      rw [encode_cons, List.append_assoc, units, unitsFrom_utf8EncodeChar, List.map_cons]
      exact congrArg (some c :: ·) ih

theorem decodeLossy_encode_append (s : List Char) (bytes : List UInt8) :
    decodeLossy (encode s ++ bytes) = s ++ decodeLossy bytes := by
  rw [decodeLossy, units_encode_append, List.map_append, List.map_map]
  exact congrArg (· ++ decodeLossy bytes) (List.map_id s)

theorem decodeLossy_encode (s : List Char) : decodeLossy (encode s) = s := by
  rw [← List.append_nil (encode s), decodeLossy_encode_append]
  exact List.append_nil s

/-! ## Bytes below 0x80 -/

theorem lead_ascii {b : UInt8} (hb : b.toNat < 0x80) : lead b = .complete (Char.ofNat b.toNat) := by
  rw [lead, if_pos hb]

/-- An unfinished character waits for bytes that begin none. -/
theorem le_low_of_lead {b : UInt8} {p : Pending} (h : lead b = .wait p) : 0x80 ≤ p.low := by
  rw [lead] at h
  split_ifs at h <;> cases h <;> exact Nat.le_of_ble_eq_true rfl

theorem le_low_of_push {p q : Pending} {b : UInt8} (h : p.push b = .wait q) : 0x80 ≤ q.low := by
  rw [Pending.push] at h
  dsimp only at h
  split at h
  · split at h
    · cases h
    · cases h
      exact le_rfl
  · cases h

theorem push_ascii {p : Pending} (hp : 0x80 ≤ p.low) {b : UInt8} (hb : b.toNat < 0x80) :
    p.push b = .broken := by
  rw [Pending.push]
  refine if_neg ?_
  simp only [Bool.and_eq_true, decide_eq_true_eq]
  omega

/-- **A byte below 0x80 is a character wherever it stands**, and the reader is at a boundary again. -/
theorem unitsFrom_append_ascii {p : Option Pending} (hp : ∀ q ∈ p, 0x80 ≤ q.low) (xs : List UInt8)
    {b : UInt8} (hb : b.toNat < 0x80) (ys : List UInt8) :
    unitsFrom p (xs ++ b :: ys) =
      unitsFrom p xs ++ some (Char.ofNat b.toNat) :: unitsFrom none ys := by
  have hnone : ∀ q ∈ (none : Option Pending), 0x80 ≤ q.low := nofun
  induction xs generalizing p with
  | nil =>
      cases p with
      | none =>
          show unitsFrom none (b :: ys) = some _ :: unitsFrom none ys
          rw [unitsFrom, lead_ascii hb]
      | some q =>
          show unitsFrom (some q) (b :: ys) = none :: some _ :: unitsFrom none ys
          rw [unitsFrom, push_ascii (hp q rfl) hb, lead_ascii hb]
  | cons x xs ih =>
      have hlead : ∀ {q}, lead x = .wait q → ∀ q' ∈ some q, 0x80 ≤ q'.low := by
        rintro q hq q' ⟨⟩
        exact le_low_of_lead hq
      cases p with
      | none =>
          rw [List.cons_append, unitsFrom, unitsFrom]
          split
          · rw [ih hnone]; rfl
          · next hq => exact ih (hlead hq)
          · rw [ih hnone]; rfl
      | some p =>
          rw [List.cons_append, unitsFrom, unitsFrom]
          split
          · rw [ih hnone]; rfl
          · next q hq =>
              refine ih ?_
              rintro q' ⟨⟩
              exact le_low_of_push hq
          · split
            · rw [ih hnone]; rfl
            · next hq => rw [ih (hlead hq)]; rfl
            · rw [ih hnone]; rfl

/-- What stands on both sides of such a byte is read by itself. -/
theorem decodeLossy_append_ascii (xs : List UInt8) {b : UInt8} (hb : b.toNat < 0x80)
    (ys : List UInt8) :
    decodeLossy (xs ++ b :: ys) = decodeLossy xs ++ Char.ofNat b.toNat :: decodeLossy ys := by
  rw [decodeLossy, units, unitsFrom_append_ascii (p := none) nofun xs hb, List.map_append]
  rfl

end ConfigDrive.Text.Utf8

/-
# ConfigDrive.Proofs.Text.Octal — octal escapes are undone.

A text can be spelled in many ways: each of its characters stands for itself, unless it is a backslash, or
is written as the octal escapes of all its bytes.  Whichever way is taken, and whatever comes after it, a
spelling is read as its text (`unescape_append_of_spells`).

There are texts that spell nothing, because a backslash in them starts no escape.  Digits are no
backslashes, so an escape never swallows one, and reading always comes to a backslash afresh
(`unescapeBytes_append_backslash`).  One that starts no escape is kept, and what stands before it and what
stands after it are read by themselves (`unescape_append_backslash`).
-/
import ConfigDrive.Text.Octal
import ConfigDrive.Proofs.Text.Utf8

namespace ConfigDrive.Text.Octal

/-! ## Spellings -/

/-- A character written as the octal escapes of all its bytes. -/
def escapes (c : Char) : List Char :=
  (String.utf8EncodeChar c).flatMap fun b => (escapeByte b).map fun d => Char.ofNat d.toNat

/-- Two bytes, two escapes. -/
example : escapes 'é' = "\\303\\251".toList := by decide

/-- The spellings of a text: each character is written as it is or as the escapes of its bytes, a
backslash always as escapes. -/
inductive Spells : List Char → List Char → Prop
  | nil : Spells [] []
  | plain {c : Char} (hc : c ≠ '\\') {w s : List Char} (h : Spells w s) : Spells (c :: w) (c :: s)
  | escaped (c : Char) {w s : List Char} (h : Spells w s) : Spells (escapes c ++ w) (c :: s)

/-- The text starts with three octal digits of a value of at most 0377. -/
def startsEscape : List Char → Bool
  | a :: b :: c :: _ =>
    [a, b, c].all (fun d => '0' ≤ d && d ≤ '7') &&
      (a.toNat - '0'.toNat) * 64 + (b.toNat - '0'.toNat) * 8 + (c.toNat - '0'.toNat) ≤ 0o377
  | _ => false

/-! ## Reading escapes -/

theorem toNat_digit {n : Nat} (h : n < 8) : (digit n).toNat = 0x30 + n :=
  Utf8.toNat_ofNat (by omega)

theorem escapeByte_ascii {b d : UInt8} (h : d ∈ escapeByte b) : d.toNat < 0x80 := by
  have hb : b.toNat < 256 := b.toNat_lt
  rw [escapeByte] at h
  simp only [List.mem_cons, List.not_mem_nil, or_false] at h
  rcases h with rfl | rfl | rfl | rfl
  · decide
  · rw [toNat_digit (by omega)]
    omega
  · rw [toNat_digit (by omega)]
    omega
  · rw [toNat_digit (by omega)]
    omega

theorem encode_escapes (c : Char) :
    Utf8.encode (escapes c) = (String.utf8EncodeChar c).flatMap escapeByte := by
  rw [escapes, ← List.map_flatMap]
  refine Utf8.encode_map_ofNat fun d hd => ?_
  obtain ⟨b, -, hb⟩ := List.mem_flatMap.mp hd
  exact escapeByte_ascii hb

theorem unescapeBytes_flatMap (bs rest : List UInt8) :
    unescapeBytes (bs.flatMap escapeByte ++ rest) = bs ++ unescapeBytes rest := by
  induction bs with
  | nil => rfl
  | cons b bs ih =>
      rw [List.flatMap_cons, List.append_assoc, unescapeBytes_escapeByte, ih]
      rfl

/-- A byte that is no backslash stands for itself. -/
theorem unescapeBytes_cons {b : UInt8} (h : b ≠ 0x5C) (rest : List UInt8) :
    unescapeBytes (b :: rest) = b :: unescapeBytes rest := by
  rw [unescapeBytes]
  rintro _ _ _ _ rfl
  exact absurd rfl h

theorem unescapeBytes_append {bs : List UInt8} (h : 0x5C ∉ bs) (rest : List UInt8) :
    unescapeBytes (bs ++ rest) = bs ++ unescapeBytes rest := by
  induction bs with
  | nil => rfl
  | cons b bs ih =>
      have hb : b ≠ 0x5C := fun heq => h (heq ▸ List.mem_cons_self)
      rw [List.cons_append, unescapeBytes_cons hb,
        ih fun hmem => h (List.mem_cons_of_mem _ hmem)]
      rfl

/-- **The bytes of a spelling are read as the bytes of its text.** -/
theorem unescapeBytes_of_spells {w s : List Char} (h : Spells w s) (rest : List UInt8) :
    unescapeBytes (Utf8.encode w ++ rest) = Utf8.encode s ++ unescapeBytes rest := by
  induction h with
  | nil => rfl
  | plain hc h ih =>
      have hnot : 0x5C ∉ String.utf8EncodeChar _ := fun hmem =>
        hc (Utf8.eq_ofNat_of_mem (by decide) hmem)
      rw [Utf8.encode_cons, Utf8.encode_cons, List.append_assoc, unescapeBytes_append hnot, ih,
        List.append_assoc]
  | escaped c h ih =>
      rw [Utf8.encode_append, encode_escapes, Utf8.encode_cons, List.append_assoc,
        unescapeBytes_flatMap, ih, List.append_assoc]

/-- **A spelling is read as its text**, whatever follows it. -/
theorem unescape_append_of_spells {w s : List Char} (h : Spells w s) (rest : List Char) :
    unescape (w ++ rest) = s ++ unescape rest := by
  rw [unescape, Utf8.encode_append, unescapeBytes_of_spells h, Utf8.decodeLossy_encode_append]
  rfl

theorem unescape_of_spells {w s : List Char} (h : Spells w s) : unescape w = s := by
  have happend := unescape_append_of_spells h []
  rw [List.append_nil] at happend
  exact happend.trans (List.append_nil s)

/-! ## Backslashes that start no escape -/

theorem digit?_eq_some {b : UInt8} {n : Nat} (h : digit? b = some n) :
    0x30 ≤ b.toNat ∧ b.toNat ≤ 0x37 ∧ b.toNat - 0x30 = n := by
  rw [digit?] at h
  split at h
  · next hdigit =>
      rw [Bool.and_eq_true, decide_eq_true_eq, decide_eq_true_eq] at hdigit
      exact ⟨hdigit.1, hdigit.2, Option.some.inj h⟩
  · cases h

/-- What is read as an escape are three octal digits of a value that fits into a byte. -/
theorem byte?_eq_some {x y z v : UInt8} (h : byte? x y z = some v) :
    (∀ d ∈ [x, y, z], 0x30 ≤ d.toNat ∧ d.toNat ≤ 0x37) ∧
      (x.toNat - 0x30) * 64 + (y.toNat - 0x30) * 8 + (z.toNat - 0x30) < 256 := by
  simp only [byte?, Option.bind_eq_bind, Option.bind_eq_some_iff] at h
  obtain ⟨l, hl, m, hm, n, hn, hvalue⟩ := h
  obtain ⟨hx, hx', rfl⟩ := digit?_eq_some hl
  obtain ⟨hy, hy', rfl⟩ := digit?_eq_some hm
  obtain ⟨hz, hz', rfl⟩ := digit?_eq_some hn
  constructor
  · intro d hd
    simp only [List.mem_cons, List.not_mem_nil, or_false] at hd
    rcases hd with rfl | rfl | rfl
    · exact ⟨hx, hx'⟩
    · exact ⟨hy, hy'⟩
    · exact ⟨hz, hz'⟩
  · split at hvalue
    · next hlt => exact hlt
    · cases hvalue

/-- A backslash is no digit of an escape. -/
theorem byte?_backslash {x y z : UInt8} (h : 0x5C ∈ [x, y, z]) : byte? x y z = none := by
  cases hbyte : byte? x y z with
  | none => rfl
  | some v => exact absurd ((byte?_eq_some hbyte).1 _ h).2 (by decide)

/-- A backslash that starts no escape stands for itself. -/
theorem unescapeBytes_backslash {rest : List UInt8}
    (h : ∀ x y z bs, rest = x :: y :: z :: bs → byte? x y z = none) :
    unescapeBytes (0x5C :: rest) = 0x5C :: unescapeBytes rest := by
  match rest with
  | [] => rfl
  | [_] => rfl
  | [_, _] => rfl
  | x :: y :: z :: bs => rw [unescapeBytes, h x y z bs rfl]

/-- **No escape holds a backslash behind its first one**, so what stands before a backslash is read by
itself. -/
theorem unescapeBytes_append_backslash (xs ys : List UInt8) :
    unescapeBytes (xs ++ 0x5C :: ys) = unescapeBytes xs ++ unescapeBytes (0x5C :: ys) := by
  fun_induction unescapeBytes xs with
  | case1 => rfl
  | case2 x y z rest v hbyte ih =>
      rw [List.cons_append, List.cons_append, List.cons_append, List.cons_append, unescapeBytes,
        hbyte]
      exact congrArg (v :: ·) ih
  | case3 x y z rest hbyte ih =>
      rw [List.cons_append, List.cons_append, List.cons_append, List.cons_append, unescapeBytes,
        hbyte]
      exact congrArg (0x5C :: ·) ih
  | case4 b rest hnot ih =>
      rw [List.cons_append]
      by_cases hb : b = 0x5C
      · -- fewer than three bytes are left, so the second backslash is one of the next three bytes
        have hnext : ∀ x y z bs, rest ++ 0x5C :: ys = x :: y :: z :: bs → byte? x y z = none := by
          intro x y z bs heq
          apply byte?_backslash
          obtain _ | ⟨_, _ | ⟨_, _ | ⟨_, _⟩⟩⟩ := rest
          · cases heq; simp
          · cases heq; simp
          · cases heq; simp
          · exact absurd rfl (hnot _ _ _ _ hb)
        rw [hb, unescapeBytes_backslash hnext, ih]
        rfl
      · rw [unescapeBytes_cons hb, ih]
        rfl

theorem octal_ofNat {n : Nat} (h : 0x30 ≤ n ∧ n ≤ 0x37) :
    '0' ≤ Char.ofNat n ∧ Char.ofNat n ≤ '7' ∧ (Char.ofNat n).toNat = n := by
  have hn : (Char.ofNat n).toNat = n := Utf8.toNat_char_ofNat (by omega)
  refine ⟨?_, ?_, hn⟩
  · show '0'.toNat ≤ (Char.ofNat n).toNat
    rw [hn]
    exact h.1
  · show (Char.ofNat n).toNat ≤ '7'.toNat
    rw [hn]
    exact h.2

/-- What is read as an escape is one. -/
theorem startsEscape_of_byte? {after : List Char} {x y z v : UInt8} {bs : List UInt8}
    (h : Utf8.encode after = x :: y :: z :: bs) (hbyte : byte? x y z = some v) :
    startsEscape after = true := by
  obtain ⟨hdigits, hvalue⟩ := byte?_eq_some hbyte
  obtain ⟨hx, hy, hz⟩ : _ ∧ _ ∧ _ := by simpa using hdigits
  obtain ⟨after₁, rfl, h₁⟩ := Utf8.exists_of_encode_eq_cons (by omega) h
  obtain ⟨after₂, rfl, h₂⟩ := Utf8.exists_of_encode_eq_cons (by omega) h₁
  obtain ⟨after₃, rfl, h₃⟩ := Utf8.exists_of_encode_eq_cons (by omega) h₂
  obtain ⟨hx, hx', hxn⟩ := octal_ofNat hx
  obtain ⟨hy, hy', hyn⟩ := octal_ofNat hy
  obtain ⟨hz, hz', hzn⟩ := octal_ofNat hz
  have hzero : '0'.toNat = 0x30 := rfl
  rw [startsEscape, hxn, hyn, hzn, hzero]
  simp only [List.all_cons, List.all_nil, hx, hx', hy, hy', hz, hz', decide_true, Bool.and_self,
    Bool.true_and, decide_eq_true_eq]
  omega

/-- **A backslash that starts no escape is kept**, and what stands before it and after it is read by
itself. -/
theorem unescape_append_backslash (before : List Char) {after : List Char}
    (h : startsEscape after = false) :
    unescape (before ++ '\\' :: after) = unescape before ++ '\\' :: unescape after := by
  have hliteral : ∀ x y z bs, Utf8.encode after = x :: y :: z :: bs → byte? x y z = none := by
    intro x y z bs hencode
    cases hbyte : byte? x y z with
    | none => rfl
    | some v => exact nomatch h.symm.trans (startsEscape_of_byte? hencode hbyte)
  have hbytes : Utf8.encode (before ++ '\\' :: after) =
      Utf8.encode before ++ 0x5C :: Utf8.encode after :=
    Utf8.encode_append before ('\\' :: after)
  rw [unescape, hbytes, unescapeBytes_append_backslash, unescapeBytes_backslash hliteral,
    Utf8.decodeLossy_append_ascii _ (by decide)]
  rfl

/-! ## Both together -/

/-- **Octal escapes are undone, and nothing else is.**  Every spelling of a text is read as that text,
whatever follows it, and a backslash that starts no escape is kept, reading going on right after it. -/
theorem unescape_undoes_escapes :
    (∀ w s, Spells w s → unescape w = s ∧ ∀ rest, unescape (w ++ rest) = s ++ unescape rest) ∧
      ∀ before after, startsEscape after = false →
        unescape (before ++ '\\' :: after) = unescape before ++ '\\' :: unescape after := by
  refine ⟨fun w s h => ⟨unescape_of_spells h, unescape_append_of_spells h⟩, ?_⟩
  intro before after h
  exact unescape_append_backslash before h

/-- Escapes before a digit and at the end are undone.  Backslashes before a value that is too great, or
before too few digits, are kept, also behind a byte that is no character. -/
theorem mixed_escapes_undone :
    Spells "\\303\\2511 a\\134".toList "é1 a\\".toList ∧
      unescape "\\303\\2511 a\\134".toList = "é1 a\\".toList ∧
      startsEscape "400\\04".toList = false ∧
      unescape "\\303\\400\\04".toList = "\uFFFD\\400\\04".toList := by
  have hspells : Spells "\\303\\2511 a\\134".toList "é1 a\\".toList :=
    .escaped 'é' (.plain (by decide) (.plain (by decide) (.plain (by decide) (.escaped '\\' .nil))))
  have hstarts : startsEscape "400\\04".toList = false := by decide
  refine ⟨hspells, (unescape_undoes_escapes.1 _ _ hspells).1, hstarts, ?_⟩
  exact (unescape_undoes_escapes.2 "\\303".toList _ hstarts).trans (by decide)

end ConfigDrive.Text.Octal

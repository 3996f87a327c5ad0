/-
# ConfigDrive.Text.Utf8 — reading bytes as characters.

A byte string is read one unit at a time.  A unit is either a well-formed character or a **broken
sequence**: the longest run of bytes that could have begun a character but is not continued by one
that may follow.  Strict reading refuses a text with a broken sequence, lossy reading puts U+FFFD in
its place.  Both are views of the one function `Utf8.units`, so they agree on well-formed bytes.
-/

namespace ConfigDrive.Text.Utf8

/-! ## Unfinished characters -/

/-- A character whose first bytes have been read: `bits` is its value so far, `missing + 1` bytes are
still to come, and the next one must lie between `low` and `high`. -/
structure Pending where
  missing : Nat
  bits : Nat
  low : Nat
  high : Nat

/-- What one byte does: it completes a character, begins or continues one, or is out of place. -/
inductive Effect
  | complete (c : Char)
  | wait (p : Pending)
  | broken

/-- The effect of a byte at the boundary between two characters.  The bounds on the second byte rule
out overlong forms, surrogates and values above U+10FFFF. -/
def lead (b : UInt8) : Effect :=
  let n := b.toNat
  if n < 0x80 then .complete (Char.ofNat n)
  else if n < 0xC2 then .broken
  else if n < 0xE0 then .wait ⟨0, n - 0xC0, 0x80, 0xBF⟩
  else if n == 0xE0 then .wait ⟨1, 0, 0xA0, 0xBF⟩
  else if n == 0xED then .wait ⟨1, 0xD, 0x80, 0x9F⟩
  else if n < 0xF0 then .wait ⟨1, n - 0xE0, 0x80, 0xBF⟩
  else if n == 0xF0 then .wait ⟨2, 0, 0x90, 0xBF⟩
  else if n < 0xF4 then .wait ⟨2, n - 0xF0, 0x80, 0xBF⟩
  else if n == 0xF4 then .wait ⟨2, 4, 0x80, 0x8F⟩
  else .broken

/-- The effect of a byte after the first bytes `p` of a character. -/
def Pending.push (p : Pending) (b : UInt8) : Effect :=
  let n := b.toNat
  if p.low ≤ n && n ≤ p.high then
    let bits := p.bits * 64 + (n - 0x80)
    match p.missing with
    | 0 => .complete (Char.ofNat bits)
    | k + 1 => .wait ⟨k, bits, 0x80, 0xBF⟩
  else .broken

/-! ## Units -/

/-- The units of a byte string that follows the unfinished character `p`, if any: `none` stands for a
broken sequence. -/
def unitsFrom : Option Pending → List UInt8 → List (Option Char)
  | none, [] => []
  | some _, [] => [none]
  | none, b :: bs =>
    match lead b with
    | .complete c => some c :: unitsFrom none bs
    | .wait p => unitsFrom (some p) bs
    | .broken => none :: unitsFrom none bs
  | some p, b :: bs =>
    match p.push b with
    | .complete c => some c :: unitsFrom none bs
    | .wait q => unitsFrom (some q) bs
    | .broken =>
      match lead b with
      | .complete c => none :: some c :: unitsFrom none bs
      | .wait q => none :: unitsFrom (some q) bs
      | .broken => none :: none :: unitsFrom none bs

/-- The units of a byte string: its characters, and `none` for each broken sequence. -/
def units (bytes : List UInt8) : List (Option Char) :=
  unitsFrom none bytes

/-- The characters of a byte string, U+FFFD standing for each broken sequence. -/
def decodeLossy (bytes : List UInt8) : List Char :=
  (units bytes).map (·.getD '\uFFFD')

/-- The characters of a well-formed byte string. -/
def decode? (bytes : List UInt8) : Option (List Char) :=
  (units bytes).mapM id

/-- The bytes of a text. -/
def encode (s : List Char) : List UInt8 :=
  s.flatMap String.utf8EncodeChar

/-- The number of bytes of a text. -/
def size (s : List Char) : Nat :=
  (encode s).length

/-- Lossy reading as a string. -/
def text (bytes : List UInt8) : String :=
  String.ofList (decodeLossy bytes)

/-- Where strict reading succeeds, lossy reading gives the same characters. -/
theorem decodeLossy_of_decode? {bytes : List UInt8} {s : List Char}
    (h : decode? bytes = some s) : decodeLossy bytes = s := by
  have key : ∀ (us : List (Option Char)) (s : List Char),
      us.mapM id = some s → us.map (·.getD '\uFFFD') = s := by
    intro us
    induction us with
    | nil => simp
    | cons u us ih =>
      intro s hs
      cases u with
      | none => simp at hs
      | some c =>
        simp only [List.mapM_cons, id_eq, Option.bind_eq_bind, Option.bind_some,
          Option.bind_eq_some_iff, Option.pure_def, Option.some.injEq] at hs
        obtain ⟨rest, hrest, rfl⟩ := hs
        simp [ih rest hrest]
  exact key _ _ h

end ConfigDrive.Text.Utf8

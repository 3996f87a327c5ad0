/-
# ConfigDrive.Yaml.Plain — what the text of a plain scalar stands for.

The text is tried as null, a truth value, an integer and a floating-point number, in that order; what
is none of them is a string.  Integers are decimal or have one of the radix marks `0x`, `0o` and `0b`;
they must fit 64 bits, and one that fits 128 bits only is refused instead of being rounded.  A zero
followed by further digits is no number.
-/
import ConfigDrive.Yaml.Value
import ConfigDrive.Yaml.Scalar

namespace ConfigDrive.Yaml.Plain

open ConfigDrive.Decimal (Binary64)

/-! ## Null and truth values -/

/-- A word for null. -/
def isNullWord (s : String) : Bool :=
  s == "~" || s == "null" || s == "Null" || s == "NULL"

/-- The truth value that a word stands for. -/
def bool? (s : String) : Option Bool :=
  if s == "true" || s == "True" || s == "TRUE" then some true
  else if s == "false" || s == "False" || s == "FALSE" then some false
  else none

/-! ## Integers -/

/-- The number that digits of a radix write, most significant first. -/
def digits? (radix : Nat) (ds : List Char) : Option Nat :=
  if ds.isEmpty then none
  else
    ds.foldlM (fun n c => do
      let d ← hexDigit? c
      if d < radix then some (n * radix + d) else none) 0

/-- A text without the plus sign that may begin it. -/
def withoutPlus : List Char → List Char
  | '+' :: rest => rest
  | s => s

/-- A text without the sign that may begin it. -/
def withoutSign : List Char → List Char
  | '+' :: rest => rest
  | '-' :: rest => rest
  | s => s

/-- A zero followed by further decimal digits and nothing else. -/
def hasIdleZero (s : List Char) : Bool :=
  match withoutSign s with
  | '0' :: d :: ds => (d :: ds).all Char.isDigit
  | _ => false

/-- The magnitude that a text without sign writes, with a radix mark or in decimal. -/
def magnitude? : List Char → Option Nat
  | '0' :: 'x' :: ds => digits? 16 ds
  | '0' :: 'o' :: ds => digits? 8 ds
  | '0' :: 'b' :: ds => digits? 2 ds
  | ds => digits? 10 ds

/-- The integer that a text writes, of any size. -/
def int? (s : List Char) : Option Int :=
  if hasIdleZero s then none
  else
    match s with
    | '-' :: rest => (magnitude? rest).map fun n => -(n : Int)
    | _ => (magnitude? (withoutPlus s)).map fun n => (n : Int)

/-- The integer fits 64 bits, without sign or with one. -/
def fitsWord (n : Int) : Bool :=
  -0x8000000000000000 ≤ n && n < 0x10000000000000000

/-- The integer fits 128 bits, without sign or with one. -/
def fitsDoubleWord (n : Int) : Bool :=
  -0x80000000000000000000000000000000 ≤ n && n < 0x100000000000000000000000000000000

/-- The outcome of reading a text as an integer: none, one that fits, or one that is too wide. -/
def word? (s : List Char) : Except ReadError (Option Int) :=
  match int? s with
  | some n =>
    if fitsWord n then .ok (some n)
    else if fitsDoubleWord n then .error .integerTooWide
    else .ok none
  | none => .ok none

/-! ## Floating-point numbers -/

/-- The exponent at the end of a number; there may be none. -/
def exponent? : List Char → Option Int
  | [] => some 0
  | e :: s =>
    if e == 'e' || e == 'E' then
      match s with
      | '-' :: ds => (digits? 10 ds).map fun n => -(n : Int)
      | ds => (digits? 10 (withoutPlus ds)).map fun n => (n : Int)
    else none

/-- The finite number that a text without sign writes: digits with a point anywhere among them or none,
and an exponent. -/
def decimal? (negative : Bool) (s : List Char) : Option Binary64 := do
  let whole := s.takeWhile Char.isDigit
  let rest := s.dropWhile Char.isDigit
  let (places, rest) :=
    match rest with
    | '.' :: ds => (ds.takeWhile Char.isDigit, ds.dropWhile Char.isDigit)
    | _ => ([], rest)
  let exponent ← exponent? rest
  let digits ← digits? 10 (whole ++ places)
  let x := Binary64.ofDecimal negative digits (exponent - places.length)
  if x.isInfinite then none else some x

/-- A word for infinity. -/
def isInfinityWord (s : List Char) : Bool :=
  s == ".inf".toList || s == ".Inf".toList || s == ".INF".toList

/-- A word for the number that is none. -/
def isNaNWord (s : List Char) : Bool :=
  s == ".nan".toList || s == ".NaN".toList || s == ".NAN".toList

/-- The floating-point number that a text writes. -/
def float? (s : List Char) : Option Binary64 :=
  if isNaNWord s then some Binary64.nan
  else
    let negative := s.head? == some '-'
    let unsigned := withoutSign s
    if isInfinityWord unsigned then some (Binary64.infinity negative)
    else decimal? negative unsigned

/-! ## The value of a text -/

/-- What the text of a plain scalar stands for. -/
def value (s : String) : Except ReadError Value :=
  if s.isEmpty || isNullWord s then .ok .null
  else
    match bool? s with
    | some b => .ok (.bool b)
    | none => do
      match ← word? s.toList with
      | some n => return .int n
      | none =>
        match if hasIdleZero s.toList then none else float? s.toList with
        | some x => return .float x
        | none => return .string s

end ConfigDrive.Yaml.Plain

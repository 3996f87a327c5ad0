/-
# ConfigDrive.Yaml.Value — the values that YAML text stands for.

A mapping keeps its entries in the order in which they were written.  Two values are **the same** when
a reader of YAML would take one for the other: mappings whatever the order of their entries, numbers
by value but never an integer for a floating-point number, tags whether or not they are written with
their leading mark.  Keys are compared in this sense, so a look-up finds the first entry whose key is
the same, and storing under a key keeps the position and the spelling it already has.
-/
import ConfigDrive.Decimal.Binary64

namespace ConfigDrive.Yaml

open ConfigDrive.Decimal (Binary64)

/-! ## Tags -/

/-- A local tag, held without the mark `!` that precedes it in writing. -/
structure Tag where
  name : String
  deriving DecidableEq, Repr

/-- The tag that a text names.  One leading mark is not part of the name, unless it is all there is. -/
def Tag.ofText (text : String) : Tag :=
  match text.toList with
  | '!' :: c :: cs => ⟨String.ofList (c :: cs)⟩
  | _ => ⟨text⟩

/-- The written form of a tag. -/
def Tag.text (t : Tag) : String :=
  "!" ++ t.name

/-! ## Values -/

/-- A YAML value. -/
inductive Value
  | null
  | bool (b : Bool)
  | int (n : Int)
  | float (x : Binary64)
  | string (s : String)
  | sequence (items : List Value)
  | mapping (entries : List (Value × Value))
  | tagged (tag : Tag) (value : Value)
  deriving Inhabited, Repr

namespace Value

/-- The value under all its tags. -/
def untag : Value → Value
  | .tagged _ v => v.untag
  | v => v

/-- The value is null, with no tag on it. -/
def isNull : Value → Bool
  | .null => true
  | _ => false

/-- The value is a mapping, with no tag on it. -/
def isMapping : Value → Bool
  | .mapping _ => true
  | _ => false

/-! ## Sameness -/

mutual

/-- Two values are the same to a reader. -/
def same : Value → Value → Bool
  | .null, .null => true
  | .bool a, .bool b => a == b
  | .int a, .int b => a == b
  | .float a, .float b => a.same b
  | .string a, .string b => a == b
  | .sequence as, .sequence bs => sameItems as bs
  | .mapping as, .mapping bs => as.length == bs.length && sameEntries as bs
  | .tagged s a, .tagged t b => s == t && same a b
  | _, _ => false

/-- Two lists hold the same values in the same order. -/
def sameItems : List Value → List Value → Bool
  | [], [] => true
  | a :: as, b :: bs => same a b && sameItems as bs
  | _, _ => false

/-- Every entry of the first list has an entry with the same key in the second, and the first such
entry has the same value. -/
def sameEntries : List (Value × Value) → List (Value × Value) → Bool
  | [], _ => true
  | (k, v) :: as, bs =>
    (match bs.find? (fun e => same k e.1) with
      | some e => same v e.2
      | none => false) && sameEntries as bs

end

end Value

/-! ## Entries of a mapping -/

namespace Entries

/-- The value stored under a key. -/
def get? (entries : List (Value × Value)) (key : Value) : Option Value :=
  (entries.find? fun e => key.same e.1).map (·.2)

/-- Store a value under a key: an entry with the same key keeps its place and its spelling of the key,
a new key comes last. -/
def put : List (Value × Value) → Value → Value → List (Value × Value)
  | [], key, value => [(key, value)]
  | e :: rest, key, value =>
    if key.same e.1 then (e.1, value) :: rest else e :: put rest key value

/-- The mapping that arises from storing these entries one after the other. -/
def ofList (entries : List (Value × Value)) : List (Value × Value) :=
  entries.foldl (fun acc e => put acc e.1 e.2) []

/-- No two keys of the list are the same. -/
def Distinct : List (Value × Value) → Prop
  | [] => True
  | e :: rest => (∀ f ∈ rest, e.1.same f.1 = false) ∧ Distinct rest

/-- Storing adds an entry exactly when the key is new. -/
theorem length_put (entries : List (Value × Value)) (key value : Value) :
    (put entries key value).length =
      if (get? entries key).isSome then entries.length else entries.length + 1 := by
  induction entries with
  | nil => simp [put, get?]
  | cons e rest ih =>
    by_cases h : key.same e.1 = true
    · simp [put, get?, h]
    · have hget : get? (e :: rest) key = get? rest key := by simp [get?, h]
      simp only [put, h, Bool.false_eq_true, ↓reduceIte, List.length_cons, ih, hget]
      split <;> rfl

end Entries

end ConfigDrive.Yaml

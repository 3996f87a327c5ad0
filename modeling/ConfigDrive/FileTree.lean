/-
# ConfigDrive.FileTree — a tree of files.

A directory lists its entries by name, and a tree is what the root directory lists.  A place is the list
of names that leads to something from the root; what is at a place is found name by name, and a change
at a place touches only the directories on the way to it.
-/
import ConfigDrive.StandIn

namespace ConfigDrive

/-- The names that lead to a place from the root. -/
abbrev Place :=
  List String

/-- What is at a place.  Files and programs have permission bits; the shell is the program that runs
files of commands. -/
inductive Item
  | directory (entries : List (String × Item))
  | file (mode : Nat) (bytes : List UInt8)
  | program (mode : Nat) (standIn : StandIn)
  | shell
  | link (target : String)

/-- The entries of a directory, in order. -/
abbrev Listing :=
  List (String × Item)

/-- A tree of files and the directory from which relative paths are walked. -/
structure FileTree where
  root : Listing
  workingDirectory : Place

/-- The item has a permission to execute for someone. -/
def Item.isExecutable : Item → Bool
  | .file mode _ => mode &&& 0o111 != 0
  | .program mode _ => mode &&& 0o111 != 0
  | .shell => true
  | _ => false

/-! ## What a directory lists -/

namespace Listing

/-- What is at a place below a directory. -/
def get? (entries : Listing) : Place → Option Item
  | [] => some (.directory entries)
  | name :: rest =>
    match entries.lookup name with
    | some (.directory inner) => get? inner rest
    | some item => if rest.isEmpty then some item else none
    | none => none

/-- The entries without one name. -/
def erase (entries : Listing) (name : String) : Listing :=
  entries.filter (·.1 != name)

/-- The entries with an item under a name, in the place of what was there. -/
def insert (entries : Listing) (name : String) (item : Item) : Listing :=
  erase entries name ++ [(name, item)]

/-- A name that was erased is not found. -/
theorem lookup_erase_self (entries : Listing) (name : String) :
    List.lookup name (erase entries name) = none := by
  simp only [erase, List.lookup_eq_none_iff, List.mem_filter]
  rintro entry ⟨-, h⟩
  rwa [bne_comm]

/-- What is found under another name stays as it was. -/
theorem lookup_erase_of_ne (entries : Listing) {name other : String} (h : other ≠ name) :
    List.lookup other (erase entries name) = List.lookup other entries := by
  induction entries with
  | nil => rfl
  | cons entry rest ih =>
    obtain ⟨n, item⟩ := entry
    simp only [erase] at ih ⊢
    by_cases hn : n = name
    · subst hn
      have ho : (other == n) = false := by simpa using h
      simpa [List.lookup_cons, ho] using ih
    · cases ho : other == n <;> simp [hn, List.lookup_cons, ho, ih]

/-- What was put under a name is found there. -/
theorem lookup_insert_self (entries : Listing) (name : String) (item : Item) :
    List.lookup name (insert entries name item) = some item := by
  simp [insert, List.lookup_append, lookup_erase_self]

/-- What was put under a name is not found under another. -/
theorem lookup_insert_of_ne (entries : Listing) {name other : String} (item : Item)
    (h : other ≠ name) : List.lookup other (insert entries name item) = List.lookup other entries := by
  have ho : (other == name) = false := by simpa using h
  simp [insert, List.lookup_append, lookup_erase_of_ne entries h, List.lookup_cons, ho]

/-- The entries after a change to those of the directory at a place.  Nothing happens if there is
none. -/
def modifyAt (change : Listing → Listing) : Place → Listing → Listing
  | [], entries => change entries
  | name :: rest, entries =>
    entries.map fun
      | (n, .directory inner) =>
        (n, .directory (if n = name then modifyAt change rest inner else inner))
      | entry => entry

end Listing

/-! ## The tree -/

namespace FileTree

/-- What is at a place. -/
def get? (t : FileTree) (l : Place) : Option Item :=
  Listing.get? t.root l

/-- The tree after a change to what the directory at a place lists. -/
def modifyAt (t : FileTree) (l : Place) (change : Listing → Listing) : FileTree :=
  { t with root := Listing.modifyAt change l t.root }

/-- The tree without what is at a place or below it. -/
def erase (t : FileTree) (l : Place) : FileTree :=
  match l.getLast? with
  | some name => t.modifyAt l.dropLast (Listing.erase · name)
  | none => { t with root := [] }

/-- The tree with an item under a name in the directory at a place, whatever was there before. -/
def insert (t : FileTree) (l : Place) (name : String) (item : Item) : FileTree :=
  t.modifyAt l (Listing.insert · name item)

end FileTree

end ConfigDrive

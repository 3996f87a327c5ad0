/-
# ConfigDrive.Proofs.FileTree.Locality — a path depends on the names that it looks up.

A walk looks up one name after the other, each in the directory that it has come to: `FileTree.looks` lists
these look-ups, those behind links and on the way to the working directory among them.  Nothing else of a
tree matters to it.  If some entries of one directory are changed, then a path that looks up none of them
leads to what it led to before, as far as that is not the changed directory or one around it; so it has the
same text (`readText_modifyAt`), or the same entries but for the changed ones (`listDirectory_modifyAt`).

The two walks come to the same place by trails that differ in what the directories on them list.
`Listing.alterAt` is the directory at a place after the change, and the proof says of every part of a walk
that it commutes with it.
-/
import ConfigDrive.FileTree.Walk

namespace ConfigDrive

/-! ## Changes to some entries of a directory -/

namespace Listing

/-- The change leaves all entries but those with such names, and the order of the rest. -/
def ChangesOnly (changed : String → Bool) (change : Listing → Listing) : Prop :=
  ∀ entries : Listing,
    List.filter (fun e => !changed e.1) (change entries) =
      List.filter (fun e => !changed e.1) entries

theorem lookup_filter {p : String → Bool} {name : String} (h : p name = true) (entries : Listing) :
    List.lookup name (List.filter (fun e => p e.1) entries) = List.lookup name entries := by
  induction entries with
  | nil => rfl
  | cons entry rest ih =>
      obtain ⟨n, item⟩ := entry
      by_cases hn : name = n
      · subst hn
        simp [h]
      · have hne : (name == n) = false := by simpa using hn
        cases hp : p n <;> simp [hp, List.lookup_cons, hne, ih]

theorem lookup_map (f : String → Item → Item) (name : String) (entries : Listing) :
    List.lookup name (List.map (fun e => (e.1, f e.1 e.2)) entries) =
      (List.lookup name entries).map (f name) := by
  induction entries with
  | nil => rfl
  | cons entry rest ih =>
      obtain ⟨n, item⟩ := entry
      by_cases hn : name = n
      · subst hn
        simp
      · have hne : (name == n) = false := by simpa using hn
        simp [List.lookup_cons, hne, ih]

section

variable {changed : String → Bool} {change : Listing → Listing}

/-- A name that is not changed leads to what it led to. -/
theorem ChangesOnly.lookup_eq (h : ChangesOnly changed change) {name : String}
    (hname : changed name = false) (entries : Listing) :
    List.lookup name (change entries) = List.lookup name entries := by
  have hkept : (!changed name) = true := by rw [hname]; rfl
  rw [← lookup_filter (p := fun n => !changed n) hkept, h entries,
    lookup_filter (p := fun n => !changed n) hkept]

/-- Of names that are not changed, the directory lists the same. -/
theorem ChangesOnly.names_eq (h : ChangesOnly changed change) {p : String → Bool}
    (hp : ∀ name, p name = true → changed name = false) (entries : Listing) :
    (List.map Prod.fst (change entries)).filter p = (List.map Prod.fst entries).filter p := by
  have hnames : ∀ es : Listing, (List.map Prod.fst es).filter p =
      ((List.filter (fun e => !changed e.1) es).filter (fun e => p e.1)).map Prod.fst := by
    intro es
    rw [List.filter_map, List.filter_filter]
    refine congrArg (List.map Prod.fst) (List.filter_congr fun e _ => ?_)
    cases hpe : p e.1 with
    | false => simp [hpe]
    | true => simp [hpe, hp _ hpe]
  rw [hnames, h entries, ← hnames]

/-- To put something under a name is a change to that entry, whether it is added or replaced. -/
theorem changesOnly_insert (name : String) (item : Item) :
    ChangesOnly (· == name) (Listing.insert · name item) := by
  intro entries
  simp [Listing.insert, Listing.erase, List.filter_filter, bne]

/-- To remove an entry is a change to it. -/
theorem changesOnly_erase (name : String) :
    ChangesOnly (· == name) (Listing.erase · name) := by
  intro entries
  simp [Listing.erase, List.filter_filter, bne]

end

end Listing

/-! ## Directories after the change -/

namespace Listing

variable (change : Listing → Listing)

/-- What the directory at the place `l` lists after a change to the directory at `d`, if it listed these
entries before. -/
def alterAt : (d l : Place) → Listing → Listing
  | d, [], entries => modifyAt change d entries
  | [], _ :: _, entries => entries
  | x :: d, n :: l, entries => if n = x then alterAt d l entries else entries

/-- What is at the place `l` after a change to the directory at `d`. -/
def alterItem (d l : Place) : Item → Item
  | .directory entries => .directory (alterAt change d l entries)
  | item => item

variable {change}

theorem alterItem_below (l : Place) (name : String) (item : Item) :
    alterItem change [] (l ++ [name]) item = item := by
  cases item with
  | directory entries => cases l <;> rfl
  | _ => rfl

theorem modifyAt_cons (x : String) (d : Place) (entries : Listing) :
    modifyAt change (x :: d) entries =
      List.map (fun e => (e.1, alterItem change (x :: d) [e.1] e.2)) entries := by
  rw [modifyAt]
  refine List.map_congr_left fun e _ => ?_
  obtain ⟨n, item⟩ := e
  cases item <;> simp [alterItem, alterAt]

/-- **A name that is not changed** leads to what it led to, after the change. -/
theorem lookup_alterAt {d l : Place} {name : String}
    (h : l = d → ∀ entries, List.lookup name (change entries) = List.lookup name entries)
    (entries : Listing) :
    List.lookup name (alterAt change d l entries) =
      (List.lookup name entries).map (alterItem change d (l ++ [name])) := by
  have hbelow : ∀ r : Option Item, r = r.map fun item => item := fun r => by simp
  induction l generalizing d with
  | nil =>
      cases d with
      | nil =>
          have hsame : alterItem change [] ([] ++ [name]) = fun item => item :=
            funext (alterItem_below [] name)
          rw [hsame, ← hbelow]
          exact h rfl entries
      | cons x d =>
          show List.lookup name (modifyAt change (x :: d) entries) = _
          rw [modifyAt_cons, lookup_map (fun n => alterItem change (x :: d) [n])]
          rfl
  | cons n l ih =>
      cases d with
      | nil =>
          have hsame : alterItem change [] (n :: l ++ [name]) = fun item => item :=
            funext (alterItem_below (n :: l) name)
          rw [hsame, ← hbelow]
          rfl
      | cons x d =>
          by_cases hn : n = x
          · subst hn
            have hinner : alterItem change (n :: d) (n :: l ++ [name]) =
                alterItem change d (l ++ [name]) := by
              funext item
              cases item <;> simp [alterItem, alterAt]
            have hhere : alterAt change (n :: d) (n :: l) entries = alterAt change d l entries := by
              rw [alterAt, if_pos rfl]
            rw [hinner, hhere]
            exact ih fun hl => h (by rw [hl])
          · have hsame : alterItem change (x :: d) (n :: l ++ [name]) = fun item => item := by
              funext item
              cases item <;> simp [alterItem, alterAt, hn]
            rw [hsame, ← hbelow, alterAt, if_neg hn]

/-- Of names that are not changed, every directory lists the same. -/
theorem names_alterAt {changed : String → Bool} (hchange : ChangesOnly changed change)
    {p : String → Bool} (hp : ∀ name, p name = true → changed name = false) (d l : Place)
    (entries : Listing) :
    (List.map Prod.fst (alterAt change d l entries)).filter p =
      (List.map Prod.fst entries).filter p := by
  induction l generalizing d with
  | nil =>
      cases d with
      | nil => exact hchange.names_eq hp entries
      | cons x d =>
          show (List.map Prod.fst (modifyAt change (x :: d) entries)).filter p = _
          rw [modifyAt_cons, List.map_map]
          rfl
  | cons n l ih =>
      cases d with
      | nil => rfl
      | cons x d =>
          rw [alterAt]
          split
          · exact ih d
          · rfl

end Listing

/-! ## The names that a path looks up -/

namespace FileTree

variable (t : FileTree)

/-- The names that are looked up to enter these directories, each with the directory that lists it. -/
def enterLooks (trail : Trail) : Place → List (Place × String)
  | [] => []
  | name :: rest =>
    (trail.place, name) ::
      match (t.entriesAt trail).lookup name with
      | some (.directory entries) => enterLooks ((name, entries) :: trail) rest
      | _ => []

/-- The names that are looked up from the end of a trail, up to the first link. -/
def descendLooks (trail : Trail) : List String → List (Place × String)
  | [] => []
  | name :: rest =>
    if name = "." then descendLooks trail rest
    else if name = ".." then descendLooks trail.tail rest
    else if nameLimit < name.utf8ByteSize then []
    else
      (trail.place, name) ::
        match (t.entriesAt trail).lookup name with
        | some (.directory entries) => descendLooks ((name, entries) :: trail) rest
        | _ => []

/-- The names that are looked up from the end of a trail, with those behind links. -/
def walkLooks : Nat → Trail → List String → List (Place × String)
  | budget, trail, steps =>
    t.descendLooks trail steps ++
      match t.descend true trail steps with
      | .ok (.link trail target rest) =>
        match budget with
        | 0 => []
        | budget + 1 =>
          if target.isEmpty then []
          else walkLooks budget (linkBase trail target) (stepsOf target ++ rest)
      | _ => []

/-- The names that a path looks up, each with the place of the directory that lists it. -/
def looks (path : String) : List (Place × String) :=
  let base := if Path.isAbsolute path.toList then [] else t.workingDirectory
  t.enterLooks [] base ++
    match t.enter? [] base with
    | some trail => t.walkLooks linkLimit trail (stepsOf path)
    | none => []

end FileTree

/-! ## Walks after the change -/

/-- The trail to the same place after a change to the directory at `d`. -/
def Trail.alter (change : Listing → Listing) (d : Place) : Trail → Trail
  | [] => []
  | (name, entries) :: trail =>
    (name, Listing.alterAt change d (Trail.place ((name, entries) :: trail)) entries) ::
      Trail.alter change d trail

/-- The end of a walk after a change to the directory at `d`. -/
def Stop.alter (change : Listing → Listing) (d : Place) : Stop → Stop
  | .reached l item => .reached l (Listing.alterItem change d l item)
  | .vacant l name => .vacant l name
  | .link trail target rest => .link (trail.alter change d) target rest

namespace Trail

variable {change : Listing → Listing} {d : Place}

theorem place_cons (name : String) (entries : Listing) (trail : Trail) :
    Trail.place ((name, entries) :: trail) = trail.place ++ [name] := by
  simp [Trail.place]

theorem place_alter (trail : Trail) : (trail.alter change d).place = trail.place := by
  induction trail with
  | nil => rfl
  | cons entry trail ih =>
      obtain ⟨name, entries⟩ := entry
      rw [Trail.alter, place_cons, place_cons, ih]

theorem tail_alter (trail : Trail) :
    (trail.alter change d).tail = Trail.alter change d trail.tail := by
  cases trail <;> rfl

theorem entriesAt_alter (t : FileTree) (trail : Trail) :
    (t.modifyAt d change).entriesAt (trail.alter change d) =
      Listing.alterAt change d trail.place (t.entriesAt trail) := by
  cases trail with
  | nil =>
      show Listing.modifyAt change d t.root = Listing.alterAt change d [] t.root
      rw [Listing.alterAt]
  | cons entry trail => rfl

end Trail

namespace FileTree

section

variable {t : FileTree} {changed : String → Bool} {change : Listing → Listing} {d : Place}
  (hchange : Listing.ChangesOnly changed change)

include hchange

/-- A look-up that is not for a changed name, after the change. -/
theorem lookup_alter {trail : Trail} {name : String}
    (h : trail.place = d → changed name = false) :
    ((t.modifyAt d change).entriesAt (trail.alter change d)).lookup name =
      ((t.entriesAt trail).lookup name).map
        (Listing.alterItem change d (trail.place ++ [name])) := by
  rw [Trail.entriesAt_alter]
  exact Listing.lookup_alterAt (fun hplace => hchange.lookup_eq (h hplace)) _

theorem enter?_alter {trail : Trail} {l : Place}
    (h : ∀ name, (d, name) ∈ t.enterLooks trail l → changed name = false) :
    (t.modifyAt d change).enter? (trail.alter change d) l =
      (t.enter? trail l).map (Trail.alter change d) := by
  induction l generalizing trail with
  | nil => rfl
  | cons name rest ih =>
      have hname : trail.place = d → changed name = false := by
        rintro rfl
        exact h name List.mem_cons_self
      rw [enterLooks] at h
      rw [enter?, enter?, lookup_alter hchange hname]
      cases hlook : (t.entriesAt trail).lookup name with
      | none => rfl
      | some item =>
          cases item with
          | directory entries =>
              rw [hlook] at h
              have hrest := ih fun n hn => h n (List.mem_cons_of_mem _ hn)
              rw [Trail.alter, Trail.place_cons] at hrest
              exact hrest
          | _ => rfl

theorem descend_alter {followLast : Bool} {trail : Trail} {steps : List String}
    (h : ∀ name, (d, name) ∈ t.descendLooks trail steps → changed name = false) :
    (t.modifyAt d change).descend followLast (trail.alter change d) steps =
      (t.descend followLast trail steps).map (Stop.alter change d) := by
  induction steps generalizing trail with
  | nil =>
      rw [descend, descend, Trail.place_alter, Trail.entriesAt_alter]
      rfl
  | cons name rest ih =>
      rw [descendLooks] at h
      rw [descend, descend]
      split at h
      · next hdot =>
          rw [if_pos hdot, if_pos hdot]
          exact ih h
      next hdot =>
      rw [if_neg hdot, if_neg hdot]
      split at h
      · next hup =>
          rw [if_pos hup, if_pos hup, Trail.tail_alter]
          exact ih h
      next hup =>
      rw [if_neg hup, if_neg hup]
      split at h
      · next hlong =>
          rw [if_pos hlong, if_pos hlong]
          rfl
      next hlong =>
      have hname : trail.place = d → changed name = false := by
        rintro rfl
        exact h name List.mem_cons_self
      rw [if_neg hlong, if_neg hlong, lookup_alter hchange hname, Trail.place_alter]
      cases hlook : (t.entriesAt trail).lookup name with
      | none =>
          dsimp only [Option.map_none]
          split <;> rfl
      | some item =>
          cases item with
          | directory entries =>
              rw [hlook] at h
              have hrest := ih fun n hn => h n (List.mem_cons_of_mem _ hn)
              rw [Trail.alter, Trail.place_cons] at hrest
              exact hrest
          | link target =>
              dsimp only [Option.map_some, Listing.alterItem]
              split <;> rfl
          | _ =>
              dsimp only [Option.map_some, Listing.alterItem]
              split <;> rfl

omit hchange in
theorem linkBase_alter (trail : Trail) (target : String) :
    linkBase (trail.alter change d) target = (linkBase trail target).alter change d := by
  rw [linkBase, linkBase]
  split <;> rfl

/-- **A walk that looks up no changed name** goes the same way after the change. -/
theorem walk_alter {budget : Nat} {trail : Trail} {steps : List String}
    (h : ∀ name, (d, name) ∈ t.walkLooks budget trail steps → changed name = false) :
    (t.modifyAt d change).walk true budget (trail.alter change d) steps =
      (t.walk true budget trail steps).map (Stop.alter change d) := by
  -- each link costs one of the budget
  induction budget generalizing trail steps with
  | zero =>
      rw [walkLooks] at h
      rw [walk, walk, descend_alter hchange fun n hn => h n (List.mem_append_left _ hn)]
      cases t.descend true trail steps with
      | error e => rfl
      | ok stop => cases stop <;> rfl
  | succ budget ih =>
      rw [walkLooks] at h
      rw [walk, walk, descend_alter hchange fun n hn => h n (List.mem_append_left _ hn)]
      cases hdescend : t.descend true trail steps with
      | error e => rfl
      | ok stop =>
          cases stop with
          | reached l item => rfl
          | vacant l name => rfl
          | link trail target rest =>
              show (if target.isEmpty then _ else _) = Except.map _ (if target.isEmpty then _ else _)
              rw [hdescend] at h
              dsimp only at h
              split at h
              · next hempty =>
                  rw [if_pos hempty, if_pos hempty]
                  rfl
              · next hempty =>
                  rw [if_neg hempty, if_neg hempty, linkBase_alter]
                  exact ih fun n hn => h n (List.mem_append_right _ hn)

theorem walkFrom_alter {l : Place} {steps : List String}
    (henter : ∀ name, (d, name) ∈ t.enterLooks [] l → changed name = false)
    (hwalk : ∀ trail, t.enter? [] l = some trail →
      ∀ name, (d, name) ∈ t.walkLooks linkLimit trail steps → changed name = false) :
    (t.modifyAt d change).walkFrom true l steps =
      (t.walkFrom true l steps).map (Stop.alter change d) := by
  have hentered : (t.modifyAt d change).enter? [] l = (t.enter? [] l).map (Trail.alter change d) :=
    enter?_alter hchange henter
  rw [walkFrom, walkFrom, hentered]
  cases hbase : t.enter? [] l with
  | none => rfl
  | some trail => exact walk_alter hchange (hwalk trail hbase)

theorem locateSteps_alter {path : String}
    (h : ∀ name, (d, name) ∈ t.looks path → changed name = false) :
    (t.modifyAt d change).locateSteps true path (stepsOf path) =
      (t.locateSteps true path (stepsOf path)).map (Stop.alter change d) := by
  have hstart : (t.modifyAt d change).workingDirectory = t.workingDirectory := rfl
  have hwalk := walkFrom_alter hchange (fun n hn => h n (List.mem_append_left _ hn))
    fun trail hbase n hn => h n (List.mem_append_right _ (by rw [hbase]; exact hn))
  rw [locateSteps, locateSteps, hstart]
  -- what is refused before it is walked is refused in every tree
  by_cases hempty : path.isEmpty = true
  · rw [if_pos hempty, if_pos hempty]
    rfl
  by_cases hnul : path.toList.contains '\x00' = true
  · rw [if_neg hempty, if_neg hempty, if_pos hnul, if_pos hnul]
    rfl
  by_cases hlong : Path.byteLimit ≤ path.utf8ByteSize
  · rw [if_neg hempty, if_neg hempty, if_neg hnul, if_neg hnul, if_pos hlong, if_pos hlong]
    rfl
  rw [if_neg hempty, if_neg hempty, if_neg hnul, if_neg hnul, if_neg hlong, if_neg hlong]
  dsimp only
  rw [hwalk]
  cases t.walkFrom true _ (stepsOf path) <;> rfl

/-- **What a path leads to** is the same after the change, or the same directory with what it lists
then. -/
theorem lookup_modifyAt {path : String}
    (h : ∀ name, (d, name) ∈ t.looks path → changed name = false) :
    (∃ e, t.lookup path = .error e ∧ (t.modifyAt d change).lookup path = .error e) ∨
      ∃ l item, t.lookup path = .ok item ∧
        (t.modifyAt d change).lookup path = .ok (Listing.alterItem change d l item) := by
  rw [lookup, lookup, locateSteps_alter hchange h]
  cases t.locateSteps true path (stepsOf path) with
  | error e => exact .inl ⟨e, rfl, rfl⟩
  | ok stop =>
      cases stop with
      | reached l item => exact .inr ⟨l, item, rfl, rfl⟩
      | vacant l name => exact .inl ⟨_, rfl, rfl⟩
      | link trail target rest => exact .inl ⟨_, rfl, rfl⟩

/-- **A text is the same** in a tree where no entry was changed that its path looks up. -/
theorem readText_modifyAt {path : String}
    (h : ∀ name, (d, name) ∈ t.looks path → changed name = false) :
    (t.modifyAt d change).readText path = t.readText path := by
  rw [readText, readText]
  rcases lookup_modifyAt hchange h with ⟨e, hbefore, hafter⟩ | ⟨l, item, hbefore, hafter⟩
  · rw [hbefore, hafter]
  · rw [hbefore, hafter]
    cases item <;> rfl

/-- **A directory lists the same names** then, as far as they are none of the changed ones. -/
theorem listDirectory_modifyAt {path : String}
    (h : ∀ name, (d, name) ∈ t.looks path → changed name = false) {p : String → Bool}
    (hp : ∀ name, p name = true → changed name = false) :
    ((t.modifyAt d change).listDirectory path).map (List.filter p) =
      (t.listDirectory path).map (List.filter p) := by
  rw [listDirectory, listDirectory]
  rcases lookup_modifyAt hchange h with ⟨e, hbefore, hafter⟩ | ⟨l, item, hbefore, hafter⟩
  · rw [hbefore, hafter]
  · rw [hbefore, hafter]
    cases item with
    | directory entries => exact congrArg Except.ok (Listing.names_alterAt hchange hp d l entries)
    | _ => rfl

end

end FileTree

end ConfigDrive

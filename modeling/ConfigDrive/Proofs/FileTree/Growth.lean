/-
# ConfigDrive.Proofs.FileTree.Growth — trees that only gain directories.

A tree **grows** along a path if everything in it is still there and all that is new are directories that
prefixes of the path lead to (`GrowsAlong`).  What a directory lists may have become longer, so an item is
compared without its entries (`Item.bare`).

A path that leads somewhere leads to the same place in a tree that keeps everything (`LeadsTo.keeps`), and
a path that led to a name that was not taken leads to the directory that has been made there
(`leadsTo_of_vacant`).  Therefore growing once more along the same path is growing along it
(`GrowsAlong.trans`).
-/
import ConfigDrive.Proofs.FileTree.Ways
import ConfigDrive.Proofs.Path

namespace ConfigDrive

/-! ## What does not change -/

/-- What an item is, apart from what a directory lists. -/
def Item.bare : Item → Item
  | .directory _ => .directory []
  | item => item

@[simp] theorem Item.bare_directory (entries : Listing) :
    (Item.directory entries).bare = .directory [] :=
  rfl

theorem Item.exists_directory_of_bare {item : Item} (h : item.bare = .directory []) :
    ∃ entries, item = .directory entries := by
  cases item with
  | directory entries => exact ⟨entries, rfl⟩
  | _ => cases h

/-- Anything but a directory is all that it is. -/
theorem Item.eq_of_bare {item other : Item} (h : ∀ entries, item ≠ .directory entries)
    (hbare : other.bare = item.bare) : other = item := by
  cases item with
  | directory entries => exact absurd rfl (h entries)
  | _ => cases other <;> first | exact hbare | cases hbare

namespace Listing

variable {entries inner : Listing} {name : String} {l : Place}

/-- Look-ups by name are the same if what is found is the same. -/
theorem get?_cons_congr {others : Listing}
    (h : List.lookup name others = List.lookup name entries) (l : Place) :
    get? others (name :: l) = get? entries (name :: l) := by
  rw [get?, get?, h]

section

variable {change : Listing → Listing}

/-- A change below a directory is a change to what that directory lists. -/
theorem lookup_modifyAt_self (h : List.lookup name entries = some (.directory inner)) (l : Place) :
    List.lookup name (modifyAt change (name :: l) entries) =
      some (.directory (modifyAt change l inner)) := by
  rw [modifyAt_cons, lookup_map (fun n => alterItem change (name :: l) [n]), h]
  simp [alterItem, alterAt]

/-- A change below one name is none below another. -/
theorem lookup_modifyAt_of_ne {other : String} (h : other ≠ name) (l : Place) :
    List.lookup other (modifyAt change (name :: l) entries) = List.lookup other entries := by
  rw [modifyAt_cons, lookup_map (fun n => alterItem change (name :: l) [n])]
  cases List.lookup other entries with
  | none => rfl
  | some item => cases item <;> simp [alterItem, alterAt, h]

end

theorem bare_get?_insert (h : List.lookup name inner = none) (m : Place) :
    (get? (insert inner name (.directory [])) m).map Item.bare =
      if m = [name] then some (.directory []) else (get? inner m).map Item.bare := by
  cases m with
  | nil => simp [get?]
  | cons n m =>
      by_cases hn : n = name
      · subst hn
        rw [get?_cons_directory (lookup_insert_self inner n _), get?_cons_none h]
        cases m <;> simp [get?]
      · rw [get?_cons_congr (lookup_insert_of_ne inner _ hn)]
        simp [hn]

/-- **A new directory**, under a name that was not taken, is all that is new. -/
theorem bare_get?_modifyAt_insert (h : get? entries l = some (.directory inner))
    (hname : List.lookup name inner = none) (m : Place) :
    (get? (modifyAt (insert · name (.directory [])) l entries) m).map Item.bare =
      if m = l ++ [name] then some (.directory []) else (get? entries m).map Item.bare := by
  induction l generalizing entries m with
  | nil =>
      cases h
      exact bare_get?_insert hname m
  | cons x l ih =>
      obtain ⟨es, hlook, hes⟩ := exists_of_get?_cons_directory h
      cases m with
      | nil => simp [get?]
      | cons n m =>
          by_cases hn : n = x
          · subst hn
            rw [get?_cons_directory (lookup_modifyAt_self hlook l), get?_cons_directory hlook,
              ih hes]
            simp
          · rw [get?_cons_congr (lookup_modifyAt_of_ne hn l)]
            simp [hn]

end Listing

namespace FileTree

variable {t t' : FileTree}

/-! ## What stays, and what is new -/

/-- Everything is still there. -/
def Keeps (t t' : FileTree) : Prop :=
  ∀ l item, t.get? l = some item → (t'.get? l).map Item.bare = some item.bare

theorem Keeps.exists_get? (h : Keeps t t') {l : Place} {item : Item} (hget : t.get? l = some item) :
    ∃ item', t'.get? l = some item' ∧ item'.bare = item.bare :=
  Option.map_eq_some_iff.mp (h l item hget)

/-- Trails to the same place list the same names, as far as these were there before. -/
theorem Keeps.exists_lookup (h : Keeps t t') {trail trail' : Trail} (hin : trail.In t)
    (hin' : trail'.In t') (hplace : trail.place = trail'.place) {name : String} {item : Item}
    (hlook : (t.entriesAt trail).lookup name = some item) :
    ∃ item', (t'.entriesAt trail').lookup name = some item' ∧ item'.bare = item.bare := by
  rw [hin.lookup_eq] at hlook
  rw [hin'.lookup_eq, ← hplace]
  exact h.exists_get? hlook

/-- A path is walked from the same place. -/
theorem Keeps.exists_start (h : Keeps t t') (hstart : t'.workingDirectory = t.workingDirectory)
    {path : String} {trail : Trail} (henter : t.enter? [] (t.startOf path) = some trail) :
    ∃ trail', t'.enter? [] (t'.startOf path) = some trail' ∧ trail.In t ∧ trail'.In t' ∧
      trail.place = trail'.place := by
  obtain ⟨hin, hplace⟩ := in_of_enter?_root henter
  have hsame : t'.startOf path = t.startOf path := by
    unfold startOf
    rw [hstart]
  have hbase : t.get? (t.startOf path) = some (.directory (t.entriesAt trail)) := by
    rw [← hplace]
    exact hin.get?_place
  obtain ⟨_, hbase', hthere⟩ := h.exists_get? hbase
  obtain ⟨entries, rfl⟩ := Item.exists_directory_of_bare hthere
  obtain ⟨trail', henter'⟩ : ∃ trail', t'.enter? [] (t.startOf path) = some trail' :=
    exists_enter? hbase'
  obtain ⟨hin', hplace'⟩ := in_of_enter?_root henter'
  rw [hsame]
  exact ⟨trail', henter', hin, hin', hplace.trans hplace'.symm⟩

section

variable {budget : Nat} {trail trail' : Trail} {steps : List String}

/-- **A way that leads somewhere** leads to the same place in a tree that keeps everything. -/
theorem Walks.keeps (hkeeps : Keeps t t') {stop : Stop} (h : Walks t true budget trail steps stop)
    {l : Place} {item : Item} (hstop : stop = .reached l item) (hin : trail.In t)
    (hin' : trail'.In t') (hplace : trail.place = trail'.place) :
    ∃ item', Walks t' true budget trail' steps (.reached l item') ∧ item'.bare = item.bare := by
  induction h generalizing trail' with
  | nil budget trail =>
      cases hstop
      rw [hplace]
      exact ⟨_, .nil budget trail', rfl⟩
  | dot h ih =>
      obtain ⟨item', hwalks, hbare⟩ := ih hstop hin hin' hplace
      exact ⟨item', .dot hwalks, hbare⟩
  | up h ih =>
      obtain ⟨item', hwalks, hbare⟩ :=
        ih hstop hin.tail hin'.tail (Trail.place_tail_congr hplace)
      exact ⟨item', .up hwalks, hbare⟩
  | enter hname hlook h ih =>
      obtain ⟨_, hlook', hthere⟩ := hkeeps.exists_lookup hin hin' hplace hlook
      obtain ⟨entries', rfl⟩ := Item.exists_directory_of_bare hthere
      obtain ⟨item', hwalks, hbare⟩ :=
        ih hstop (hin.enter hlook) (hin'.enter hlook') (Trail.place_cons_congr hplace)
      exact ⟨item', .enter hname hlook' hwalks, hbare⟩
  | missing hname hlook => cases hstop
  | other hname hlook hdir hlink =>
      obtain ⟨found, hlook', hthere⟩ := hkeeps.exists_lookup hin hin' hplace hlook
      obtain rfl := Item.eq_of_bare hdir hthere
      cases hstop
      rw [hplace]
      exact ⟨_, .other hname hlook' hdir hlink, rfl⟩
  | @link budget trail name target rest stop hname hlook hfollow htarget h ih =>
      obtain ⟨found, hlook', hthere⟩ := hkeeps.exists_lookup hin hin' hplace hlook
      obtain rfl : found = .link target := Item.eq_of_bare nofun hthere
      obtain ⟨item', hwalks, hbare⟩ := ih hstop (hin.linkBase target) (hin'.linkBase target)
        (linkBase_place hplace target)
      exact ⟨item', .link hname hlook' hfollow htarget hwalks, hbare⟩

/-- **A way that ended at a name that was not taken** leads to the directory that is there now. -/
theorem Walks.reaches (hkeeps : Keeps t t') {stop : Stop} (h : Walks t false budget trail steps stop)
    {l : Place} {name : String} (hstop : stop = .vacant l name) (hin : trail.In t)
    (hin' : trail'.In t') (hplace : trail.place = trail'.place) {inner : Listing}
    (hnew : t'.get? (l ++ [name]) = some (.directory inner)) {dots : List String}
    (hdots : ∀ d ∈ dots, d = ".") :
    Walks t' true budget trail' (steps ++ dots) (.reached (l ++ [name]) (.directory inner)) := by
  induction h generalizing trail' with
  | nil budget trail => cases hstop
  | dot h ih => exact .dot (ih hstop hin hin' hplace)
  | up h ih => exact .up (ih hstop hin.tail hin'.tail (Trail.place_tail_congr hplace))
  | enter hname hlook h ih =>
      obtain ⟨_, hlook', hthere⟩ := hkeeps.exists_lookup hin hin' hplace hlook
      obtain ⟨entries', rfl⟩ := Item.exists_directory_of_bare hthere
      apply Walks.enter hname hlook'
      exact ih hstop (hin.enter hlook) (hin'.enter hlook') (Trail.place_cons_congr hplace)
  | missing hname hlook =>
      cases hstop
      rw [hplace, ← hin'.lookup_eq] at hnew
      rw [hplace, ← Trail.place_cons]
      exact .enter hname hnew (walks_dots hdots)
  | other hname hlook hdir hlink => cases hstop
  | @link budget trail name target rest stop hname hlook hfollow htarget h ih =>
      obtain ⟨found, hlook', hthere⟩ := hkeeps.exists_lookup hin hin' hplace hlook
      obtain rfl : found = .link target := Item.eq_of_bare nofun hthere
      have hrest := ih hstop (hin.linkBase target) (hin'.linkBase target)
        (linkBase_place hplace target)
      rw [List.append_assoc] at hrest
      exact .link hname hlook' (fun _ => rfl) htarget hrest

end

/-! ## Where paths lead afterwards -/

/-- **A path that leads somewhere** leads to the same place in a tree that keeps everything. -/
theorem LeadsTo.keeps (hstart : t'.workingDirectory = t.workingDirectory) (hkeeps : Keeps t t')
    {path : String} {l : Place} {item : Item} (h : t.LeadsTo path l item) :
    ∃ item', t'.LeadsTo path l item' ∧ item'.bare = item.bare := by
  obtain ⟨hpath, trail, henter, hwalks⟩ := locateSteps_eq_ok_iff.mp h
  obtain ⟨trail', henter', hin, hin', hplace⟩ := hkeeps.exists_start hstart henter
  obtain ⟨item', hwalks', hbare⟩ := hwalks.keeps hkeeps rfl hin hin' hplace
  exact ⟨item', locateSteps_eq_ok_iff.mpr ⟨hpath, trail', henter', hwalks'⟩, hbare⟩

/-- A path has its names for steps, and perhaps a dot at the end. -/
theorem exists_dots (path : String) :
    ∃ dots : List String, stepsOf path = namesOf path ++ dots ∧ ∀ d ∈ dots, d = "." := by
  unfold stepsOf
  dsimp only
  split
  · exact ⟨["."], rfl, by simp⟩
  · exact ⟨[], (List.append_nil _).symm, by simp⟩

/-- **A path that led to a name that was not taken** leads to the directory that is there now. -/
theorem leadsTo_of_vacant (hstart : t'.workingDirectory = t.workingDirectory) (hkeeps : Keeps t t')
    {path : String} {l : Place} {name : String}
    (h : t.locateSteps false path (namesOf path) = .ok (.vacant l name)) {inner : Listing}
    (hnew : t'.get? (l ++ [name]) = some (.directory inner)) :
    t'.LeadsTo path (l ++ [name]) (.directory inner) := by
  obtain ⟨hpath, trail, henter, hwalks⟩ := locateSteps_eq_ok_iff.mp h
  obtain ⟨trail', henter', hin, hin', hplace⟩ := hkeeps.exists_start hstart henter
  obtain ⟨dots, hsteps, hdots⟩ := exists_dots path
  have hwalks' := hwalks.reaches hkeeps rfl hin hin' hplace hnew hdots
  rw [← hsteps] at hwalks'
  exact locateSteps_eq_ok_iff.mpr ⟨hpath, trail', henter', hwalks'⟩

/-! ## Growing -/

/-- **All that is new are directories that prefixes of the path lead to**, and nothing else has
changed. -/
structure GrowsAlong (path : String) (t t' : FileTree) : Prop where
  workingDirectory_eq : t'.workingDirectory = t.workingDirectory
  keeps : Keeps t t'
  added : ∀ l item, t.get? l = none → t'.get? l = some item →
    (∃ entries, item = .directory entries) ∧ ∃ p, Path.IsPrefix p path ∧ t'.LeadsTo p l item

namespace GrowsAlong

variable {path : String} {t'' : FileTree}

theorem refl (path : String) (t : FileTree) : GrowsAlong path t t where
  workingDirectory_eq := rfl
  keeps l item hget := by rw [hget, Option.map_some]
  added l item hnone hget := by
    rw [hnone] at hget
    cases hget

theorem mono {p : String} (h : GrowsAlong p t t') (hp : Path.IsPrefix p path) :
    GrowsAlong path t t' where
  workingDirectory_eq := h.workingDirectory_eq
  keeps := h.keeps
  added l item hnone hget := by
    obtain ⟨hdir, p', hp', hleads⟩ := h.added l item hnone hget
    exact ⟨hdir, p', hp'.trans hp, hleads⟩

theorem trans (h : GrowsAlong path t t') (h' : GrowsAlong path t' t'') : GrowsAlong path t t'' where
  workingDirectory_eq := h'.workingDirectory_eq.trans h.workingDirectory_eq
  keeps l item hget := by
    obtain ⟨item', hget', hbare⟩ := h.keeps.exists_get? hget
    rw [h'.keeps l item' hget', hbare]
  added l item hnone hget := by
    cases hget' : t'.get? l with
    | none => exact h'.added l item hget' hget
    | some item' =>
        -- a directory that was new before, which may list more by now
        obtain ⟨⟨entries', rfl⟩, p, hp, hleads⟩ := h.added l item' hnone hget'
        obtain ⟨found, hleads', hbare⟩ := hleads.keeps h'.workingDirectory_eq h'.keeps
        obtain rfl : found = item := Option.some.inj (hleads'.get?_eq.symm.trans hget)
        exact ⟨Item.exists_directory_of_bare hbare, p, hp, hleads'⟩

end GrowsAlong

/-- **A directory that is made at the end of a path** is growth along the path, and the path leads to
it. -/
theorem growsAlong_insert {path : String} {l : Place} {name : String}
    (h : t.locateSteps false path (namesOf path) = .ok (.vacant l name)) :
    GrowsAlong path t (t.insert l name (.directory [])) ∧
      (t.insert l name (.directory [])).isDirectory path = true := by
  obtain ⟨-, trail, henter, hwalks⟩ := locateSteps_eq_ok_iff.mp h
  obtain ⟨inner, hdir, hfree⟩ := hwalks.ends (in_of_enter?_root henter).1
  have hnone : t.get? (l ++ [name]) = none := by
    rw [get?, Listing.get?_append hdir, Listing.get?_singleton]
    exact hfree
  have hafter : ∀ m, ((t.insert l name (.directory [])).get? m).map Item.bare =
      if m = l ++ [name] then some (.directory []) else (t.get? m).map Item.bare :=
    Listing.bare_get?_modifyAt_insert hdir hfree
  have hkeeps : Keeps t (t.insert l name (.directory [])) := by
    intro m item hget
    have hne : m ≠ l ++ [name] := by
      rintro rfl
      rw [hnone] at hget
      cases hget
    rw [hafter, if_neg hne, hget, Option.map_some]
  obtain ⟨_, hnew, hbare⟩ : ∃ item, (t.insert l name (.directory [])).get? (l ++ [name]) = some item ∧
      item.bare = .directory [] := by
    apply Option.map_eq_some_iff.mp
    rw [hafter, if_pos rfl]
  obtain ⟨made, rfl⟩ := Item.exists_directory_of_bare hbare
  have hstart : (t.insert l name (.directory [])).workingDirectory = t.workingDirectory := rfl
  have hleads := leadsTo_of_vacant hstart hkeeps h hnew
  refine ⟨⟨hstart, hkeeps, ?_⟩, isDirectory_iff.mpr ⟨_, _, hleads⟩⟩
  intro m item hmissing hget
  have hplace : m = l ++ [name] := by
    by_contra hne
    have hsame := hafter m
    rw [if_neg hne, hmissing, hget] at hsame
    cases hsame
  subst hplace
  obtain rfl := Option.some.inj (hnew.symm.trans hget)
  exact ⟨⟨made, rfl⟩, path, Path.IsPrefix.refl path, hleads⟩

end FileTree

end ConfigDrive

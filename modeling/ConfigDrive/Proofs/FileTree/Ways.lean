/-
# ConfigDrive.Proofs.FileTree.Ways — the way that a path takes through a tree.

`FileTree.walk` runs down to the first link, starts again from there, and counts the links.  `Walks` tells
the same as one derivation, with a rule for each kind of step, so that facts about paths can be shown by
induction on the way (`walk_eq_ok_iff`).  The trail of a way is one in the tree (`Trail.In`): what its last
directory lists is what the tree has there.

A path that leads to an item leads to what the tree has at that place (`LeadsTo.get?_eq`).
-/
import ConfigDrive.Proofs.FileTree.Locality

namespace ConfigDrive

/-! ## What is at a place -/

namespace Listing

variable {entries inner : Listing} {name : String} {l : Place}

theorem get?_cons_directory (h : List.lookup name entries = some (.directory inner)) (l : Place) :
    get? entries (name :: l) = get? inner l := by
  rw [get?, h]

theorem get?_cons_none (h : List.lookup name entries = none) (l : Place) :
    get? entries (name :: l) = none := by
  rw [get?, h]

@[simp] theorem get?_singleton (entries : Listing) (name : String) :
    get? entries [name] = List.lookup name entries := by
  rw [get?]
  cases List.lookup name entries with
  | none => rfl
  | some item => cases item <;> rfl

/-- What is on the way to a directory is a directory. -/
theorem exists_of_get?_cons_directory (h : get? entries (name :: l) = some (.directory inner)) :
    ∃ es, List.lookup name entries = some (.directory es) ∧ get? es l = some (.directory inner) := by
  rw [get?] at h
  cases hlook : List.lookup name entries with
  | none => simp [hlook] at h
  | some item =>
      rw [hlook] at h
      cases item with
      | directory es => exact ⟨es, rfl, h⟩
      | _ => simp at h

theorem get?_append (h : get? entries l = some (.directory inner)) (m : Place) :
    get? entries (l ++ m) = get? inner m := by
  induction l generalizing entries with
  | nil =>
      cases h
      rfl
  | cons x l ih =>
      obtain ⟨es, hlook, hes⟩ := exists_of_get?_cons_directory h
      rw [List.cons_append, get?_cons_directory hlook]
      exact ih hes

end Listing

/-! ## Trails in a tree -/

namespace Trail

/-- The trail is one in the tree: each of its directories is listed by the one before. -/
def In (t : FileTree) : Trail → Prop
  | [] => True
  | (name, entries) :: trail =>
    (t.entriesAt trail).lookup name = some (.directory entries) ∧ In t trail

variable {t : FileTree} {trail trail' : Trail}

theorem place_tail_congr (h : trail.place = trail'.place) :
    Trail.place trail.tail = Trail.place trail'.tail := by
  unfold Trail.place at h ⊢
  rw [List.map_tail, List.map_tail, List.reverse_inj.mp h]

theorem place_cons_congr (h : trail.place = trail'.place) {name : String}
    {entries others : Listing} :
    Trail.place ((name, entries) :: trail) = Trail.place ((name, others) :: trail') := by
  rw [place_cons, place_cons, h]

theorem In.tail (h : trail.In t) : Trail.In t trail.tail := by
  cases trail with
  | nil => trivial
  | cons entry trail => exact h.2

theorem In.enter (h : trail.In t) {name : String} {entries : Listing}
    (hlook : (t.entriesAt trail).lookup name = some (.directory entries)) :
    Trail.In t ((name, entries) :: trail) :=
  ⟨hlook, h⟩

/-- The directory at the end of a trail is the one at its place. -/
theorem In.get?_append (h : trail.In t) (l : Place) :
    t.get? (trail.place ++ l) = Listing.get? (t.entriesAt trail) l := by
  induction trail generalizing l with
  | nil => rfl
  | cons entry trail ih =>
      obtain ⟨name, entries⟩ := entry
      rw [place_cons, List.append_assoc, List.singleton_append, ih h.2,
        Listing.get?_cons_directory h.1]
      rfl

theorem In.get?_place (h : trail.In t) :
    t.get? trail.place = some (.directory (t.entriesAt trail)) := by
  have hplace := h.get?_append []
  rw [List.append_nil] at hplace
  exact hplace

theorem In.lookup_eq (h : trail.In t) (name : String) :
    (t.entriesAt trail).lookup name = t.get? (trail.place ++ [name]) := by
  rw [h.get?_append, Listing.get?_singleton]

theorem In.linkBase (h : trail.In t) (target : String) : (FileTree.linkBase trail target).In t := by
  unfold FileTree.linkBase
  split
  · trivial
  · exact h

end Trail

namespace FileTree

variable {t t' : FileTree}

theorem linkBase_place {trail trail' : Trail} (h : trail.place = trail'.place) (target : String) :
    (linkBase trail target).place = (linkBase trail' target).place := by
  unfold linkBase
  split
  · rfl
  · exact h

/-- Directories that are entered one in the other make a trail in the tree. -/
theorem in_of_enter? {trail trail' : Trail} (h : trail.In t) {l : Place}
    (henter : t.enter? trail l = some trail') : trail'.In t ∧ trail'.place = trail.place ++ l := by
  induction l generalizing trail with
  | nil =>
      cases henter
      exact ⟨h, by simp⟩
  | cons name l ih =>
      rw [enter?] at henter
      split at henter
      · next entries hlook =>
          simpa [Trail.place_cons] using ih (h.enter hlook) henter
      · cases henter

theorem in_of_enter?_root {trail : Trail} {l : Place} (henter : t.enter? [] l = some trail) :
    trail.In t ∧ trail.place = l := by
  have hroot : Trail.In t [] := trivial
  exact in_of_enter? hroot henter

theorem exists_enter? {trail : Trail} {l : Place} {inner : Listing}
    (h : Listing.get? (t.entriesAt trail) l = some (.directory inner)) :
    ∃ trail', t.enter? trail l = some trail' := by
  induction l generalizing trail with
  | nil => exact ⟨trail, rfl⟩
  | cons name l ih =>
      obtain ⟨entries, hlook, hrest⟩ := Listing.exists_of_get?_cons_directory h
      rw [enter?, hlook]
      exact ih hrest

/-! ## The way of a path -/

/-- A name that is looked up in a directory. -/
structure Ordinary (name : String) : Prop where
  not_dot : name ≠ "."
  not_up : name ≠ ".."
  fits : ¬ nameLimit < name.utf8ByteSize

/-- **The way of a path**: a rule for each kind of step, from the end of a trail to the end of the walk,
with at most so many links. -/
inductive Walks (t : FileTree) (followLast : Bool) : Nat → Trail → List String → Stop → Prop
  | nil (budget : Nat) (trail : Trail) :
      Walks t followLast budget trail [] (.reached trail.place (.directory (t.entriesAt trail)))
  | dot {budget : Nat} {trail : Trail} {rest : List String} {stop : Stop}
      (h : Walks t followLast budget trail rest stop) :
      Walks t followLast budget trail ("." :: rest) stop
  | up {budget : Nat} {trail : Trail} {rest : List String} {stop : Stop}
      (h : Walks t followLast budget trail.tail rest stop) :
      Walks t followLast budget trail (".." :: rest) stop
  | enter {budget : Nat} {trail : Trail} {name : String} {entries : Listing} {rest : List String}
      {stop : Stop} (hname : Ordinary name)
      (hlook : (t.entriesAt trail).lookup name = some (.directory entries))
      (h : Walks t followLast budget ((name, entries) :: trail) rest stop) :
      Walks t followLast budget trail (name :: rest) stop
  | missing {budget : Nat} {trail : Trail} {name : String} (hname : Ordinary name)
      (hlook : (t.entriesAt trail).lookup name = none) :
      Walks t followLast budget trail [name] (.vacant trail.place name)
  | other {budget : Nat} {trail : Trail} {name : String} {item : Item} (hname : Ordinary name)
      (hlook : (t.entriesAt trail).lookup name = some item) (hdir : ∀ entries, item ≠ .directory entries)
      (hlink : ∀ target, item = .link target → followLast = false) :
      Walks t followLast budget trail [name] (.reached (trail.place ++ [name]) item)
  | link {budget : Nat} {trail : Trail} {name target : String} {rest : List String} {stop : Stop}
      (hname : Ordinary name) (hlook : (t.entriesAt trail).lookup name = some (.link target))
      (hfollow : rest = [] → followLast = true) (htarget : target.isEmpty = false)
      (h : Walks t followLast budget (linkBase trail target) (stepsOf target ++ rest) stop) :
      Walks t followLast (budget + 1) trail (name :: rest) stop

theorem walk_of_walks {followLast : Bool} {budget : Nat} {trail : Trail} {steps : List String}
    {stop : Stop} (h : Walks t followLast budget trail steps stop) :
    t.walk followLast budget trail steps = .ok stop := by
  induction h with
  | nil budget trail =>
      rw [walk, descend]
      rfl
  | dot h ih =>
      rw [walk] at ih ⊢
      rw [descend, if_pos rfl]
      exact ih
  | up h ih =>
      rw [walk] at ih ⊢
      rw [descend, if_neg (by decide), if_pos rfl]
      exact ih
  | enter hname hlook h ih =>
      rw [walk] at ih ⊢
      rw [descend, if_neg hname.not_dot, if_neg hname.not_up, if_neg hname.fits, hlook]
      exact ih
  | missing hname hlook =>
      rw [walk, descend, if_neg hname.not_dot, if_neg hname.not_up, if_neg hname.fits, hlook]
      rfl
  | @other budget trail name item hname hlook hdir hlink =>
      rw [walk, descend, if_neg hname.not_dot, if_neg hname.not_up, if_neg hname.fits, hlook]
      cases item with
      | directory entries => exact absurd rfl (hdir entries)
      | link target =>
          rw [hlink target rfl]
          rfl
      | _ => rfl
  | @link budget trail name target rest stop hname hlook hfollow htarget h ih =>
      have hgoes : ¬ (rest.isEmpty && !followLast) = true := by
        cases rest with
        | nil => simp [hfollow rfl]
        | cons step rest => simp
      rw [walk, descend, if_neg hname.not_dot, if_neg hname.not_up, if_neg hname.fits, hlook]
      show ((if (rest.isEmpty && !followLast) = true then _ else _) >>= _) = _
      rw [if_neg hgoes]
      show (if target.isEmpty = true then _ else _) = _
      rw [htarget]
      exact ih

theorem walks_of_walk {followLast : Bool} {budget : Nat} {trail : Trail} {steps : List String}
    {stop : Stop} (h : t.walk followLast budget trail steps = .ok stop) :
    Walks t followLast budget trail steps stop := by
  -- a link costs one of the budget, every other step is the first of the rest
  induction budget using Nat.strongRecOn generalizing trail steps with
  | ind budget ihbudget =>
      induction steps generalizing trail with
      | nil =>
          rw [walk, descend] at h
          cases h
          exact .nil budget trail
      | cons name rest ih =>
          by_cases hdot : name = "."
          · subst hdot
            rw [walk, descend, if_pos rfl, ← walk] at h
            exact .dot (ih h)
          by_cases hup : name = ".."
          · subst hup
            rw [walk, descend, if_neg (by decide), if_pos rfl, ← walk] at h
            exact .up (ih h)
          by_cases hlong : nameLimit < name.utf8ByteSize
          · rw [walk, descend, if_neg hdot, if_neg hup, if_pos hlong] at h
            cases h
          have hname : Ordinary name := ⟨hdot, hup, hlong⟩
          rw [walk, descend, if_neg hdot, if_neg hup, if_neg hlong] at h
          cases hlook : (t.entriesAt trail).lookup name with
          | none =>
              rw [hlook] at h
              cases rest with
              | nil =>
                  cases h
                  exact .missing hname hlook
              | cons step rest => cases h
          | some item =>
              rw [hlook] at h
              cases item with
              | directory entries =>
                  dsimp only at h
                  rw [← walk] at h
                  exact .enter hname hlook (ih h)
              | link target =>
                  dsimp only at h
                  by_cases hlast : (rest.isEmpty && !followLast) = true
                  · rw [if_pos hlast] at h
                    simp only [Bool.and_eq_true, List.isEmpty_iff, Bool.not_eq_true'] at hlast
                    obtain ⟨rfl, hfollow⟩ := hlast
                    cases h
                    exact .other hname hlook (by simp) fun _ _ => hfollow
                  · rw [if_neg hlast] at h
                    have hgoes : rest = [] → followLast = true := by
                      rintro rfl
                      simpa using hlast
                    cases budget with
                    | zero => cases h
                    | succ budget =>
                        replace h : (if target.isEmpty = true then Except.error Errno.notFound
                          else t.walk followLast budget (linkBase trail target)
                            (stepsOf target ++ rest)) = .ok stop := h
                        split at h
                        · cases h
                        · next htarget =>
                            have hrest := ihbudget budget (Nat.lt_succ_self budget) h
                            exact .link hname hlook hgoes (by simpa using htarget) hrest
              | _ =>
                  cases rest with
                  | nil =>
                      cases h
                      exact .other hname hlook (by simp) (by simp)
                  | cons step rest => cases h

/-- **A walk ends where the way of the path does.** -/
theorem walk_eq_ok_iff {followLast : Bool} {budget : Nat} {trail : Trail} {steps : List String}
    {stop : Stop} :
    t.walk followLast budget trail steps = .ok stop ↔ Walks t followLast budget trail steps stop :=
  ⟨walks_of_walk, walk_of_walks⟩

/-- The end of a way is one in the tree: what it leads to is there, and a name that is not taken is not
taken in a directory that is there. -/
def Ends (t : FileTree) : Stop → Prop
  | .reached l item => t.get? l = some item
  | .vacant l name => ∃ inner : Listing, t.get? l = some (.directory inner) ∧ inner.lookup name = none
  | .link _ _ _ => False

section

variable {followLast : Bool} {budget : Nat} {trail : Trail} {steps : List String} {stop : Stop}

theorem Walks.ends (h : Walks t followLast budget trail steps stop) (hin : trail.In t) :
    t.Ends stop := by
  induction h with
  | nil budget trail => exact hin.get?_place
  | dot h ih => exact ih hin
  | up h ih => exact ih hin.tail
  | enter hname hlook h ih => exact ih (hin.enter hlook)
  | missing hname hlook => exact ⟨_, hin.get?_place, hlook⟩
  | other hname hlook hdir hlink =>
      rw [hin.lookup_eq] at hlook
      exact hlook
  | link hname hlook hfollow htarget h ih => exact ih (hin.linkBase _)

/-- Dots lead nowhere else. -/
theorem walks_dots {dots : List String} (h : ∀ d ∈ dots, d = ".") :
    Walks t followLast budget trail dots (.reached trail.place (.directory (t.entriesAt trail))) := by
  induction dots with
  | nil => exact .nil budget trail
  | cons d dots ih =>
      obtain rfl : d = "." := h d List.mem_cons_self
      apply Walks.dot
      apply ih
      intro d' hd'
      exact h d' (List.mem_cons_of_mem _ hd')

end

/-! ## Where a path leads -/

/-- A path that the system takes. -/
structure Admissible (path : String) : Prop where
  nonempty : path.isEmpty = false
  no_nul : path.toList.contains '\x00' = false
  fits : ¬ Path.byteLimit ≤ path.utf8ByteSize

/-- The directory from where a path is walked. -/
def startOf (t : FileTree) (path : String) : Place :=
  if Path.isAbsolute path.toList then [] else t.workingDirectory

theorem walkFrom_eq_ok_iff {followLast : Bool} {l : Place} {steps : List String} {stop : Stop} :
    t.walkFrom followLast l steps = .ok stop ↔
      ∃ trail, t.enter? [] l = some trail ∧ Walks t followLast linkLimit trail steps stop := by
  unfold walkFrom
  cases t.enter? [] l with
  | none => simp
  | some trail => simp [walk_eq_ok_iff]

/-- **Steps of a path end somewhere** if the system takes the path, and a way leads there from where it
is walked. -/
theorem locateSteps_eq_ok_iff {followLast : Bool} {path : String} {steps : List String}
    {stop : Stop} :
    t.locateSteps followLast path steps = .ok stop ↔
      Admissible path ∧ ∃ trail, t.enter? [] (t.startOf path) = some trail ∧
        Walks t followLast linkLimit trail steps stop := by
  rw [← walkFrom_eq_ok_iff]
  unfold locateSteps
  constructor
  · intro h
    split at h
    · cases h
    split at h
    · cases h
    split at h
    · cases h
    next hempty hnul hlong =>
    refine ⟨⟨by simpa using hempty, by simpa using hnul, hlong⟩, ?_⟩
    revert h
    show (t.walkFrom followLast (t.startOf path) steps).mapError SystemError.errno = _ → _
    cases t.walkFrom followLast (t.startOf path) steps with
    | error e => nofun
    | ok stop => exact fun h => congrArg Except.ok (Except.ok.inj h)
  · rintro ⟨hpath, h⟩
    rw [if_neg (by simp [hpath.nonempty]), if_neg (by rw [hpath.no_nul]; nofun), if_neg hpath.fits]
    show (t.walkFrom followLast (t.startOf path) steps).mapError SystemError.errno = _
    rw [h]
    rfl

/-- The path leads to the item, which is at this place; links are followed. -/
def LeadsTo (t : FileTree) (path : String) (l : Place) (item : Item) : Prop :=
  t.locateSteps true path (stepsOf path) = .ok (.reached l item)

theorem LeadsTo.get?_eq {path : String} {l : Place} {item : Item} (h : t.LeadsTo path l item) :
    t.get? l = some item := by
  obtain ⟨-, trail, henter, hwalks⟩ := locateSteps_eq_ok_iff.mp h
  exact hwalks.ends (in_of_enter?_root henter).1

theorem isDirectory_iff {path : String} :
    t.isDirectory path = true ↔ ∃ l entries, t.LeadsTo path l (.directory entries) := by
  unfold isDirectory lookup LeadsTo
  cases t.locateSteps true path (stepsOf path) with
  | error e => exact ⟨nofun, nofun⟩
  | ok stop =>
      cases stop with
      | reached l item =>
          cases item with
          | directory entries => exact ⟨fun _ => ⟨l, entries, rfl⟩, fun _ => rfl⟩
          | _ =>
              constructor
              · nofun
              · rintro ⟨_, _, h⟩
                cases h
      | vacant l name => exact ⟨nofun, nofun⟩
      | link trail target rest => exact ⟨nofun, nofun⟩

end FileTree

end ConfigDrive

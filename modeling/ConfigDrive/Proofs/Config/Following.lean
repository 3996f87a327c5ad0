/-
# ConfigDrive.Proofs.Config.Following — loading follows its plan.

`Gives` says of a part of loading which questions it asks on a tree, which lines it reports and what its
result is, when directories are listed in a given order.  Parts are put together as they are in the
procedure (`Gives.bind_ok`), and the whole asks what the plan says, in whatever order directories are listed
(`gives_load`): the names of the drop-ins are sorted before they are used.
-/
import ConfigDrive.Proofs.Config.Dropins
import ConfigDrive.Proofs.Config.Plan
import ConfigDrive.Proofs.Host.Enumeration

namespace ConfigDrive.Config.Loader

open ConfigDrive.Host (Enumeration)
open ConfigDrive.Yaml (Value)

/-! ## Parts of loading -/

/-- Listing directories in this order, a part of loading asks these questions, reports these lines and has
this result; the tree stays as it is. -/
structure Gives {α : Type} (e : Enumeration) (t : FileTree) (x : LoadM α) (asked : List Host.Question)
    (said : List Log.Line) (r : Except RunError α) : Prop where
  questions : (Procedure.account e.reply x.run t).questions = asked
  log : (Procedure.account e.reply x.run t).log = said
  result : (Procedure.account e.reply x.run t).result = .ok r
  state : (Procedure.account e.reply x.run t).state = t

section

variable {α β : Type} {e : Enumeration} {t : FileTree} {x : LoadM α} {f : α → LoadM β}
  {asked asked' : List Host.Question} {said said' : List Log.Line}

theorem Gives.pure (r : Except RunError α) :
    Gives e t (ExceptT.mk (Pure.pure r)) [] [] r :=
  ⟨rfl, rfl, rfl, rfl⟩

theorem Gives.account_eq {r : Except RunError α} (h : Gives e t x asked said r) :
    Procedure.account e.reply x.run t =
      ⟨(Procedure.account e.reply x.run t).events, .ok r, t⟩ := by
  have hresult := h.result
  have hstate := h.state
  generalize Procedure.account e.reply x.run t = a at hresult hstate
  obtain ⟨events, result, state⟩ := a
  subst hresult hstate
  rfl

/-- What goes on from a part with a result. -/
theorem Gives.bind_ok {a : α} {r : Except RunError β} (h : Gives e t x asked said (.ok a))
    (h' : Gives e t (f a) asked' said' r) :
    Gives e t (x >>= f) (asked ++ asked') (said ++ said') r := by
  have hbind := Procedure.account_bindE_ok (f := f) e.reply h.account_eq
  constructor
  · rw [hbind, ← h.questions, ← h'.questions]
    simp [Account.questions, Account.moments]
  · rw [hbind, ← h.log, ← h'.log]
    simp [Account.log]
  · rw [hbind]
    exact h'.result
  · rw [hbind]
    exact h'.state

/-- What goes on from there need not ask anything. -/
theorem Gives.bind_said {a : α} {r : Except RunError β} (h : Gives e t x asked said (.ok a))
    (h' : Gives e t (f a) [] said' r) : Gives e t (x >>= f) asked (said ++ said') r := by
  have hbind := h.bind_ok h'
  rw [List.append_nil] at hbind
  exact hbind

/-- A part that fails is the last one. -/
theorem Gives.bind_error {err : RunError} (h : Gives e t x asked said (.error err)) :
    Gives e t (x >>= f) asked said (.error err) := by
  have hbind := Procedure.account_bindE_error (f := f) e.reply h.account_eq
  constructor
  · rw [hbind, ← h.questions]
    rfl
  · rw [hbind, ← h.log]
    rfl
  · rw [hbind]
  · rw [hbind]

/-- A part that goes on from every result in the same way. -/
theorem Gives.bind {r : Except RunError α} {g : α → Except RunError β} (h : Gives e t x asked said r)
    (h' : ∀ a, r = .ok a → Gives e t (f a) [] [] (g a)) :
    Gives e t (x >>= f) asked said (r >>= g) := by
  cases r with
  | error err => exact h.bind_error
  | ok a =>
      have hbind := h.bind_ok (h' a rfl)
      rw [List.append_nil, List.append_nil] at hbind
      exact hbind

theorem Gives.readText (path : String) :
    Gives e t (ExceptT.lift (Host.readText path)) [.readText path] [] (.ok (t.readText path)) :=
  ⟨rfl, rfl, rfl, rfl⟩

theorem Gives.listDirectory (path : String) :
    Gives e t (ExceptT.lift (Host.listDirectory path)) [.listDirectory path] []
      (.ok ((t.listDirectory path).map (e.order path))) :=
  ⟨rfl, rfl, rfl, rfl⟩

/-- A line is put before what is reported later. -/
theorem Gives.say_bind {r : Except RunError α} (level : Log.Level) (message : String)
    (h : Gives e t x asked said r) :
    Gives e t (Loader.say level message >>= fun _ => x) asked (⟨level, message⟩ :: said) r := by
  have hsay : Gives e t (Loader.say level message) [] [⟨level, message⟩] (.ok ()) :=
    ⟨rfl, rfl, rfl, rfl⟩
  exact hsay.bind_ok h

end

section

variable {e : Enumeration} {t : FileTree}

theorem gives_loadFile (path : String) :
    Gives e t (loadFile path) [.readText path] [] (fileValue t path) := by
  have hread : Gives e t (ExceptT.lift (Host.readText path)) _ _ _ := Gives.readText path
  rw [loadFile, fileValue]
  cases htext : t.readText path with
  | error err =>
      rw [htext] at hread
      refine hread.bind_said ?_
      dsimp only
      cases err.isNotFound with
      | true => exact .pure (.ok none)
      | false => exact .pure (.error (.io err))
  | ok text =>
      rw [htext] at hread
      refine hread.bind_said ?_
      dsimp only
      cases Value.ofText text with
      | error _ => exact .pure (.error (.config (.unparsable path)))
      | ok v => exact .pure (.ok (some v))

theorem gives_loadFiles (paths : List String) :
    Gives e t (loadFiles paths) (lookedAt t (paths.map .readText))
      ((present t paths).map (⟨.debug, "Loaded drop-in config from " ++ ·⟩))
      (layersAt t (paths.map .readText)) := by
  induction paths with
  | nil => exact .pure (.ok [])
  | cons path paths ih =>
      have hfile := gives_loadFile (e := e) (t := t) path
      have hverdict := verdict_readText t path
      rw [loadFiles, List.map_cons, present]
      cases hvalue : fileValue t path with
      | error err =>
          rw [hvalue] at hfile hverdict
          rw [lookedAt_cons_error hverdict, layersAt_cons_error hverdict]
          exact hfile.bind_error
      | ok v? =>
          rw [hvalue] at hfile hverdict
          rw [lookedAt_cons_ok hverdict]
          cases v? with
          | none =>
              rw [layersAt_cons_none hverdict]
              exact hfile.bind_ok ih
          | some v =>
              rw [layersAt_cons_some hverdict]
              exact hfile.bind_ok (.say_bind _ _ (ih.bind fun vs _ => .pure (.ok (v :: vs))))

theorem gives_loadMain (l : Loader) :
    Gives e t (loadMain l) [.readText l.path]
      ((present t [l.path]).map (⟨.debug, "Loaded config from " ++ ·⟩))
      (layersAt t [.readText l.path]) := by
  have hfile := gives_loadFile (e := e) (t := t) l.path
  have hverdict := verdict_readText t l.path
  rw [loadMain, present]
  cases hvalue : fileValue t l.path with
  | error err =>
      rw [hvalue] at hfile hverdict
      rw [layersAt_cons_error hverdict]
      exact hfile.bind_error
  | ok v? =>
      rw [hvalue] at hfile hverdict
      cases v? with
      | none =>
          rw [layersAt_cons_none hverdict]
          exact hfile.bind_ok (.pure (.ok []))
      | some v =>
          rw [layersAt_cons_some hverdict]
          exact hfile.bind_ok (.say_bind _ _ (.pure (.ok [v])))

/-- **The drop-ins** are read in one order, whatever the order in which they are listed. -/
theorem gives_loadDropins (l : Loader) :
    Gives e t (loadDropins l)
      (lookedAt t (.listDirectory l.dropinDirectory :: (l.listedDropins t).map .readText))
      (l.dropinLines t)
      (layersAt t (.listDirectory l.dropinDirectory :: (l.listedDropins t).map .readText)) := by
  have hlist : Gives e t (ExceptT.lift (Host.listDirectory l.dropinDirectory)) _ _ _ :=
    Gives.listDirectory l.dropinDirectory
  have hverdict := verdict_listDirectory t l.dropinDirectory
  rw [loadDropins, dropinLines]
  cases hlisted : t.listDirectory l.dropinDirectory with
  | error err =>
      have hnone : l.listedDropins t = [] := by
        unfold listedDropins
        rw [hlisted]
      rw [hlisted] at hlist hverdict
      dsimp only at hverdict
      rw [hnone, List.map_nil]
      by_cases hfound : err.isNotFound = true
      · rw [if_pos hfound] at hverdict
        rw [lookedAt_cons_ok hverdict, layersAt_cons_none hverdict, hverdict,
          unlessFailed_ok]
        refine hlist.bind_ok ?_
        show Gives e t (if err.isNotFound then _ else _) [] [] _
        rw [if_pos hfound]
        exact .pure (.ok [])
      · rw [if_neg hfound] at hverdict
        rw [lookedAt_cons_error hverdict, layersAt_cons_error hverdict, hverdict,
          unlessFailed_error]
        refine hlist.bind_ok ?_
        show Gives e t (if err.isNotFound then _ else _) [] [] _
        rw [if_neg hfound]
        exact .pure (.error (.io err))
  | ok names =>
      have hpaths : l.listedDropins t = l.dropinPaths names := by
        unfold listedDropins
        rw [hlisted]
      have hsame : l.dropinPaths (e.order l.dropinDirectory names) = l.dropinPaths names :=
        l.dropinPaths_perm (e.perm _ names)
      have hfiles := gives_loadFiles (e := e) (t := t) (l.dropinPaths names)
      rw [hlisted] at hlist hverdict
      dsimp only at hverdict
      rw [hpaths, lookedAt_cons_ok hverdict, layersAt_cons_none hverdict, hverdict, unlessFailed_ok]
      refine hlist.bind_ok ?_
      show Gives e t (loadFiles (l.dropinPaths (e.order l.dropinDirectory names)) >>= _) _ _ _
      rw [hsame]
      cases hlayers : layersAt t ((l.dropinPaths names).map .readText) with
      | error err =>
          rw [hlayers] at hfiles
          show Gives e t _ _ (_ ++ []) _
          rw [List.append_nil]
          exact hfiles.bind_error
      | ok values =>
          rw [hlayers] at hfiles
          refine hfiles.bind_said ?_
          cases values with
          | nil => exact .pure (.ok [])
          | cons v vs => exact .say_bind _ _ (.pure (.ok (v :: vs)))

/-- Loading on the tree `t'` does and gives what the plan on `t` says. -/
def Follows (l : Loader) (t : FileTree) (e : Enumeration) (t' : FileTree) : Prop :=
  Gives e t' l.load (lookedAt t (l.plan t)) (l.lines t) (layersAt t (l.plan t) >>= ofLayers)

/-- **Loading follows the plan**, in whatever order directories are listed. -/
theorem gives_load (l : Loader) : l.Follows t e t := by
  show Gives e t l.load (lookedAt t (l.plan t)) (l.lines t) (layersAt t (l.plan t) >>= ofLayers)
  have hmain := gives_loadMain (e := e) (t := t) l
  rw [load, plan, lines]
  cases hverdict : verdict t (.readText l.path) with
  | error err =>
      rw [layersAt_cons_error hverdict] at hmain
      rw [lookedAt_cons_error hverdict, layersAt_cons_error hverdict, unlessFailed_error,
        List.append_nil]
      exact hmain.bind_error
  | ok layer? =>
      have hlayer : layersAt t [.readText l.path] = .ok layer?.toList := by
        rw [layersAt_cons_ok hverdict, layersAt]
        exact congrArg Except.ok (List.append_nil _)
      rw [hlayer] at hmain
      rw [lookedAt_cons_ok hverdict, unlessFailed_ok]
      refine hmain.bind_ok ?_
      by_cases hskip : l.skipDropins = true
      · rw [if_pos hskip, if_pos hskip, hlayer]
        have hrest : Gives e t (do
            let dropins ← (Pure.pure [] : LoadM (List Value))
            ExceptT.mk (Pure.pure (ofLayers (layer?.toList ++ dropins)))) [] []
              (ofLayers (layer?.toList ++ [])) := .pure _
        rw [List.append_nil] at hrest
        rw [if_pos hskip]
        exact hrest
      · rw [if_neg hskip, if_neg hskip, if_neg hskip]
        have hsame : ∀ r : Except RunError (List Value),
            ((r >>= fun vs => .ok (layer?.toList ++ vs)) >>= ofLayers) =
              (r >>= fun vs => ofLayers (layer?.toList ++ vs)) := by
          intro r
          cases r <;> rfl
        rw [layersAt_cons_ok hverdict, hsame]
        exact (gives_loadDropins l).bind fun vs _ => .pure (ofLayers (layer?.toList ++ vs))

end

end ConfigDrive.Config.Loader

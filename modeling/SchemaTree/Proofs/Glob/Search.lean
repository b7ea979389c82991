import SchemaTree.FileTree
import SchemaTree.Glob.Search
import SchemaTree.Proofs.Stateful

/-!
# Searches

A search looks a part without holes up, and does not list the directory.  Nothing is lost by that:
where the names of a directory are those that are there, **it finds what going through the names
would find** (`searchFrom_of_name?`).

At a place where questions change nothing (`Files.Quiet`), a search changes nothing either, whatever
it finds and also if it fails (`Quest.run_state`).
-/

namespace SchemaTree

variable {σ ε α : Type}

/-- Questions about files change nothing. Making directories and writing may. -/
structure Files.Quiet (files : Files (StateM σ)) : Prop where
  read : ∀ path s, ((files.read path).run s).2 = s
  isThere : ∀ path s, ((files.isThere path).run s).2 = s
  isDirectory : ∀ path s, ((files.isDirectory path).run s).2 = s
  names : ∀ path s, ((files.names path).run s).2 = s

theorem FileTree.quiet_files : FileTree.files.Quiet where
  read _ _ := rfl
  isThere _ _ := rfl
  isDirectory _ _ := rfl
  names _ _ := rfl

theorem Stateful.Keeps.lift {x : StateM σ α} (h : ∀ s, (x.run s).2 = s) :
    Keeps Eq (liftM x : ExceptT ε (StateM σ) α) := fun s => (h s).symm

namespace Glob

open Stateful

/-! ## Parts without holes -/

section

variable {m : Type → Type} [Monad m] {files : Files m} {onlyDirectories : Bool} {descend : Descent m}
  {w : Wildcard} {cs : List Char}

theorem visitName_of_name? (hw : w.name? = some cs) (rest : List Wildcard) (dir name : String) :
    visitName files onlyDirectories descend (w :: rest) dir name =
      if name = String.ofList cs then
        arrive files onlyDirectories descend rest (pathOf dir (String.ofList cs))
      else pure [] := by
  rw [visitName, Wildcard.accepts_of_name? hw]
  by_cases hname : name = String.ofList cs
  · subst hname
    rw [if_pos rfl, if_pos (by simp)]
  · rw [if_neg hname, if_neg]
    rw [decide_eq_true_eq]
    rintro rfl
    exact hname String.ofList_toList.symm

theorem flatMapM_visitName [LawfulMonad m] (hw : w.name? = some cs) (rest : List Wildcard)
    (dir : String) {names : List String} (hnames : names.Nodup) :
    names.flatMapM (visitName files onlyDirectories descend (w :: rest) dir) =
      if String.ofList cs ∈ names then
        arrive files onlyDirectories descend rest (pathOf dir (String.ofList cs))
      else pure [] := by
  induction names with
  | nil => rfl
  | cons name names ih =>
    obtain ⟨hname, hnames⟩ := List.nodup_cons.mp hnames
    rw [List.flatMapM_cons, visitName_of_name? hw, ih hnames]
    by_cases heq : name = String.ofList cs
    · subst heq
      rw [if_pos rfl, if_neg hname, if_pos List.mem_cons_self]
      simp
    · rw [if_neg heq, pure_bind]
      simp [List.mem_cons, Ne.symm heq]

end

section

variable {files : Files (StateM σ)} {onlyDirectories : Bool} {w : Wildcard} {cs : List Char} {s : σ}
  {names : List String}

/-- **Looking a part up finds what going through the names of its directory finds**, where the name
is listed exactly if it is there. -/
theorem searchFrom_of_name? (hw : w.name? = some cs) (hhere : String.ofList cs ≠ ".")
    (habove : String.ofList cs ≠ "..") (fuel : Nat) (rest : List Wildcard) (dir : String)
    (hdir : (files.isDirectory dir).run s = (true, s))
    (hlisted : (files.names dir).run s = (.ok names, s)) (hnames : names.Nodup)
    (hthere : (files.isThere (pathOf dir (String.ofList cs))).run s =
      (decide (String.ofList cs ∈ names), s)) :
    (searchFrom files onlyDirectories (fuel + 1) (w :: rest) dir).run s =
      (listing files dir >>= fun names => names.flatMapM (visitName files onlyDirectories
        (searchFrom files onlyDirectories fuel) (w :: rest) dir)).run s := by
  have hsorted : (names.mergeSort fun a b => decide (a ≤ b)).Perm names := List.mergeSort_perm _ _
  have hlisting : (listing files dir).run s =
      (.ok (names.mergeSort fun a b => decide (a ≤ b)), s) := by
    rw [listing, run_lift_bind, hlisted]
    rfl
  rw [run_bind, hlisting]
  dsimp only
  rw [flatMapM_visitName hw rest dir (hsorted.nodup_iff.mpr hnames)]
  simp only [hsorted.mem_iff]
  -- The search itself asks whether the name is there.
  rw [searchFrom, run_lift_bind, hdir, hw]
  dsimp only
  rw [if_neg (by simp [hhere, habove]), run_lift_bind, hthere]
  simp only [decide_eq_true_eq]

end

/-! ## What a search leaves -/

variable {files : Files (StateM σ)} {onlyDirectories : Bool} {descend : Descent (StateM σ)}

theorem keeps_listing (hfiles : files.Quiet) (dir : String) : Keeps Eq (listing files dir) := by
  refine (Keeps.lift (hfiles.names dir)).bind fun r => ?_
  cases r with
  | ok names => exact Keeps.pure _
  | error cause => exact Keeps.throw _

theorem keeps_arrive (hfiles : files.Quiet) (hdescend : ∀ ws dir, Keeps Eq (descend ws dir))
    (rest : List Wildcard) (path : String) :
    Keeps Eq (arrive files onlyDirectories descend rest path) := by
  rw [arrive]
  split
  · split
    · exact (Keeps.lift (hfiles.isDirectory path)).bind fun _ => Keeps.pure _
    · exact Keeps.pure _
  · exact hdescend rest path

theorem keeps_visitName (hfiles : files.Quiet) (hdescend : ∀ ws dir, Keeps Eq (descend ws dir))
    (parts : List Wildcard) (dir name : String) :
    Keeps Eq (visitName files onlyDirectories descend parts dir name) := by
  cases parts with
  | nil => exact Keeps.pure []
  | cons w rest =>
    rw [visitName]
    split
    · exact keeps_arrive hfiles hdescend rest _
    · exact Keeps.pure []

theorem keeps_visitBelow (hfiles : files.Quiet) (hdescend : ∀ ws dir, Keeps Eq (descend ws dir))
    (w : Wildcard) (rest : List Wildcard) (dir name : String) :
    Keeps Eq (visitBelow files onlyDirectories descend w rest dir name) := by
  refine (Keeps.lift (hfiles.isDirectory _)).bind fun isDirectory => ?_
  have hbelow : ∀ found : List String, Keeps Eq (do
      let below ← if isDirectory then descend (w :: rest) (pathOf dir name) else pure []
      return found ++ below : Search (StateM σ) (List String)) := by
    intro found
    split
    · exact (hdescend _ _).bind fun below => Keeps.pure (found ++ below)
    · exact (Keeps.pure []).bind fun below => Keeps.pure (found ++ below)
  cases rest.isEmpty with
  | true => exact (Keeps.pure _).bind hbelow
  | false => exact (keeps_visitName hfiles hdescend rest dir name).bind hbelow

theorem keeps_searchFrom (hfiles : files.Quiet) (fuel : Nat) (parts : List Wildcard)
    (dir : String) : Keeps Eq (searchFrom files onlyDirectories fuel parts dir) := by
  induction fuel generalizing parts dir with
  | zero => exact Keeps.pure []
  | succ fuel ih =>
    cases parts with
    | nil => exact Keeps.pure []
    | cons w rest =>
      refine (Keeps.lift (hfiles.isDirectory dir)).bind fun isDirectory => ?_
      cases hname : w.name? with
      | some cs =>
        have harrive : ∀ there : Bool, Keeps Eq (if there then
            arrive files onlyDirectories (searchFrom files onlyDirectories fuel) rest
              (pathOf dir (String.ofList cs)) else pure []) := by
          intro there
          split
          · exact keeps_arrive hfiles ih rest _
          · exact Keeps.pure []
        dsimp only
        split
        · exact (Keeps.pure isDirectory).bind harrive
        · exact (Keeps.lift (hfiles.isThere _)).bind harrive
      | none =>
        dsimp only
        split
        · exact Keeps.pure []
        · refine (Keeps.flatMapM (fun name => keeps_arrive hfiles ih rest _) _).bind fun above => ?_
          refine (keeps_listing hfiles dir).bind fun names => ?_
          refine (Keeps.flatMapM (fun name => ?_) names).bind fun found => Keeps.pure _
          split
          · exact keeps_visitBelow hfiles ih w _ dir name
          · exact keeps_visitName hfiles ih (w :: rest) dir name

/-- **A search changes nothing**, whatever it finds. -/
theorem Quest.run_state (hfiles : files.Quiet) (q : Quest) (s : σ) :
    ((q.run files).run.run s).2 = s :=
  (keeps_searchFrom hfiles _ q.parts q.origin s).symm

end Glob

end SchemaTree

import SchemaTree.FileTree
import SchemaTree.Proofs.FirstFailure
import SchemaTree.Proofs.Stateful

/-!
# Changes of file trees

A change that takes no directory away and nothing else either leaves every path where it has led
(`Extends.locate_ok`).  Making directories and writing files are such changes.

* `keeps_makeDirectories`: **making directories only puts directories where nothing has been, and
  each at one of the paths that are asked for**, also if it fails.
* `write_ok`: **a text that is written can be read again**, and nothing changes but the place to
  which the path leads.
-/

namespace SchemaTree.FileTree

open Stateful

variable {t t' t'' : FileTree} {path text name : String} {p q dir : Place} {names : List String}

/-! ## Trees that extend others -/

/-- A tree keeps what stands in another, and directories as directories. -/
structure Extends (t t' : FileTree) : Prop where
  working : t'.working = t.working
  directory : ∀ p, t.at? p = some .directory → t'.at? p = some .directory
  isSome : ∀ p, (t.at? p).isSome → (t'.at? p).isSome

theorem Extends.refl (t : FileTree) : t.Extends t := ⟨rfl, fun _ h => h, fun _ h => h⟩

theorem Extends.trans (h : t.Extends t') (h' : t'.Extends t'') : t.Extends t'' :=
  ⟨h'.working.trans h.working, fun p hp => h'.directory p (h.directory p hp),
    fun p hp => h'.isSome p (h.isSome p hp)⟩

theorem extends_put (h : t.at? p ≠ some .directory) (e : Entry) : t.Extends (t.put p e) := by
  have hp : p ≠ [] := by
    rintro rfl
    exact h rfl
  refine ⟨rfl, fun q hq => ?_, fun q hq => ?_⟩
  · have hne : q ≠ p := by
      rintro rfl
      exact h hq
    rwa [at?_put_of_ne t hne]
  · by_cases hqp : q = p
    · rw [hqp, at?_put_self t hp, Option.isSome_some]
    · rwa [at?_put_of_ne t hqp]

/-! ## Where paths lead -/

theorem checkDirectory_ok_iff : t.checkDirectory dir = .ok () ↔ t.at? dir = some .directory := by
  rw [checkDirectory]
  cases hdir : t.at? dir with
  | none => exact ⟨(nomatch ·), (nomatch ·)⟩
  | some e =>
    cases e with
    | directory => exact ⟨fun _ => rfl, fun _ => rfl⟩
    | file text => exact ⟨(nomatch ·), (nomatch ·)⟩

theorem step_ok_iff : t.step dir name = .ok p ↔ t.at? dir = some .directory ∧
    (name = "." ∧ p = dir ∨ name = ".." ∧ p = dir.dropLast ∨
      name ≠ "." ∧ name ≠ ".." ∧ name.utf8ByteSize ≤ maxNameSize ∧ p = dir ++ [name] ∧
        (t.at? p).isSome) := by
  rw [step, bind_ok_iff, ← checkDirectory_ok_iff]
  refine ⟨fun ⟨_, hdir, h⟩ => ⟨hdir, ?_⟩, fun ⟨hdir, h⟩ => ⟨(), hdir, ?_⟩⟩
  · split_ifs at h with hhere habove hlong hthere
    · exact Or.inl ⟨hhere, (Except.ok.inj h).symm⟩
    · exact Or.inr (Or.inl ⟨habove, (Except.ok.inj h).symm⟩)
    · cases h
      exact Or.inr (Or.inr ⟨hhere, habove, Nat.not_lt.mp hlong, rfl, hthere⟩)
  · rcases h with ⟨rfl, rfl⟩ | ⟨rfl, rfl⟩ | ⟨hhere, habove, hlong, rfl, hthere⟩
    · rfl
    · rfl
    · rw [if_neg hhere, if_neg habove, if_neg (Nat.not_lt.mpr hlong), if_pos hthere]
      rfl

theorem locate_ok_iff : t.locate path = .ok p ↔ checkPath path = .ok () ∧
    t.walk (t.start path) (Path.parts path) = .ok p ∧
      (Path.endsInSlash path = true → t.at? p = some .directory) := by
  simp only [locate, bind_ok_iff]
  constructor
  · rintro ⟨_, hcheck, q, hwalk, h⟩
    split_ifs at h with hends
    · obtain ⟨_, hdir, h⟩ := bind_ok_iff.mp h
      cases h
      exact ⟨hcheck, hwalk, fun _ => checkDirectory_ok_iff.mp hdir⟩
    · cases h
      exact ⟨hcheck, hwalk, fun hends' => absurd hends' hends⟩
  · rintro ⟨hcheck, hwalk, hslash⟩
    refine ⟨(), hcheck, p, hwalk, ?_⟩
    split_ifs with hends
    · exact bind_ok_iff.mpr ⟨(), checkDirectory_ok_iff.mpr (hslash hends), rfl⟩
    · rfl

theorem target_ok_iff : t.target path = .ok (some p) ↔ checkPath path = .ok () ∧
    ∃ names name dir, Path.parts path = names ++ [name] ∧ t.walk (t.start path) names = .ok dir ∧
      t.at? dir = some .directory ∧ name ≠ "." ∧ name ≠ ".." ∧
        name.utf8ByteSize ≤ maxNameSize ∧ p = dir ++ [name] := by
  simp only [target, bind_ok_iff]
  constructor
  · rintro ⟨_, hcheck, h⟩
    refine ⟨hcheck, ?_⟩
    split at h
    · cases h
    · rename_i name hlast
      obtain ⟨names, hparts⟩ := List.getLast?_eq_some_iff.mp hlast
      obtain ⟨dir, hwalk, h⟩ := bind_ok_iff.mp h
      obtain ⟨_, hdir, h⟩ := bind_ok_iff.mp h
      rw [hparts, List.dropLast_concat] at hwalk
      split_ifs at h with hdots hlong
      · cases h
      · cases h
        simp only [Bool.or_eq_true, decide_eq_true_eq, not_or] at hdots
        exact ⟨names, name, dir, hparts, hwalk, checkDirectory_ok_iff.mp hdir, hdots.1, hdots.2,
          Nat.not_lt.mp hlong, rfl⟩
  · rintro ⟨hcheck, names, name, dir, hparts, hwalk, hdir, hhere, habove, hlong, rfl⟩
    refine ⟨(), hcheck, ?_⟩
    rw [hparts, List.getLast?_concat, List.dropLast_concat]
    refine bind_ok_iff.mpr ⟨dir, hwalk, bind_ok_iff.mpr ⟨(), checkDirectory_ok_iff.mpr hdir, ?_⟩⟩
    rw [if_neg (by simp [hhere, habove]), if_neg (Nat.not_lt.mpr hlong)]
    rfl

theorem Extends.step_ok (h : t.Extends t') (hstep : t.step dir name = .ok p) :
    t'.step dir name = .ok p := by
  rw [step_ok_iff] at hstep ⊢
  obtain ⟨hdir, hhere | habove | ⟨hname, hname', hlong, hp, hthere⟩⟩ := hstep
  · exact ⟨h.directory dir hdir, Or.inl hhere⟩
  · exact ⟨h.directory dir hdir, Or.inr (Or.inl habove)⟩
  · exact ⟨h.directory dir hdir, Or.inr (Or.inr ⟨hname, hname', hlong, hp, h.isSome p hthere⟩)⟩

theorem Extends.walk_ok (h : t.Extends t') (hwalk : t.walk dir names = .ok p) :
    t'.walk dir names = .ok p := by
  induction names generalizing dir with
  | nil => exact hwalk
  | cons name names ih =>
    obtain ⟨next, hstep, hwalk⟩ := bind_ok_iff.mp hwalk
    exact bind_ok_iff.mpr ⟨next, h.step_ok hstep, ih hwalk⟩

theorem Extends.start_eq (h : t.Extends t') (path : String) : t'.start path = t.start path := by
  rw [start, start, h.working]

/-- **A path leads where it has led**, in all that extends a tree. -/
theorem Extends.locate_ok (h : t.Extends t') (hlocate : t.locate path = .ok p) :
    t'.locate path = .ok p := by
  rw [locate_ok_iff] at hlocate ⊢
  obtain ⟨hcheck, hwalk, hslash⟩ := hlocate
  rw [h.start_eq]
  exact ⟨hcheck, h.walk_ok hwalk, fun hends => h.directory p (hslash hends)⟩

/-- **A path leads to its target, once something is there.** -/
theorem Extends.locate_target (h : t.Extends t') (htarget : t.target path = .ok (some p))
    (hthere : (t'.at? p).isSome)
    (hslash : Path.endsInSlash path = true → t'.at? p = some .directory) :
    t'.locate path = .ok p := by
  obtain ⟨hcheck, names, name, dir, hparts, hwalk, hdir, hhere, habove, hlong, rfl⟩ :=
    target_ok_iff.mp htarget
  refine locate_ok_iff.mpr ⟨hcheck, ?_, hslash⟩
  have hstep : t'.step dir name = .ok (dir ++ [name]) := step_ok_iff.mpr
    ⟨h.directory dir hdir, Or.inr (Or.inr ⟨hhere, habove, hlong, rfl, hthere⟩)⟩
  rw [h.start_eq, hparts, walk, List.foldlM_append]
  exact bind_ok_iff.mpr ⟨dir, h.walk_ok hwalk, bind_ok_iff.mpr ⟨_, hstep, rfl⟩⟩

/-! ## Making directories -/

/-- A tree differs from another by directories only, where nothing has been, each of them at one of
some paths. -/
structure Adds (paths : List String) (t t' : FileTree) : Prop where
  keeps : t.Extends t'
  added : ∀ q, t'.at? q ≠ t.at? q →
    t.at? q = none ∧ t'.at? q = some .directory ∧ ∃ path ∈ paths, t'.locate path = .ok q

theorem Adds.refl (paths : List String) (t : FileTree) : Adds paths t t :=
  ⟨.refl t, fun _ h => absurd rfl h⟩

theorem Adds.trans {paths : List String} (h : Adds paths t t') (h' : Adds paths t' t'') :
    Adds paths t t'' := by
  refine ⟨h.keeps.trans h'.keeps, fun q hq => ?_⟩
  -- a place changes in the first step, and keeps its directory, or not before the second one
  by_cases hfirst : t'.at? q = t.at? q
  · have hsecond : t''.at? q ≠ t'.at? q := by rwa [hfirst]
    obtain ⟨hnone, hadded⟩ := h'.added q hsecond
    exact ⟨hfirst ▸ hnone, hadded⟩
  · obtain ⟨hnone, hdirectory, path, hpath, hlocate⟩ := h.added q hfirst
    exact ⟨hnone, h'.keeps.directory q hdirectory, path, hpath, h'.keeps.locate_ok hlocate⟩

instance (paths : List String) : IsPreorder FileTree (Adds paths) where
  refl := Adds.refl paths
  trans _ _ _ := Adds.trans

variable {paths : List String}

theorem run_ask {α : Type} (question : FileTree → Except FileError α) (t : FileTree) :
    (ask question).run t = (question t, t) := by
  rw [ask, run_get_bind]
  cases question t <;> rfl

theorem target_ne_root (h : t.target path = .ok (some p)) : p ≠ [] := by
  obtain ⟨-, names, name, dir, -, -, -, -, -, -, rfl⟩ := target_ok_iff.mp h
  exact List.concat_ne_nil name dir

theorem adds_put (hpath : path ∈ paths) (htarget : t.target path = .ok (some p))
    (hnone : t.at? p = none) : Adds paths t (t.put p .directory) := by
  have hkeeps : t.Extends (t.put p .directory) := extends_put (by simp [hnone]) .directory
  have hput : (t.put p .directory).at? p = some .directory :=
    at?_put_self t (target_ne_root htarget) .directory
  refine ⟨hkeeps, fun q hq => ?_⟩
  have hqp : q = p := Classical.not_not.mp fun hne => hq (at?_put_of_ne t hne .directory)
  subst hqp
  exact ⟨hnone, hput, path, hpath, hkeeps.locate_target htarget (by simp [hput]) fun _ => hput⟩

theorem keeps_makeDirectory (hpath : path ∈ paths) : Keeps (Adds paths) (makeDirectory path) := by
  intro t
  rw [makeDirectory, run_bind, run_ask]
  cases htarget : t.target path with
  | error e => exact .refl paths t
  | ok target =>
    cases target with
    | none => exact .refl paths t
    | some p =>
      dsimp only
      rw [run_get_bind]
      cases hp : t.at? p with
      | some e => exact .refl paths t
      | none => exact adds_put hpath htarget hp

theorem keeps_ensureDirectory (hpath : path ∈ paths) :
    Keeps (Adds paths) (ensureDirectory path) := by
  refine (keeps_makeDirectory hpath).tryCatch fun e => Keeps.get.bind fun t => ?_
  split
  · exact Keeps.throw e
  · exact Keeps.pure _

theorem keeps_ensureDirectories {outer : List String} (h : outer ⊆ paths) :
    Keeps (Adds paths) (ensureDirectories outer) := by
  induction outer with
  | nil => exact Keeps.pure _
  | cons path outer ih =>
    obtain ⟨hpath, houter⟩ := List.cons_subset.mp h
    refine (keeps_ensureDirectory hpath).tryCatch fun e => ?_
    split
    · exact (Keeps.throw e).bind fun _ => (ih houter).bind fun _ => keeps_ensureDirectory hpath
    · exact (ih houter).bind fun _ => keeps_ensureDirectory hpath

/-- **Making directories only adds directories, at the paths that are asked for**, also if it
fails. -/
theorem keeps_makeDirectories (path : String) :
    Keeps (Adds (Path.lineage path)) (makeDirectories path) :=
  keeps_ensureDirectories (List.Subset.refl _)

/-! ## Writing -/

theorem read_put (htarget : t.target path = .ok (some p)) (hdirectory : t.at? p ≠ some .directory)
    (hslash : ¬ Path.endsInSlash path = true) :
    (t.put p (.file (some text))).locate path = .ok p ∧
      (t.put p (.file (some text))).read path = .ok text := by
  have hput : (t.put p (.file (some text))).at? p = some (.file (some text)) :=
    at?_put_self t (target_ne_root htarget) _
  -- the steps before the last one go through directories, none of which is the target
  have hlocate : (t.put p (.file (some text))).locate path = .ok p :=
    (extends_put hdirectory _).locate_target htarget (by simp [hput])
      fun hends => absurd hends hslash
  refine ⟨hlocate, bind_ok_iff.mpr ⟨p, hlocate, ?_⟩⟩
  rw [hput]
  rfl

/-- **A text that is written can be read again.** -/
theorem write_ok (h : (write path text).run t = (.ok (), t')) :
    ∃ p, t.at? p ≠ some .directory ∧ t' = t.put p (.file (some text)) ∧ t'.locate path = .ok p ∧
      t'.read path = .ok text := by
  rw [write, run_bind, run_ask] at h
  cases htarget : t.target path with
  | error e =>
    rw [htarget] at h
    cases h
  | ok target =>
    rw [htarget] at h
    cases target with
    | none => cases h
    | some p =>
      dsimp only at h
      split_ifs at h with hslash
      · cases h
      · rw [run_get_bind] at h
        split_ifs at h with hdirectory
        · cases h
        · cases h
          exact ⟨p, hdirectory, rfl, read_put htarget hdirectory hslash⟩

/-- A tree has a text at a path, and differs from another there only, and by directories at some
paths where nothing has been. -/
structure Written (above : List String) (path text : String) (t t' : FileTree) : Prop where
  working : t'.working = t.working
  read : t'.read path = .ok text
  changed : ∀ q, t'.at? q ≠ t.at? q → t'.locate path = .ok q ∨
    t.at? q = none ∧ t'.at? q = some .directory ∧ ∃ d ∈ above, t'.locate d = .ok q

/-- **A text is written into a tree to which directories have been added.** -/
theorem Adds.written (hadds : Adds paths t t') (h : (write path text).run t' = (.ok (), t'')) :
    Written paths path text t t'' := by
  obtain ⟨p, hdirectory, rfl, hlocate, hread⟩ := write_ok h
  have hkeeps : t'.Extends (t'.put p (.file (some text))) := extends_put hdirectory _
  refine ⟨(hadds.keeps.trans hkeeps).working, hread, fun q hq => ?_⟩
  by_cases hqp : q = p
  · exact Or.inl (hqp ▸ hlocate)
  · rw [at?_put_of_ne t' hqp] at hq
    obtain ⟨hnone, hadded, d, hd, hlocated⟩ := hadds.added q hq
    exact Or.inr ⟨hnone, hkeeps.directory q hadded, d, hd, hkeeps.locate_ok hlocated⟩

end SchemaTree.FileTree

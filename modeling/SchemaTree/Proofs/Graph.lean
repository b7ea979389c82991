import Mathlib.Tactic.ByContra
import SchemaTree.Compiler

/-!
# The graph of types

The types of a source are the nodes of a graph whose edges are *references*: a type
refers to another through one of its declared fields.  The graph may be infinite.

* `TypeSource.Refers`: the references that a source declares.  A field that is
  ignored, or whose annotation makes it a primitive kind, is no reference.
* `Compiler.Follows`: the references that a compiler follows, whatever its handlers
  are.
* `Trail`, `Reaches`, `Cycle`: ways along references.
-/

namespace SchemaTree

/-- A type, the field through which it refers to another, and that type. -/
structure Reference where
  owner : TypeId
  field : Descriptor
  target : TypeId

/-- The references between the types of a source. -/
structure TypeSource.Refers (s : TypeSource) (r : Reference) : Prop where
  declared : ∃ fields, s.fields r.owner = .ok fields ∧ r.field ∈ fields
  live : r.field.annotations.ignore = false
  kind : r.field.annotations.kind = none ∨ r.field.annotations.kind = some .object ∨
    r.field.annotations.kind = some .array
  shape : r.field.shape = .entity r.target ∨ r.field.shape = .collection (.entity r.target)

/-- The references that a compiler follows. -/
structure Compiler.Follows (c : Compiler) (r : Reference) : Prop where
  declared : ∃ fields, c.source.fields r.owner = .ok fields ∧ r.field ∈ fields
  target : (c.describe r.owner r.field).target? = some r.target

/-! ## Ways along references -/

/-- References that lead from one type to another, each from where the last one ended. -/
def Trail (E : Reference → Prop) : TypeId → List Reference → TypeId → Prop
  | t, [], u => t = u
  | t, r :: rs, u => r.owner = t ∧ E r ∧ Trail E r.target rs u

/-- Whether references lead from one type to another. -/
def Reaches (E : Reference → Prop) (t u : TypeId) : Prop := ∃ rs, Trail E t rs u

/-- References that lead back to where they began. -/
def Cycle (E : Reference → Prop) (t : TypeId) (rs : List Reference) : Prop :=
  rs ≠ [] ∧ Trail E t rs t

variable {E : Reference → Prop} {t u v : TypeId}

theorem Trail.append {rs rs' : List Reference} (h : Trail E t rs u) (h' : Trail E u rs' v) :
    Trail E t (rs ++ rs') v := by
  induction rs generalizing t with
  | nil =>
    obtain rfl : t = u := h
    exact h'
  | cons r rs ih =>
    obtain ⟨ho, hr, hrs⟩ := h
    exact ⟨ho, hr, ih hrs⟩

theorem Reaches.refl (t : TypeId) : Reaches E t t := ⟨[], rfl⟩

theorem Reaches.trans (h : Reaches E t u) (h' : Reaches E u v) : Reaches E t v := by
  obtain ⟨rs, hrs⟩ := h
  obtain ⟨rs', hrs'⟩ := h'
  exact ⟨rs ++ rs', hrs.append hrs'⟩

theorem Reaches.single {r : Reference} (h : E r) : Reaches E r.owner r.target :=
  ⟨[r], rfl, h, rfl⟩

theorem Reaches.step {r : Reference} (h : Reaches E t r.owner) (hr : E r) :
    Reaches E t r.target := h.trans (Reaches.single hr)

/-- **What holds of a type and is passed on along references holds of all types it reaches.** -/
theorem Reaches.induction {P : TypeId → Prop} (h : Reaches E t u) (start : P t)
    (step : ∀ r, E r → P r.owner → P r.target) : P u := by
  obtain ⟨rs, hrs⟩ := h
  induction rs generalizing t with
  | nil =>
    obtain rfl : t = u := hrs
    exact start
  | cons r rs ih =>
    obtain ⟨rfl, hr, hrs⟩ := hrs
    exact ih (step r hr start) hrs

theorem Cycle.of_reaches {r : Reference} (hr : E r) (h : Reaches E r.target r.owner) :
    ∃ rs, Cycle E r.owner (r :: rs) := by
  obtain ⟨rs, hrs⟩ := h
  exact ⟨rs, by simp, rfl, hr, hrs⟩

/-- **The type after the first reference of a cycle is on a cycle as well.** -/
theorem Cycle.rotate {r : Reference} {rs : List Reference} (h : Cycle E t (r :: rs)) :
    Cycle E r.target (rs ++ [r]) := by
  obtain ⟨-, rfl, hr, hrs⟩ := h
  exact ⟨by simp, hrs.append ⟨rfl, hr, rfl⟩⟩

theorem Trail.reaches_owner {rs : List Reference} (h : Trail E t rs u) {r : Reference}
    (hr : r ∈ rs) : Reaches E t r.owner ∧ E r := by
  induction rs generalizing t with
  | nil => exact absurd hr List.not_mem_nil
  | cons r' rs ih =>
    obtain ⟨rfl, hr', hrs⟩ := h
    rcases List.mem_cons.mp hr with rfl | hr
    · exact ⟨Reaches.refl _, hr'⟩
    · exact ⟨(Reaches.single hr').trans (ih hrs hr).1, (ih hrs hr).2⟩

theorem Trail.rank_add_length_le {rs : List Reference} (h : Trail E t rs u) {rank : TypeId → Nat}
    (hlt : ∀ r ∈ rs, rank r.target < rank r.owner) : rank u + rs.length ≤ rank t := by
  induction rs generalizing t with
  | nil =>
    obtain rfl : t = u := h
    exact Nat.le_refl _
  | cons r rs ih =>
    obtain ⟨rfl, -, hrs⟩ := h
    have h1 := hlt r List.mem_cons_self
    have h2 := ih hrs (fun r' hr' => hlt r' (List.mem_cons_of_mem _ hr'))
    rw [List.length_cons]
    omega

/-- **Along a cycle no number can fall at every reference.** -/
theorem Cycle.exists_not_lt {rs : List Reference} (h : Cycle E t rs) (rank : TypeId → Nat) :
    ∃ r ∈ rs, ¬ rank r.target < rank r.owner := by
  by_contra hn
  have hlt : ∀ r ∈ rs, rank r.target < rank r.owner := by
    intro r hr
    by_contra hr'
    exact hn ⟨r, hr, hr'⟩
  have hle := h.2.rank_add_length_le hlt
  have hpos : 0 < rs.length := List.length_pos_iff.mpr h.1
  omega

end SchemaTree

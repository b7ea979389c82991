import Mathlib.Data.List.Nodup
import SchemaTree.Proofs.Graph

/-!
# Depth-first order

The types of a graph in the order in which a depth-first search meets them.  Each type has a
list of *targets*; the graph may be infinite, and a search may stop anywhere, so the
order is given by what comes next (`VisitsNext`): **the next type is the first unvisited target
of the last visited type that has one.**  Types visited after that one have no
unvisited targets left, which tells a depth-first order from any other.

* `DepthFirst.nodup`: no type is visited twice.
* `DepthFirst.reaches`: all types that are visited can be reached.
* `Compiler.targets`: the types that a type refers to, as a compiler sees them.
-/

namespace SchemaTree

/-- A type whose targets are all among those visited. -/
def Exhausted (targets : TypeId → List TypeId) (visited : List TypeId) (t : TypeId) : Prop :=
  ∀ u ∈ targets t, u ∈ visited

/-- A type that a depth-first search visits after those that it has visited: the first unvisited
target of the last visited type with one. -/
structure VisitsNext (targets : TypeId → List TypeId) (visited : List TypeId) (u : TypeId) :
    Prop where
  unvisited : u ∉ visited
  first : ∃ before t after done rest, visited = before ++ t :: after ∧
    (∀ w ∈ after, Exhausted targets visited w) ∧
    targets t = done ++ u :: rest ∧ ∀ v ∈ done, v ∈ visited

/-- Types in the order in which a depth-first search from a root visits them, as far as it goes. -/
inductive DepthFirst (targets : TypeId → List TypeId) (root : TypeId) : List TypeId → Prop
  | root : DepthFirst targets root [root]
  | next {visited : List TypeId} {u : TypeId} (h : DepthFirst targets root visited)
      (hu : VisitsNext targets visited u) : DepthFirst targets root (visited ++ [u])

section

variable {targets : TypeId → List TypeId} {root : TypeId} {visited : List TypeId}

/-- **A depth-first search visits no type twice.** -/
theorem DepthFirst.nodup (h : DepthFirst targets root visited) : visited.Nodup := by
  induction h with
  | root => exact List.nodup_singleton root
  | next _ hu ih =>
    refine List.nodup_append.mpr ⟨ih, List.nodup_singleton _, ?_⟩
    intro v hv w hw hvw
    rw [hvw, List.mem_singleton.mp hw] at hv
    exact hu.unvisited hv

theorem DepthFirst.root_mem (h : DepthFirst targets root visited) : root ∈ visited := by
  induction h with
  | root => exact List.mem_singleton_self root
  | next _ _ ih => exact List.mem_append_left _ ih

theorem VisitsNext.exists_target {u : TypeId} (h : VisitsNext targets visited u) :
    ∃ t ∈ visited, u ∈ targets t := by
  obtain ⟨before, t, after, done, rest, hvisited, -, htargets, -⟩ := h.first
  refine ⟨t, ?_, ?_⟩
  · rw [hvisited]
    exact List.mem_append_right _ List.mem_cons_self
  · rw [htargets]
    exact List.mem_append_right _ List.mem_cons_self

end

/-! ## The targets that a compiler follows -/

namespace Compiler

/-- The targets of declared fields of a type. -/
def targetsAmong (c : Compiler) (t : TypeId) (ds : List Descriptor) : List TypeId :=
  ds.filterMap fun d => (c.describe t d).target?

/-- The types that a type refers to, in the order of its fields; a type that cannot be introspected
refers to none. -/
def targets (c : Compiler) (t : TypeId) : List TypeId :=
  match c.source.fields t with
  | .ok ds => c.targetsAmong t ds
  | .error _ => []

variable {c : Compiler} {root t u : TypeId} {visited : List TypeId} {d : Descriptor}
  {ds : List Descriptor}

theorem targets_of_fields (h : c.source.fields t = .ok ds) :
    c.targets t = c.targetsAmong t ds := by
  rw [targets, h]

theorem targetsAmong_cons_none (h : (c.describe t d).target? = none) :
    c.targetsAmong t (d :: ds) = c.targetsAmong t ds := List.filterMap_cons_none h

theorem targetsAmong_cons_some (h : (c.describe t d).target? = some u) :
    c.targetsAmong t (d :: ds) = u :: c.targetsAmong t ds := List.filterMap_cons_some h

/-- **The targets of a type are those that the compiler follows references to.** -/
theorem mem_targets : u ∈ c.targets t ↔ ∃ d, c.Follows ⟨t, d, u⟩ := by
  rw [targets]
  constructor
  · intro h
    cases hds : c.source.fields t with
    | ok ds =>
      rw [hds] at h
      obtain ⟨d, hd, ht⟩ := List.mem_filterMap.mp h
      exact ⟨d, ⟨ds, hds, hd⟩, ht⟩
    | error reason =>
      rw [hds] at h
      exact absurd h List.not_mem_nil
  · rintro ⟨d, ⟨ds, hds, hd⟩, ht⟩
    rw [hds]
    exact List.mem_filterMap.mpr ⟨d, hd, ht⟩

/-- **A search along the references that a compiler follows visits only types that they lead
to.** -/
theorem reaches_of_depthFirst (h : DepthFirst c.targets root visited) :
    ∀ u ∈ visited, Reaches c.Follows root u := by
  induction h with
  | root =>
    intro u hu
    rw [List.mem_singleton.mp hu]
    exact Reaches.refl root
  | next _ hnext ih =>
    intro u hu
    rcases List.mem_append.mp hu with hu | hu
    · exact ih u hu
    · rw [List.mem_singleton.mp hu]
      obtain ⟨t, ht, htarget⟩ := hnext.exists_target
      obtain ⟨d, hd⟩ := mem_targets.mp htarget
      exact (ih t ht).step hd

end Compiler

end SchemaTree

import SchemaTree.Proofs.Catalog.Accepted
import SchemaTree.Proofs.Resolution.Resolves
import SchemaTree.Proofs.Walk.Completed

/-!
# How deep a tree is

A type is built only where the limit of depth allows it.  A schema that is finished is
attached again wherever its type is referred to, without a look at the limit.

* `Occurrence.firsts`, `Occurrence.repeats`: the schemas of a tree whose label is new, and
  those whose label has been met before.
* `Builds.firsts_depth_le`: **the limit holds where a type is met for the first time.**
* `depth_le_iff`: **the limit holds everywhere if and only if each schema that is
  attached again has room for its height**, and `not_depth_le`: this is not always so.
-/

namespace SchemaTree

namespace Occurrence

/-- The schemas with labels that were not seen before. -/
def firsts (seen : List (Option TypeId)) : List Occurrence → List Occurrence
  | [] => []
  | o :: os => (if o.label ∈ seen then [] else [o]) ++ firsts (o.label :: seen) os

/-- The schemas with labels that were seen before. -/
def repeats (seen : List (Option TypeId)) : List Occurrence → List Occurrence
  | [] => []
  | o :: os => (if o.label ∈ seen then [o] else []) ++ repeats (o.label :: seen) os

variable {seen : List (Option TypeId)} {os : List Occurrence} {o : Occurrence}

theorem mem_iff (seen : List (Option TypeId)) :
    o ∈ os ↔ o ∈ firsts seen os ∨ o ∈ repeats seen os := by
  induction os generalizing seen with
  | nil => simp [firsts, repeats]
  | cons o' os ih =>
    rw [List.mem_cons, ih (o'.label :: seen), firsts, repeats]
    by_cases h : o'.label ∈ seen
    · simp only [h, if_true, List.nil_append, List.singleton_append, List.mem_cons]
      exact or_left_comm
    · simp only [h, if_false, List.nil_append, List.singleton_append, List.mem_cons]
      exact or_assoc.symm

theorem firsts_append (os os' : List Occurrence) :
    firsts seen (os ++ os') =
      firsts seen os ++ firsts ((os.map (·.label)).reverse ++ seen) os' := by
  induction os generalizing seen with
  | nil => rfl
  | cons o os ih =>
    rw [List.cons_append, firsts, firsts, ih, List.map_cons, List.reverse_cons,
      List.append_assoc, List.append_assoc, List.singleton_append]

theorem firsts_eq_nil (h : ∀ o ∈ os, o.label ∈ seen) : firsts seen os = [] := by
  induction os generalizing seen with
  | nil => rfl
  | cons o os ih =>
    obtain ⟨ho, hos⟩ := List.forall_mem_cons.mp h
    rw [firsts, if_pos ho, ih fun o' ho' => List.mem_cons_of_mem _ (hos o' ho'),
      List.nil_append]

end Occurrence

namespace Compiler

open Occurrence

variable {c : Compiler} {t : TypeId} {depth : Nat} {ds : List Descriptor} {s s' : Session}
  {fs : List Field}

/-- **Among the schemas that a walk builds into fields, those of types that it meets for the first
time are within the limit of depth.**  What is attached from the cache holds no such type, for its
session is sound. -/
theorem Builds.firsts_depth_le (h : c.Builds t depth ds s fs s') (hr : c.Ready s t ds)
    {seen : List (Option TypeId)} (hseen : ∀ v, (s.cached? v).isSome → some v ∈ seen) :
    ∀ o ∈ firsts seen (Field.occurrencesAll (depth + 1) fs), o.depth ≤ c.options.maxDepth := by
  induction h generalizing seen with
  | nil => exact fun o ho => absurd ho List.not_mem_nil
  | ignored _ _ ih => exact ih hr.described hseen
  | plain _ _ _ ih => exact ih hr.described hseen
  | @shared _ depth _ _ _ _ _ u x ht hu _ ih =>
    have hall : ∀ o ∈ x.occurrences (some u) (depth + 1), o.label ∈ seen := by
      intro o ho
      obtain ⟨v, hv, hx, -⟩ := hr.sound.occurrence hu o ho
      rw [hv]
      exact hseen v (by rw [hx]; rfl)
    rw [Field.occurrencesAll, Field.occurrences_of_nested rfl, Field.property_mk,
      object_of_target ht, firsts_append, firsts_eq_nil hall, List.nil_append]
    exact ih hr.described fun v hv => List.mem_append_right _ (hseen v hv)
  | deferred _ _ _ _ ih =>
    refine ih (hr.deferring _ _) fun v hv => hseen v ?_
    rwa [cached?_deferring] at hv
  | @expanded _ depth _ _ _ _ s₁ _ _ sub u ht hu hp hdepth hfields inside rest ihi ihr =>
    intro o ho
    rw [Field.occurrencesAll, Field.occurrences_of_nested rfl, Field.property_mk,
      object_of_target ht, firsts_append, List.mem_append] at ho
    rcases ho with ho | ho
    · rw [finished, Schema.occurrences, firsts, List.mem_append] at ho
      rcases ho with ho | ho
      · have hroot : o.depth = depth + 1 := by
          split at ho
          · exact absurd ho List.not_mem_nil
          · rw [List.mem_singleton.mp ho]
        rw [hroot]
        exact hdepth
      · exact ihi (hr.expanding ht hu hfields)
          (fun v hv => List.mem_cons_of_mem _ (hseen v hv)) o ho
    · -- What is cached by now was cached before, or is inside the schema that was built.
      refine ihr (hr.expanded ht hu hp hfields inside) (fun v hv => ?_) o ho
      rw [List.mem_append, List.mem_reverse, List.mem_map]
      by_cases hvu : v = u
      · subst hvu
        exact Or.inl ⟨_, Schema.self_mem_occurrences _ _ _, rfl⟩
      · rw [Session.cached?_keep_of_ne hvu] at hv
        rcases inside.exists_occurrence (depth + 1 + 1) hv with hv | ⟨o', ho', hl⟩
        · exact Or.inr (hseen v hv)
        · exact Or.inl ⟨o', List.mem_cons_of_mem _ ho', hl⟩

/-- **In the tree of a report, a type that is met for the first time is within the limit of
depth.** -/
theorem Walked.firsts_depth_le {aliasName : String} {r : Report} {inner : List Descriptor}
    {s₀ s₁ : Session} (h : c.Walked aliasName t r inner fs s₀ s₁) :
    ∀ o ∈ firsts [] (r.schema.occurrences (some t) 0), o.depth ≤ c.options.maxDepth := by
  intro o ho
  rw [h.schema, Schema.occurrences, firsts, if_neg List.not_mem_nil, List.singleton_append,
    List.mem_cons] at ho
  rcases ho with rfl | ho
  · exact Nat.zero_le _
  · refine h.builds.firsts_depth_le h.ready (fun v hv => ?_) o ho
    rw [h.cached?_eq_none v] at hv
    cases hv

/-- **How far the limit of depth holds.**  In a tree that is reported, or compiled with references,
each type is within the limit where it stands first; and all schemas are within the limit exactly if
each one that stands again has room for its height. -/
theorem depth_le_iff (c : Compiler) (aliasName : String) {schema : Schema}
    (h : (∃ r, (c.report aliasName).1 = .ok r ∧ r.schema = schema) ∨
      (c.options.policy = .reference ∧ (c.compile aliasName).1 = .ok schema)) :
    ∃ root, c.source.resolve aliasName = some root ∧
      (∀ o ∈ firsts [] (schema.occurrences (some root) 0), o.depth ≤ c.options.maxDepth) ∧
      ((∀ o ∈ schema.occurrences (some root) 0, o.depth ≤ c.options.maxDepth) ↔
        ∀ o ∈ repeats [] (schema.occurrences (some root) 0),
          o.depth + o.schema.height ≤ c.options.maxDepth) := by
  have hreport : ∃ r, (c.report aliasName).1 = .ok r ∧ r.schema = schema := by
    rcases h with h | ⟨hp, h⟩
    · exact h
    · obtain ⟨r, hr, ⟨-, hs⟩ | ⟨hf, -⟩⟩ := compile_ok h
      · exact ⟨r, hr, hs.symm⟩
      · cases hp.symm.trans hf
  obtain ⟨r, hr, rfl⟩ := hreport
  obtain ⟨root, inner, fs, s₀, s₁, hroot, hw⟩ := report_walked hr
  have hfirst := hw.firsts_depth_le
  refine ⟨root, hroot, hfirst, fun hall o ho => ?_, fun hrep o ho => ?_⟩
  · have hmem := (Occurrence.mem_iff []).mpr (Or.inr ho)
    obtain ⟨o', ho', hdepth⟩ := o.schema.exists_occurrence_height o.label o.depth
    rw [← hdepth]
    exact hall o' (Schema.occurrences_trans hmem ho')
  · rcases (Occurrence.mem_iff []).mp ho with ho | ho
    · exact hfirst o ho
    · exact Nat.le_trans (Nat.le_add_right _ _) (hrep o ho)

/-- The limit 2 holds, though a schema is attached again at that depth. -/
theorem depth_le_iff_sample :
    ∃ schema, ((ofCatalog Catalog.sample defaultBase { maxDepth := 2 }).compile "order").1 =
        .ok schema ∧
      ∃ root, Catalog.sample.source.resolve "order" = some root ∧
        (∀ o ∈ firsts [] (schema.occurrences (some root) 0), o.depth ≤ 2) ∧
        ((∀ o ∈ schema.occurrences (some root) 0, o.depth ≤ 2) ↔
          ∀ o ∈ repeats [] (schema.occurrences (some root) 0), o.depth + o.schema.height ≤ 2) :=
  ⟨_, rfl, depth_le_iff (ofCatalog Catalog.sample defaultBase { maxDepth := 2 }) "order"
    (Or.inr ⟨rfl, rfl⟩)⟩

/-- **A schema that is attached again may be deeper than the limit**: under the limit 1, an order
holds its customer at depth 1, and again inside its items at depth 2. -/
theorem not_depth_le :
    ¬ ∀ (catalog : Catalog), catalog.Accepted → ∀ (base : String) (options : CompilerOptions)
      (aliasName : String) (r : Report),
      ((ofCatalog catalog base options).report aliasName).1 = .ok r →
      ∀ root, catalog.source.resolve aliasName = some root →
        ∀ o ∈ r.schema.occurrences (some root) 0, o.depth ≤ options.maxDepth := by
  intro h
  have hall := h Catalog.sample Catalog.accepted_sample defaultBase { maxDepth := 1 } "order" _
    rfl ⟨"order"⟩ rfl
  obtain ⟨o, ho, hdepth⟩ := Schema.exists_occurrence_height _ (some ⟨"order"⟩) 0
  have hle := hall o ho
  rw [hdepth] at hle
  exact absurd hle (by decide)

end Compiler

end SchemaTree

import SchemaTree.Proofs.Walk.Pending

/-!
# Completed walks

When the walk from a type has succeeded, all that its session knows is finished.  Keeping the
schema of the root as well gives a last session, with an empty path, in which every
type has one schema: **the cache is then a table of the tree**
(`Compiler.Completed`).

* `report_walked`, `report_completed`: behind every report there is a walk, which starts from a
  session that is ready, and such a last session.
* `Completed.occurrence`: all schemas of the tree are those of the table.
* `Completed.cached_of_reaches`: all types that the root leads to are in the table, and
  each of them can be introspected and occurs in the tree.
-/

namespace SchemaTree

namespace Compiler

variable {c : Compiler} {t : TypeId} {depth : Nat} {ds : List Descriptor} {s s' : Session}
  {fs : List Field}

/-! ## What a walk adds occurs in what it builds -/

/-- **A type that a walk has added to the cache occurs in the fields that it built.** -/
theorem Builds.exists_occurrence (h : c.Builds t depth ds s fs s') (n : Nat) {v : TypeId}
    (hv : (s'.cached? v).isSome) :
    (s.cached? v).isSome ∨ ∃ o ∈ Field.occurrencesAll n fs, o.label = some v := by
  induction h generalizing n with
  | nil => exact Or.inl hv
  | ignored _ _ ih => exact ih n hv
  | plain _ _ _ ih =>
    refine (ih n hv).imp_right fun ⟨o, ho, hl⟩ => ⟨o, ?_, hl⟩
    exact List.mem_append_right _ ho
  | shared _ _ _ ih =>
    refine (ih n hv).imp_right fun ⟨o, ho, hl⟩ => ⟨o, ?_, hl⟩
    exact List.mem_append_right _ ho
  | deferred _ _ _ _ ih =>
    have hmem := ih n hv
    rw [cached?_deferring] at hmem
    refine hmem.imp_right fun ⟨o, ho, hl⟩ => ⟨o, ?_, hl⟩
    exact List.mem_append_right _ ho
  | @expanded _ _ d _ _ _ s₁ _ _ sub u ht _ _ _ _ _ _ ihi ihr =>
    have hobj := object_of_target ht
    rcases ihr n hv with hv | ⟨o, ho, hl⟩
    · -- What was finished for this field is its own type, or lies inside.
      by_cases hvu : v = u
      · subst hvu
        refine Or.inr ⟨⟨some v, n, c.finished v sub⟩, List.mem_append_left _ ?_, rfl⟩
        exact (Field.mem_occurrences_nested hobj _).mpr (Schema.self_mem_occurrences _ _ n)
      · rw [Session.cached?_keep_of_ne hvu] at hv
        refine (ihi (n + 1) hv).imp_right fun ⟨o, ho, hl⟩ => ⟨o, List.mem_append_left _ ?_, hl⟩
        exact (Field.mem_occurrences_nested hobj _).mpr (List.mem_cons_of_mem _ ho)
    · exact Or.inr ⟨o, List.mem_append_right _ ho, hl⟩

/-- The finished schemas of a session have the headings of their types. -/
def Headed (c : Compiler) (s : Session) : Prop :=
  ∀ t x, s.cached? t = some x → x.heading = c.heading (c.source.aliasFor t) t

theorem Builds.headed (h : c.Builds t depth ds s fs s') (hs : c.Headed s) : c.Headed s' := by
  induction h with
  | nil => exact hs
  | ignored _ _ ih => exact ih hs
  | plain _ _ _ ih => exact ih hs
  | shared _ _ _ ih => exact ih hs
  | deferred _ _ _ _ ih =>
    refine ih fun u x hu => ?_
    rw [cached?_deferring] at hu
    exact hs u x hu
  | @expanded _ _ _ _ _ _ _ _ _ _ u _ _ _ _ _ _ _ ihi ihr =>
    refine ihr fun v x hv => ?_
    by_cases hvu : v = u
    · subst hvu
      rw [Session.cached?_keep_self] at hv
      cases hv
      rfl
    · rw [Session.cached?_keep_of_ne hvu] at hv
      exact ihi hs v x hv

/-! ## The walk behind a report -/

/-- The walk from the type of an alias to a report. -/
structure Walked (c : Compiler) (aliasName : String) (t : TypeId) (r : Report)
    (inner : List Descriptor) (fs : List Field) (s₀ s₁ : Session) : Prop where
  fields : c.source.fields t = .ok inner
  builds : c.Builds t 0 inner s₀ fs s₁
  schema : r.schema = .mk (c.heading aliasName t) fs
  pending : r.pending = s₁.pending
  path₀ : s₀.path = [t]
  cache₀ : s₀.cache = []
  pending₀ : s₀.pending = []

/-- **There is a walk behind every report.** -/
theorem report_walked {aliasName : String} {r : Report} (h : (c.report aliasName).1 = .ok r) :
    ∃ t inner fs s₀ s₁, c.source.resolve aliasName = some t ∧
      c.Walked aliasName t r inner fs s₀ s₁ := by
  cases ht : c.source.resolve aliasName with
  | none =>
    simp only [report, ht] at h
    cases h
  | some t =>
    rcases report_of_walk ht with ⟨x, s, hw, hr⟩ | ⟨e, s, hw, hr⟩
    · rw [hr] at h
      cases h
      obtain ⟨inner, fs, s₀, s₁, hfields, hb, hx, rfl, hpath, hcache, hpending⟩ :=
        walkFrom_builds hw
      exact ⟨t, inner, fs, s₀, s₁, rfl, hfields, hb, hx, rfl, hpath, hcache, hpending⟩
    · rw [hr] at h
      cases h

section

variable {aliasName : String} {r : Report} {inner : List Descriptor} {s₀ s₁ : Session}

theorem Walked.cached?_eq_none (h : c.Walked aliasName t r inner fs s₀ s₁) (u : TypeId) :
    s₀.cached? u = none := by
  rw [Session.cached?, h.cache₀]
  rfl

theorem Walked.ready (h : c.Walked aliasName t r inner fs s₀ s₁) : c.Ready s₀ t inner := by
  refine Ready.of_fields (Sound.of_cache_eq_nil h.cache₀) h.fields fun v hv => ?_
  rw [h.path₀, List.mem_singleton] at hv
  subst hv
  exact Reaches.refl v

end

/-! ## The last session -/

/-- The session of a report in which the schema of the root is kept too. -/
structure Completed (c : Compiler) (aliasName : String) (t : TypeId) (r : Report)
    (z : Session) : Prop where
  path : z.path = []
  pending : z.pending = r.pending
  sound : c.Sound z
  root : z.cached? t = some r.schema
  rootHeading : r.schema.heading = c.heading aliasName t
  heading : ∀ u x, z.cached? u = some x → u ≠ t → x.heading = c.heading (c.source.aliasFor u) u
  occurs : ∀ u, (z.cached? u).isSome → ∃ o ∈ r.schema.occurrences (some t) 0, o.label = some u
  quiet : r.schema.hasDeferred = false → r.pending = []

/-- **Keeping the schema of the root ends a walk.** -/
theorem Walked.completed {aliasName : String} {r : Report} {inner : List Descriptor}
    {s₀ s₁ : Session} (h : c.Walked aliasName t r inner fs s₀ s₁) :
    c.Completed aliasName t r (s₁.leave.keep t r.schema) := by
  obtain ⟨hs₁, hlinked⟩ := h.builds.sound h.ready
  have hpath₁ : s₁.path = [t] := h.builds.path_eq.trans h.path₀
  have hfill : c.Fills s₁ t r.schema.fields := by
    rw [h.schema]
    exact ⟨⟨inner, h.fields, h.builds.map_foldField⟩, hlinked⟩
  have hheaded : c.Headed s₁ := by
    refine h.builds.headed fun v y hv => ?_
    rw [h.cached?_eq_none v] at hv
    cases hv
  constructor
  case path => rw [Session.path_keep, Session.path_leave, hpath₁]; rfl
  case pending => exact h.pending.symm
  case sound => exact hs₁.finish hpath₁ List.not_mem_nil hfill
  case root => exact Session.cached?_keep_self _ _ _
  case rootHeading => rw [h.schema, Schema.heading_mk]
  case heading =>
    intro u y hu hne
    rw [Session.cached?_keep_of_ne hne] at hu
    exact hheaded u y hu
  case occurs =>
    intro u hu
    by_cases hut : u = t
    · subst hut
      exact ⟨_, Schema.self_mem_occurrences _ _ 0, rfl⟩
    · rw [Session.cached?_keep_of_ne hut] at hu
      -- A walk starts with an empty cache, so the type was finished for one of the fields.
      rcases h.builds.exists_occurrence 1 hu with hu | ⟨o, ho, hl⟩
      · rw [h.cached?_eq_none u] at hu
        cases hu
      · rw [h.schema]
        exact ⟨o, List.mem_cons_of_mem _ ho, hl⟩
  case quiet =>
    intro hd
    have hnil := Schema.deferrals_eq_nil hd 0
    have hfold := h.builds.pending_eq_foldl h.ready
    rw [h.schema, Schema.deferrals] at hnil
    rw [hnil, h.pending₀, List.map_nil, List.foldl_nil, List.map_eq_nil_iff] at hfold
    rw [h.pending, hfold]

/-- **Every report comes with a last session.** -/
theorem report_completed {aliasName : String} {r : Report}
    (h : (c.report aliasName).1 = .ok r) :
    ∃ t z, c.source.resolve aliasName = some t ∧ c.Completed aliasName t r z := by
  obtain ⟨t, inner, fs, s₀, s₁, ht, hw⟩ := report_walked h
  exact ⟨t, _, ht, hw.completed⟩

namespace Completed

variable {aliasName : String} {r : Report} {z : Session} {u : TypeId}

/-- **All schemas of the tree are those of the table.** -/
theorem occurrence (h : c.Completed aliasName t r z) {o : Occurrence}
    (ho : o ∈ r.schema.occurrences (some t) 0) :
    ∃ u, o.label = some u ∧ z.cached? u = some o.schema ∧ Reaches c.Follows t u :=
  h.sound.occurrence h.root o ho

theorem cached_of_knows (h : c.Completed aliasName t r z) (hu : z.Knows u) :
    ∃ x, z.cached? u = some x := by
  rcases hu with hu | hu
  · rw [h.path] at hu
    exact absurd hu List.not_mem_nil
  · exact Option.isSome_iff_exists.mp hu

theorem exists_field (h : c.Completed aliasName t r z) {e : Reference} (he : c.Follows e)
    {x : Schema} (hx : z.cached? e.owner = some x) :
    ∃ f ∈ x.fields, f.property = c.describe e.owner e.field ∧ ∃ y,
      z.cached? e.target = some y ∧
      (f.link = .nested y ∨ f.link = .deferred (c.referenceTo e.target)) := by
  have hfill := h.sound.fills e.owner x hx
  obtain ⟨f, hf, hp⟩ := hfill.exists_field he rfl
  refine ⟨f, hf, hp, ?_⟩
  have htarget : f.property.target? = some e.target := by rw [hp]; exact he.target
  have hlinked := hfill.linked f hf
  cases hl : f.link with
  | none =>
    rw [hlinked.of_none hl] at htarget
    cases htarget
  | nested y =>
    obtain ⟨u, hu, hy⟩ := hlinked.of_nested hl
    rw [htarget] at hu
    cases hu
    exact ⟨y, hy, Or.inl rfl⟩
  | deferred ref =>
    obtain ⟨u, hu, rfl, hk, -, -⟩ := hlinked.of_deferred hl
    rw [htarget] at hu
    cases hu
    obtain ⟨y, hy⟩ := h.cached_of_knows hk
    exact ⟨y, hy, Or.inr rfl⟩

/-- **All types that the root leads to are in the table.** -/
theorem cached_of_reaches (h : c.Completed aliasName t r z) (hu : Reaches c.Follows t u) :
    ∃ x, z.cached? u = some x := by
  refine hu.induction (P := fun v => ∃ x, z.cached? v = some x) ⟨r.schema, h.root⟩ ?_
  rintro e he ⟨x, hx⟩
  obtain ⟨f, -, -, y, hy, -⟩ := h.exists_field he hx
  exact ⟨y, hy⟩

/-- **All types that the root leads to can be introspected**, for they were. -/
theorem fields_of_reaches (h : c.Completed aliasName t r z) (hu : Reaches c.Follows t u) :
    ∃ ds, c.source.fields u = .ok ds := by
  obtain ⟨x, hx⟩ := h.cached_of_reaches hu
  obtain ⟨ds, hds, -⟩ := (h.sound.fills u x hx).folded
  exact ⟨ds, hds⟩

/-- **All types that the root leads to occur in the tree.** -/
theorem occurs_of_reaches (h : c.Completed aliasName t r z) (hu : Reaches c.Follows t u) :
    ∃ o ∈ r.schema.occurrences (some t) 0, o.label = some u ∧ z.cached? u = some o.schema := by
  obtain ⟨x, hx⟩ := h.cached_of_reaches hu
  obtain ⟨o, ho, hl⟩ := h.occurs u (by rw [hx]; rfl)
  obtain ⟨v, hv, hz, -⟩ := h.occurrence ho
  rw [hl] at hv
  cases hv
  exact ⟨o, ho, hl, hz⟩

theorem heading_eq (h : c.Completed aliasName t r z) (ha : c.source.aliasFor t = aliasName)
    {x : Schema} (hx : z.cached? u = some x) :
    x.heading = c.heading (c.source.aliasFor u) u := by
  by_cases hut : u = t
  · subst hut
    rw [h.root] at hx
    cases hx
    rw [h.rootHeading, ha]
  · exact h.heading u x hx hut

end Completed

end Compiler

end SchemaTree

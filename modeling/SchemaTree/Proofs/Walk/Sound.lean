import SchemaTree.Proofs.Graph
import SchemaTree.Proofs.Schema.Occurrences
import SchemaTree.Proofs.Walk.Flat
import SchemaTree.Proofs.Walk.Growth

/-!
# Sound sessions

The cache of a session holds finished schemas.  A schema is finished for good while
types it refers to are still being built, so what can be said of it depends on the session:
each of its fields is *linked* (`Compiler.Linked`), which means that it

* refers to no type and has no link, or
* holds the schema that the cache has for its type, or
* is deferred, its type is on the path or in the cache, is pending, and **leads back
  to the type that declares the field**.

A session is *sound* (`Compiler.Sound`) if no type on its path is in its cache and the
fields of all schemas in its cache are linked and are, folded, those of the flat schema.

* `Builds.sound`: **a walk from a sound session ends in a sound session**, and the
  fields that it built are linked.  A session is *ready* for declared fields
  (`Compiler.Ready`) as long as this goes on; every induction over a walk has that at hand.
* `Sound.occurrence`: in a sound session all schemas inside a finished one are the
  finished schemas of their types.
-/

namespace SchemaTree

namespace Compiler

/-- How a field of a type may be linked, as far as a session goes. -/
inductive Linked (c : Compiler) (s : Session) (t : TypeId) : Field → Prop
  | plain {p : Property} (hp : p.target? = none) : Linked c s t (.mk p .none)
  | nested {p : Property} {u : TypeId} {x : Schema} (hp : p.target? = some u)
      (hu : s.cached? u = some x) : Linked c s t (.mk p (.nested x))
  | deferred {p : Property} {u : TypeId} (hp : p.target? = some u) (hk : s.Knows u)
      (hq : u ∈ s.pendingTypes) (hr : Reaches c.Follows u t) :
      Linked c s t (.mk p (.deferred (c.referenceTo u)))

/-- The fields of a schema of a type, as far as a session goes. -/
structure Fills (c : Compiler) (s : Session) (t : TypeId) (fields : List Field) : Prop where
  folded : ∃ ds, c.source.fields t = .ok ds ∧
    fields.map c.foldField = ds.filterMap (c.flatField t)
  linked : ∀ f ∈ fields, c.Linked s t f

/-- A session whose cache holds schemas only that are right. -/
structure Sound (c : Compiler) (s : Session) : Prop where
  apart : s.Apart
  fills : ∀ t x, s.cached? t = some x → c.Fills s t x.fields

variable {c : Compiler} {s s' : Session} {t : TypeId} {fields : List Field} {f : Field}

theorem Sound.of_cache_eq_nil (h : s.cache = []) : c.Sound s := by
  have hnone : ∀ u, s.cached? u = none := by
    intro u
    rw [Session.cached?, h]
    rfl
  refine ⟨fun u _ => hnone u, fun u y hu => ?_⟩
  rw [hnone u] at hu
  cases hu

/-! ## What grows stays right -/

theorem Linked.grows (h : c.Linked s t f) (hg : s.Grows s') : c.Linked s' t f := by
  cases h with
  | plain hp => exact Linked.plain hp
  | nested hp hu => exact Linked.nested hp (hg.cached _ _ hu)
  | deferred hp hk hq hr => exact Linked.deferred hp (hg.knows _ hk) (hg.pending _ hq) hr

theorem Fills.grows (h : c.Fills s t fields) (hg : s.Grows s') : c.Fills s' t fields :=
  ⟨h.folded, fun f hf => (h.linked f hf).grows hg⟩

theorem Sound.of_cached_eq (h : c.Sound s) (hg : s.Grows s') (ha : s'.Apart)
    (hc : ∀ u, s'.cached? u = s.cached? u) : c.Sound s' :=
  ⟨ha, fun u x hx => (h.fills u x ((hc u).symm.trans hx)).grows hg⟩

theorem Sound.described (h : c.Sound s) (t : TypeId) (d : Descriptor) :
    c.Sound (c.described t d s) :=
  h.of_cached_eq (grows_described d s) h.apart fun _ => rfl

theorem Sound.deferring (h : c.Sound s) (t : TypeId) (d : Descriptor) (u : TypeId) (depth : Nat) :
    c.Sound (c.deferring t d u depth s) :=
  h.of_cached_eq (grows_deferring d u s) (apart_deferring h.apart d u) fun v =>
    cached?_deferring d u v s

theorem Sound.expanding (h : c.Sound s) (t : TypeId) (d : Descriptor) {u : TypeId}
    (hu : s.cached? u = none) : c.Sound (((c.described t d s).enter u).called u) :=
  h.of_cached_eq (grows_expanding d u s) (Session.Apart.enter h.apart hu) fun _ => rfl

/-- **A type whose fields are right may be left and kept.** -/
theorem Sound.finish {path : List TypeId} (h : c.Sound s) (hp : s.path = t :: path)
    (ht : t ∉ path) {x : Schema} (hx : c.Fills s t x.fields) :
    c.Sound (s.leave.keep t x) := by
  have hg : s.Grows (s.leave.keep t x) := Session.Grows.finish h.apart hp x
  refine ⟨h.apart.finish hp ht x, fun u y hy => ?_⟩
  by_cases hut : u = t
  · subst hut
    rw [Session.cached?_keep_self] at hy
    cases hy
    exact hx.grows hg
  · rw [Session.cached?_keep_of_ne hut] at hy
    exact (h.fills u y hy).grows hg

/-! ## The run of a walk -/

/-- A session from which declared fields of a type can be built: it is sound, and **all types on its
path lead to that type.** -/
structure Ready (c : Compiler) (s : Session) (t : TypeId) (ds : List Descriptor) : Prop where
  sound : c.Sound s
  declared : ∃ all, c.source.fields t = .ok all ∧ ∀ d ∈ ds, d ∈ all
  path : ∀ v ∈ s.path, Reaches c.Follows v t

variable {depth : Nat} {d : Descriptor} {ds inner : List Descriptor} {fs sub : List Field}
  {s₁ : Session} {u : TypeId}

theorem Ready.of_fields (hs : c.Sound s) (hds : c.source.fields t = .ok ds)
    (hp : ∀ v ∈ s.path, Reaches c.Follows v t) : c.Ready s t ds :=
  ⟨hs, ⟨ds, hds, fun _ h => h⟩, hp⟩

theorem Ready.follows (h : c.Ready s t (d :: ds)) (ht : (c.describe t d).target? = some u) :
    c.Follows ⟨t, d, u⟩ := by
  obtain ⟨all, hall, hds⟩ := h.declared
  exact ⟨⟨all, hall, hds d List.mem_cons_self⟩, ht⟩

theorem Ready.next (h : c.Ready s t (d :: ds)) (hs : c.Sound s') (hp : s'.path = s.path) :
    c.Ready s' t ds := by
  obtain ⟨all, hall, hds⟩ := h.declared
  refine ⟨hs, ⟨all, hall, fun d' hd' => hds d' (List.mem_cons_of_mem _ hd')⟩, ?_⟩
  rw [hp]
  exact h.path

theorem Ready.described (h : c.Ready s t (d :: ds)) : c.Ready (c.described t d s) t ds :=
  h.next (h.sound.described t d) rfl

theorem Ready.deferring (h : c.Ready s t (d :: ds)) (u : TypeId) (depth : Nat) :
    c.Ready (c.deferring t d u depth s) t ds :=
  h.next (h.sound.deferring t d u depth) (path_deferring d u s)

/-- **The type that a field refers to may be entered.** -/
theorem Ready.expanding (h : c.Ready s t (d :: ds)) (ht : (c.describe t d).target? = some u)
    (hu : s.cached? u = none) (hfields : c.source.fields u = .ok inner) :
    c.Ready (((c.described t d s).enter u).called u) u inner := by
  refine Ready.of_fields (h.sound.expanding t d hu) hfields fun v hv => ?_
  rcases List.mem_cons.mp hv with rfl | hv
  · exact Reaches.refl v
  · exact (h.path v hv).step (h.follows ht)

/-- **The type that was entered may be left and kept**, once its fields are linked. -/
theorem Ready.finish (h : c.Ready s t (d :: ds)) (hp : u ∉ s.path)
    (hfields : c.source.fields u = .ok inner)
    (inside : c.Builds u (depth + 1) inner (((c.described t d s).enter u).called u) sub s₁)
    (hs₁ : c.Sound s₁) (hsub : ∀ f ∈ sub, c.Linked s₁ u f) :
    c.Ready (s₁.leave.keep u (c.finished u sub)) t ds := by
  have hx : c.Fills s₁ u (c.finished u sub).fields :=
    ⟨⟨inner, hfields, inside.map_foldField⟩, hsub⟩
  refine h.next (hs₁.finish inside.path_eq hp hx) ?_
  rw [Session.path_keep, Session.path_leave, inside.path_eq]
  rfl

/-- **A walk from a sound session ends in a sound session**, and the fields that it built are
linked.  What carries the induction is that all types on the path lead to the one that is being
built; a deferred field closes a cycle for that reason. -/
theorem Builds.sound (h : c.Builds t depth ds s fs s') (hr : c.Ready s t ds) :
    c.Sound s' ∧ ∀ f ∈ fs, c.Linked s' t f := by
  induction h with
  | nil => exact ⟨hr.sound, fun f hf => absurd hf List.not_mem_nil⟩
  | ignored _ _ ih => exact ih hr.described
  | plain _ ht _ ih =>
    obtain ⟨hs', hfs⟩ := ih hr.described
    exact ⟨hs', List.forall_mem_cons.mpr ⟨Linked.plain ht, hfs⟩⟩
  | @shared t _ d _ s _ _ u x ht hu rest ih =>
    obtain ⟨hs', hfs⟩ := ih hr.described
    have hg := (grows_described (t := t) d s).trans (rest.grows hr.described.sound.apart)
    exact ⟨hs', List.forall_mem_cons.mpr ⟨Linked.nested ht (hg.cached u x hu), hfs⟩⟩
  | @deferred t depth d _ s _ _ u ht hu hp rest ih =>
    -- The type met again is on the path, so it leads here and will be known to the end.
    have hdef := hr.deferring u depth
    obtain ⟨hs', hfs⟩ := ih hdef
    have hg := rest.grows hdef.sound.apart
    have hk : (c.deferring t d u depth s).Knows u := Or.inl (by rwa [path_deferring])
    have hq : u ∈ (c.deferring t d u depth s).pendingTypes :=
      (mem_pendingTypes_deferring d u u s).mpr (Or.inr rfl)
    refine ⟨hs', List.forall_mem_cons.mpr ⟨?_, hfs⟩⟩
    exact Linked.deferred ht (hg.knows u hk) (hg.pending u hq) (hr.path u hp)
  | @expanded t _ d _ inner s s₁ _ _ sub u ht hu hp _ hfields inside rest ihi ihr =>
    obtain ⟨hs₁, hsub⟩ := ihi (hr.expanding ht hu hfields)
    have hkeep := hr.finish hp hfields inside hs₁ hsub
    obtain ⟨hs', hfs⟩ := ihr hkeep
    have hcached := (rest.grows hkeep.sound.apart).cached u _ (Session.cached?_keep_self _ u _)
    exact ⟨hs', List.forall_mem_cons.mpr ⟨Linked.nested ht hcached, hfs⟩⟩

theorem Ready.expanded (h : c.Ready s t (d :: ds)) (ht : (c.describe t d).target? = some u)
    (hu : s.cached? u = none) (hp : u ∉ s.path) (hfields : c.source.fields u = .ok inner)
    (inside : c.Builds u (depth + 1) inner (((c.described t d s).enter u).called u) sub s₁) :
    c.Ready (s₁.leave.keep u (c.finished u sub)) t ds := by
  obtain ⟨hs₁, hsub⟩ := inside.sound (h.expanding ht hu hfields)
  exact h.finish hp hfields inside hs₁ hsub

/-! ## Declared fields and fields of a schema -/

theorem Fills.exists_declared (h : c.Fills s t fields) (hf : f ∈ fields) :
    ∃ ds, c.source.fields t = .ok ds ∧ ∃ d ∈ ds, f.property = c.describe t d ∧
      f.property.ignored = false := by
  obtain ⟨ds, hds, hmap⟩ := h.folded
  have hmem : c.foldField f ∈ ds.filterMap (c.flatField t) := by
    rw [← hmap]
    exact List.mem_map_of_mem hf
  obtain ⟨d, hd, hfd⟩ := List.mem_filterMap.mp hmem
  obtain ⟨hp, hi⟩ := property_of_flatField hfd
  rw [property_foldField] at hp
  exact ⟨ds, hds, d, hd, hp, by rw [hp, hi]⟩

/-- **A declared field that is not ignored has become a field of the schema.** -/
theorem Fills.exists_field_of_declared (h : c.Fills s t fields) (hds : c.source.fields t = .ok ds)
    (hd : d ∈ ds) (hi : (c.describe t d).ignored = false) :
    ∃ f ∈ fields, f.property = c.describe t d := by
  obtain ⟨ds', hds', hmap⟩ := h.folded
  cases hds.symm.trans hds'
  obtain ⟨g, hg⟩ := exists_flatField hi
  have hmem := List.mem_filterMap.mpr ⟨d, hd, hg⟩
  rw [← hmap] at hmem
  obtain ⟨f, hf, hfold⟩ := List.mem_map.mp hmem
  refine ⟨f, hf, ?_⟩
  rw [← property_foldField (c := c), hfold, (property_of_flatField hg).1]

theorem Fills.exists_field (h : c.Fills s t fields) {r : Reference} (hr : c.Follows r)
    (ht : r.owner = t) : ∃ f ∈ fields, f.property = c.describe t r.field := by
  obtain ⟨ds, hds, hd⟩ := hr.declared
  subst ht
  exact h.exists_field_of_declared hds hd (ignored_of_target hr.target)

theorem Fills.exists_follows (h : c.Fills s t fields) (hf : f ∈ fields) {u : TypeId}
    (hu : f.property.target? = some u) :
    ∃ d, c.Follows ⟨t, d, u⟩ ∧ f.property = c.describe t d := by
  obtain ⟨ds, hds, d, hd, hp, -⟩ := h.exists_declared hf
  exact ⟨d, ⟨⟨ds, hds, hd⟩, by rw [← hp]; exact hu⟩, hp⟩

theorem object_of_target {p : Property} {u : TypeId} (h : p.target? = some u) :
    p.object = some u := by
  unfold Property.target? at h
  split at h
  · cases h
  · split at h
    · exact h
    · exact h
    · cases h

theorem Linked.of_none (h : c.Linked s t f) (hl : f.link = .none) : f.property.target? = none := by
  cases h with
  | plain hp => exact hp
  | nested hp hu => cases hl
  | deferred hp hk hq hr => cases hl

theorem Linked.of_nested (h : c.Linked s t f) {x : Schema} (hl : f.link = .nested x) :
    ∃ u, f.property.target? = some u ∧ s.cached? u = some x := by
  cases h with
  | plain hp => cases hl
  | nested hp hu =>
    cases hl
    exact ⟨_, hp, hu⟩
  | deferred hp hk hq hr => cases hl

theorem Linked.of_deferred (h : c.Linked s t f) {r : String} (hl : f.link = .deferred r) :
    ∃ u, f.property.target? = some u ∧ r = c.referenceTo u ∧ s.Knows u ∧ u ∈ s.pendingTypes ∧
      Reaches c.Follows u t := by
  cases h with
  | plain hp => cases hl
  | nested hp hu => cases hl
  | deferred hp hk hq hr =>
    cases hl
    exact ⟨_, hp, rfl, hk, hq, hr⟩

/-- **In a sound session all schemas inside a finished one are the finished schemas of their
types**, and the type of the outer one leads to them. -/
theorem Sound.occurrence (h : c.Sound s) {x : Schema} (hx : s.cached? t = some x) {depth : Nat} :
    ∀ o ∈ x.occurrences (some t) depth, ∃ u, o.label = some u ∧ s.cached? u = some o.schema ∧
      Reaches c.Follows t u := by
  refine Schema.forall_occurrences ⟨t, rfl, hx, Reaches.refl t⟩ ?_
  rintro o ⟨u, -, hu, hr⟩ f hf sub hl
  have hfill := h.fills u o.schema hu
  obtain ⟨v, hv, hsub⟩ := (hfill.linked f hf).of_nested hl
  obtain ⟨d, hd, -⟩ := hfill.exists_follows hf hv
  exact ⟨v, object_of_target hv, hsub, hr.step hd⟩

end Compiler

end SchemaTree

import SchemaTree.Proofs.Compiler.Cycles

/-!
# Schemas of types without cycles

The schema that a walk makes of a type depends on what was met before: a type on the path is
deferred, and a type in the cache is shared.  Where no cycle is near, nothing of this is seen.  A
deferred field closes a cycle, so there is none, and **all schemas below a type are determined by the
type alone.**

* `Linked.eq_of_foldField`: fields that look alike when they are folded are the same, if neither is
  deferred and the schemas inside them are the same.
* `Completed.cached_eq`: two reports have the same schema of a type that leads to no cycle.
* `nested_eq_standalone`: wherever such a type stands in a tree, its schema is the one that is
  reported for its own alias.
-/

namespace SchemaTree

theorem eq_of_map_eq {α β : Type} {g : α → β} {l l' : List α} (h : l.map g = l'.map g)
    (hinj : ∀ a ∈ l, ∀ b ∈ l', g a = g b → a = b) : l = l' := by
  induction l generalizing l' with
  | nil => exact (List.map_eq_nil_iff.mp h.symm).symm
  | cons a l ih =>
    cases l' with
    | nil => cases h
    | cons b l' =>
      obtain ⟨hab, hrest⟩ := List.cons.inj h
      have ha : a = b := hinj a List.mem_cons_self b List.mem_cons_self hab
      have hl : l = l' := ih hrest fun x hx y hy =>
        hinj x (List.mem_cons_of_mem _ hx) y (List.mem_cons_of_mem _ hy)
      rw [ha, hl]

/-- A type that leads to no cycle. -/
def Acyclic (E : Reference → Prop) (t : TypeId) : Prop :=
  ¬ ∃ u rs, Reaches E t u ∧ Cycle E u rs

theorem Acyclic.of_reaches {E : Reference → Prop} {t u : TypeId} (h : Acyclic E t)
    (hu : Reaches E t u) : Acyclic E u := by
  rintro ⟨v, rs, hv, hcycle⟩
  exact h ⟨v, rs, hu.trans hv, hcycle⟩

namespace Compiler

variable {c : Compiler} {t u : TypeId} {z z' : Session} {fields : List Field} {f f' : Field}

/-- **No field of a type that leads to no cycle is deferred.** -/
theorem Fills.not_deferred (h : c.Fills z t fields) (hacyclic : Acyclic c.Follows t)
    (hf : f ∈ fields) (r : String) : f.link ≠ .deferred r := by
  intro hl
  obtain ⟨u, hu, -, -, -, hback⟩ := (h.linked f hf).of_deferred hl
  obtain ⟨d, hfollow, -⟩ := h.exists_follows hf hu
  obtain ⟨rs, hcycle⟩ := Cycle.of_reaches hfollow hback
  exact hacyclic ⟨t, _, Reaches.refl t, hcycle⟩

/-- **Fields that are the same when folded are the same**, if neither is deferred and the schemas of
their type are the same. -/
theorem Linked.eq_of_foldField (h : c.Linked z t f) (h' : c.Linked z' t f')
    (hfold : c.foldField f = c.foldField f') (hd : ∀ r, f.link ≠ .deferred r)
    (hd' : ∀ r, f'.link ≠ .deferred r)
    (hsame : ∀ u x x', f.property.target? = some u → f.link = .nested x → z.cached? u = some x →
      z'.cached? u = some x' → x = x') : f = f' := by
  have hp : f.property = f'.property := by
    rw [← property_foldField (c := c), hfold, property_foldField]
  -- The property says whether there is a target, so neither field has a link or both do.
  cases h with
  | @plain p hp₁ =>
    cases h' with
    | plain _ =>
      cases hp
      rfl
    | nested hp₂ _ =>
      cases hp
      cases hp₁.symm.trans hp₂
    | deferred _ _ _ _ => exact absurd rfl (hd' _)
  | @nested p u x hp₁ hx =>
    cases h' with
    | plain hp₂ =>
      cases hp
      cases hp₁.symm.trans hp₂
    | @nested p' u' x' hp₂ hx' =>
      cases hp
      cases hp₁.symm.trans hp₂
      rw [hsame u x x' hp₁ rfl hx hx']
    | deferred _ _ _ _ => exact absurd rfl (hd' _)
  | deferred _ _ _ _ => exact absurd rfl (hd _)

section

variable {aliasName aliasName' : String} {root root' : TypeId} {r r' : Report}
  (h : c.Completed aliasName root r z) (h' : c.Completed aliasName' root' r' z')
  (ha : c.source.aliasFor root = aliasName) (ha' : c.source.aliasFor root' = aliasName')

include h h' ha ha'

/-- **Two reports have the same schema of a type that leads to no cycle.**  The induction is on the
schema in the first one; the schemas inside it are those of types that lead to no cycle either. -/
theorem Completed.cached_eq {x x' : Schema} (hx : z.cached? u = some x)
    (hx' : z'.cached? u = some x') (hacyclic : Acyclic c.Follows u) : x = x' := by
  induction x using Schema.nested_induction generalizing u x' with
  | mk hd fields ih =>
    obtain ⟨hd', fields'⟩ := x'
    have hfill := h.sound.fills u _ hx
    have hfill' := h'.sound.fills u _ hx'
    have hheading : hd = hd' := (h.heading_eq ha hx).trans (h'.heading_eq ha' hx').symm
    have hfields : fields = fields' := by
      obtain ⟨ds, hds, hmap⟩ := hfill.folded
      obtain ⟨ds', hds', hmap'⟩ := hfill'.folded
      cases hds.symm.trans hds'
      refine eq_of_map_eq (hmap.trans hmap'.symm) fun f hf f' hf' hfold => ?_
      refine (hfill.linked f hf).eq_of_foldField (hfill'.linked f' hf') hfold
        (hfill.not_deferred hacyclic hf) (hfill'.not_deferred hacyclic hf') ?_
      intro v y y' hv hl hy hy'
      obtain ⟨d, hfollow, -⟩ := hfill.exists_follows hf hv
      exact ih f hf y hl hy hy' (hacyclic.of_reaches (Reaches.single hfollow))
    rw [hheading, hfields]

/-- **Wherever a type that leads to no cycle stands in a tree, its schema is that of the report of
the type.** -/
theorem Completed.occurrence_eq (hacyclic : Acyclic c.Follows root') {o : Occurrence}
    (ho : o ∈ r.schema.occurrences (some root) 0) (hl : o.label = some root') :
    o.schema = r'.schema := by
  obtain ⟨u, hu, hx, -⟩ := h.occurrence ho
  cases hl.symm.trans hu
  exact h.cached_eq h' ha ha' hx h'.root hacyclic

end

/-- **Nothing is pending in the report of a type that leads to no cycle.** -/
theorem Completed.pending_eq_nil {aliasName : String} {r : Report}
    (h : c.Completed aliasName t r z) (hacyclic : Acyclic c.Follows t) : r.pending = [] := by
  refine h.quiet (Bool.eq_false_iff.mpr fun hd => ?_)
  obtain ⟨o, ho, f, hf, hdeferred⟩ := (Schema.hasDeferred_iff (some t) 0).mp hd
  obtain ⟨u, -, hu, hreach⟩ := h.occurrence ho
  obtain ⟨ref, hl⟩ := Field.isDeferred_iff.mp hdeferred
  exact (h.sound.fills u o.schema hu).not_deferred (hacyclic.of_reaches hreach) hf ref hl

/-- **Nested and standalone schemas agree where there is no cycle.**  If the type of an alias leads
to no cycle of references, all schemas of this type in the tree of any report on an accepted catalog
are the schema that is reported for the alias itself, and nothing is pending in that report. -/
theorem nested_eq_standalone {catalog : Catalog} (hc : catalog.Accepted) (base : String)
    (options : CompilerOptions) {aliasName aliasName' : String} {r r' : Report}
    (h : ((ofCatalog catalog base options).report aliasName).1 = .ok r)
    (h' : ((ofCatalog catalog base options).report aliasName').1 = .ok r')
    (ht : catalog.source.resolve aliasName' = some t)
    (hacyclic : ¬ ∃ u rs, Reaches catalog.source.Refers t u ∧ Cycle catalog.source.Refers u rs) :
    ∃ root, catalog.source.resolve aliasName = some root ∧
      (∀ o ∈ r.schema.occurrences (some root) 0, o.label = some t → o.schema = r'.schema) ∧
      r'.pending = [] := by
  obtain ⟨root, z, hroot, hz⟩ := report_completed h
  obtain ⟨t', z', ht', hz'⟩ := report_completed h'
  cases ht.symm.trans ht'
  have hfollows : (ofCatalog catalog base options).Follows = catalog.source.Refers :=
    follows_standard _ _ _
  rw [← hfollows] at hacyclic
  refine ⟨root, hroot, fun o ho hl => ?_, hz'.pending_eq_nil hacyclic⟩
  exact hz.occurrence_eq hz' (hc.aliasFor_resolve hroot) (hc.aliasFor_resolve ht) hacyclic ho hl

/-- Three types: `person` refers to persons, to `address` and to `country`, and `address` to
`country`. -/
def addresses : Catalog where
  types := [
    ⟨"person", ⟨"person"⟩, none,
      [⟨"friends", .collection (.entity ⟨"person"⟩), {}⟩, ⟨"citizen", .entity ⟨"country"⟩, {}⟩,
        ⟨"home", .entity ⟨"address"⟩, {}⟩]⟩,
    ⟨"address", ⟨"address"⟩, none, [⟨"country", .entity ⟨"country"⟩, {}⟩]⟩,
    ⟨"country", ⟨"country"⟩, none, [⟨"code", .kind .string, {}⟩]⟩]

theorem accepted_addresses : addresses.Accepted := by
  refine ⟨[
    ("person", { fields := [{ name := "friends", type := "array", items := some "person" },
      { name := "citizen", type := "country" }, { name := "home", type := "address" }] }),
    ("address", { fields := [{ name := "country", type := "country" }] }),
    ("country", { fields := [{ name := "code", type := "string" }] })], ?_⟩
  rfl

/-- The address of a person, whose country was met before, is the address on its own. -/
theorem nested_eq_standalone_sample :
    ∃ r r', ((ofCatalog addresses defaultBase {}).report "person").1 = .ok r ∧
      ((ofCatalog addresses defaultBase {}).report "address").1 = .ok r' ∧
      (∃ o ∈ r.schema.occurrences (some ⟨"person"⟩) 0, o.label = some ⟨"address"⟩ ∧
        o.schema = r'.schema) ∧
      r.pending ≠ [] ∧ r'.pending = [] := by
  obtain ⟨r, hr, hlabels, hr₀⟩ : ∃ r,
      ((ofCatalog addresses defaultBase {}).report "person").1 = .ok r ∧
      (r.schema.occurrences (some ⟨"person"⟩) 0).map (·.label) =
        [some ⟨"person"⟩, some ⟨"country"⟩, some ⟨"address"⟩, some ⟨"country"⟩] ∧
      r.pending = [(⟨"person"⟩, 0)] := ⟨_, rfl, rfl, rfl⟩
  obtain ⟨r', hr', hd⟩ : ∃ r', ((ofCatalog addresses defaultBase {}).report "address").1 = .ok r' ∧
      r'.schema.hasDeferred = false := ⟨_, rfl, rfl⟩
  have hacyclic : ¬ ∃ u rs, Reaches addresses.source.Refers ⟨"address"⟩ u ∧
      Cycle addresses.source.Refers u rs := by
    obtain ⟨root, z, hroot, hz⟩ := report_completed hr'
    cases hroot
    have hcycle := hz.hasDeferred_iff (keepsNames_standard _ _ _) accepted_addresses.distinctNames
    have hfollows : (ofCatalog addresses defaultBase {}).Follows = addresses.source.Refers :=
      follows_standard _ _ _
    rw [← hfollows, ← hcycle, hd]
    exact Bool.false_ne_true
  obtain ⟨root, hroot, hsame, hpending⟩ :=
    nested_eq_standalone accepted_addresses defaultBase {} hr hr' rfl hacyclic
  cases hroot
  obtain ⟨o, ho, hl⟩ : ∃ o ∈ r.schema.occurrences (some ⟨"person"⟩) 0,
      o.label = some ⟨"address"⟩ := List.mem_map.mp (by rw [hlabels]; decide)
  exact ⟨r, r', hr, hr', ⟨o, ho, hl, hsame o ho hl⟩, by rw [hr₀]; simp, hpending⟩

end Compiler

end SchemaTree

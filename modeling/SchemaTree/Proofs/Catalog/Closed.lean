import SchemaTree.Proofs.Catalog.Accepted
import SchemaTree.Proofs.Graph

/-!
# Accepted catalogs are closed

A word of a field that is no name of a kind has to be an alias, so a reference that a catalog
declares goes to a type of that catalog.  As a source of types an accepted catalog can
therefore answer all that is asked on the way along references.

* `Shape.ofWords_ok`: the type in the shape of a field is that of an alias.
* `Catalog.Has`: the types of a catalog.  Their fields and their aliases are known.
* `Accepted.has_of_reaches`: **no reference leads out of an accepted catalog.**
-/

namespace SchemaTree

/-! ## Shapes -/

/-- A type that a shape refers to. -/
def Shape.RefersTo (sh : Shape) (u : TypeId) : Prop := sh = .entity u ∨ sh = .collection (.entity u)

section

variable {aliases : Aliases} {owner field word : String} {items : Option String} {sh : Shape}
  {u : TypeId}

theorem Aliases.mem_of_get? (h : Json.Members.get? aliases word = some u) :
    u ∈ aliases.map (·.2) := by
  obtain ⟨e, he, rfl⟩ := Option.map_eq_some_iff.mp h
  exact List.mem_map_of_mem (List.mem_of_find?_eq_some he)

theorem Shape.ofWord_ok (h : Shape.ofWord aliases owner field word = .ok sh) :
    (∃ k, sh = .kind k) ∨ ∃ u ∈ aliases.map (·.2), sh = .entity u := by
  rw [Shape.ofWord] at h
  split at h
  · rename_i k _
    cases h
    exact Or.inl ⟨k, rfl⟩
  · split at h
    · rename_i target htarget
      cases h
      exact Or.inr ⟨target, Aliases.mem_of_get? htarget, rfl⟩
    · cases h

theorem Shape.ofItems_ok (h : Shape.ofItems aliases owner field items = .ok sh) :
    (∃ k, sh = .kind k) ∨ ∃ u ∈ aliases.map (·.2), sh = .entity u := by
  rw [Shape.ofItems.eq_def] at h
  split at h
  · cases h
    exact Or.inl ⟨.any, rfl⟩
  · cases h
  · exact Shape.ofWord_ok h

/-- **A type that the shape of a field refers to is that of an alias.** -/
theorem Shape.ofWords_ok {type : String}
    (h : Shape.ofWords aliases owner field type items = .ok sh) (hu : sh.RefersTo u) :
    u ∈ aliases.map (·.2) := by
  rw [Shape.ofWords.eq_def] at h
  split at h
  · cases hitems : Shape.ofItems aliases owner field items with
    | error e =>
      rw [hitems] at h
      cases h
    | ok sh' =>
      rw [hitems] at h
      cases h
      rcases Shape.ofItems_ok hitems with ⟨k, rfl⟩ | ⟨v, hv, rfl⟩
      · rcases hu with hu | hu <;> cases hu
      · rcases hu with hu | hu <;> cases hu
        exact hv
  · split at h
    · rename_i target htarget
      cases h
      rcases hu with hu | hu <;> cases hu
      exact Aliases.mem_of_get? htarget
    · split at h <;> cases h
  · cases h
  · rcases Shape.ofWord_ok h with ⟨k, rfl⟩ | ⟨v, hv, rfl⟩
    · rcases hu with hu | hu <;> cases hu
    · rcases hu with hu | hu <;> cases hu
      exact hv

end

/-! ## Where the parts of a catalog come from -/

theorem buildFields_mem {aliases : Aliases} {owner : String} {seen : List String}
    {defs : List FieldDefinition} {fields : List Descriptor}
    (h : buildFields aliases owner seen defs = .ok fields) :
    ∀ d ∈ fields, ∃ f ∈ defs, Shape.ofWords aliases owner f.name f.type f.items = .ok d.shape := by
  induction defs generalizing seen fields with
  | nil =>
    cases h
    exact fun d hd => absurd hd List.not_mem_nil
  | cons f rest ih =>
    obtain ⟨-, shape, fields', hshape, hrest, rfl⟩ := buildFields_cons h
    refine List.forall_mem_cons.mpr ⟨⟨f, List.mem_cons_self, hshape⟩, fun d hd => ?_⟩
    obtain ⟨g, hg, hd⟩ := ih hrest d hd
    exact ⟨g, List.mem_cons_of_mem _ hg, hd⟩

theorem buildTypes_mem {aliases : Aliases} {defs : Definitions} {types : List CatalogType}
    (h : buildTypes aliases defs = .ok types) :
    ∀ e ∈ types, ∃ d, (e.aliasName, d) ∈ defs ∧
      buildFields aliases e.aliasName [] d.fields = .ok e.fields := by
  induction defs generalizing types with
  | nil =>
    cases h
    exact fun e he => absurd he List.not_mem_nil
  | cons entry rest ih =>
    obtain ⟨fields, types', hfields, hrest, rfl⟩ := buildTypes_cons h
    refine List.forall_mem_cons.mpr ⟨⟨entry.2, List.mem_cons_self, hfields⟩, fun e he => ?_⟩
    obtain ⟨d', hd', he⟩ := ih hrest e he
    exact ⟨d', List.mem_cons_of_mem _ hd', he⟩

/-! ## The types of a catalog -/

namespace Catalog

/-- Whether a type is one of a catalog. -/
def Has (c : Catalog) (t : TypeId) : Prop := t ∈ c.types.map (·.identity)

variable {c : Catalog} {t u : TypeId} {aliasName : String}

theorem Has.entry (h : c.Has t) : ∃ e ∈ c.types, e.identity = t ∧
    c.source.fields t = .ok e.fields ∧ c.source.aliasOf t = some e.aliasName := by
  obtain ⟨e₀, he₀, rfl⟩ := List.mem_map.mp h
  have hsome : (c.byIdentity? e₀.identity).isSome :=
    List.find?_isSome.mpr ⟨e₀, he₀, decide_eq_true rfl⟩
  obtain ⟨e, he⟩ := Option.isSome_iff_exists.mp hsome
  have hid : e.identity = e₀.identity := by simpa using List.find?_some he
  exact ⟨e, List.mem_of_find?_eq_some he, hid, by simp only [source, he],
    by simp only [source, he, Option.map_some]⟩

theorem Has.fields (h : c.Has t) : ∃ ds, c.source.fields t = .ok ds := by
  obtain ⟨e, -, -, he, -⟩ := h.entry
  exact ⟨e.fields, he⟩

theorem Has.aliasOf (h : c.Has t) : c.source.aliasOf t = some (c.source.aliasFor t) := by
  obtain ⟨e, -, -, -, he⟩ := h.entry
  rw [TypeSource.aliasFor, he, Option.getD_some]

theorem has_of_resolve (h : c.source.resolve aliasName = some t) : c.Has t := by
  obtain ⟨e, he, rfl⟩ := Option.map_eq_some_iff.mp h
  exact List.mem_map_of_mem (List.mem_of_find?_eq_some he)

theorem resolve_of_mem (h : aliasName ∈ c.aliases) : ∃ t, c.source.resolve aliasName = some t := by
  obtain ⟨e, he, rfl⟩ := List.mem_map.mp h
  have hsome : (c.byAlias? e.aliasName).isSome :=
    List.find?_isSome.mpr ⟨e, he, decide_eq_true rfl⟩
  obtain ⟨e', he'⟩ := Option.isSome_iff_exists.mp hsome
  exact ⟨e'.identity, by simp only [source, he', Option.map_some]⟩

theorem Accepted.has_of_refersTo (h : c.Accepted) {e : CatalogType} (he : e ∈ c.types)
    {d : Descriptor} (hd : d ∈ e.fields) (hu : d.shape.RefersTo u) : c.Has u := by
  obtain ⟨defs, aliases, ht, -, heq⟩ := h.built
  obtain ⟨def', -, hfields⟩ := buildTypes_mem ht e he
  obtain ⟨f, -, hshape⟩ := buildFields_mem hfields d hd
  have hmem := Shape.ofWords_ok hshape hu
  rw [heq] at hmem
  exact hmem

/-- **A reference in an accepted catalog goes to a type of that catalog.** -/
theorem Accepted.has_target (h : c.Accepted) {r : Reference} (hr : c.source.Refers r) :
    c.Has r.target := by
  obtain ⟨ds, hds, hd⟩ := hr.declared
  obtain ⟨e, he, -, rfl⟩ := exists_of_fields hds
  exact h.has_of_refersTo he hd hr.shape

/-- **No reference leads out of an accepted catalog.** -/
theorem Accepted.has_of_reaches (h : c.Accepted) (ht : c.Has t)
    (hu : Reaches c.source.Refers t u) : c.Has u :=
  hu.induction (P := c.Has) ht fun _ hr _ => h.has_target hr

end Catalog

end SchemaTree

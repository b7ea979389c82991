import SchemaTree.Proofs.Catalog.Loaded
import SchemaTree.Proofs.Handlers.Standard
import SchemaTree.Proofs.Walk.Completed

/-!
# One identifier, one schema

A type may be met below many different types, and what is still being built differs from place to
place.  It is built once all the same, and shared by all places where it stands, so all schemas of
a type are equal.  Since a type is never inside its own schema, the root is the only one of its
type.

* `urlFor_injective`: identifiers tell aliases apart.
* `Completed.schema_eq_of_label`: **all schemas of a type are equal.**
* `Sound.label_ne_of_inside`: **no schema of a type lies inside a schema of that type.**
* `report_identifiers`: in a report on a loaded catalog, schemas have the same identifier exactly if
  they stand for the same type.
-/

namespace SchemaTree

theorem urlFor_injective (base : String) : Function.Injective (urlFor base) := by
  intro a b h
  rw [urlFor, urlFor, String.append_left_inj, String.append_right_inj] at h
  exact h

namespace Compiler

variable {c : Compiler} {t u : TypeId} {s : Session} {aliasName : String} {r : Report}

/-- **No schema of a type lies inside the finished schema of that type**, for it would be that
schema itself. -/
theorem Sound.label_ne_of_inside (h : c.Sound s) {x : Schema} (hx : s.cached? t = some x)
    {depth : Nat} : ∀ o ∈ Field.occurrencesAll (depth + 1) x.fields, o.label ≠ some t := by
  intro o ho hlabel
  have hlt := Schema.height_lt_of_mem ho
  have hmem : o ∈ x.occurrences (some t) depth := by
    obtain ⟨hd, fields⟩ := x
    exact List.mem_cons_of_mem _ ho
  obtain ⟨u, hu, hcached, -⟩ := h.occurrence hx o hmem
  cases hlabel.symm.trans hu
  cases hx.symm.trans hcached
  exact Nat.lt_irrefl _ hlt

namespace Completed

variable {z : Session} {o o' : Occurrence}

/-- **All schemas of a type are equal.** -/
theorem schema_eq_of_label (h : c.Completed aliasName t r z)
    (ho : o ∈ r.schema.occurrences (some t) 0) (ho' : o' ∈ r.schema.occurrences (some t) 0)
    (hlabel : o.label = o'.label) : o.schema = o'.schema := by
  obtain ⟨u, hu, hx, -⟩ := h.occurrence ho
  obtain ⟨u', hu', hx', -⟩ := h.occurrence ho'
  cases hu.symm.trans (hlabel.trans hu')
  exact Option.some.inj (hx.symm.trans hx')

/-- **A schema is identified as its type is.** -/
theorem id_eq (h : c.Completed aliasName t r z) (ha : c.source.aliasFor t = aliasName)
    (ho : o ∈ r.schema.occurrences (some t) 0) :
    ∃ u, o.label = some u ∧ Reaches c.Follows t u ∧
      o.schema.heading.id = some (c.referenceTo u) := by
  obtain ⟨u, hu, hx, hreach⟩ := h.occurrence ho
  exact ⟨u, hu, hreach, by rw [h.heading_eq ha hx]; rfl⟩

end Completed

variable {catalog : Catalog}

theorem eq_of_referenceTo (hc : catalog.Loaded) {base : String} {options : CompilerOptions}
    (ht : catalog.Has t) (hu : catalog.Has u)
    (h : (ofCatalog catalog base options).referenceTo t =
      (ofCatalog catalog base options).referenceTo u) : t = u :=
  hc.eq_of_aliasFor ht hu (urlFor_injective base h)

/-- **One identifier, one schema.**  In a report on a loaded catalog each schema has the identifier
of its type; schemas have the same identifier exactly if they stand for the same type, and then
they are equal.  Below the root no schema stands for the type of the root. -/
theorem report_identifiers (hc : catalog.Loaded) (base : String) (options : CompilerOptions)
    (h : ((ofCatalog catalog base options).report aliasName).1 = .ok r) :
    ∃ root, catalog.source.resolve aliasName = some root ∧
      (∀ o ∈ r.schema.occurrences (some root) 0, ∃ t, o.label = some t ∧
        o.schema.heading.id = some ((ofCatalog catalog base options).referenceTo t)) ∧
      (∀ o ∈ r.schema.occurrences (some root) 0, ∀ o' ∈ r.schema.occurrences (some root) 0,
        (o.schema.heading.id = o'.schema.heading.id ↔ o.label = o'.label) ∧
        (o.schema.heading.id = o'.schema.heading.id → o.schema = o'.schema)) ∧
      ∀ o ∈ Field.occurrencesAll 1 r.schema.fields, o.label ≠ some root := by
  obtain ⟨root, z, hroot, hz⟩ := report_completed h
  have halias : (ofCatalog catalog base options).source.aliasFor root = aliasName :=
    hc.accepted.aliasFor_resolve hroot
  have hhas : ∀ u, Reaches (ofCatalog catalog base options).Follows root u → catalog.Has u := by
    intro u hu
    rw [ofCatalog_eq_standard, follows_standard] at hu
    exact hc.accepted.has_of_reaches (Catalog.has_of_resolve hroot) hu
  -- Identifiers are made of aliases, and aliases tell the types of a loaded catalog apart.
  have hlabel : ∀ o ∈ r.schema.occurrences (some root) 0,
      ∀ o' ∈ r.schema.occurrences (some root) 0,
        o.schema.heading.id = o'.schema.heading.id → o.label = o'.label := by
    intro o ho o' ho' hid
    obtain ⟨u, hu, hreach, hidu⟩ := hz.id_eq halias ho
    obtain ⟨u', hu', hreach', hidu'⟩ := hz.id_eq halias ho'
    rw [hidu, hidu', Option.some_inj] at hid
    rw [hu, hu', eq_of_referenceTo hc (hhas u hreach) (hhas u' hreach') hid]
  refine ⟨root, hroot, fun o ho => ?_, fun o ho o' ho' => ⟨⟨hlabel o ho o' ho', ?_⟩, ?_⟩, ?_⟩
  · obtain ⟨u, hu, -, hid⟩ := hz.id_eq halias ho
    exact ⟨u, hu, hid⟩
  · exact fun heq => by rw [hz.schema_eq_of_label ho ho' heq]
  · exact fun hid => hz.schema_eq_of_label ho ho' (hlabel o ho o' ho' hid)
  · exact hz.sound.label_ne_of_inside hz.root

/-- A report in which a type stands in two places. -/
theorem report_identifiers_sample :
    ∃ r, ((ofCatalog Catalog.sample defaultBase {}).report "order").1 = .ok r ∧
      (r.schema.occurrences (some ⟨"order"⟩) 0).map (·.label) =
        [some ⟨"order"⟩, some ⟨"customer"⟩, some ⟨"Item"⟩, some ⟨"customer"⟩] ∧
      ∃ root, Catalog.sample.source.resolve "order" = some root ∧
      (∀ o ∈ r.schema.occurrences (some root) 0, ∃ t, o.label = some t ∧
        o.schema.heading.id =
          some ((ofCatalog Catalog.sample defaultBase {}).referenceTo t)) ∧
      (∀ o ∈ r.schema.occurrences (some root) 0, ∀ o' ∈ r.schema.occurrences (some root) 0,
        (o.schema.heading.id = o'.schema.heading.id ↔ o.label = o'.label) ∧
        (o.schema.heading.id = o'.schema.heading.id → o.schema = o'.schema)) ∧
      ∀ o ∈ Field.occurrencesAll 1 r.schema.fields, o.label ≠ some root :=
  ⟨_, rfl, rfl, report_identifiers Catalog.loaded_sample defaultBase {} rfl⟩

end Compiler

end SchemaTree

import SchemaTree.Proofs.Compiler.Checked
import SchemaTree.Proofs.Compiler.Failure

/-!
# Rejected patterns of a catalog

A pattern is declared once, but it can be found in the trees of many aliases.  The tree of an alias
holds no pattern that is not declared in the catalog, and the root of a tree holds all patterns of
its own type, so **the trees of all aliases together hold the patterns of the catalog and no
others.**

* `Schema.hasRejected`, `Catalog.AcceptedPatterns`: rejected patterns in a tree and in a catalog.
* `Compiler.isTroubled`: an alias whose types are nested too deeply, or whose tree holds a rejected
  pattern.
* `isTroubled_eq_false_iff`: **no alias is in trouble exactly if none is nested too deeply and the
  catalog has no rejected pattern.**
-/

namespace SchemaTree

variable {rejection : String → Option String}

/-- Whether a field of a tree has a rejected pattern. -/
def Schema.hasRejected (rejection : String → Option String) (s : Schema) : Bool :=
  (s.occurrences none 0).any fun o =>
    o.schema.fields.any fun f => (f.property.pattern.bind rejection).isSome

theorem Schema.hasRejected_eq_false_iff {s : Schema} :
    s.hasRejected rejection = false ↔
      ∀ o ∈ s.occurrences none 0, ∀ f ∈ o.schema.fields, ∀ p, f.property.pattern = some p →
        rejection p = none := by
  simp only [hasRejected, List.any_eq_false, Bool.not_eq_true, Option.isSome_eq_false_iff,
    Option.isNone_iff_eq_none, Option.bind_eq_none_iff]

theorem Schema.isEmpty_violations (s : Schema) :
    (s.violations rejection []).isEmpty = !s.hasRejected rejection := by
  rw [Bool.eq_iff_iff, List.isEmpty_iff, Bool.not_eq_true', hasRejected_eq_false_iff]
  exact s.violations_eq_nil_iff rejection [] none 0

/-- The patterns of all fields of a catalog that are not ignored are accepted. -/
def Catalog.AcceptedPatterns (rejection : String → Option String) (c : Catalog) : Prop :=
  ∀ e ∈ c.types, ∀ d ∈ e.fields, d.annotations.ignore = false →
    ∀ p, d.annotations.pattern = some p → rejection p = none

namespace Compiler

/-- Whether the types of an alias are nested too deeply, or its tree has a rejected pattern. -/
def isTroubled (rejection : String → Option String) (c : Compiler) (aliasName : String) : Bool :=
  match (c.compile aliasName).1 with
  | .ok s => s.hasRejected rejection
  | .error (.depthExceeded ..) => true
  | .error _ => false

variable {catalog : Catalog} {base : String} {options : CompilerOptions} {aliasName : String}
  {s : Schema}

/-- **A tree holds no pattern that is not declared.** -/
theorem hasRejected_of_compile (hp : catalog.AcceptedPatterns rejection)
    (h : ((ofCatalog catalog base options).compile aliasName).1 = .ok s) :
    s.hasRejected rejection = false := by
  obtain ⟨root, hdescribed⟩ := (Emits.compiled h).described
  refine Schema.hasRejected_eq_false_iff.mpr fun o ho f hf p hpattern => ?_
  obtain ⟨t, ds, hds, d, hd, hproperty, hignored⟩ := hdescribed.describesAll none o ho f hf
  obtain ⟨e, he, -, rfl⟩ := Catalog.exists_of_fields hds
  rw [hproperty, ofCatalog_eq_standard, describe_standard] at hpattern hignored
  rw [Handlers.pattern_described] at hpattern
  rw [Handlers.ignored_described] at hignored
  exact hp e he d hd hignored p hpattern

/-- **The tree of a type holds all patterns that the type declares.** -/
theorem acceptedPatterns_of_compile (hc : catalog.Loaded)
    (h : ∀ e ∈ catalog.types, ∃ s,
      ((ofCatalog catalog base options).compile e.aliasName).1 = .ok s ∧
        s.hasRejected rejection = false) :
    catalog.AcceptedPatterns rejection := by
  intro e he d hd hignored p hpattern
  obtain ⟨s, hs, haccepted⟩ := h e he
  obtain ⟨root, hdescribed⟩ := (Emits.compiled hs).described
  cases hdescribed.resolve.symm.trans (hc.resolve_aliasName he)
  have hdescribe : (ofCatalog catalog base options).describe e.identity d =
      Handlers.described d := describe_standard _ _ _ _ d
  obtain ⟨f, hf, hproperty⟩ := hdescribed.declared e.fields (hc.accepted.fields_identity he) d hd
    (by rw [hdescribe, Handlers.ignored_described, hignored])
  refine Schema.hasRejected_eq_false_iff.mp haccepted _ (s.self_mem_occurrences none 0) f hf p ?_
  rw [hproperty, hdescribe, Handlers.pattern_described, hpattern]

theorem depthExceeded_of_compile {e : CompileError} (hc : catalog.Accepted)
    (ha : aliasName ∈ catalog.aliases)
    (h : ((ofCatalog catalog base options).compile aliasName).1 = .error e) :
    ∃ u depth, e = .depthExceeded u depth options.maxDepth := by
  obtain ⟨root, hroot⟩ := Catalog.resolve_of_mem ha
  obtain ⟨u, rs, t, rfl, -⟩ := tooDeep_of_report_error hc (urlFor base) options hroot
    (report_of_compile_error h)
  exact ⟨u, _, rfl⟩

theorem isTroubled_eq_false_iff_compile (hc : catalog.Accepted) (ha : aliasName ∈ catalog.aliases) :
    (ofCatalog catalog base options).isTroubled rejection aliasName = false ↔
      ∃ s, ((ofCatalog catalog base options).compile aliasName).1 = .ok s ∧
        s.hasRejected rejection = false := by
  rw [isTroubled]
  cases hcompile : ((ofCatalog catalog base options).compile aliasName).1 with
  | ok s => simp
  | error e =>
    obtain ⟨u, depth, rfl⟩ := depthExceeded_of_compile hc ha hcompile
    simp

/-- **No alias is in trouble exactly if none is nested too deeply and the catalog has no rejected
pattern.** -/
theorem isTroubled_eq_false_iff (hc : catalog.Loaded) :
    (∀ a ∈ catalog.aliases, (ofCatalog catalog base options).isTroubled rejection a = false) ↔
      (∀ a ∈ catalog.aliases, ∀ u depth limit,
        ((ofCatalog catalog base options).compile a).1 ≠ .error (.depthExceeded u depth limit)) ∧
      catalog.AcceptedPatterns rejection := by
  constructor
  · intro h
    have htrees : ∀ a ∈ catalog.aliases, ∃ s,
        ((ofCatalog catalog base options).compile a).1 = .ok s ∧ s.hasRejected rejection = false :=
      fun a ha => (isTroubled_eq_false_iff_compile hc.accepted ha).mp (h a ha)
    refine ⟨fun a ha u depth limit hdeep => ?_, ?_⟩
    · obtain ⟨s, hs, -⟩ := htrees a ha
      cases hs.symm.trans hdeep
    · exact acceptedPatterns_of_compile hc fun e he => htrees _ (List.mem_map_of_mem he)
  · rintro ⟨hshallow, hpatterns⟩ a ha
    refine (isTroubled_eq_false_iff_compile hc.accepted ha).mpr ?_
    cases hcompile : ((ofCatalog catalog base options).compile a).1 with
    | ok s => exact ⟨s, rfl, hasRejected_of_compile hpatterns hcompile⟩
    | error e =>
      obtain ⟨u, depth, rfl⟩ := depthExceeded_of_compile hc.accepted ha hcompile
      exact absurd hcompile (hshallow a ha u depth _)

end Compiler

end SchemaTree

import SchemaTree.Proofs.Catalog.Loaded
import SchemaTree.Proofs.Handlers.Assorted
import SchemaTree.Proofs.Resolution.Leads

/-!
# Only reachable types matter

A compiler asks its source for the types that the references it follows lead to, and for nothing
else.  If another source says the same of these types, then what is compiled is the same **program**,
step by step: it makes the same calls, writes the same log, and succeeds or fails alike.

* `Compiler.AgreesFrom`: another source agrees on all types that a type leads to.
* `compileType_withSource`: **a walk from such a type is the same walk.**
* `resolveSchema_withSource`: so is the resolution of deferred fields that refer to such types.
* `TypeSource.Mentions`: the references in all declared shapes, followed or not.
* `catalogs_agree`: what this means for two catalogs that share the types that an alias leads to.
-/

namespace SchemaTree

/-- Two sources that say the same of a type. -/
structure TypeSource.AgreesOn (s s' : TypeSource) (t : TypeId) : Prop where
  aliasOf : s'.aliasOf t = s.aliasOf t
  fields : s'.fields t = s.fields t
  description : s'.description t = s.description t

/-- A reference in the declared shape of a field, whatever else is declared about the field. -/
structure TypeSource.Mentions (s : TypeSource) (r : Reference) : Prop where
  declared : ∃ fields, s.fields r.owner = .ok fields ∧ r.field ∈ fields
  shape : r.field.shape.target? = some r.target

namespace Compiler

/-- The same compiler with another source of types. -/
def withSource (c : Compiler) (source : TypeSource) : Compiler := { c with source }

/-- Another source that says the same of all types that a type leads to. -/
def AgreesFrom (c : Compiler) (source : TypeSource) (t : TypeId) : Prop :=
  ∀ u, Reaches c.Follows t u → c.source.AgreesOn source u

variable {c : Compiler} {source : TypeSource} {t u : TypeId}

theorem AgreesFrom.self (h : c.AgreesFrom source t) : c.source.AgreesOn source t :=
  h t (Reaches.refl t)

theorem AgreesFrom.of_reaches (h : c.AgreesFrom source t) (hu : Reaches c.Follows t u) :
    c.AgreesFrom source u := fun v hv => h v (hu.trans hv)

theorem AgreesFrom.aliasFor (h : c.AgreesFrom source t) :
    (c.withSource source).source.aliasFor t = c.source.aliasFor t := by
  rw [TypeSource.aliasFor, TypeSource.aliasFor, withSource, h.self.aliasOf]

theorem AgreesFrom.referenceTo (h : c.AgreesFrom source t) :
    (c.withSource source).referenceTo t = c.referenceTo t := by
  rw [Compiler.referenceTo, Compiler.referenceTo, h.aliasFor]
  rfl

theorem AgreesFrom.heading (h : c.AgreesFrom source t) (aliasName : String) :
    (c.withSource source).heading aliasName t = c.heading aliasName t := by
  rw [Compiler.heading, Compiler.heading, withSource, h.self.description]

theorem AgreesFrom.introspect (h : c.AgreesFrom source t) :
    (c.withSource source).introspect t = c.introspect t := by
  rw [Compiler.introspect, Compiler.introspect, withSource, h.self.fields]

/-- Declared fields, from whose targets on another source agrees. -/
def AgreesAlong (c : Compiler) (source : TypeSource) (t : TypeId) (ds : List Descriptor) : Prop :=
  ∀ d ∈ ds, ∀ u, (c.describe t d).target? = some u → c.AgreesFrom source u

theorem AgreesFrom.along (h : c.AgreesFrom source t) {ds : List Descriptor}
    (hds : c.source.fields t = .ok ds) : c.AgreesAlong source t ds := fun d hd _ hu =>
  h.of_reaches (Reaches.single (r := ⟨t, d, _⟩) ⟨⟨ds, hds, hd⟩, hu⟩)

/-! ## Walks -/

/-- Expansions of types that are the same where another source agrees. -/
def SameExpansion (c : Compiler) (source : TypeSource) (expand expand' : Expansion) : Prop :=
  ∀ aliasName u depth, c.AgreesFrom source u → expand' aliasName u depth = expand aliasName u depth

variable {expand expand' : Expansion} {depth : Nat}

theorem link_withSource (hexp : c.SameExpansion source expand expand')
    (h : c.AgreesFrom source u) (field : String) :
    (c.withSource source).link expand' depth field u = c.link expand depth field u := by
  rw [link, link, h.aliasFor, h.referenceTo, hexp _ _ _ h]

theorem buildFields_withSource (hexp : c.SameExpansion source expand expand')
    {ds : List Descriptor} (h : c.AgreesAlong source t ds) :
    (c.withSource source).buildFields expand' t depth ds = c.buildFields expand t depth ds := by
  induction ds with
  | nil => rfl
  | cons d ds ih =>
    obtain ⟨hd, hds⟩ := List.forall_mem_cons.mp h
    have hfield : (c.withSource source).buildField expand' t depth d =
        c.buildField expand t depth d := by
      unfold buildField
      have hdescribe : (c.withSource source).describe t d = c.describe t d := rfl
      simp only [hdescribe]
      cases ht : (c.describe t d).target? with
      | none => rfl
      | some u =>
        simp only [link_withSource hexp (hd u ht)]
        rfl
    rw [buildFields, buildFields, hfield, ih hds]

/-- **The schema of a type is built alike** by sources that agree from the type on. -/
theorem buildSchema_withSource (hexp : c.SameExpansion source expand expand')
    (h : c.AgreesFrom source t) (aliasName : String) :
    (c.withSource source).buildSchema expand' aliasName t depth =
      c.buildSchema expand aliasName t depth := by
  refine Stateful.ext fun s => ?_
  rw [buildSchema, buildSchema, h.introspect, h.heading, Stateful.run_bind, Stateful.run_bind]
  cases hi : (Walk.traced (c.introspect t)).run s with
  | mk result s₁ =>
    cases result with
    | error e => rfl
    | ok ds => simp only [buildFields_withSource hexp (h.along (Walk.introspect_ok hi).1)]

/-- **A walk from a type is the same walk** if sources agree from the type on. -/
theorem compileType_withSource (h : c.AgreesFrom source t) (room : Nat) (aliasName : String)
    (depth : Nat) : (c.withSource source).compileType room aliasName t depth =
      c.compileType room aliasName t depth := by
  induction room generalizing aliasName t depth with
  | zero => rfl
  | succ room ih =>
    have hexp : c.SameExpansion source (c.compileType room)
        ((c.withSource source).compileType room) := fun aliasName u depth hu => ih hu aliasName depth
    rw [compileType, compileType, buildSchema_withSource hexp h]

/-- **The report is the same**, with the same trace, if the alias names the same type. -/
theorem report_withSource {aliasName : String} (ht : c.source.resolve aliasName = some t)
    (ht' : source.resolve aliasName = some t) (h : c.AgreesFrom source t) :
    (c.withSource source).report aliasName = c.report aliasName := by
  have hwalk : (c.withSource source).walkFrom aliasName t = c.walkFrom aliasName t := by
    rw [walkFrom, walkFrom, compileType_withSource h]
    rfl
  have hresolve : (c.withSource source).source.resolve aliasName = some t := ht'
  simp only [report, ht, hresolve, hwalk]

/-! ## Resolving -/

theorem flatField_withSource {d : Descriptor}
    (h : ∀ u, (c.describe t d).target? = some u → c.AgreesFrom source u) :
    (c.withSource source).flatField t d = c.flatField t d := by
  unfold flatField
  have hdescribe : (c.withSource source).describe t d = c.describe t d := rfl
  simp only [hdescribe]
  cases ht : (c.describe t d).target? with
  | none => rfl
  | some u => simp only [(h u ht).referenceTo]

theorem fields_of_introspect {trace trace' : Trace} {ds : List Descriptor}
    (h : (c.introspect t).outcome trace = (.ok ds, trace')) : c.source.fields t = .ok ds := by
  rw [introspect_outcome] at h
  cases hds : c.source.fields t with
  | ok ds' =>
    rw [hds] at h
    cases h
    rfl
  | error reason =>
    rw [hds] at h
    cases h

theorem flat_withSource (h : c.AgreesFrom source t) :
    (c.withSource source).flat t = c.flat t := by
  refine Stateful.ext fun trace => ?_
  rw [flat, flat, h.introspect, h.aliasFor, h.heading, Stateful.run_bind, Stateful.run_bind]
  cases hi : (c.introspect t).run trace with
  | mk result trace' =>
    cases result with
    | error e => rfl
    | ok ds =>
      have hds : c.source.fields t = .ok ds := fields_of_introspect hi
      have hfields : ds.filterMap ((c.withSource source).flatField t) =
          ds.filterMap (c.flatField t) :=
        List.filterMap_congr fun d hd => flatField_withSource (h.along hds d hd)
      simp only [hfields]
      rfl

/-- Deferred fields, from whose types on another source agrees. -/
def AgreesOnDeferrals (c : Compiler) (source : TypeSource) (es : List Deferral) : Prop :=
  ∀ e ∈ es, ∀ t, e.1 = some t → c.AgreesFrom source t

mutual

/-- **Resolving a schema is the same program** if sources agree from the types of its deferred
fields on. -/
theorem resolveSchema_withSource (only : Option TypeId) : ∀ (s : Schema) (depth : Nat),
    c.AgreesOnDeferrals source (s.deferrals depth) →
      (c.withSource source).resolveSchema only s = c.resolveSchema only s
  | .mk h fields, depth, hs => by
    rw [resolveSchema, resolveSchema, resolveFields_withSource only fields depth hs]

theorem resolveFields_withSource (only : Option TypeId) : ∀ (fs : List Field) (depth : Nat),
    c.AgreesOnDeferrals source (Field.deferralsAll depth fs) →
      (c.withSource source).resolveFields only fs = c.resolveFields only fs
  | [], _, _ => rfl
  | f :: fs, depth, h => by
    obtain ⟨hf, hfs⟩ := List.forall_mem_append.mp h
    rw [resolveFields, resolveFields, resolveField_withSource only f depth hf,
      resolveFields_withSource only fs depth hfs]

theorem resolveField_withSource (only : Option TypeId) : ∀ (f : Field) (depth : Nat),
    c.AgreesOnDeferrals source (f.deferrals depth) →
      (c.withSource source).resolveField only f = c.resolveField only f
  | .mk p l, depth, hf => by
    rw [resolveField, resolveField, resolveLink_withSource only l p depth hf]

theorem resolveLink_withSource (only : Option TypeId) : ∀ (l : Link) (p : Property) (depth : Nat),
    c.AgreesOnDeferrals source (l.deferrals p.object depth) →
      (c.withSource source).resolveLink only p l = c.resolveLink only p l
  | .none, _, _, _ => by rw [resolveLink, resolveLink]
  | .nested s, p, depth, hs => by
    rw [resolveLink, resolveLink, resolveSchema_withSource only s (depth + 1) hs]
  | .deferred r, p, depth, h => by
    rw [resolveLink, resolveLink]
    cases ho : p.object with
    | none => rfl
    | some t => simp only [flat_withSource (h _ List.mem_cons_self t ho)]

end

/-- **What is compiled is the same**, with the same trace, if the alias names the same type. -/
theorem compile_withSource {aliasName : String} (ht : c.source.resolve aliasName = some t)
    (ht' : source.resolve aliasName = some t) (h : c.AgreesFrom source t) :
    (c.withSource source).compile aliasName = c.compile aliasName := by
  have hreport := report_withSource ht ht' h
  unfold compile
  rw [hreport]
  cases hr : c.report aliasName with
  | mk result trace =>
    cases result with
    | error e => rfl
    | ok r =>
      obtain ⟨t', z, ht₀, hz⟩ := report_completed (congrArg Prod.fst hr)
      cases ht.symm.trans ht₀
      have hdeferrals : c.AgreesOnDeferrals source (r.schema.deferrals 0) := by
        intro e he u hu
        obtain ⟨v, hv, hreach⟩ := hz.leads e he
        cases hu.symm.trans hv
        exact h.of_reaches hreach
      dsimp only
      rw [resolveSchema_withSource none r.schema 0 hdeferrals]
      rfl

/-! ## Catalogs that share types -/

variable {catalog catalog' : Catalog} {aliasName : String} {root : TypeId}

theorem Plain.refersTo_of_follows (h : c.Plain) {r : Reference} (hr : c.Follows r) :
    r.field.shape.RefersTo r.target :=
  Handlers.shapeObject_eq_some.mp (h.object_describe (object_of_target hr.target))

theorem target?_of_refersTo {sh : Shape} (h : sh.RefersTo u) : sh.target? = some u := by
  rcases h with rfl | rfl <;> rfl

/-- **What a compiler follows is mentioned**, and does not lead out of an accepted catalog. -/
theorem Plain.mentions_of_reaches (h : c.Plain) (hc : catalog.Accepted)
    (hsource : c.source = catalog.source) (ht : catalog.Has t) (hu : Reaches c.Follows t u) :
    catalog.Has u ∧ Reaches catalog.source.Mentions t u := by
  refine hu.induction (P := fun v => catalog.Has v ∧ Reaches catalog.source.Mentions t v)
    ⟨ht, Reaches.refl t⟩ ?_
  rintro r hr ⟨howner, hreach⟩
  have hshape := h.refersTo_of_follows hr
  obtain ⟨ds, hds, hd⟩ := hr.declared
  rw [hsource] at hds
  obtain ⟨e, he, -, hfields, -⟩ := howner.entry
  cases hds.symm.trans hfields
  exact ⟨hc.has_of_refersTo he hd hshape,
    hreach.step ⟨⟨e.fields, hfields, hd⟩, target?_of_refersTo hshape⟩⟩

theorem agreesOn_of_mem (hc : catalog.Accepted) (hc' : catalog'.Accepted) {e : CatalogType}
    (he : e ∈ catalog.types) (he' : e ∈ catalog'.types) :
    catalog.source.AgreesOn catalog'.source e.identity := by
  have hfind := hc.byIdentity? he
  have hfind' := hc'.byIdentity? he'
  constructor <;> simp only [Catalog.source, hfind, hfind']

/-- **Compiling depends only on the types that an alias leads to.**  If all of them, through any
declared shape, are types of another loaded catalog as well, with the same alias, identity,
description and fields, then both catalogs give the same report and compile to the same result, or
fail with the same error, whatever other types they hold. -/
theorem catalogs_agree (hc : catalog.Loaded) (hc' : catalog'.Loaded) (base : String)
    (options : CompilerOptions) (handlers : List (Handler × Int))
    (hs : ∀ e ∈ handlers, e.1 ∈ Handlers.standard.map (·.1))
    (hroot : catalog.source.resolve aliasName = some root)
    (hshared : ∀ e ∈ catalog.types, Reaches catalog.source.Mentions root e.identity →
      e ∈ catalog'.types) :
    (withHandlers catalog' base options handlers).report aliasName =
        (withHandlers catalog base options handlers).report aliasName ∧
      (withHandlers catalog' base options handlers).compile aliasName =
        (withHandlers catalog base options handlers).compile aliasName := by
  have hplain := plain_withHandlers catalog base options hs
  -- A walk follows references that are mentioned, so it asks about shared types only.
  have hagrees : (withHandlers catalog base options handlers).AgreesFrom catalog'.source root := by
    intro u hu
    obtain ⟨hhas, hreach⟩ :=
      hplain.mentions_of_reaches hc.accepted rfl (Catalog.has_of_resolve hroot) hu
    obtain ⟨e, he, rfl, -⟩ := hhas.entry
    exact agreesOn_of_mem hc.accepted hc'.accepted he (hshared e he hreach)
  have hroot' : catalog'.source.resolve aliasName = some root := by
    obtain ⟨e, he, rfl⟩ := Option.map_eq_some_iff.mp hroot
    have halias : e.aliasName = aliasName := by simpa using List.find?_some he
    have hmem := hshared e (List.mem_of_find?_eq_some he) (Reaches.refl _)
    have hfind : catalog'.byAlias? e.aliasName = some e := find?_of_nodup hc'.nodup_aliases hmem
    rw [halias] at hfind
    simp only [Catalog.source, hfind, Option.map_some]
  have hsource : (withHandlers catalog base options handlers).withSource catalog'.source =
      withHandlers catalog' base options handlers := rfl
  rw [← hsource]
  exact ⟨report_withSource hroot hroot' hagrees, compile_withSource hroot hroot' hagrees⟩

/-- The document of the sample with one more type in front, which refers to orders. -/
def annotatedDocument : Json.Value :=
  .object [("types", .object [
    ("note", .object [("fields", .array [
      .object [("name", .string "about"), ("type", .string "order")]])]),
    ("item", .object [("name", .string "Item"), ("fields", .array [
      .object [("name", .string "owner"), ("type", .string "customer")]])]),
    ("order", .object [("fields", .array [
      .object [("name", .string "buyer"), ("type", .string "customer")],
      .object [("name", .string "items"), ("type", .string "array"), ("items", .string "item")]])]),
    ("customer", .object [("fields", .array [
      .object [("name", .string "name"), ("type", .string "string")],
      .object [("name", .string "last"), ("type", .string "order")]])])])]

/-- Its catalog: no type of the sample refers to notes. -/
def annotatedSample : Catalog where
  types := [
    ⟨"note", ⟨"note"⟩, none, [⟨"about", .entity ⟨"order"⟩, {}⟩]⟩,
    ⟨"item", ⟨"Item"⟩, none, [⟨"owner", .entity ⟨"customer"⟩, {}⟩]⟩,
    ⟨"order", ⟨"order"⟩, none,
      [⟨"buyer", .entity ⟨"customer"⟩, {}⟩, ⟨"items", .collection (.entity ⟨"Item"⟩), {}⟩]⟩,
    ⟨"customer", ⟨"customer"⟩, none,
      [⟨"name", .kind .string, {}⟩, ⟨"last", .entity ⟨"order"⟩, {}⟩]⟩]

/-- Orders are the same with notes and without. -/
theorem catalogs_agree_sample :
    Catalog.Loaded annotatedSample ∧ Catalog.Loaded Catalog.sample ∧
    annotatedSample.types.length ≠ Catalog.sample.types.length ∧
    (withHandlers Catalog.sample defaultBase { policy := .flatten } Handlers.standard).compile
        "order" =
      (withHandlers annotatedSample defaultBase { policy := .flatten } Handlers.standard).compile
        "order" := by
  have hloaded : annotatedSample.Loaded := .ofValue (v := annotatedDocument) rfl
  -- From orders no way leads to notes.
  have hstep : ∀ e ∈ annotatedSample.types, e.identity ≠ ⟨"note"⟩ → ∀ d ∈ e.fields,
      ∀ u ∈ d.shape.target?, u ≠ ⟨"note"⟩ := by decide
  have hclosed : ∀ u, Reaches annotatedSample.source.Mentions ⟨"order"⟩ u → u ≠ ⟨"note"⟩ := by
    intro u hu
    refine hu.induction (P := (· ≠ ⟨"note"⟩)) (by decide) ?_
    rintro r ⟨⟨ds, hds, hd⟩, hshape⟩ howner
    obtain ⟨e, he, hid, rfl⟩ := Catalog.exists_of_fields hds
    exact hstep e he (hid ▸ howner) r.field hd r.target hshape
  have hshared : ∀ e ∈ annotatedSample.types,
      Reaches annotatedSample.source.Mentions ⟨"order"⟩ e.identity → e ∈ Catalog.sample.types := by
    intro e he hreach
    have hne := hclosed e.identity hreach
    simp only [annotatedSample, List.mem_cons, List.not_mem_nil, or_false] at he
    rcases he with rfl | rfl | rfl | rfl
    · exact absurd rfl hne
    all_goals simp [Catalog.sample]
  have hroot : annotatedSample.source.resolve "order" = some ⟨"order"⟩ := rfl
  obtain ⟨-, hcompile⟩ := catalogs_agree hloaded Catalog.loaded_sample defaultBase
    { policy := .flatten } Handlers.standard (fun _ he => List.mem_map_of_mem he) hroot hshared
  exact ⟨hloaded, Catalog.loaded_sample, by decide, hcompile⟩

end Compiler

end SchemaTree

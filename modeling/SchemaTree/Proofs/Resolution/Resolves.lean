import SchemaTree.Compiler.Deferred
import SchemaTree.Proofs.Schema.Occurrences
import SchemaTree.Proofs.Walk.Flat

/-!
# What resolving does to a tree

`Compiler.Resolves` relates the fields of a schema to what resolving makes of them.  Each field

* is *kept* if there is nothing to resolve in it (`Compiler.Keeps`),
* or holds a schema with deferred links, which are resolved *inside*,
* or is deferred, and the flat schema of its type is *attached*.

`resolveSchema_ok` says that a resolution that succeeds does nothing else: **headings, properties
and the order of fields stay as they are.**  `compile_ok` says when compiling ends in one.
-/

namespace SchemaTree

namespace Compiler

/-- A field in which there is nothing to resolve: it has no link, a schema without deferred links,
or a deferred link that is not meant. -/
def Keeps (only : Option TypeId) (f : Field) : Prop :=
  match f.link with
  | .none => True
  | .nested s => s.hasDeferred = false
  | .deferred _ => ∀ t, f.property.object = some t → isMeant only t = false

/-- **What a resolution that succeeds makes of the fields of a schema.** -/
inductive Resolves (c : Compiler) (only : Option TypeId) : List Field → List Field → Prop
  | nil : Resolves c only [] []
  | kept {f : Field} {fs fs' : List Field} (hf : Keeps only f) (rest : Resolves c only fs fs') :
      Resolves c only (f :: fs) (f :: fs')
  | inside {p : Property} {h : Heading} {sub sub' fs fs' : List Field}
      (hd : (Schema.mk h sub).hasDeferred = true) (hsub : Resolves c only sub sub')
      (rest : Resolves c only fs fs') :
      Resolves c only (.mk p (.nested (.mk h sub)) :: fs) (.mk p (.nested (.mk h sub')) :: fs')
  | attached {p : Property} {r : String} {t : TypeId} {ds : List Descriptor}
      {fs fs' : List Field} (ht : p.object = some t) (hm : isMeant only t = true)
      (hds : c.source.fields t = .ok ds) (rest : Resolves c only fs fs') :
      Resolves c only (.mk p (.deferred r) :: fs) (.mk p (.nested (c.flatSchema t ds)) :: fs')

variable {c : Compiler} {only : Option TypeId} {trace trace' : Trace} {fs fs' : List Field}

theorem flat_ok {t : TypeId} {x : Schema} (h : (c.flat t).outcome trace = (.ok x, trace')) :
    ∃ ds, c.source.fields t = .ok ds ∧ x = c.flatSchema t ds := by
  have hflat := c.flat_outcome t trace
  rw [h] at hflat
  cases hds : c.source.fields t with
  | ok ds =>
    rw [hds] at hflat
    exact ⟨ds, rfl, Except.ok.inj hflat⟩
  | error reason =>
    rw [hds] at hflat
    cases hflat

/-- Resolving a schema resolves its fields and leaves its heading. -/
def ResolvesTo (c : Compiler) (only : Option TypeId) (s x : Schema) : Prop :=
  x.heading = s.heading ∧ c.Resolves only s.fields x.fields

theorem resolveLink_eq (p : Property) (l : Link) :
    (Keeps only (.mk p l) ∧ c.resolveLink only p l = pure l) ∨
    (∃ s, l = .nested s ∧ s.hasDeferred = true ∧ c.resolveLink only p l = do
      let x ← c.resolveSchema only s
      return .nested x) ∨
    ∃ r t, l = .deferred r ∧ p.object = some t ∧ isMeant only t = true ∧
      c.resolveLink only p l = do
        let x ← c.flat t
        return .nested x := by
  cases l with
  | none => exact Or.inl ⟨trivial, by rw [resolveLink]⟩
  | nested s =>
    cases hd : s.hasDeferred with
    | false =>
      refine Or.inl ⟨hd, ?_⟩
      simp only [resolveLink, hd, Bool.false_eq_true, if_false]
    | true =>
      refine Or.inr (Or.inl ⟨s, rfl, hd, ?_⟩)
      simp only [resolveLink, hd, if_true]
  | deferred r =>
    cases ho : p.object with
    | none =>
      refine Or.inl ⟨fun t ht => ?_, by simp only [resolveLink, ho]⟩
      cases ho.symm.trans ht
    | some t =>
      cases hm : isMeant only t with
      | false =>
        refine Or.inl ⟨fun u hu => ?_, ?_⟩
        · cases ho.symm.trans hu
          exact hm
        · simp only [resolveLink, ho, hm, Bool.false_eq_true, if_false]
      | true =>
        refine Or.inr (Or.inr ⟨r, t, rfl, rfl, hm, ?_⟩)
        simp only [resolveLink, ho, hm, if_true]

theorem resolveLink_ok {p : Property} {l l' : Link}
    (ih : ∀ s, l = .nested s → ∀ (trace trace' : Trace) (x : Schema),
      (c.resolveSchema only s).outcome trace = (.ok x, trace') → c.ResolvesTo only s x)
    (h : (c.resolveLink only p l).outcome trace = (.ok l', trace')) :
    (Keeps only (.mk p l) ∧ l' = l) ∨
    (∃ s x, l = .nested s ∧ s.hasDeferred = true ∧ c.ResolvesTo only s x ∧ l' = .nested x) ∨
    ∃ r t ds, l = .deferred r ∧ p.object = some t ∧ isMeant only t = true ∧
      c.source.fields t = .ok ds ∧ l' = .nested (c.flatSchema t ds) := by
  rcases resolveLink_eq p l with ⟨hkeep, heq⟩ | ⟨s, rfl, hd, heq⟩ | ⟨r, t, rfl, ho, hm, heq⟩
  · rw [heq] at h
    obtain ⟨rfl, -⟩ := Stateful.pure_ok h
    exact Or.inl ⟨hkeep, rfl⟩
  · rw [heq] at h
    obtain ⟨x, t₁, hx, h⟩ := Stateful.bind_ok h
    obtain ⟨rfl, -⟩ := Stateful.pure_ok h
    exact Or.inr (Or.inl ⟨s, x, rfl, hd, ih s rfl _ _ x hx, rfl⟩)
  · rw [heq] at h
    obtain ⟨x, t₁, hx, h⟩ := Stateful.bind_ok h
    obtain ⟨rfl, -⟩ := Stateful.pure_ok h
    obtain ⟨ds, hds, rfl⟩ := flat_ok hx
    exact Or.inr (Or.inr ⟨r, t, ds, rfl, ho, hm, hds, rfl⟩)

theorem resolveFields_ok
    (ih : ∀ f ∈ fs, ∀ s, f.link = .nested s → ∀ (trace trace' : Trace) (x : Schema),
      (c.resolveSchema only s).outcome trace = (.ok x, trace') → c.ResolvesTo only s x)
    (h : (c.resolveFields only fs).outcome trace = (.ok fs', trace')) :
    c.Resolves only fs fs' := by
  induction fs generalizing trace trace' fs' with
  | nil =>
    rw [resolveFields] at h
    obtain ⟨rfl, -⟩ := Stateful.pure_ok h
    exact Resolves.nil
  | cons f fs ihs =>
    rw [resolveFields] at h
    obtain ⟨f', t₁, hf, h⟩ := Stateful.bind_ok h
    obtain ⟨rest, t₂, hrest, h⟩ := Stateful.bind_ok h
    obtain ⟨rfl, -⟩ := Stateful.pure_ok h
    have hr := ihs (fun g hg => ih g (List.mem_cons_of_mem _ hg)) hrest
    obtain ⟨p, l⟩ := f
    rw [resolveField] at hf
    obtain ⟨l', t₃, hl, hf⟩ := Stateful.bind_ok hf
    obtain ⟨rfl, -⟩ := Stateful.pure_ok hf
    rcases resolveLink_ok (ih _ List.mem_cons_self) hl with ⟨hkeep, rfl⟩ |
      ⟨⟨hd, sub⟩, ⟨hd', sub'⟩, rfl, hdef, ⟨hh, hsub⟩, rfl⟩ | ⟨r, t, ds, rfl, ho, hm, hds, rfl⟩
    · exact Resolves.kept hkeep hr
    · cases hh
      exact Resolves.inside hdef hsub hr
    · exact Resolves.attached ho hm hds hr

/-- **A resolution that succeeds does what the rules say**, at every depth. -/
theorem resolveSchema_ok {s x : Schema}
    (h : (c.resolveSchema only s).outcome trace = (.ok x, trace')) : c.ResolvesTo only s x := by
  induction s using Schema.nested_induction generalizing trace trace' x with
  | mk hd fields ih =>
    rw [resolveSchema] at h
    obtain ⟨fs', t₁, hfs, h⟩ := Stateful.bind_ok h
    obtain ⟨rfl, -⟩ := Stateful.pure_ok h
    exact ⟨rfl, resolveFields_ok (fun f hf s hs _ _ x hx => ih f hf s hs hx) hfs⟩

theorem compile_of_report (c : Compiler) (aliasName : String) :
    (∃ e, (c.report aliasName).1 = .error e ∧ (c.compile aliasName).1 = .error e) ∨
    ∃ r trace, (c.report aliasName).1 = .ok r ∧
      (c.options.policy = .reference ∧ (c.compile aliasName).1 = .ok r.schema ∨
        c.options.policy = .flatten ∧
          c.compile aliasName = (c.resolveSchema none r.schema).outcome trace) := by
  cases hr : c.report aliasName with
  | mk result trace =>
    cases result with
    | error e => exact Or.inl ⟨e, rfl, by simp only [compile, hr]⟩
    | ok r =>
      refine Or.inr ⟨r, trace, rfl, ?_⟩
      cases hp : c.options.policy with
      | reference => exact Or.inl ⟨rfl, by simp only [compile, hr, hp]⟩
      | flatten => exact Or.inr ⟨rfl, by simp only [compile, hr, hp]⟩

/-- **What is compiled is what is reported**, resolved if the options ask for it. -/
theorem compile_ok {aliasName : String} {s : Schema} (h : (c.compile aliasName).1 = .ok s) :
    ∃ r, (c.report aliasName).1 = .ok r ∧
      (c.options.policy = .reference ∧ s = r.schema ∨
        c.options.policy = .flatten ∧ c.ResolvesTo none r.schema s) := by
  rcases c.compile_of_report aliasName with ⟨e, -, he⟩ | ⟨r, trace, hr, ⟨hp, hs⟩ | ⟨hp, hs⟩⟩
  · cases he.symm.trans h
  · cases hs.symm.trans h
    exact ⟨r, hr, Or.inl ⟨hp, rfl⟩⟩
  · rw [hs] at h
    exact ⟨r, hr, Or.inr ⟨hp, resolveSchema_ok (Prod.ext h rfl)⟩⟩

theorem occurrences_flatSchema (t : TypeId) (ds : List Descriptor) (label : Option TypeId)
    (n : Nat) : (c.flatSchema t ds).occurrences label n = [⟨label, n, c.flatSchema t ds⟩] := by
  have hnone : Field.occurrencesAll (n + 1) (ds.filterMap (c.flatField t)) = [] := by
    rw [List.eq_nil_iff_forall_not_mem]
    intro o ho
    obtain ⟨f, hf, ho⟩ := Field.mem_occurrencesAll.mp ho
    obtain ⟨sub, hl, -⟩ := Field.mem_occurrences.mp ho
    obtain ⟨d, -, hd⟩ := List.mem_filterMap.mp hf
    rcases link_of_flatField hd with hn | ⟨u, -, hu⟩
    · cases hn.symm.trans hl
    · cases hu.symm.trans hl
  rw [flatSchema, Schema.occurrences, hnone]

/-! ## What stays -/

theorem Resolves.map_property (h : c.Resolves only fs fs') :
    fs'.map (·.property) = fs.map (·.property) := by
  induction h with
  | nil => rfl
  | kept _ _ ih => rw [List.map_cons, List.map_cons, ih]
  | inside _ _ _ _ ih => rw [List.map_cons, List.map_cons, ih]; rfl
  | attached _ _ _ _ ih => rw [List.map_cons, List.map_cons, ih]; rfl

theorem ResolvesTo.map_name {s x : Schema} (h : c.ResolvesTo only s x) :
    x.fields.map (·.property.name) = s.fields.map (·.property.name) := by
  have hp := congrArg (List.map Property.name) h.2.map_property
  rwa [List.map_map, List.map_map] at hp

/-- **No schema of a tree gets lost**: there is one with the same heading afterwards. -/
theorem Resolves.exists_heading (h : c.Resolves only fs fs') (n : Nat) :
    ∀ o ∈ Field.occurrencesAll n fs, ∃ o' ∈ Field.occurrencesAll n fs',
      o'.schema.heading = o.schema.heading := by
  induction h generalizing n with
  | nil => exact fun o ho => absurd ho List.not_mem_nil
  | kept _ _ ih =>
    intro o ho
    rcases List.mem_append.mp ho with ho | ho
    · exact ⟨o, List.mem_append_left _ ho, rfl⟩
    · obtain ⟨o', ho', he⟩ := ih n o ho
      exact ⟨o', List.mem_append_right _ ho', he⟩
  | inside _ _ _ ihsub ih =>
    intro o ho
    rcases List.mem_append.mp ho with ho | ho
    · rcases List.mem_cons.mp ho with rfl | ho
      · exact ⟨_, List.mem_append_left _ List.mem_cons_self, rfl⟩
      · obtain ⟨o', ho', he⟩ := ihsub (n + 1) o ho
        exact ⟨o', List.mem_append_left _ (List.mem_cons_of_mem _ ho'), he⟩
    · obtain ⟨o', ho', he⟩ := ih n o ho
      exact ⟨o', List.mem_append_right _ ho', he⟩
  | attached _ _ _ _ ih =>
    intro o ho
    obtain ⟨o', ho', he⟩ := ih n o ho
    exact ⟨o', List.mem_append_right _ ho', he⟩

theorem ResolvesTo.exists_heading {s x : Schema} (h : c.ResolvesTo only s x)
    (label : Option TypeId) (depth : Nat) :
    ∀ o ∈ s.occurrences label depth, ∃ o' ∈ x.occurrences label depth,
      o'.schema.heading = o.schema.heading := by
  obtain ⟨hd, fields⟩ := s
  obtain ⟨hd', fields'⟩ := x
  obtain ⟨hh, hr⟩ := h
  intro o ho
  rcases List.mem_cons.mp ho with rfl | ho
  · exact ⟨_, List.mem_cons_self, hh⟩
  · obtain ⟨o', ho', he⟩ := hr.exists_heading _ o ho
    exact ⟨o', List.mem_cons_of_mem _ ho', he⟩

/-! ## What is passed on -/

section

variable {P : Schema → Prop} {Q : Field → Prop}

/-- **What holds of all fields and all schemas of a tree still does when it is resolved**: of schemas
if it holds whatever becomes of the links, of fields if it holds for the schemas put inside them as
well, and of both if it holds of the flat schemas that are attached. -/
theorem Resolves.forall_schemas (hroot : ∀ s x, c.ResolvesTo only s x → P s → P x)
    (hnest : ∀ p l sub, l ≠ .none → Q (.mk p l) → Q (.mk p (.nested sub)))
    (hflat : ∀ p r t ds, p.object = some t → c.source.fields t = .ok ds →
      Q (.mk p (.deferred r)) → P (c.flatSchema t ds) ∧ ∀ f ∈ (c.flatSchema t ds).fields, Q f)
    (h : c.Resolves only fs fs') (n : Nat) (hfs : ∀ f ∈ fs, Q f)
    (hin : ∀ o ∈ Field.occurrencesAll n fs, P o.schema ∧ ∀ f ∈ o.schema.fields, Q f) :
    (∀ f ∈ fs', Q f) ∧
      ∀ o ∈ Field.occurrencesAll n fs', P o.schema ∧ ∀ f ∈ o.schema.fields, Q f := by
  induction h generalizing n with
  | nil => exact ⟨hfs, hin⟩
  | kept _ _ ih =>
    obtain ⟨hf, hrest⟩ := List.forall_mem_cons.mp hfs
    obtain ⟨hinf, hinrest⟩ := List.forall_mem_append.mp hin
    obtain ⟨hfields, hschemas⟩ := ih n hrest hinrest
    exact ⟨List.forall_mem_cons.mpr ⟨hf, hfields⟩, List.forall_mem_append.mpr ⟨hinf, hschemas⟩⟩
  | @inside p hd sub sub' _ _ _ hsub _ ihsub ih =>
    obtain ⟨hf, hrest⟩ := List.forall_mem_cons.mp hfs
    obtain ⟨hinf, hinrest⟩ := List.forall_mem_append.mp hin
    obtain ⟨hfields, hschemas⟩ := ih n hrest hinrest
    obtain ⟨⟨hP, hQ⟩, hinsub⟩ := List.forall_mem_cons.mp hinf
    obtain ⟨hQ', hsubs⟩ := ihsub (n + 1) hQ hinsub
    have hP' : P (.mk hd sub') := hroot (.mk hd sub) _ ⟨rfl, hsub⟩ hP
    exact ⟨List.forall_mem_cons.mpr ⟨hnest _ _ _ (by simp) hf, hfields⟩,
      List.forall_mem_append.mpr ⟨List.forall_mem_cons.mpr ⟨⟨hP', hQ'⟩, hsubs⟩, hschemas⟩⟩
  | @attached p r t ds _ _ ht _ hds _ ih =>
    obtain ⟨hf, hrest⟩ := List.forall_mem_cons.mp hfs
    obtain ⟨-, hinrest⟩ := List.forall_mem_append.mp hin
    obtain ⟨hfields, hschemas⟩ := ih n hrest hinrest
    refine ⟨List.forall_mem_cons.mpr ⟨hnest _ _ _ (by simp) hf, hfields⟩,
      List.forall_mem_append.mpr ⟨fun o ho => ?_, hschemas⟩⟩
    rw [Field.mem_occurrences_nested rfl, occurrences_flatSchema, List.mem_singleton] at ho
    rw [ho]
    exact hflat p r t ds ht hds hf

theorem ResolvesTo.forall_schemas (hroot : ∀ s x, c.ResolvesTo only s x → P s → P x)
    (hnest : ∀ p l sub, l ≠ .none → Q (.mk p l) → Q (.mk p (.nested sub)))
    (hflat : ∀ p r t ds, p.object = some t → c.source.fields t = .ok ds →
      Q (.mk p (.deferred r)) → P (c.flatSchema t ds) ∧ ∀ f ∈ (c.flatSchema t ds).fields, Q f)
    {s x : Schema} (h : c.ResolvesTo only s x) {label : Option TypeId} {depth : Nat}
    (hs : ∀ o ∈ s.occurrences label depth, P o.schema ∧ ∀ f ∈ o.schema.fields, Q f) :
    ∀ o ∈ x.occurrences label depth, P o.schema ∧ ∀ f ∈ o.schema.fields, Q f := by
  obtain ⟨⟨hP, hQ⟩, hin⟩ := Schema.forall_mem_occurrences.mp hs
  obtain ⟨hQ', hin'⟩ := h.2.forall_schemas hroot hnest hflat _ hQ hin
  exact Schema.forall_mem_occurrences.mpr ⟨⟨hroot s x h hP, hQ'⟩, hin'⟩

end

end Compiler

end SchemaTree

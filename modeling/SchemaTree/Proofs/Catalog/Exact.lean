import SchemaTree.Proofs.Catalog.Language
import SchemaTree.Proofs.FirstFailure

/-!
# Building is exact

The loops that build a catalog, from the inside out: the fields of a type, the types, and before
them the aliases.  Each loop is one of `checkAll`, so for each it is enough to say what its check
takes and what it refuses.

* `buildFields_ok_iff`, `buildFields_error_iff` and their companions: what each loop takes and
  refuses.
* `build_exact`: **a catalog is built of well-formed definitions and of no others**, it stores what
  they denote, and else the first offence is reported.
-/

namespace SchemaTree

namespace Definitions

/-! ## Aliases in sequence -/

section

variable {before defs : Definitions} {aliasName : String} {d : TypeDefinition}
  {aliases : Aliases} {e : CatalogError}

/-- The check of one alias behind others. -/
def aliasCheck (before : Definitions) (x : String × TypeDefinition) :
    Except CatalogError (String × TypeId) :=
  if !isWord x.1 || (Kind.ofName? x.1).isSome then .error (.invalidAlias x.1)
  else if before.identities.any (·.2 = x.2.identity x.1) then
    .error (.duplicateAlias (x.2.identity x.1).name)
  else .ok (x.1, x.2.identity x.1)

theorem add_eq_checkAll (before defs : Definitions) :
    Aliases.add before.identities defs =
      (checkAll aliasCheck before defs).map (before.identities ++ ·) := by
  induction defs generalizing before with
  | nil => simp [Aliases.add, checkAll, Except.map]
  | cons x defs ih =>
    obtain ⟨aliasName, d⟩ := x
    have hconcat : before.identities ++ [(aliasName, d.identity aliasName)] =
        identities (before ++ [(aliasName, d)]) := by
      simp [identities]
    rw [Aliases.add, checkAll, aliasCheck]
    split
    · rfl
    · split
      · rfl
      · rw [hconcat, ih, ← hconcat]
        cases checkAll aliasCheck (before ++ [(aliasName, d)]) defs with
        | error e => rfl
        | ok bs => simp [Except.map]

theorem any_identities {t : TypeId} :
    before.identities.any (·.2 = t) = true ↔ t ∈ before.map fun e => e.2.identity e.1 := by
  simp [identities]

theorem aliasCheck_ok_iff {b : String × TypeId} :
    aliasCheck before (aliasName, d) = .ok b ↔
      NamesType aliasName ∧ (d.identity aliasName ∉ before.map fun e => e.2.identity e.1) ∧
        b = (aliasName, d.identity aliasName) := by
  rw [namesType_iff, ← any_identities, aliasCheck]
  split
  · rename_i hword
    simp [hword]
  · rename_i hword
    rw [Bool.not_eq_true] at hword
    split
    · rename_i hany
      simp [hany]
    · rename_i hany
      rw [eq_comm]
      simp [hword, hany]

theorem aliasCheck_error_iff :
    aliasCheck before (aliasName, d) = .error e ↔ AliasOffence before aliasName d e := by
  constructor
  · intro h
    rw [aliasCheck] at h
    split at h
    · rename_i hword
      cases h
      refine AliasOffence.invalid fun hn => ?_
      rw [namesType_iff.mp hn] at hword
      cases hword
    · rename_i hword
      split at h
      · rename_i hany
        cases h
        refine AliasOffence.duplicate (namesType_iff.mpr ?_) (any_identities.mp hany)
        exact (Bool.not_eq_true _).mp hword
      · cases h
  · intro h
    cases h with
    | invalid h =>
      rw [namesType_iff, Bool.not_eq_false] at h
      rw [aliasCheck, if_pos h]
    | duplicate h hd =>
      have hword := namesType_iff.mp h
      rw [aliasCheck, if_neg (by rw [hword]; exact Bool.false_ne_true),
        if_pos (any_identities.mpr hd)]

/-- **Aliases are taken if each of them can name a type and no two identities are the same.** -/
theorem checkAll_aliasCheck_ok_iff :
    (∃ bs, checkAll aliasCheck [] defs = .ok bs) ↔ defs.Named := by
  rw [checkAll_ok_iff]
  constructor
  · intro h
    have hsplit : ∀ earlier (x : String × TypeDefinition) later,
        defs = earlier ++ x :: later →
          NamesType x.1 ∧ x.2.identity x.1 ∉ earlier.map fun e => e.2.identity e.1 := by
      intro earlier x later hdefs
      obtain ⟨b, hb⟩ := h earlier x later hdefs
      obtain ⟨hword, hnew, -⟩ := aliasCheck_ok_iff.mp hb
      exact ⟨hword, hnew⟩
    constructor
    case words =>
      intro x hx
      obtain ⟨earlier, later, hdefs⟩ := List.append_of_mem hx
      exact (hsplit earlier x later hdefs).1
    case distinct =>
      rw [nodup_map_iff]
      exact fun earlier x later hdefs => (hsplit earlier x later hdefs).2
  · rintro ⟨hwords, hdistinct⟩ earlier x later rfl
    have hword := hwords x (by simp)
    have hnew := nodup_map_iff.mp hdistinct earlier x later rfl
    exact ⟨_, aliasCheck_ok_iff.mpr ⟨hword, hnew, rfl⟩⟩

theorem checkAll_aliasCheck_eq {bs : Aliases} (h : checkAll aliasCheck before defs = .ok bs) :
    bs = defs.identities := by
  have hall := checkAll_forall₂ h
  have heq : List.Forall₂ (fun x b => (x.1, x.2.identity x.1) = b) defs bs := by
    refine hall.imp ?_
    rintro ⟨aliasName, d⟩ b ⟨earlier, hb⟩
    exact (aliasCheck_ok_iff.mp hb).2.2.symm
  rw [← List.forall₂_map_left_iff, List.forall₂_eq_eq_eq] at heq
  exact heq.symm

theorem add_ok_iff : Aliases.add [] defs = .ok aliases ↔ defs.Named ∧ aliases = defs.identities := by
  have hadd : Aliases.add [] defs = (checkAll aliasCheck [] defs).map ([] ++ ·) :=
    add_eq_checkAll [] defs
  rw [hadd, map_ok_iff, ← checkAll_aliasCheck_ok_iff]
  constructor
  · rintro ⟨bs, hbs, rfl⟩
    exact ⟨⟨bs, hbs⟩, checkAll_aliasCheck_eq hbs⟩
  · rintro ⟨⟨bs, hbs⟩, rfl⟩
    exact ⟨bs, hbs, checkAll_aliasCheck_eq hbs⟩

/-- **Aliases are refused for the first one that offends.** -/
theorem add_error_iff :
    Aliases.add [] defs = .error e ↔ ∃ before aliasName d after,
      defs = before ++ (aliasName, d) :: after ∧ before.Named ∧
        AliasOffence before aliasName d e := by
  have hadd : Aliases.add [] defs = (checkAll aliasCheck [] defs).map ([] ++ ·) :=
    add_eq_checkAll [] defs
  rw [hadd, map_error_iff, checkAll_error_iff]
  constructor
  · rintro ⟨before, ⟨aliasName, d⟩, after, hdefs, hbefore, he⟩
    exact ⟨before, aliasName, d, after, hdefs, checkAll_aliasCheck_ok_iff.mp hbefore,
      aliasCheck_error_iff.mp he⟩
  · rintro ⟨before, aliasName, d, after, hdefs, hbefore, he⟩
    exact ⟨before, (aliasName, d), after, hdefs, checkAll_aliasCheck_ok_iff.mpr hbefore,
      aliasCheck_error_iff.mpr he⟩

end

/-! ## Fields in sequence -/

section

variable {defs : Definitions} {aliases : Aliases} {owner : String} {seen : List String}
  {before fields : List FieldDefinition} {f : FieldDefinition} {e : CatalogError}

/-- The check of one field behind others. -/
def fieldCheck (aliases : Aliases) (owner : String) (before : List FieldDefinition)
    (f : FieldDefinition) : Except CatalogError Descriptor :=
  if f.name ∈ before.map (·.name) then .error (.duplicateField owner f.name)
  else (Shape.ofWords aliases owner f.name f.type f.items).map (⟨f.name, ·, f.annotations⟩)

theorem buildFields_eq_checkAll (hseen : ∀ name, name ∈ seen ↔ name ∈ before.map (·.name)) :
    buildFields aliases owner seen fields = checkAll (fieldCheck aliases owner) before fields := by
  induction fields generalizing seen before with
  | nil => rfl
  | cons f fields ih =>
    have hmem : seen.contains f.name = true ↔ f.name ∈ before.map (·.name) := by
      rw [List.contains_iff_mem, hseen]
    have hnext : ∀ name, name ∈ f.name :: seen ↔ name ∈ (before ++ [f]).map (·.name) := by
      intro name
      rw [List.mem_cons, hseen, List.map_append, List.mem_append, List.map_singleton,
        List.mem_singleton]
      exact or_comm
    rw [buildFields, checkAll, fieldCheck]
    by_cases h : f.name ∈ before.map (·.name)
    · rw [if_pos (hmem.mpr h), if_pos h]
    · rw [if_neg fun hc => h (hmem.mp hc), if_neg h, ih hnext]
      cases Shape.ofWords aliases owner f.name f.type f.items <;> rfl

theorem fieldCheck_ok_iff {x : Descriptor} :
    fieldCheck defs.identities owner before f = .ok x ↔
      f.name ∉ before.map (·.name) ∧ defs.StoresField f x := by
  rw [fieldCheck]
  by_cases h : f.name ∈ before.map (·.name)
  · simp [h]
  · obtain ⟨name, shape, annotations⟩ := x
    have hshape : Shape.ofWords defs.identities owner f.name f.type f.items = .ok shape ↔
        defs.Denotes f.type f.items shape := ofWords_ok_iff
    rw [if_neg h, StoresField, ← hshape, map_ok_iff]
    constructor
    · rintro ⟨sh, hsh, heq⟩
      cases heq
      exact ⟨h, rfl, rfl, hsh⟩
    · rintro ⟨-, rfl, rfl, hsh⟩
      exact ⟨shape, hsh, rfl⟩

theorem fieldCheck_error_iff :
    fieldCheck defs.identities owner before f = .error e ↔
      FieldOffence defs owner before f e := by
  rw [fieldCheck]
  by_cases h : f.name ∈ before.map (·.name)
  · rw [if_pos h]
    constructor
    · intro he
      cases he
      exact FieldOffence.duplicate h
    · intro he
      cases he with
      | duplicate => rfl
      | shape hn => exact absurd h hn
  · rw [if_neg h, map_error_iff, ofWords_error_iff]
    constructor
    · exact fun he => FieldOffence.shape h he
    · intro he
      cases he with
      | duplicate hd => exact absurd hd h
      | shape _ he => exact he

theorem checkAll_fieldCheck_ok_iff :
    (∃ xs, checkAll (fieldCheck defs.identities owner) [] fields = .ok xs) ↔
      defs.Shaped fields := by
  rw [checkAll_ok_iff]
  constructor
  · intro h
    have hsplit : ∀ earlier f later, fields = earlier ++ f :: later →
        f.name ∉ earlier.map (·.name) ∧ ∃ x, defs.StoresField f x := by
      intro earlier f later hfields
      obtain ⟨x, hx⟩ := h earlier f later hfields
      obtain ⟨hnew, hstores⟩ := fieldCheck_ok_iff.mp hx
      exact ⟨hnew, x, hstores⟩
    constructor
    case names =>
      rw [nodup_map_iff]
      exact fun earlier f later hfields => (hsplit earlier f later hfields).1
    case shapes =>
      intro f hf
      obtain ⟨earlier, later, hfields⟩ := List.append_of_mem hf
      obtain ⟨-, x, -, -, hx⟩ := hsplit earlier f later hfields
      exact ⟨x.shape, hx⟩
  · rintro ⟨hnames, hshapes⟩ earlier f later rfl
    obtain ⟨sh, hsh⟩ := hshapes f (by simp)
    have hnew := nodup_map_iff.mp hnames earlier f later rfl
    exact ⟨⟨f.name, sh, f.annotations⟩, fieldCheck_ok_iff.mpr ⟨hnew, rfl, rfl, hsh⟩⟩

theorem buildFields_eq (aliases : Aliases) (owner : String) (fields : List FieldDefinition) :
    buildFields aliases owner [] fields = checkAll (fieldCheck aliases owner) [] fields :=
  buildFields_eq_checkAll (by simp)

/-- **The fields of a type are taken if their names are distinct and their words denote shapes.** -/
theorem buildFields_ok_iff :
    (∃ xs, buildFields defs.identities owner [] fields = .ok xs) ↔ defs.Shaped fields := by
  rw [buildFields_eq, checkAll_fieldCheck_ok_iff]

theorem buildFields_stores {xs : List Descriptor}
    (h : buildFields defs.identities owner [] fields = .ok xs) :
    List.Forall₂ defs.StoresField fields xs := by
  rw [buildFields_eq] at h
  refine (checkAll_forall₂ h).imp ?_
  rintro f x ⟨earlier, hx⟩
  exact (fieldCheck_ok_iff.mp hx).2

/-- **The fields of a type are refused for the first one that offends.** -/
theorem buildFields_error_iff :
    buildFields defs.identities owner [] fields = .error e ↔ ∃ earlier f later,
      fields = earlier ++ f :: later ∧ defs.Shaped earlier ∧ FieldOffence defs owner earlier f e := by
  simp only [buildFields_eq, checkAll_error_iff, checkAll_fieldCheck_ok_iff, List.nil_append,
    fieldCheck_error_iff]

end

/-! ## Types in sequence -/

section

variable {before defs rest : Definitions} {aliases : Aliases} {types : List CatalogType}
  {e : CatalogError}

/-- The check of the fields of a type. -/
def typeCheck (aliases : Aliases) (_before : Definitions) (x : String × TypeDefinition) :
    Except CatalogError CatalogType :=
  (buildFields aliases x.1 [] x.2.fields).map (⟨x.1, x.2.identity x.1, x.2.description, ·⟩)

theorem buildTypes_eq_checkAll (before : Definitions) :
    buildTypes aliases rest = checkAll (typeCheck aliases) before rest := by
  induction rest generalizing before with
  | nil => rfl
  | cons x rest ih =>
    obtain ⟨aliasName, d⟩ := x
    rw [buildTypes, checkAll, typeCheck, ih (before ++ [(aliasName, d)])]
    cases buildFields aliases aliasName [] d.fields <;> rfl

theorem typeCheck_ok_iff {x : String × TypeDefinition} :
    (∃ t, typeCheck defs.identities before x = .ok t) ↔ defs.Shaped x.2.fields := by
  have hfields : (∃ xs, buildFields defs.identities x.1 [] x.2.fields = .ok xs) ↔
      defs.Shaped x.2.fields := buildFields_ok_iff
  simp [← hfields, typeCheck, map_ok_iff]

theorem typeCheck_stores {x : String × TypeDefinition} {t : CatalogType}
    (h : typeCheck defs.identities before x = .ok t) : defs.Stores x t := by
  obtain ⟨fields, hfields, rfl⟩ := map_ok_iff.mp h
  exact ⟨rfl, rfl, rfl, buildFields_stores hfields⟩

theorem typeCheck_error_iff {x : String × TypeDefinition} :
    typeCheck defs.identities before x = .error e ↔
      buildFields defs.identities x.1 [] x.2.fields = .error e :=
  map_error_iff

theorem buildTypes_ok_iff :
    (∃ types, buildTypes defs.identities rest = .ok types) ↔
      ∀ x ∈ rest, defs.Shaped x.2.fields := by
  simp only [buildTypes_eq_checkAll [], checkAll_ok_iff, typeCheck_ok_iff]
  constructor
  · intro h x hx
    obtain ⟨earlier, later, hrest⟩ := List.append_of_mem hx
    exact h earlier x later hrest
  · rintro h earlier x later rfl
    exact h x (by simp)

theorem buildTypes_stores (h : buildTypes defs.identities rest = .ok types) :
    List.Forall₂ defs.Stores rest types := by
  rw [buildTypes_eq_checkAll []] at h
  refine (checkAll_forall₂ h).imp ?_
  rintro x t ⟨earlier, ht⟩
  exact typeCheck_stores ht

/-- **Types are refused for the first field that offends.** -/
theorem buildTypes_error_iff :
    buildTypes defs.identities rest = .error e ↔ ∃ before aliasName d after,
      rest = before ++ (aliasName, d) :: after ∧ (∀ x ∈ before, defs.Shaped x.2.fields) ∧
        ∃ earlier f later, d.fields = earlier ++ f :: later ∧ defs.Shaped earlier ∧
          FieldOffence defs aliasName earlier f e := by
  rw [buildTypes_eq_checkAll [], checkAll_error_iff]
  simp only [← buildTypes_eq_checkAll, buildTypes_ok_iff, typeCheck_error_iff,
    buildFields_error_iff, Prod.exists]

end

end Definitions

/-! ## Catalogs -/

namespace Catalog

open Definitions

variable {defs : Definitions} {c : Catalog} {e : CatalogError}

theorem build_ok_iff :
    build defs = .ok c ↔ defs.Named ∧ buildTypes defs.identities defs = .ok c.types := by
  rw [build]
  cases hadd : Aliases.add [] defs with
  | error e =>
    have hnot : ¬ defs.Named := by
      intro hn
      rw [add_ok_iff.mpr ⟨hn, rfl⟩] at hadd
      cases hadd
    simp [hnot]
  | ok aliases =>
    obtain ⟨hn, rfl⟩ := add_ok_iff.mp hadd
    obtain ⟨types⟩ := c
    simp [map_ok_iff, hn]

theorem stores_of_build (h : build defs = .ok c) : List.Forall₂ defs.Stores defs c.types :=
  buildTypes_stores (build_ok_iff.mp h).2

theorem exists_build_iff : (∃ c, build defs = .ok c) ↔ defs.WellFormed := by
  simp only [build_ok_iff]
  constructor
  · rintro ⟨c, hn, hc⟩
    exact ⟨hn, buildTypes_ok_iff.mp ⟨_, hc⟩⟩
  · rintro ⟨hn, hs⟩
    obtain ⟨types, ht⟩ := buildTypes_ok_iff.mpr hs
    exact ⟨⟨types⟩, hn, ht⟩

theorem build_error_iff : build defs = .error e ↔ defs.FirstOffence e := by
  have hbuild : build defs = .error e ↔ Aliases.add [] defs = .error e ∨
      defs.Named ∧ buildTypes defs.identities defs = .error e := by
    rw [build]
    cases hadd : Aliases.add [] defs with
    | error e' =>
      have hnot : ¬ defs.Named := by
        intro hn
        rw [add_ok_iff.mpr ⟨hn, rfl⟩] at hadd
        cases hadd
      simp [hnot]
    | ok aliases =>
      obtain ⟨hn, rfl⟩ := add_ok_iff.mp hadd
      simp [map_error_iff, hn]
  rw [hbuild, add_error_iff, buildTypes_error_iff]
  constructor
  · rintro (⟨before, aliasName, d, after, hdefs, hbefore, he⟩ |
      ⟨hn, before, aliasName, d, after, hdefs, hbefore, earlier, f, later, hf, hearlier, he⟩)
    · exact FirstOffence.atAlias hdefs hbefore he
    · exact FirstOffence.atField hdefs hn hbefore hf hearlier he
  · intro h
    cases h with
    | atAlias hdefs hbefore he => exact Or.inl ⟨_, _, _, _, hdefs, hbefore, he⟩
    | atField hdefs hn hbefore hf hearlier he =>
      exact Or.inr ⟨hn, _, _, _, _, hdefs, hbefore, _, _, _, hf, hearlier, he⟩

/-- **The language of catalogs.** A catalog is built of well-formed definitions and of no others; it
stores, in order, the types that these denote; and other definitions are refused for the first
offence in them. -/
theorem build_exact (defs : Definitions) :
    ((∃ c, build defs = .ok c) ↔ defs.WellFormed) ∧
    (∀ c, build defs = .ok c → List.Forall₂ defs.Stores defs c.types) ∧
    ∀ e, build defs = .error e ↔ defs.FirstOffence e :=
  ⟨exists_build_iff, fun _ => stores_of_build, fun _ => build_error_iff⟩

end Catalog

end SchemaTree

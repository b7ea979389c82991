import Mathlib.Data.List.Perm.Basic
import SchemaTree.Compiler.Deferred
import SchemaTree.Proofs.Catalog.Lossless

/-!
# The order of definitions

Definitions can be written in one file or in many, and in any order.  A word denotes the same
shape all the same, since the alias that it names is written once, so **definitions in another order
denote the same types** (`Definitions.Stores.of_perm`).

* `Definitions.WellFormed.perm`: definitions that make a catalog do so in any order.
* `Catalog.types_perm`, `Catalog.source_eq`: the types of the catalog are the same up to their
  order, and as a source of types the catalog is the same.
* `Definitions.load_eq`: files that write no alias twice are loaded one behind the other.
* `Catalog.ofFiles_order`: how definitions are spread over files does not matter.
-/

namespace SchemaTree

open Json

theorem find?_perm {α κ : Type} [DecidableEq κ] {key : α → κ} {l l' : List α} (hp : l.Perm l')
    (hl : (l.map key).Nodup) (k : κ) : l.find? (key · = k) = l'.find? (key · = k) := by
  cases hf : l.find? (key · = k) with
  | some a =>
    have ha : a ∈ l' := hp.subset (List.mem_of_find?_eq_some hf)
    have hk : key a = k := by simpa using List.find?_some hf
    rw [← hk, find?_of_nodup ((hp.map key).nodup_iff.mp hl) ha]
  | none =>
    rw [List.find?_eq_none] at hf
    exact (List.find?_eq_none.mpr fun a ha => hf a (hp.symm.subset ha)).symm

theorem Json.Members.get?_perm {α : Type} {ms ms' : List (String × α)} (hp : ms.Perm ms')
    (hn : (ms.map (·.1)).Nodup) (k : String) : Members.get? ms k = Members.get? ms' k := by
  rw [Members.get?, Members.get?, find?_perm hp hn]

/-! ## Definitions in another order -/

namespace Definitions

variable {defs defs' : Definitions} {type : String} {items : Option String} {sh sh' : Shape}

theorem Denotes.congr (hget : ∀ word, Members.get? defs word = Members.get? defs' word)
    (h : defs.Denotes type items sh) : defs'.Denotes type items sh := by
  cases h with
  | kind k hk => exact Denotes.kind k hk
  | entity hw hd => exact Denotes.entity hw (by rw [← hget, hd])
  | collection => exact Denotes.collection
  | kinds k hk => exact Denotes.kinds k hk
  | entities hw hd => exact Denotes.entities hw (by rw [← hget, hd])
  | object hd => exact Denotes.object (by rw [← hget, hd])

theorem Denotes.unique (h : defs.Denotes type items sh) (h' : defs.Denotes type items sh') :
    sh = sh' := by
  have hwords : Shape.ofWords defs.identities "" "" type items = .ok sh := h.ofWords
  exact Except.ok.inj (hwords.symm.trans h'.ofWords)

theorem StoresField.unique : Relator.RightUnique defs.StoresField := by
  rintro f ⟨name, shape, annotations⟩ ⟨name', shape', annotations'⟩ ⟨hname, hann, hd⟩
    ⟨hname', hann', hd'⟩
  cases hname.trans hname'.symm
  cases hann.trans hann'.symm
  cases hd.unique hd'
  rfl

/-- **One type at most is made of a definition.** -/
theorem Stores.unique : Relator.RightUnique defs.Stores := by
  rintro e ⟨aliasName, identity, description, fields⟩ ⟨aliasName', identity', description', fields'⟩
    ⟨ha, hi, hd, hf⟩ ⟨ha', hi', hd', hf'⟩
  cases ha.trans ha'.symm
  cases hi.trans hi'.symm
  cases hd.trans hd'.symm
  cases List.right_unique_forall₂' StoresField.unique hf hf'
  rfl

section

variable (hp : defs.Perm defs') (hn : (defs.map (·.1)).Nodup)

include hp hn

/-- **Definitions in another order denote the same types.** -/
theorem Stores.of_perm {e : String × TypeDefinition} {t : CatalogType} (h : defs.Stores e t) :
    defs'.Stores e t := by
  refine ⟨h.aliasName, h.identity, h.description, h.fields.imp ?_⟩
  rintro f d ⟨hname, hann, hd⟩
  exact ⟨hname, hann, hd.congr (Members.get?_perm hp hn)⟩

/-- **Definitions that make a catalog do so in any order.** -/
theorem WellFormed.perm (h : defs.WellFormed) : defs'.WellFormed := by
  constructor
  case named =>
    exact ⟨fun e he => h.named.words e (hp.symm.subset he),
      (hp.map _).nodup_iff.mp h.named.distinct⟩
  case shaped =>
    intro e he
    obtain ⟨hnames, hshapes⟩ := h.shaped e (hp.symm.subset he)
    refine ⟨hnames, fun f hf => ?_⟩
    obtain ⟨sh, hsh⟩ := hshapes f hf
    exact ⟨sh, hsh.congr (Members.get?_perm hp hn)⟩

end

/-! ## Files that write no alias twice -/

theorem merge_eq {known : Definitions} (hn : ((known ++ defs).map (·.1)).Nodup) :
    known.merge defs = .ok (known ++ defs) := by
  induction defs generalizing known with
  | nil => rw [merge, List.append_nil]
  | cons e rest ih =>
    obtain ⟨aliasName, d⟩ := e
    have hnew : known.any (·.1 = aliasName) = false := by
      rw [List.any_eq_false]
      intro m hm heq
      rw [List.map_append, List.nodup_append] at hn
      exact hn.2.2 _ (List.mem_map_of_mem hm) aliasName List.mem_cons_self (by simpa using heq)
    rw [merge, hnew, if_neg Bool.false_ne_true, ih (by simpa using hn), List.append_assoc,
      List.singleton_append]

/-- **Files that write no alias twice are loaded one behind the other.** -/
theorem load_eq {files : List SourceFile} {known : Definitions} {mss : List Definitions}
    (h : List.Forall₂ (fun file ms => SourceFile.definitions file = .ok ms) files mss)
    (hn : ((known ++ mss.flatten).map (·.1)).Nodup) (log : Log) :
    ((load known files).run log).1 = .ok (known ++ mss.flatten) := by
  induction h generalizing known log with
  | nil =>
    rw [List.flatten_nil, List.append_nil]
    rfl
  | @cons file ms files mss hfile _ ih =>
    rw [List.flatten_cons, ← List.append_assoc] at hn ⊢
    have hmerge : known.merge ms = .ok (known ++ ms) := by
      refine merge_eq (hn.sublist ?_)
      exact (List.sublist_append_left _ _).map _
    rw [load, hfile]
    simp only [Stateful.run_modify_bind, hmerge]
    exact ih hn _

/-- A file that can be read and is well formed, and the definitions that it writes. -/
structure FileDefines (file : SourceFile) (ms : Definitions) : Prop where
  writes : FileWrites file ms
  wellFormed : ∃ read, file.definitions = .ok read

theorem FileWrites.unique : Relator.RightUnique FileWrites := by
  rintro file ms ms' ⟨path, text, rfl, types, ht, hms⟩ ⟨path', text', heq, types', ht', hms'⟩
  cases heq
  cases ht.symm.trans ht'
  refine List.right_unique_forall₂' ?_ hms hms'
  rintro w ⟨k, d⟩ ⟨k', d'⟩ ⟨hk, hd⟩ ⟨hk', hd'⟩
  cases hk.symm.trans hk'
  cases hd.symm.trans hd'
  rfl

theorem FileDefines.definitions_eq {file : SourceFile} {ms : Definitions}
    (h : FileDefines file ms) (hn : (ms.map (·.1)).Nodup) : file.definitions = .ok ms := by
  obtain ⟨read, hread⟩ := h.wellFormed
  obtain ⟨ms', hms', rfl⟩ := exists_fileWrites hread
  cases FileWrites.unique h.writes hms'
  rw [hread, Members.ofList_of_nodup hn]

/-- **Well-formed files that write no alias twice are read as they are written.** -/
theorem definitions_of_nodup {files : List SourceFile} {mss : List Definitions}
    (h : List.Forall₂ FileDefines files mss) (hn : (mss.flatten.map (·.1)).Nodup) :
    List.Forall₂ (fun file ms => SourceFile.definitions file = .ok ms) files mss := by
  induction h with
  | nil => exact List.Forall₂.nil
  | cons hfile _ ih =>
    rw [List.flatten_cons, List.map_append, List.nodup_append] at hn
    exact List.Forall₂.cons (hfile.definitions_eq hn.1) (ih hn.2.1)

theorem writes_of_length {text : String} (h : ofText text = .ok defs)
    (hl : (typesIn (Reading.ofText text).1).map (·.members.length) = some defs.length) :
    Writes text defs := by
  obtain ⟨ms, ⟨types, ht, hms⟩, rfl⟩ := exists_writes h
  rw [ht, Option.map_some, Option.some_inj, hms.length_eq] at hl
  rw [Members.ofList_of_nodup (Members.length_ofList_eq_iff.mp hl.symm)]
  exact ⟨types, ht, hms⟩

theorem FileDefines.ofText {path text : String} (h : Definitions.ofText text = .ok defs)
    (hl : (typesIn (Reading.ofText text).1).map (·.members.length) = some defs.length) :
    FileDefines (path, .ok text) defs where
  writes := ⟨path, text, rfl, writes_of_length h hl⟩
  wellFormed := ⟨defs, by rw [SourceFile.definitions, h]⟩

end Definitions

/-! ## Catalogs of definitions in another order -/

namespace Catalog

variable {defs defs' : Definitions} {c c' : Catalog}

/-- **The types of a catalog are the same up to their order.** -/
theorem types_perm (hp : defs.Perm defs') (hn : (defs.map (·.1)).Nodup) (h : build defs = .ok c)
    (h' : build defs' = .ok c') : c.types.Perm c'.types := by
  have hn' : (defs'.map (·.1)).Nodup := (hp.map _).nodup_iff.mp hn
  have hstores : List.Forall₂ defs.Stores defs' c'.types :=
    (stores_of_build h').imp fun _ _ => Definitions.Stores.of_perm hp.symm hn'
  exact List.rel_perm_imp Definitions.Stores.unique (stores_of_build h) hstores hp

theorem source_eq (hp : c.types.Perm c'.types) (ha : c.aliases.Nodup)
    (hi : (c.types.map (·.identity)).Nodup) : c.source = c'.source := by
  have halias : ∀ a, c.byAlias? a = c'.byAlias? a := find?_perm hp ha
  have hid : ∀ t, c.byIdentity? t = c'.byIdentity? t := find?_perm hp hi
  simp only [source, halias, hid]

theorem ofFiles_eq {files : List SourceFile} {mss : List Definitions}
    (h : List.Forall₂ Definitions.FileDefines files mss) (hn : (mss.flatten.map (·.1)).Nodup) :
    (ofFiles files).1 = build mss.flatten := by
  have hload : ((Definitions.load [] files).run.run []).1 = .ok mss.flatten :=
    Definitions.load_eq (Definitions.definitions_of_nodup h hn) hn []
  cases hl : (Definitions.load [] files).run.run [] with
  | mk result log =>
    rw [hl] at hload
    cases hload
    rw [ofFiles, hl]

/-- **How definitions are spread over files does not matter.**  Two lists of well-formed files that
write the same definitions, each alias once, are both accepted or both refused.  If they are
accepted, the catalogs have the same aliases up to their order and the same type under each, and
whatever is compiled is the same. -/
theorem ofFiles_order {files files' : List SourceFile} {mss mss' : List Definitions}
    (h : List.Forall₂ Definitions.FileDefines files mss)
    (h' : List.Forall₂ Definitions.FileDefines files' mss')
    (hn : (mss.flatten.map (·.1)).Nodup) (hp : mss.flatten.Perm mss'.flatten) :
    ((∃ c, (ofFiles files).1 = .ok c) ↔ ∃ c', (ofFiles files').1 = .ok c') ∧
    ∀ c c', (ofFiles files).1 = .ok c → (ofFiles files').1 = .ok c' →
      c.aliases.Perm c'.aliases ∧
      (∀ aliasName, c.byAlias? aliasName = c'.byAlias? aliasName) ∧
      ∀ base options aliasName,
        (Compiler.ofCatalog c base options).compile aliasName =
          (Compiler.ofCatalog c' base options).compile aliasName ∧
        (Compiler.ofCatalog c base options).report aliasName =
          (Compiler.ofCatalog c' base options).report aliasName := by
  have hn' : (mss'.flatten.map (·.1)).Nodup := (hp.map _).nodup_iff.mp hn
  rw [ofFiles_eq h hn, ofFiles_eq h' hn']
  constructor
  · rw [exists_build_iff, exists_build_iff]
    exact ⟨fun hw => hw.perm hp hn, fun hw => hw.perm hp.symm hn'⟩
  · intro c c' hc hc'
    have htypes : c.types.Perm c'.types := types_perm hp hn hc hc'
    have haliases : c.aliases.Nodup := nodup_aliases_of_build hc hn
    have haccepted : c.Accepted := ⟨_, hc⟩
    have hsource : c.source = c'.source := source_eq htypes haliases haccepted.distinct.1
    refine ⟨htypes.map _, find?_perm htypes haliases, fun base options aliasName => ?_⟩
    rw [Compiler.ofCatalog, Compiler.ofCatalog, hsource]
    exact ⟨rfl, rfl⟩

/-- A type that refers to another one. -/
def post : String × TypeDefinition := ("post", { fields := [{ name := "by", type := "user" }] })

/-- The type that it refers to. -/
def user : String × TypeDefinition := ("user", { name := some "User" })

/-- The text of the first one. -/
def postText : String :=
  "\x7b\"types\":\x7b\"post\":\x7b\"fields\":[\x7b\"name\":\"by\",\"type\":\"user\"\x7d]\x7d\x7d\x7d"

/-- The text of the second one. -/
def userText : String := "\x7b\"types\":\x7b\"user\":\x7b\"name\":\"User\"\x7d\x7d\x7d"

/-- The text of both. -/
def bothText : String :=
  "\x7b\"types\":\x7b\"post\":\x7b\"fields\":[\x7b\"name\":\"by\",\"type\":\"user\"\x7d]\x7d," ++
    "\"user\":\x7b\"name\":\"User\"\x7d\x7d\x7d"

/-- One file with both types is as good as two files, the second type first: the types come in
another order, and compiling is the same. -/
theorem ofFiles_order_sample : ∃ c c' s,
    (ofFiles [("all", .ok bothText)]).1 = .ok c ∧ c.aliases = ["post", "user"] ∧
    (ofFiles [("b", .ok userText), ("a", .ok postText)]).1 = .ok c' ∧
      c'.aliases = ["user", "post"] ∧
    ((Compiler.ofCatalog c defaultBase {}).compile "post").1 = .ok s ∧
    (Compiler.ofCatalog c defaultBase {}).compile "post" =
      (Compiler.ofCatalog c' defaultBase {}).compile "post" := by
  have hboth : Definitions.ofText bothText = .ok [post, user] :=
    toOption_eq_some_iff.mp (by decide +kernel)
  have huser : Definitions.ofText userText = .ok [user] :=
    toOption_eq_some_iff.mp (by decide +kernel)
  have hpost : Definitions.ofText postText = .ok [post] :=
    toOption_eq_some_iff.mp (by decide +kernel)
  have hone : List.Forall₂ Definitions.FileDefines [("all", .ok bothText)] [[post, user]] :=
    .cons (.ofText hboth (by decide +kernel)) .nil
  have htwo : List.Forall₂ Definitions.FileDefines
      [("b", .ok userText), ("a", .ok postText)] [[user], [post]] :=
    .cons (.ofText huser (by decide +kernel)) (.cons (.ofText hpost (by decide +kernel)) .nil)
  obtain ⟨c, s, hc, haliases, hs⟩ : ∃ c s, build [post, user] = .ok c ∧
      c.aliases = ["post", "user"] ∧
      ((Compiler.ofCatalog c defaultBase {}).compile "post").1 = .ok s := ⟨_, _, rfl, rfl, rfl⟩
  obtain ⟨c', hc', haliases'⟩ : ∃ c', build [user, post] = .ok c' ∧
      c'.aliases = ["user", "post"] := ⟨_, rfl, rfl⟩
  have hfile : (ofFiles [("all", .ok bothText)]).1 = .ok c := (ofFiles_eq hone (by decide)).trans hc
  have hfiles : (ofFiles [("b", .ok userText), ("a", .ok postText)]).1 = .ok c' :=
    (ofFiles_eq htwo (by decide)).trans hc'
  obtain ⟨-, hsame⟩ := ofFiles_order hone htwo (by decide) (List.Perm.swap _ _ _)
  obtain ⟨-, -, hcompile⟩ := hsame c c' hfile hfiles
  exact ⟨c, c', s, hfile, haliases, hfiles, haliases', hs, (hcompile defaultBase {} "post").1⟩

end Catalog

end SchemaTree

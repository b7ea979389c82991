import SchemaTree.Proofs.Schema.Deferrals

/-!
# Replacing the deferred links of a tree

`Schema.replaceDeferred` puts a link in the place of every deferred link of a tree; which one
depends on the property of the field and on the reference.  **Headings, properties, the order of
fields and all other links stay**, at every depth, and nothing is done inside what was put in.

* `Schema.replaceDeferred_eq_self`: replacing deferred links by themselves changes nothing.
* `Schema.deferrals_replaceDeferred`: the deferred fields of the new tree, in order.
-/

namespace SchemaTree

mutual

/-- A schema with other links in the place of the deferred ones. -/
def Schema.replaceDeferred (new : Property → String → Link) : Schema → Schema
  | .mk h fields => .mk h (Field.replaceDeferredAll new fields)

def Field.replaceDeferredAll (new : Property → String → Link) : List Field → List Field
  | [] => []
  | f :: fs => f.replaceDeferred new :: Field.replaceDeferredAll new fs

def Field.replaceDeferred (new : Property → String → Link) : Field → Field
  | .mk p link => .mk p (link.replaceDeferred new p)

def Link.replaceDeferred (new : Property → String → Link) (p : Property) : Link → Link
  | .none => .none
  | .nested s => .nested (s.replaceDeferred new)
  | .deferred reference => new p reference

end

variable {new : Property → String → Link} {deferrals : Deferral → List Deferral}

/-- A replacement that leaves a deferred field as it is. -/
def Deferral.Stays (new : Property → String → Link) (e : Deferral) : Prop :=
  ∀ p r, p.object = e.1 → new p r = .deferred r

mutual

/-- **Replacing deferred links by themselves changes nothing.** -/
theorem Schema.replaceDeferred_eq_self : ∀ (s : Schema) (depth : Nat),
    (∀ e ∈ s.deferrals depth, e.Stays new) → s.replaceDeferred new = s
  | .mk h fields, depth, hs => by
    rw [Schema.replaceDeferred, Field.replaceDeferredAll_eq_self fields depth hs]

theorem Field.replaceDeferredAll_eq_self : ∀ (fs : List Field) (depth : Nat),
    (∀ e ∈ Field.deferralsAll depth fs, e.Stays new) → Field.replaceDeferredAll new fs = fs
  | [], _, _ => rfl
  | f :: fs, depth, hs => by
    obtain ⟨hf, hfs⟩ := List.forall_mem_append.mp hs
    rw [Field.replaceDeferredAll, f.replaceDeferred_eq_self depth hf,
      Field.replaceDeferredAll_eq_self fs depth hfs]

theorem Field.replaceDeferred_eq_self : ∀ (f : Field) (depth : Nat),
    (∀ e ∈ f.deferrals depth, e.Stays new) → f.replaceDeferred new = f
  | .mk p l, depth, hf => by rw [Field.replaceDeferred, l.replaceDeferred_eq_self p depth hf]

theorem Link.replaceDeferred_eq_self : ∀ (l : Link) (p : Property) (depth : Nat),
    (∀ e ∈ l.deferrals p.object depth, e.Stays new) → l.replaceDeferred new p = l
  | .none, _, _, _ => rfl
  | .nested s, _, depth, hs => by
    rw [Link.replaceDeferred, s.replaceDeferred_eq_self (depth + 1) hs]
  | .deferred r, p, _, hr => hr _ List.mem_cons_self p r rfl

end

/-- **In a tree without deferred links nothing is replaced.** -/
theorem Schema.replaceDeferred_of_not_hasDeferred {s : Schema} (h : s.hasDeferred = false) :
    s.replaceDeferred new = s := by
  refine s.replaceDeferred_eq_self 0 fun e he => ?_
  rw [Schema.deferrals_eq_nil h 0] at he
  exact absurd he List.not_mem_nil

/-- The deferred fields in the links of a replacement, by the deferred fields that they replace. -/
def Deferral.Become (new : Property → String → Link) (deferrals : Deferral → List Deferral) :
    Prop :=
  ∀ p r depth, (new p r).deferrals p.object depth = deferrals (p.object, depth)

mutual

/-- **The deferred fields of the new tree** are those of the new links, in order. -/
theorem Schema.deferrals_replaceDeferred (h : Deferral.Become new deferrals) :
    ∀ (s : Schema) (depth : Nat),
      (s.replaceDeferred new).deferrals depth = (s.deferrals depth).flatMap deferrals
  | .mk _ fields, depth => Field.deferralsAll_replaceDeferredAll h fields depth

theorem Field.deferralsAll_replaceDeferredAll (h : Deferral.Become new deferrals) :
    ∀ (fs : List Field) (depth : Nat),
      Field.deferralsAll depth (Field.replaceDeferredAll new fs) =
        (Field.deferralsAll depth fs).flatMap deferrals
  | [], _ => rfl
  | f :: fs, depth => by
    rw [Field.replaceDeferredAll, Field.deferralsAll, Field.deferralsAll, List.flatMap_append,
      f.deferrals_replaceDeferred h depth, Field.deferralsAll_replaceDeferredAll h fs depth]

theorem Field.deferrals_replaceDeferred (h : Deferral.Become new deferrals) :
    ∀ (f : Field) (depth : Nat),
      (f.replaceDeferred new).deferrals depth = (f.deferrals depth).flatMap deferrals
  | .mk p l, depth => l.deferrals_replaceDeferred h p depth

theorem Link.deferrals_replaceDeferred (h : Deferral.Become new deferrals) :
    ∀ (l : Link) (p : Property) (depth : Nat),
      (l.replaceDeferred new p).deferrals p.object depth =
        (l.deferrals p.object depth).flatMap deferrals
  | .none, _, _ => rfl
  | .nested s, _, depth => s.deferrals_replaceDeferred h (depth + 1)
  | .deferred r, p, depth => by
    rw [Link.replaceDeferred, h, Link.deferrals, List.flatMap_singleton]

end

end SchemaTree

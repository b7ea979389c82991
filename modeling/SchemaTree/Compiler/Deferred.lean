import SchemaTree.Compiler.Walk

/-!
# Resolving deferred links

Where references cannot be followed, every deferred link can be replaced by the
flat schema of its type (`Compiler.resolve`), or only those to one type.  The
flat schemas have deferred links of their own, so **the result is free of
references only if there was none to begin with**.

`Compiler.compile` does this at the end if the options ask for it.
-/

namespace SchemaTree

namespace Compiler

/-- Whether a deferred field to a type is meant. -/
def isMeant (only : Option TypeId) (t : TypeId) : Bool :=
  match only with
  | some wanted => wanted = t
  | none => true

mutual

/-- Resolves the deferred links of a schema. -/
def resolveSchema (c : Compiler) (only : Option TypeId) : Schema → Traced Schema
  | .mk h fields => return .mk h (← c.resolveFields only fields)

def resolveFields (c : Compiler) (only : Option TypeId) : List Field → Traced (List Field)
  | [] => return []
  | f :: fs => do
    let f ← c.resolveField only f
    return f :: (← c.resolveFields only fs)

def resolveField (c : Compiler) (only : Option TypeId) : Field → Traced Field
  | .mk p l => return .mk p (← c.resolveLink only p l)

/-- The link of a property after resolution; a schema without deferred links is left alone. -/
def resolveLink (c : Compiler) (only : Option TypeId) (p : Property) : Link → Traced Link
  | .none => return .none
  | .nested s =>
    if s.hasDeferred then return .nested (← c.resolveSchema only s) else return .nested s
  | .deferred reference =>
    match p.object with
    | none => return .deferred reference
    | some t =>
      if isMeant only t then return .nested (← c.flat t) else return .deferred reference

end

/-- Resolves the deferred links of a schema, or only those to one type. -/
def resolve (c : Compiler) (only : Option TypeId) (s : Schema) : Outcome Schema :=
  (c.resolveSchema only s).outcome {}

/-- Compiles the type of an alias as the options ask for. -/
def compile (c : Compiler) (aliasName : String) : Outcome Schema :=
  match c.report aliasName with
  | (.error e, trace) => (.error e, trace)
  | (.ok r, trace) =>
    match c.options.policy with
    | .reference => (.ok r.schema, trace)
    | .flatten => (c.resolveSchema none r.schema).outcome trace

end Compiler

end SchemaTree

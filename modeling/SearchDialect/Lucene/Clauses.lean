import SearchDialect.Lucene
import SearchDialect.Text.Split

/-!
# Clauses by nested document

The filters of a request are sorted into clauses: one for the document itself, and one for each path
of nested documents. A filter belongs where the first property that it mentions lies. Within a
clause the conditions keep their order, and the paths keep the order of their first use.
-/

namespace SearchDialect.Lucene

open Text

/-- The clauses of a request's filters. -/
structure Clauses where
  /-- The condition on the document itself. -/
  root? : Option String := none
  /-- The conditions on nested documents, with their paths. -/
  nested : List (String × String) := []
deriving DecidableEq, Repr

namespace Clauses

/-- The condition on the nested documents at a path. -/
def at? (cs : Clauses) (path : String) : Option String :=
  (cs.nested.find? (·.1 == path)).map (·.2)

def isEmpty (cs : Clauses) : Bool := cs.root?.isNone && cs.nested.isEmpty

end Clauses

/-- The path of the nested document that a property lies in: all its names but the last. -/
def nestedPath? (property : String) : Option String :=
  match (split '.' property.toList).reverse with
  | _ :: name :: names => some (String.ofList (join ['.'] (name :: names).reverse))
  | _ => none

/-- The path of the nested document that a filter belongs to. -/
def home? (f : Filter) : Option String :=
  (f.walk.find? (!·.isBlank)).bind fun g => nestedPath? g.property

/-- Adds a condition to those of a path, which comes last if it is new. -/
def addAt (path condition : String) : List (String × List String) → List (String × List String)
  | [] => [(path, [condition])]
  | (p, cs) :: rest =>
    if p = path then (p, cs ++ [condition]) :: rest else (p, cs) :: addAt path condition rest

/-- Conditions that all have to hold. -/
def joinConditions (cs : List String) : String := joinStrings " AND " cs

/-- Clauses of conditions with the paths they belong to. -/
def sortClauses (conditions : List (Option String × String)) : Clauses :=
  let root := conditions.filterMap fun c => if c.1.isNone then some c.2 else none
  let nested := conditions.foldl (fun acc c =>
    match c.1 with
    | none => acc
    | some path => addAt path c.2 acc) []
  { root? := if root.isEmpty then none else some (joinConditions root)
    nested := nested.map fun p => (p.1, joinConditions p.2) }

variable {ι : Type}

/-- The clauses of some filters. Filters that say nothing belong nowhere. -/
def clauses (family : Family ι) (m : Model ι) (fs : List Filter) : Except ModelError Clauses := do
  let conditions ← fs.mapM fun f => do
    let c ← condition family m f
    return (home? f, c)
  let said := conditions.filter (!·.2.isEmpty)
  return sortClauses (said.map fun c => (c.1, "(" ++ c.2 ++ ")"))

end SearchDialect.Lucene

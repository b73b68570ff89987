import SearchDialect.Filter.Basic
import SearchDialect.Model.Path

/-!
# Conditions in a query language

A filter is written as a sequence of tokens: comparisons, connectives and parentheses. A query
language says how it writes one comparison, how it writes a connective, and whether a linked filter
gets parentheses; the order of the tokens is the same in all languages.
-/

namespace SearchDialect

/-- A token of a condition. The text of a comparison is one token. -/
inductive Token where
  | comparison (text : String)
  | connective (c : Connective)
  | opening
  | closing
deriving DecidableEq, Repr

/-- How a query language writes conditions. -/
structure Dialect where
  /-- The text of a comparison of a property, of a kind, with a value. -/
  compare : String → Kind → Comparison → Literal → String
  /-- The word of a connective. -/
  word : Connective → String
  /-- Whether a linked filter with links of its own gets parentheses even where nothing stands
  before it. -/
  groupsFirst : Bool

namespace Dialect

variable {ι : Type} (d : Dialect) (family : Family ι) (m : Model ι)

/-- The text of a token. Connectives stand between blanks. -/
def tokenText : Token → String
  | .comparison text => text
  | .connective c => " " ++ d.word c ++ " "
  | .opening => "("
  | .closing => ")"

/-- The tokens of a filter's own comparison: none if it has no property. -/
def own (property : String) (c : Comparison) (v : Literal) : Except ModelError (List Token) :=
  if property.isEmpty then .ok []
  else do
    let kind ← m.kindAt family property
    return [.comparison (d.compare property kind c v)]

/-- The tokens of a linked filter, after those written before it. -/
def linked (written : List Token) (c : Connective) (hasLinks : Bool) (inner : List Token) :
    List Token :=
  let started := !written.isEmpty
  let unit :=
    if hasLinks && (started || d.groupsFirst) then .opening :: (inner ++ [.closing]) else inner
  written ++ (if started then [.connective c] else []) ++ unit

mutual

/-- The tokens of a filter: its own comparison, and the filters of its links in order. -/
def tokens : Filter → Except ModelError (List Token)
  | .node p c v _ _ ls => do
    let written ← d.own family m p c v
    linkTokens written ls

/-- The tokens of some links, after those written before them. -/
def linkTokens (written : List Token) : List (Connective × Filter) → Except ModelError (List Token)
  | [] => .ok written
  | (c, f) :: ls => do
    let inner ← tokens f
    linkTokens (d.linked written c (!f.links.isEmpty) inner) ls

end

def text (ts : List Token) : String := String.join (ts.map d.tokenText)

/-- The condition of a filter; empty if the filter says nothing. -/
def condition (f : Filter) : Except ModelError String := do
  let ts ← d.tokens family m f
  return d.text ts

end Dialect

end SearchDialect

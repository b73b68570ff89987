import SearchDialect.Model.Basic
import SearchDialect.Record.Shape

/-!
# A storefront

A small family of models: products with nested items, items with their makers. It shows what models
can say, and it is at hand where a concrete model is needed.
-/

namespace SearchDialect.Storefront

open Number

/-- The models of the storefront. -/
inductive Name where
  | product
  | item
  | maker
deriving DecidableEq, Repr

/-- A whole number as a double. -/
def whole (n : Nat) : Double := Double.ofInt n

/-- A property of a type with attributes. -/
def property (name : String) (type : MemberType Name) (attributes? : Option Attributes) :
    Member Name :=
  { name, role := .property, type? := some type, attributes? }

/-- A field of a type with attributes. -/
def field (name : String) (type : MemberType Name) (attributes? : Option Attributes) :
    Member Name :=
  { name, role := .field, type? := some type, attributes? }

/-- The attributes of a property that is only filtered on. -/
def filtered : Option Attributes := some { isFilterable := true }

def productMembers : List (Member Name) := [
  property "Id" (.value .string) (some { isKey := true, isFilterable := true }),
  property "Name" (.value .string) (some {
    isSearchable := true, boost := whole 2, isSortable := true, forSuggestions := true,
    analyzer := some "en.microsoft" }),
  property "Description" (.value .string) (some { isSearchable := true }),
  property "IsActive" (.value .bool) filtered,
  property "Price" (.value .double) (some {
    isFilterable := true, isSortable := true, isFacetable := true,
    ranges := [whole 10, whole 100] }),
  property "Brand" (.value .string) (some { isFilterable := true, isFacetable := true }),
  property "Stock" (.value .int) (some {}),
  field "Views" (.value .long) none,
  property "TestNullableInt" (.nullable (.value .int)) filtered,
  property "TestEnumProperty" (.enumeration "TestEnum") filtered,
  property "Created" (.value .datetime) filtered,
  property "Grade" (.value .char) none,
  field "Tags" (.list (.value .string)) (some { isFacetable := true }),
  property "Items" (.list (.object .item)) (some { isNested := true }),
  property "Main" (.nullable (.object .item)) none,
  { property "Secret" (.value .string) none with ignored := true },
  { name := "Describe", role := .method, type? := none },
  { name := "new", role := .constructor, type? := none },
  { name := "Changed", role := .event, type? := none }]

def itemMembers : List (Member Name) := [
  property "Category" (.value .string) (some { isFilterable := true, isFacetable := true }),
  property "Count" (.nullable (.value .int)) (some {
    isFilterable := true, isFacetable := true,
    ranges := [whole 1, Double.ofDecimal false 55 (-1), whole 20] }),
  property "Weight" (.value .double) none,
  property "Added" (.nullable (.value .datetime)) none,
  property "Maker" (.list (.nullable (.object .maker))) none,
  { name := "Rebuild", role := .method, type? := none }]

def makerMembers : List (Member Name) := [
  property "Code" (.value .char) (some { isKey := true }),
  property "Title" (.value .string) (some {
    isSearchable := true, boost := Double.ofDecimal false 5 (-1) }),
  property "Founded" (.value .long) none]

def family : Family Name
  | .product => { name := "Product", indexName? := some "products", members := productMembers }
  | .item => { name := "Item", members := itemMembers }
  | .maker => { name := "Maker", indexName? := some "makers", members := makerMembers }

def names : List Name := [.product, .item, .maker]

def itemShape : Shape :=
  .record "Item" [("Category", .text, none), ("Count", .optional .int32, none)]

def productShape : Shape :=
  .record "Product" [("Id", .text, none), ("Name", .text, none),
    ("IsActive", .truth, some (.bool false)), ("Price", .number, some (.double Double.zero)),
    ("Brand", .optional .text, some .null), ("TestNullableInt", .optional .int32, some .null),
    ("Items", .list itemShape, some (.arr []))]

end SearchDialect.Storefront

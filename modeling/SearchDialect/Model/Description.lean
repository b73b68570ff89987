import SearchDialect.Json.Basic
import SearchDialect.Model.Basic
import SearchDialect.Text.Inspected

/-!
# Models described

Models, members and their types in words and as JSON, for whoever looks into them.
-/

namespace SearchDialect

def Kind.title : Kind → String
  | int => "Int"
  | long => "Long"
  | double => "Double"
  | bool => "Bool"
  | string => "String"
  | datetime => "DateTime"
  | char => "Char"

def MemberRole.title : MemberRole → String
  | field => "Field"
  | property => "Property"
  | method => "Method"
  | constructor => "Constructor"
  | event => "Event"

def MemberType.describe {ι : Type} (family : Family ι) : MemberType ι → String
  | value k => "Primitive(" ++ k.title ++ ")"
  | enumeration name => "Enum(" ++ Text.inspect name ++ ")"
  | nullable inner => "Nullable(" ++ inner.describe family ++ ")"
  | list inner => "List(" ++ inner.describe family ++ ")"
  | object i => "Object(" ++ Text.inspect ("<" ++ (family i).name ++ ">") ++ ")"

def Attributes.toJson (a : Attributes) : Json :=
  .object [("is_key", .bool a.isKey), ("is_searchable", .bool a.isSearchable),
    ("synonym_maps", .arr (a.synonymMaps.map .str)), ("searchable_boost", .ofDouble a.boost),
    ("is_filterable", .bool a.isFilterable), ("is_sortable", .bool a.isSortable),
    ("is_facetable", .bool a.isFacetable), ("is_nested", .bool a.isNested),
    ("analyzer", .ofString? a.analyzer), ("search_analyzer", .ofString? a.searchAnalyzer),
    ("index_analyzer", .ofString? a.indexAnalyzer),
    ("use_for_suggestions", .bool a.forSuggestions),
    ("facetable_ranges", .arr (a.ranges.map .ofDouble))]

/-- A model in short, as JSON: names of the model, its index, its key and its members. -/
def Model.summary {ι : Type} (m : Model ι) : Json :=
  .object [("name", .str m.name), ("index_name", .ofString? m.indexName?),
    ("key", .ofString? m.keyName?), ("members", .arr (m.members.map fun x => .str x.name))]

end SearchDialect

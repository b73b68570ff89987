import SearchDialect.Filter.Parameter
import SearchDialect.Request.Basic

/-!
# Requests as query strings

Filters, limit, offset, orderings and free text of a request as URL parameters. The reader takes the
parameters in any order, starts from the default request and ignores parameters it does not know.
-/

namespace SearchDialect

open Text Number

namespace Request

/-- Values that are written in place of a request's own. -/
structure Overrides where
  text? : Option String := none
  limit? : Option UInt64 := none
  offset? : Option UInt64 := none
  orderBy? : Option (List OrderBy) := none
  /-- A filter to add at the end. -/
  add? : Option Filter := none
  /-- The tag of filters to leave out. -/
  removeTag? : Option String := none
deriving Inhabited

/-- A request with overrides put in place. -/
def override (r : Request) (o : Overrides) : Request :=
  { r with
    text := o.text?.getD r.text
    limit := o.limit?.getD r.limit
    offset := o.offset?.getD r.offset
    orderBy := o.orderBy?.getD r.orderBy
    filters := Filter.revise r.filters o.add? o.removeTag? }

def queryChars (r : Request) : List Char :=
  "&filters=".toList ++ Filter.toParameter r.filters ++
    "&limit=".toList ++ toDigits r.limit.toNat ++
    "&offset=".toList ++ toDigits r.offset.toNat ++
    "&orderBy=".toList ++ urlEncode (OrderBy.listChars r.orderBy) ++
    "&searchText=".toList ++ urlEncode r.text.toList

def writeQuery (r : Request) (o : Overrides) : String := String.ofList (queryChars (r.override o))

/-- Replaces the filters by those of a parameter value. No text leaves them as they are. -/
def readFilters (r : Request) (cs : List Char) : Except FormatError Request :=
  if cs.isEmpty then .ok r
  else (Filter.ofParameter cs).map fun fs => { r with filters := fs }

/-- Adds the orderings of a text. -/
def readOrderBy (r : Request) (cs : List Char) : Request :=
  r.withOrderings (OrderBy.listOfChars cs)

/-- The count that a parameter has to be. -/
def readCount (parameter : String) (cs : List Char) : Except FormatError UInt64 :=
  match readUInt64? cs with
  | some n => .ok n
  | none => .error (.invalidShape (.badCount parameter (String.ofList cs)))

/-- Takes one parameter into a request. -/
def readParameter (r : Request) (key value : List Char) : Except FormatError Request :=
  if key = "filters".toList then r.readFilters value
  else if key = "limit".toList then (readCount "limit" value).map fun n => { r with limit := n }
  else if key = "offset".toList then (readCount "offset" value).map fun n => { r with offset := n }
  else if key = "orderBy".toList then (urlDecode value).map r.readOrderBy
  else if key = "searchText".toList then
    (urlDecode value).map fun t =>
      if t.isEmpty then r else { r with text := String.ofList t }
  else .ok r

/-- The key and the value of a parameter; without an equals sign the value is empty. -/
def keyValue (cs : List Char) : List Char × List Char := (splitFirst? '=' cs).getD (cs, [])

/-- The parameters of a query string. Question marks and ampersands may stand before them. -/
def parameters (cs : List Char) : List (List Char) :=
  (split '&' (cs.dropWhile fun c => c == '?' || c == '&')).filter (!·.isEmpty)

/-- Takes parameters into a request, one after the other. -/
def readParameters (r : Request) : List (List Char) → Except FormatError Request
  | [] => .ok r
  | p :: ps => do
    let (key, value) := keyValue p
    let r ← r.readParameter key value
    readParameters r ps

def ofQueryChars (cs : List Char) : Except FormatError Request :=
  readParameters {} (parameters cs)

def readQuery (s : String) : Except FormatError Request := ofQueryChars s.toList

end Request

end SearchDialect

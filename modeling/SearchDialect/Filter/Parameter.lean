import SearchDialect.Filter.Json
import SearchDialect.Text.Percent
import SearchDialect.Text.StandIn

/-!
# Filters in a URL

A list of filters as the value of a URL parameter: its JSON text, with tokens in place of the
structural characters, URL encoded. The reader undoes the three steps in reverse order.
-/

namespace SearchDialect

namespace Filter

/-- A list of filters without those of a tag, and with one more at its end. -/
def revise (fs : List Filter) (add? : Option Filter) (removeTag? : Option String) : List Filter :=
  let kept := match removeTag? with
    | none => fs
    | some tag => fs.filter fun f => f.tag? != some tag
  kept ++ add?.toList

def toParameter (fs : List Filter) : List Char :=
  Text.urlEncode (Text.putStandIns (listToText fs))

/-- The parameter value of a list of filters after a revision. -/
def writeParameter (fs : List Filter) (add? : Option Filter) (removeTag? : Option String) :
    String :=
  String.ofList (toParameter (revise fs add? removeTag?))

/-- The filters of a parameter value. No text means no filters. -/
def ofParameter (cs : List Char) : Except FormatError (List Filter) :=
  if cs.isEmpty then .ok []
  else do
    let decoded ← Text.urlDecode cs
    listOfText (Text.takeStandIns decoded)

def readParameter (s : String) : Except FormatError (List Filter) := ofParameter s.toList

end Filter

end SearchDialect

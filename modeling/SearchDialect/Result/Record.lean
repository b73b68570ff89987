import SearchDialect.Json.Printer
import SearchDialect.Result.Report

/-!
# Records of an answer

A record is read from a document of a backend's answer by a decoder. A fault names the position of
the record and, where the model has a key, the key of the document.
-/

namespace SearchDialect

/-- Reads a record from a document. A failure tells its reason. -/
abbrev Decoder (α : Type) := Json → Except String α

/-- The text of a key: that of a text, or the JSON of any other value. -/
def keyText : Json → String
  | .str s => s
  | j => j.text

/-- Reads the record of a document at a position. -/
def readRecord {α : Type} (decode : Decoder α) (keyName? : Option String) (position : Nat)
    (document : Json) : Except QueryError α :=
  (decode document).mapError
    (.undecodable position ((keyName?.bind document.get?).map keyText))

end SearchDialect

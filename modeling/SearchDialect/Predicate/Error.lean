import SearchDialect.Literal.Conversion
import SearchDialect.Model.Error

/-!
# Faults of predicates
-/

namespace SearchDialect

/-- What the reader of predicates meets where something else is due. -/
inductive SyntaxFault where
  | unexpectedEnd
  | unexpected (c : Char)
  | unclosed
  | noMemberName
  | unterminatedText
  | unterminatedEscape
  | badNumber (text : String)
  | badTime (text : String) (fault : Time.Fault)
deriving DecidableEq, Repr

/-- Why a predicate cannot be read or turned into a filter. -/
inductive CompileError where
  /-- An expression that is no condition stands where one is due. -/
  | notACondition (description : String)
  /-- An expression that has no value stands where one is due. -/
  | notAnOperand (description : String)
  /-- The left operand of a comparison is no member. -/
  | notAMember (description : String)
  | noConversion (value : Literal) (kind : Kind)
  | callFailed (function reason : String)
  /-- The text is no predicate; the position counts bytes. -/
  | badSyntax (position : Nat) (fault : SyntaxFault)
  | model (error : ModelError)
deriving DecidableEq

def SyntaxFault.message : SyntaxFault → String
  | .unexpectedEnd => "unexpected end of input"
  | .unexpected c => "unexpected '" ++ String.singleton c ++ "'"
  | .unclosed => "expected ')'"
  | .noMemberName => "expected a member name after '.'"
  | .unterminatedText => "unterminated string"
  | .unterminatedEscape => "unterminated escape"
  | .badNumber text => "invalid number '" ++ text ++ "'"
  | .badTime text fault => "invalid date-time '" ++ text ++ "': " ++ fault.message

def CompileError.message : CompileError → String
  | .notACondition d => "Unsupported expression: " ++ d ++ " cannot be used as a condition"
  | .notAnOperand d => "Unsupported expression: " ++ d ++ " cannot be used as a value"
  | .notAMember d => "Left operand of a comparison must be a member access, found " ++ d
  | .noConversion v k =>
    "Cannot convert " ++ v.typeName ++ " " ++ v.display ++ " to " ++ k.name
  | .callFailed f reason => "Method '" ++ f ++ "' failed: " ++ reason
  | .badSyntax position fault =>
    "Syntax error at position " ++ Number.natText position ++ ": " ++ fault.message
  | .model error => error.message

end SearchDialect

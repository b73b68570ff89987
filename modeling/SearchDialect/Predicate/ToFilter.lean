import SearchDialect.Model.Path
import SearchDialect.Predicate.Error
import SearchDialect.Predicate.Expr

/-!
# From predicates to filters

A predicate that is built of comparisons of a member with a value becomes a filter: a comparison
becomes a condition, and a connective links the filter of its right side to the filter of its left
side. The first fault from left to right is told; inside a comparison the shape of the left side
comes first, then its path, then the value of the right side.
-/

namespace SearchDialect

namespace Literal

/-- A literal brought to a target, or the fault that there is no conversion. -/
def convert (v : Literal) (target : Target) : Except CompileError Literal :=
  match v.convert? target with
  | some r => .ok r
  | none => .error (.noConversion v target.kind)

end Literal

namespace Expr

variable {ι : Type}

/-- The path of a left operand; conversions around it are looked through. -/
def path : Expr → Except CompileError String
  | member p => .ok p
  | convert operand _ => operand.path
  | e => .error (.notAMember e.describe)

/-- Applies a function, naming it in the fault if it fails. -/
def applyFunction (name : String) (function : Function) (values : List Literal) :
    Except CompileError Literal :=
  (function values).mapError (.callFailed name)

mutual

/-- The value of a right operand. -/
def evaluate : Expr → Except CompileError Literal
  | constant v => .ok v
  | convert operand target => do (← evaluate operand).convert target
  | call name function (some receiver) arguments => do
    let first ← evaluate receiver
    let values ← evaluateAll arguments
    applyFunction name function (first :: values)
  | call name function none arguments => do
    let values ← evaluateAll arguments
    applyFunction name function values
  | member p => .error (.notAnOperand (member p).describe)
  | compare c l r => .error (.notAnOperand (compare c l r).describe)
  | logical c l r => .error (.notAnOperand (logical c l r).describe)

/-- The values of some operands, from left to right. -/
def evaluateAll : List Expr → Except CompileError (List Literal)
  | [] => .ok []
  | e :: es => do
    let v ← evaluate e
    let vs ← evaluateAll es
    return v :: vs

end

/-- The filter of a predicate over a model. -/
def toFilter (family : Family ι) (m : Model ι) : Expr → Except CompileError Filter
  | compare c left right => do
    let p ← left.path
    let _ ← (m.kindAt family p).mapError .model
    let v ← right.evaluate
    return .condition p c v
  | logical c left right => do
    let head ← toFilter family m left
    let tail ← toFilter family m right
    return head.link c tail
  | e => .error (.notACondition e.describe)

end Expr

end SearchDialect

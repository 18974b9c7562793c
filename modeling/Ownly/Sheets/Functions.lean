import Ownly.Sheets.Formula

-- evaluateFunction of formulas.ts: its arguments are evaluated as expressions before the
-- function is looked at. The aggregates of numbers are all that is spelled out of it.
namespace Ownly.Sheets.Formula
open Collab (Text)
open Spill (Scalar EvalArray FormulaEvalResult toScalar)

def splitLoop : Text → Text → Int → Bool → List Text
  | [],current,_,_ => if trim current = [] then [] else [current]
  | '"' :: raw,current,depth,inString => splitLoop raw (current ++ ['"']) depth (!inString)
  | c :: raw,current,depth,inString =>
    let depth := if inString then depth else if c = '(' then depth + 1 else if c = ')' then depth - 1 else depth
    if inString = false ∧ depth = 0 ∧ (c = ',' ∨ c = ';') then current :: splitLoop raw [] depth inString
    else splitLoop raw (current ++ [c]) depth inString

def splitFunctionArgs (raw : Text) : List Text := splitLoop raw [] 0 false

-- A sum on the way; from the first one that overflows on it stays infinite.
inductive Total where
  | finite (n : Rat)
  | infinite (negative : Bool)

def Total.add : Total → Rat → Total
  | .finite sum,n => ((Double.round (sum + n)).map Total.finite).getD (.infinite (decide (sum + n < 0)))
  | .infinite negative,_ => .infinite negative

def Total.divide : Total → Nat → Total
  | .finite n,count => ((Double.round (n / count)).map Total.finite).getD (.infinite (decide (n < 0)))
  | .infinite negative,_ => .infinite negative

def called (value : Scalar) : Called := .result (.scalar value)

def Total.called : Total → Called
  | .finite n => Formula.called (.number n)
  | .infinite negative => .notFinite (textOf (if negative then "-Infinity" else "Infinity"))

def sumOf (numericArgs : List Rat) : Total := numericArgs.foldl Total.add (.finite 0)

def medianOf (numericArgs : List Rat) : Called :=
  let sorted := numericArgs.mergeSort (fun left right => decide (left ≤ right))
  let mid := sorted.length / 2
  if sorted = [] then called (.text (textOf "#NUM!"))
  else if sorted.length % 2 = 0 then (((Total.finite (sorted[mid - 1]?.getD 0)).add (sorted[mid]?.getD 0)).divide 2).called
  else called (.number (sorted[mid]?.getD 0))

def aggregate (upper : Text) (numericArgs : List Rat) : Option Called :=
  if upper = textOf "SUM" then some (sumOf numericArgs).called
  else if upper = textOf "AVERAGE" then
    some (if numericArgs = [] then called (.text (textOf "#DIV/0!")) else ((sumOf numericArgs).divide numericArgs.length).called)
  else if upper = textOf "COUNT" then some (called (.number numericArgs.length))
  else if upper = textOf "MIN" then some (called (.number (numericArgs.min?.getD 0)))
  else if upper = textOf "MAX" then some (called (.number (numericArgs.max?.getD 0)))
  else if upper = textOf "MEDIAN" then some (medianOf numericArgs)
  else none

-- The other functions are `other`, with their arguments as they were typed and as they came out.
def evaluateFunction (env : Env) (evaluate : Text → Reading FormulaEvalResult) (other : Text → Text → List Scalar → Reading Called)
    (name argsRaw : Text) : Reading Called := do
  let args ← (splitFunctionArgs argsRaw).mapM (fun arg => do pure (toScalar (← evaluate (trim arg))))
  match aggregate (name.map Char.toUpper) (args.filterMap (coerceNumber env)) with
  | some result => pure result
  | none => other (name.map Char.toUpper) argsRaw args

def evaluate (host : Host) (other : Text → Text → List Scalar → Reading Called) (sheetIndex : Nat) : Nat → Text → Reading FormulaEvalResult
  | 0,_ => pure error
  | fuel + 1,expression =>
    evaluateExpression host (evaluateFunction host.env (evaluate host other sheetIndex fuel) other) sheetIndex expression

end Ownly.Sheets.Formula

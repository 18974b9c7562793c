import Ownly.Sheets.Spill
import Ownly.Sheets.Ranges
import Ownly.Lib.Doubles
import Ownly.Lib.Rewrite

-- evaluateExpression of formulas.ts: the text of a formula is rewritten step by step until
-- what is left can be evaluated as JavaScript. Cells are asked for on the way.
namespace Ownly.Sheets.Formula
open Collab (Text)
open Spill (Scalar EvalArray FormulaEvalResult toScalar)
open Rewrite (Pattern rewrite replace)

-- What `Function(…)()` gives; a number that is not finite is none.
inductive JsValue where
  | number (n : Option Rat)
  | text (t : Text)
  | bool (b : Bool)
  | null
  -- `String(…)` of anything else
  | other (text : Text)

structure Position where
  sheetIndex : Nat
  row : Nat
  col : Nat
  deriving DecidableEq, Repr

abbrev Reading := Asking Position Scalar

structure Host where
  env : Env
  sheetNames : List Text
  -- `Function("\"use strict\"; return (…);")()`, none where it throws
  evaluateJs : Text → Option JsValue

-- An engine that evaluates arithmetic and nothing else.
def arithmeticHost : Host :=
  ⟨plainEnv,[],fun text => (JsArith.eval Double.numbers ('(' :: (text ++ [')']))).map .number⟩

-- What evaluateFunction gives: a number that is not finite stands by its text.
inductive Called where
  | result (value : FormulaEvalResult)
  | notFinite (text : Text)

def error : FormulaEvalResult := .scalar (.text (textOf "#ERROR!"))

def divisionError : FormulaEvalResult := .scalar (.text (textOf "#DIV/0!"))

def isWord (c : Char) : Bool := c.isAlphanum || decide (c = '_')

def after : Text → Text → Option Text
  | [],text => some text
  | _ :: _,[] => none
  | c :: word,d :: text => if c = d then after word text else none

-- /"([^"]*)"/
def quotedText : Pattern Char Text
  | _,'"' :: text =>
    if '"' ∈ text then some ((text.takeWhile (fun c => decide (c ≠ '"'))).length + 2,text.takeWhile (fun c => decide (c ≠ '"')))
    else none
  | _,_ => none

-- /__STR(\d+)__/ and /__ARR(\d+)__/
def marker (kind : Text) : Pattern Char Text := fun _ text =>
  (after ('_' :: '_' :: kind) text).bind (fun rest =>
    if rest.takeWhile Char.isDigit = [] then none
    else (after ['_','_'] (rest.dropWhile Char.isDigit)).map (fun _ =>
      ((rest.takeWhile Char.isDigit).length + kind.length + 4,rest.takeWhile Char.isDigit)))

def marked (kind : Text) (index : Nat) : Text := '_' :: '_' :: (kind ++ Nat.toDigits 10 index ++ ['_','_'])

def str : Text := ['S','T','R']

def arr : Text := ['A','R','R']

-- The index in a text that is one marker and nothing else.
def soleMarker (kind text : Text) : Option Nat :=
  ((marker kind none text).filter (fun found => decide (found.1 = text.length))).map (fun found => Double.valueOf found.2)

-- /[^()]*(?:\([^()]*\)[^()]*)*/ up to the parenthesis that closes it.
def argumentsOf : Bool → Text → Option Text
  | _,[] => none
  | false,')' :: _ => some []
  | false,'(' :: text => (argumentsOf true text).map ('(' :: ·)
  | true,')' :: text => (argumentsOf false text).map (')' :: ·)
  | true,'(' :: _ => none
  | nested,c :: text => (argumentsOf nested text).map (c :: ·)

def isNamePart (c : Char) : Bool := isWord c || decide (c = '.')

-- /([A-Za-z_][A-Za-z0-9_.]*)\((…)\)/
def functionCall : Pattern Char (Text × Text) := fun _ text =>
  if text.head?.any (fun c => c.isAlpha || decide (c = '_')) then
    match text.dropWhile isNamePart with
    | '(' :: rest => (argumentsOf false rest).map (fun args =>
        ((text.takeWhile isNamePart).length + args.length + 2,(text.takeWhile isNamePart,args)))
    | _ => none
  else none

-- /[A-Za-z]+\d+/
def bareRef (text : Text) : Option Text :=
  let letters := text.takeWhile Char.isAlpha
  let digits := (text.dropWhile Char.isAlpha).takeWhile Char.isDigit
  if letters = [] ∨ digits = [] then none else some (letters ++ digits)

def dollar : Text → Text
  | '$' :: _ => ['$']
  | _ => []

-- /\$?[A-Za-z]+\$?\d+/
def dollarRef (text : Text) : Option Text :=
  let letters := (withoutDollar text).takeWhile Char.isAlpha
  let rest := (withoutDollar text).dropWhile Char.isAlpha
  let digits := (withoutDollar rest).takeWhile Char.isDigit
  if letters = [] ∨ digits = [] then none else some (dollar text ++ letters ++ dollar rest ++ digits)

def rangeOf (ref : Text → Option Text) (text : Text) : Option Text :=
  (ref text).bind (fun start => match text.drop start.length with
    | ':' :: rest => (ref rest).map (fun stop => start ++ ':' :: stop)
    | _ => none)

-- /[^']*(?:''[^']*)*'/
def quotedName : Text → Option Text
  | '\'' :: '\'' :: text => (quotedName text).map (fun name => '\'' :: '\'' :: name)
  | '\'' :: _ => some ['\'']
  | c :: text => (quotedName text).map (c :: ·)
  | [] => none

def sheetPart : Text → Option Text
  | '\'' :: text => (quotedName text).map ('\'' :: ·)
  | text => if text.takeWhile isWord = [] then none else some (text.takeWhile isWord)

def qualified (ref : Text → Option Text) (text : Text) : Option Text :=
  (sheetPart text).bind (fun name => match text.drop name.length with
    | '!' :: rest => (ref rest).map (fun refPart => name ++ '!' :: refPart)
    | _ => none)

def whole (find : Text → Option Text) : Pattern Char Text := fun _ text => (find text).map (fun found => (found.length,found))

def matchesWord : Text → Text → Option Text
  | [],text => some text
  | _ :: _,[] => none
  | c :: word,d :: text => if c = d.toLower then matchesWord word text else none

-- /\bword\b/i
def word (w : Text) : Pattern Char Unit := fun behind text =>
  (matchesWord w text).bind (fun rest =>
    if behind.all (fun c => !isWord c) && rest.head?.all (fun c => !isWord c) then some (w.length,()) else none)

def trueWord : Text := ['t','r','u','e']

def falseWord : Text := ['f','a','l','s','e']

def nullWord : Text := ['n','u','l','l']

def parseCellRef (raw : Text) : Option (Nat × Nat) :=
  let body := withoutDollar (trim raw)
  let letters := body.takeWhile Char.isAlpha
  let digits := withoutDollar (body.dropWhile Char.isAlpha)
  if letters = [] ∨ digits = [] ∨ ¬digits.all Char.isDigit then none
  else if Double.valueOf digits = 0 ∨ Double.round (Double.valueOf digits) = none then none
  else some (Double.valueOf digits - 1,columnLettersToIndex letters)

def parseRangeRef (raw : Text) : Option GridRange :=
  match raw.splitOn ':' with
  | [first,second] => (parseCellRef first).bind (fun start => (parseCellRef second).map (fun stop =>
      GridRange.normalize ⟨⟨start.1,start.2⟩,⟨stop.1,stop.2⟩⟩))
  | _ => none

def unquoteName (name : Text) : Text :=
  if name.head? = some '\'' ∧ name.getLast? = some '\'' then
    replace (fun _ text => (after ['\'','\''] text).map (fun _ => (2,()))) (fun _ => ['\'']) none name.tail.dropLast
  else name

def splitSheetQualifiedToken (host : Host) (activeSheetIndex : Nat) (raw : Text) : Nat × Text :=
  let refPart := (trim raw).rtakeWhile (fun c => decide (c ≠ '!'))
  if '!' ∈ trim raw then
    let sheetName := unquoteName (trim ((trim raw).take ((trim raw).length - refPart.length - 1)))
    ((host.sheetNames.findIdx? (fun name => decide (host.env.toLowerCase name = host.env.toLowerCase sheetName))).getD activeSheetIndex,
      trim refPart)
  else (activeSheetIndex,trim raw)

-- NaN is none.
def coerceNumber (env : Env) : Scalar → Option Rat
  | .number n => some n
  | .bool b => some (if b then 1 else 0)
  | .null => some 0
  | .text [] => some 0
  | .text ('#' :: _) => none
  | .text t => env.number (t.filter (fun c => !(['$',',','%'].contains c || isSpace c)))

def cellsOf (range : GridRange) : List (Nat × Nat) :=
  (List.range' range.start.row (range.stop.row + 1 - range.start.row)).flatMap (fun row =>
    (List.range' range.start.col (range.stop.col + 1 - range.start.col)).map (fun col => (row,col)))

def getRawCellValue (sheetIndex : Nat) (p : Nat × Nat) : Reading Scalar := Asking.answer ⟨sheetIndex,p.1,p.2⟩

def collectRangeValues (sheetIndex : Nat) (range : GridRange) : Reading (List Scalar) :=
  (cellsOf range.normalize).mapM (getRawCellValue sheetIndex)

def sumText (values : List Rat) : Text :=
  if values = [] then ['0'] else ['+'].intercalate (values.map Double.text)

def rangeText (env : Env) (sheetIndex : Nat) (found refPart : Text) : Reading Text :=
  match parseRangeRef refPart with
  | none => pure found
  | some range => do
    let values ← collectRangeValues sheetIndex range
    pure (sumText (values.filterMap (coerceNumber env)))

def substituted (env : Env) : Scalar → Text
  | .text ('#' :: _) => ['0']
  | .number n => Double.text n
  | .bool b => if b then ['1'] else ['0']
  | .null => ['0']
  | .text t => match coerceNumber env (.text t) with
    | some n => Double.text n
    | none => '"' :: (t ++ ['"'])

def cellText (env : Env) (sheetIndex : Nat) (found refPart : Text) : Reading Text :=
  match parseCellRef refPart with
  | none => pure found
  | some p => do
    let value ← getRawCellValue sheetIndex p
    pure (substituted env value)

def withoutDollars (text : Text) : Text := text.filter (fun c => decide (c ≠ '$'))

def pass (find : Text → Option Text) (out : Text → Reading Text) (text : Text) : Reading Text := do
  let (result,_) ← rewrite (whole find) (fun (_ : Unit) found => do pure (← out found,())) () none 0 text
  pure result

def qualifiedOut (host : Host) (sheetIndex : Nat) (out : Env → Nat → Text → Text → Reading Text) (found : Text) : Reading Text :=
  out host.env (splitSheetQualifiedToken host sheetIndex found).1 found
    (withoutDollars (splitSheetQualifiedToken host sheetIndex found).2)

-- Ranges before cells, and those of other sheets before those of this one.
def substituteReferences (host : Host) (sheetIndex : Nat) (expr : Text) : Reading Text := do
  let expr ← pass (qualified (rangeOf dollarRef)) (qualifiedOut host sheetIndex rangeText) expr
  let expr ← pass (rangeOf bareRef) (fun found => rangeText host.env sheetIndex found found) expr
  let expr ← pass (qualified dollarRef) (qualifiedOut host sheetIndex cellText) expr
  pass bareRef (fun found => cellText host.env sheetIndex found found) expr

def collectStrings (expr : Text) : Text × List Text :=
  Id.run (rewrite quotedText (fun strings value => pure (marked str strings.length,strings ++ [value])) [] none 0 expr)

def doubleQuotes (value : Text) : Text := value.flatMap (fun c => if c = '"' then ['"','"'] else [c])

def resolveArgs (strings : List Text) (args : Text) : Text :=
  replace (marker str) (fun digits => match strings[Double.valueOf digits]? with
    | some value => '"' :: (doubleQuotes value ++ ['"'])
    | none => '_' :: '_' :: (str ++ digits ++ ['_','_'])) none args

def escapeQuotes (value : Text) : Text := value.flatMap (fun c => if c = '"' then ['\\','"'] else [c])

def calledText : Called → Text
  | .notFinite text => text
  | .result value => match toScalar value with
    | .text ('#' :: t) => '"' :: '#' :: (t ++ ['"'])
    | .text t => '"' :: (escapeQuotes t ++ ['"'])
    | .bool b => if b then trueWord else falseWord
    | .null => nullWord
    | .number n => Double.text n

def callFunction (call : Text → Text → Reading Called) (strings : List Text) (arrayResults : List EvalArray)
    (found : Text × Text) : Reading (Text × List EvalArray) := do
  let value ← call found.1 (resolveArgs strings found.2)
  match value with
  | .result (.array result) => pure (marked arr arrayResults.length,arrayResults ++ [result])
  | value => pure (calledText value,arrayResults)

def restoreStrings (strings : List Text) (expr : Text) : Text :=
  replace (marker str) (fun digits => '"' :: ((strings[Double.valueOf digits]?).getD (textOf "undefined") ++ ['"'])) none expr

def lowerBooleans (expr : Text) : Text :=
  replace (word falseWord) (fun _ => falseWord) none (replace (word trueWord) (fun _ => trueWord) none expr)

def concatenation (expr : Text) : Text := expr.map (fun c => if c = '&' then '+' else c)

def sanitized (expr : Text) : Text :=
  replace (fun behind text => (word trueWord behind text).or ((word falseWord behind text).or (word nullWord behind text)))
    (fun _ => ['0']) none (replace quotedText (fun _ => ['"','"']) none expr)

def allowed (c : Char) : Bool :=
  c.isDigit || ['+','-','*','/','(',')','.',',','"','<','>','!','=','&','|'].contains c || isSpace c

-- /([^<>=!])=([^=])/
def loneEquals : Pattern Char (Char × Char)
  | _,a :: '=' :: b :: _ => if ['<','>','=','!'].contains a ∨ b = '=' then none else some (3,(a,b))
  | _,_ => none

def leadingEquals : Text → Text
  | '=' :: b :: text => if b = '=' then '=' :: b :: text else '=' :: '=' :: '=' :: b :: text
  | text => text

def jsExpr (expr : Text) : Text :=
  leadingEquals (replace loneEquals (fun pair => [pair.1,'=','=','=',pair.2]) none
    (replace (fun _ text => (after ['<','>'] text).map (fun _ => (2,()))) (fun _ => ['!','=','=']) none expr))

def unquoteEnds (t : Text) : Text :=
  let rest := if t.head? = some '"' then t.tail else t
  if rest.getLast? = some '"' then rest.dropLast else rest

def ofJs : Option JsValue → FormulaEvalResult
  | none => error
  | some (.number none) => divisionError
  | some (.number (some n)) => .scalar (.number n)
  | some (.bool b) => .scalar (.bool b)
  | some (.text t) => .scalar (.text (unquoteEnds t))
  | some .null => .scalar .null
  | some (.other t) => .scalar (.text t)

def evaluateText (host : Host) (expr : Text) : FormulaEvalResult :=
  if (sanitized expr).all allowed then ofJs (host.evaluateJs (jsExpr expr)) else error

def evaluateExpression (host : Host) (call : Text → Text → Reading Called) (sheetIndex : Nat) (expression : Text) :
    Reading FormulaEvalResult :=
  let expr := trim expression
  if expr = [] then pure (.scalar .null)
  else if expr.map Char.toLower = trueWord then pure (.scalar (.bool true))
  else if expr.map Char.toLower = falseWord then pure (.scalar (.bool false))
  else
    let (expr,strings) := collectStrings expr
    match (soleMarker str expr).bind (strings[·]?) with
    | some value => pure (.scalar (.text value))
    | none => do
      let (expr,arrayResults) ← rewrite functionCall (callFunction call strings) [] none 0 expr
      match soleMarker arr (trim expr) with
      | some index => pure (((arrayResults[index]?).map .array).getD (.scalar .null))
      | none => do
        let expr ← substituteReferences host sheetIndex expr
        pure (evaluateText host (concatenation (restoreStrings strings (lowerBooleans expr))))

end Ownly.Sheets.Formula

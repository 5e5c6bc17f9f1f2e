import Stencil.Print.Source
import Stencil.Proofs.Lexing.Streams
import Stencil.Proofs.Lexing.TemplateText
/-!
# The tokens of printed code

Which tokens the text of an expression, a statement or a chunk consists of. The definitions follow
those of the printer: where it writes a blank there is nothing here, and where it writes a line break
no token is said to be joined to the one before.
-/

set_option autoImplicit false

namespace Stencil.Print

open Stencil.Syntax
open Stencil.Lexing (Face)

/-- A bracket, separator or point. -/
def mark (c : Char) : Face := { kind := .punctuation c }

/-- An operator, of symbols or a word. -/
def operator (spelling : String) : Face := { kind := .operator spelling }

/-- A keyword. -/
def keyword (keyword : Keyword) : Face := { kind := .keyword keyword }

/-- A name, as it stands for itself. -/
def named (name : String) : Face := { kind := .name name }

/-- A word whatever it is: a name, a reserved word or a constant. -/
def word (word : String) : Face := { kind := wordKind word }

/-- Tokens in parentheses. -/
def enclosed (faces : List Face) : List Face := mark '(' :: (faces ++ [mark ')'])

/-- Tokens in braces. -/
def braced (faces : List Face) : List Face := mark '\x7b' :: (faces ++ [mark '\x7d'])

/-- Tokens in parentheses where they bind more weakly than their place asks for. -/
def guardedFaces (least actual : Nat) (faces : List Face) : List Face :=
  if actual < least then enclosed faces else faces

/-- Token sequences with a comma between each two. -/
def commaFaces : List (List Face) → List Face
  | [] => []
  | [last] => last
  | first :: second :: rest => first ++ mark ',' :: commaFaces (second :: rest)

/-- The token of the key of a property. -/
def keyFace (key : String) : Face :=
  if Text.isName key.toList then word key else { kind := .string key }

/-- Names with a comma between each two. -/
def nameFaces (names : List String) : List Face :=
  commaFaces (names.map fun name => [named name])

/-- The tokens, of which the first follows the one before without a line break. -/
def joinedFirst : List Face → List Face
  | [] => []
  | first :: rest => { first with joined := true } :: rest

/-- The token of the label of a jump, if it has one. -/
def labelFaces : Option String → List Face
  | none => []
  | some label => [{ kind := .name label, joined := true }]

/-- The semicolon at the end of a statement. -/
def ending : List Face := [mark ';']

mutual

/-- The tokens of an expression, at a place that asks for the given strength. -/
def exprFaces (least : Nat) : Expr → List Face
  | .num _ value => guardedFaces least primaryLevel [{ kind := .num value }]
  | .string _ text => guardedFaces least primaryLevel [{ kind := .string text }]
  | .name _ name => guardedFaces least primaryLevel [named name]
  | .atom _ atom => guardedFaces least primaryLevel [{ kind := .atom atom }]
  | .regexp _ pattern flags =>
    guardedFaces least primaryLevel (enclosed [{ kind := .regexp pattern flags }])
  | .array _ items =>
    guardedFaces least primaryLevel (mark '[' :: (commaFaces (exprsFaces items) ++ [mark ']']))
  | .object _ properties =>
    guardedFaces least primaryLevel (braced (commaFaces (propertiesFaces properties)))
  | .function _ function => guardedFaces least primaryLevel (functionFaces function)
  | .dot _ target property =>
    let faces :=
      if isNumber target then enclosed (exprFaces sequenceLevel target)
      else exprFaces memberLevel target
    guardedFaces least memberLevel (faces ++ [mark '.', word property])
  | .sub _ target index =>
    guardedFaces least memberLevel
      (exprFaces memberLevel target ++ mark '[' :: (exprFaces sequenceLevel index ++ [mark ']']))
  | .call _ callee args =>
    guardedFaces least memberLevel
      (exprFaces memberLevel callee ++ enclosed (commaFaces (exprsFaces args)))
  | .new _ callee args =>
    let faces :=
      if hasCall callee then enclosed (exprFaces sequenceLevel callee)
      else exprFaces memberLevel callee
    guardedFaces least memberLevel
      (operator "new" :: (faces ++ enclosed (commaFaces (exprsFaces args))))
  | .prefixOp _ op operand =>
    guardedFaces least prefixLevel (operator op.spelling :: exprFaces prefixLevel operand)
  | .postfixOp _ op operand =>
    guardedFaces least postfixLevel
      (exprFaces memberLevel operand ++ [{ kind := .operator op.spelling, joined := true }])
  | .binary _ op left right =>
    let level := binaryLevel + op.precedence
    guardedFaces least level
      (exprFaces level left ++ operator op.spelling :: exprFaces (level + 1) right)
  | .conditional _ test yes no =>
    guardedFaces least conditionalLevel
      (exprFaces binaryLevel test ++ operator "?" ::
        (exprFaces assignmentLevel yes ++ mark ':' :: exprFaces assignmentLevel no))
  | .assign _ op target value =>
    let symbol :=
      match op with
      | none => "="
      | some op => op.spelling ++ "="
    guardedFaces least assignmentLevel
      (exprFaces binaryLevel target ++ operator symbol :: exprFaces assignmentLevel value)
  | .seq _ first rest =>
    guardedFaces least sequenceLevel
      (exprFaces assignmentLevel first ++ mark ',' :: exprFaces sequenceLevel rest)

/-- The tokens of each expression of a list. -/
def exprsFaces : List Expr → List (List Face)
  | [] => []
  | e :: rest => exprFaces assignmentLevel e :: exprsFaces rest

/-- The tokens of a property of an object literal. -/
def propertyFaces : Property → List Face
  | .init key value => keyFace key :: mark ':' :: exprFaces assignmentLevel value
  | .getter key function => named "get" :: word key :: functionTailFaces function
  | .setter key function => named "set" :: word key :: functionTailFaces function

/-- The tokens of each property of a list. -/
def propertiesFaces : List Property → List (List Face)
  | [] => []
  | p :: rest => propertyFaces p :: propertiesFaces rest

/-- The tokens of a function with its keyword and name. -/
def functionFaces : Function → List Face
  | .mk none params body => keyword .function :: (enclosed (nameFaces params) ++ braced (stmtsFaces body))
  | .mk (some name) params body =>
    keyword .function :: named name :: (enclosed (nameFaces params) ++ braced (stmtsFaces body))

/-- The tokens of the parameters and the body of a function. -/
def functionTailFaces : Function → List Face
  | .mk _ params body => enclosed (nameFaces params) ++ braced (stmtsFaces body)

/-- The tokens of statements, one after the other. -/
def stmtsFaces : List Stmt → List Face
  | [] => []
  | s :: rest => stmtFaces s ++ stmtsFaces rest

/-- The tokens of an expression that may be absent. -/
def optionalFaces : Option Expr → List Face
  | none => []
  | some e => exprFaces sequenceLevel e

/-- The tokens of each variable of a declaration. -/
def varDefsFaces : List VarDef → List (List Face)
  | [] => []
  | .mk name none :: rest => [named name] :: varDefsFaces rest
  | .mk name (some value) :: rest =>
    (named name :: operator "=" :: exprFaces assignmentLevel value) :: varDefsFaces rest

/-- The tokens of each variable of a declaration that may stand in the head of a loop. -/
def loopVarDefsFaces : List VarDef → List (List Face)
  | [] => []
  | .mk name none :: rest => [named name] :: loopVarDefsFaces rest
  | .mk name (some value) :: rest =>
    let faces :=
      if containsIn value then enclosed (exprFaces sequenceLevel value)
      else exprFaces assignmentLevel value
    (named name :: operator "=" :: faces) :: loopVarDefsFaces rest

/-- The tokens of the head of a loop. -/
def headFaces : ForHead → List Face
  | .var defs => keyword .var :: commaFaces (loopVarDefsFaces defs)
  | .expr value =>
    if containsIn value then enclosed (exprFaces sequenceLevel value)
    else exprFaces sequenceLevel value

/-- The tokens of the branches of a switch. -/
def casesFaces : List SwitchCase → List Face
  | [] => []
  | .mk none body :: rest =>
    keyword .default :: mark ':' :: (stmtsFaces body ++ casesFaces rest)
  | .mk (some test) body :: rest =>
    keyword .case :: (exprFaces sequenceLevel test ++ mark ':' :: (stmtsFaces body ++ casesFaces rest))

/-- The tokens of a statement. -/
def stmtFaces : Stmt → List Face
  | .block _ body => braced (stmtsFaces body)
  | .expression _ value =>
    (if needsGuard (exprText sequenceLevel value) then enclosed (exprFaces sequenceLevel value)
      else exprFaces sequenceLevel value) ++ ending
  | .var _ defs => keyword .var :: (commaFaces (loopVarDefsFaces defs) ++ ending)
  | .const _ defs => keyword .const :: (commaFaces (varDefsFaces defs) ++ ending)
  | .ifElse _ condition thenBranch elseBranch =>
    keyword .if :: (enclosed (exprFaces sequenceLevel condition) ++ stmtFaces thenBranch
      ++ match elseBranch with
        | none => []
        | some branch => keyword .else :: stmtFaces branch)
  | .for _ head test step body =>
    keyword .for :: mark '(' ::
      ((match head with
        | none => []
        | some head => headFaces head)
        ++ mark ';' :: (optionalFaces test ++ mark ';' :: (optionalFaces step
          ++ mark ')' :: stmtFaces body)))
  | .forIn _ head object body =>
    keyword .for :: mark '(' ::
      (headFaces head ++ operator "in" :: (exprFaces sequenceLevel object
        ++ mark ')' :: stmtFaces body))
  | .while _ condition body =>
    keyword .while :: (enclosed (exprFaces sequenceLevel condition) ++ stmtFaces body)
  | .doWhile _ body condition =>
    keyword .do :: (stmtFaces body ++ keyword .while ::
      (enclosed (exprFaces sequenceLevel condition) ++ ending))
  | .switch _ discriminant cases =>
    keyword .switch :: (enclosed (exprFaces sequenceLevel discriminant)
      ++ braced (casesFaces cases))
  | .tryCatch _ body handler finalizer =>
    keyword .try :: (braced (stmtsFaces body)
      ++ (match handler with
        | none => []
        | some (.mk name body) => keyword .catch :: (enclosed [named name] ++ braced (stmtsFaces body)))
      ++ match finalizer with
        | none => []
        | some body => keyword .finally :: braced (stmtsFaces body))
  | .defun _ function => functionFaces function
  | .return _ value => keyword .return :: (joinedFirst (optionalFaces value) ++ ending)
  | .break _ label => keyword .break :: (labelFaces label ++ ending)
  | .continue _ label => keyword .continue :: (labelFaces label ++ ending)
  | .labelled _ label body => named label :: mark ':' :: stmtFaces body
  | .throw _ value => keyword .throw :: (joinedFirst (exprFaces sequenceLevel value) ++ ending)
  | .with _ object body =>
    keyword .with :: (enclosed (exprFaces sequenceLevel object) ++ stmtFaces body)
  | .debugger _ => keyword .debugger :: ending

end

attribute [simp] exprFaces propertyFaces functionFaces casesFaces stmtFaces

/-! ## Lists -/

/-- Token sequences with commas between them: every one but the first comes behind a comma. -/
theorem commaFaces_cons (first : List Face) (others : List (List Face)) :
    commaFaces (first :: others) = first ++ others.flatMap (mark ',' :: ·) := by
  induction others generalizing first with
  | nil => simp [commaFaces]
  | cons second others ih => rw [commaFaces, ih, List.flatMap_cons, List.cons_append]

/-- The tokens of expressions are those of each. -/
theorem exprsFaces_eq (items : List Expr) :
    exprsFaces items = items.map (exprFaces assignmentLevel) := by
  induction items with
  | nil => rfl
  | cons e items ih => rw [exprsFaces, ih, List.map_cons]

/-- The tokens of properties are those of each. -/
theorem propertiesFaces_eq (properties : List Property) :
    propertiesFaces properties = properties.map propertyFaces := by
  induction properties with
  | nil => rfl
  | cons p properties ih => rw [propertiesFaces, ih, List.map_cons]

/-- The tokens of a variable; in the head of a loop a bare `in` would end it. -/
def varFaces (loop : Bool) : VarDef → List Face
  | .mk name none => [named name]
  | .mk name (some value) =>
    named name :: operator "=" ::
      (if loop && containsIn value then enclosed (exprFaces sequenceLevel value)
        else exprFaces assignmentLevel value)

/-- The tokens of a declaration are those of each variable. -/
theorem varDefsFaces_eq (defs : List VarDef) : varDefsFaces defs = defs.map (varFaces false) := by
  induction defs with
  | nil => rfl
  | cons d defs ih =>
    obtain ⟨name, value⟩ := d
    cases value with
    | none => rw [varDefsFaces, ih]; rfl
    | some value => rw [varDefsFaces, ih]; rfl

/-- The tokens of a declaration that may stand in the head of a loop are those of each variable. -/
theorem loopVarDefsFaces_eq (defs : List VarDef) :
    loopVarDefsFaces defs = defs.map (varFaces true) := by
  induction defs with
  | nil => rfl
  | cons d defs ih =>
    obtain ⟨name, value⟩ := d
    cases value with
    | none => rw [loopVarDefsFaces, ih]; rfl
    | some value => rw [loopVarDefsFaces, ih]; rfl

/-- The tokens of the head of a loop, if it has one. -/
def optionalHeadFaces : Option ForHead → List Face
  | none => []
  | some head => headFaces head

end Stencil.Print

/-! ## Chunks

The first token of a chunk is known to begin where the span of the chunk does, if it has one. -/

namespace Stencil.Print

open Stencil.Lexing
open Stencil.Syntax
open Stencil.Text (Position Span)

/-- The place where a chunk begins, if that is known. -/
def startOf (span : Option Span) : Option Position := span.map (·.start)

/-- The tokens of a command that begins a chunk. -/
def commandFaces (span : Option Span) (inner : List Face) : List Face :=
  markerFace (startOf span) .commandOpen :: (inner ++ [markerFace none .commandClose])

/-- The tokens of the marker that closes a block. -/
def closerFaces (name : Face) : List Face :=
  [markerFace none .closerOpen, name, markerFace none .commandClose]

/-- The tokens of the names that an iteration binds, if it lists any. -/
def bindingFaces : Option (List String) → List Face
  | none => []
  | some names => enclosed (nameFaces names)

/-- The tokens of the arguments of an inclusion, if it has any. -/
def argFaces : Option (List Expr) → List Face
  | none => []
  | some args => enclosed (commaFaces (exprsFaces args))

mutual

/-- The tokens of a chunk. -/
def chunkFaces : Chunk → List Face
  | .html span text => [textFace (startOf span) text]
  | .echo span value =>
    markerFace (startOf span) .echoOpen ::
      (exprFaces sequenceLevel value ++ [markerFace none .echoClose])
  | .include span args name =>
    commandFaces span (named "tmpl" :: (argFaces args ++ exprFaces sequenceLevel name))
  | .each span bindings collection body =>
    commandFaces span
        (named "each" :: (bindingFaces bindings ++ exprFaces sequenceLevel collection))
      ++ (chunksFaces body ++ closerFaces (named "each"))
  | .ifElse span condition thenBranch elseIfs elseBranch =>
    commandFaces span (keyword .if :: exprFaces sequenceLevel condition)
      ++ (chunksFaces thenBranch ++ (elseIfsFaces elseIfs
        ++ ((match elseBranch with
            | none => []
            | some branch => commandFaces none [keyword .else] ++ chunksFaces branch)
          ++ closerFaces (keyword .if))))
  | .rawHtml span value =>
    commandFaces span (named "html" :: exprFaces sequenceLevel value)
  | .layout span name =>
    commandFaces span (named "layout" :: exprFaces sequenceLevel name)
  | .var span defs => commandFaces span (keyword .var :: commaFaces (varDefsFaces defs))

/-- The tokens of chunks, one after the other. -/
def chunksFaces : List Chunk → List Face
  | [] => []
  | c :: rest => chunkFaces c ++ chunksFaces rest

/-- The tokens of conditional branches. -/
def elseIfsFaces : List ElseIf → List Face
  | [] => []
  | .mk condition body :: rest =>
    commandFaces none (keyword .else :: exprFaces sequenceLevel condition)
      ++ (chunksFaces body ++ elseIfsFaces rest)

end

attribute [simp] chunkFaces

/-- The tokens of the default branch of a conditional, if it has one. -/
def elseFaces : Option (List Chunk) → List Face
  | none => []
  | some branch => commandFaces none [keyword .else] ++ chunksFaces branch

/-- The tokens of a conditional. -/
theorem chunkFaces_ifElse (s : Option Span) (condition : Expr) (thenBranch : List Chunk)
    (elseIfs : List ElseIf) (elseBranch : Option (List Chunk)) :
    chunkFaces (.ifElse s condition thenBranch elseIfs elseBranch) =
      commandFaces s (keyword .if :: exprFaces sequenceLevel condition)
        ++ (chunksFaces thenBranch ++ (elseIfsFaces elseIfs
          ++ (elseFaces elseBranch ++ closerFaces (keyword .if)))) := by
  cases elseBranch <;> rfl

/-- The tokens of chunks are those of each. -/
theorem chunksFaces_eq (chunks : List Chunk) : chunksFaces chunks = chunks.flatMap chunkFaces := by
  induction chunks with
  | nil => rfl
  | cons c chunks ih => rw [chunksFaces, ih, List.flatMap_cons]

end Stencil.Print

import Stencil.Print.Layout
import Stencil.Syntax.Tree
import Stencil.Token.Command
import Stencil.Number.Text
import Stencil.Text.CharClass
import Stencil.Text.Quoted
/-!
# Trees as source text

Every tree has one canonical source text. Operands are put in parentheses where they bind more
weakly than their place asks for, and regular expressions always are. Text of a template is
wrapped in a verbatim block where it would be read differently as plain text.
-/

set_option autoImplicit false

namespace Stencil.Print

open Stencil.Syntax
open Stencil.Text (Span)

/-! ## Binding strength -/

/-- The strength that a place asks for: every expression may stand there. -/
def sequenceLevel : Nat := 0

/-- Everything but sequences may stand there. -/
def assignmentLevel : Nat := 1

/-- Conditional expressions, and what binds tighter, may stand there. -/
def conditionalLevel : Nat := 2

/-- Binary operators, and what binds tighter, may stand there. -/
def binaryLevel : Nat := 3

/-- Operands with an operator before them may stand there. -/
def prefixLevel : Nat := 14

/-- Operands with an operator behind them may stand there. -/
def postfixLevel : Nat := 15

/-- Member accesses and calls may stand there. -/
def memberLevel : Nat := 16

/-- Only literals and names may stand there. -/
def primaryLevel : Nat := 17

/-- How strongly an expression binds. -/
def strength : Expr → Nat
  | .seq .. => sequenceLevel
  | .assign .. => assignmentLevel
  | .conditional .. => conditionalLevel
  | .binary _ op _ _ => binaryLevel + op.precedence
  | .prefixOp .. => prefixLevel
  | .postfixOp .. => postfixLevel
  | .dot .. | .sub .. | .call .. | .new .. => memberLevel
  | _ => primaryLevel

/-- Whether a `new` in front of the expression would take the arguments of a call in it. -/
def hasCall : Expr → Bool
  | .call .. | .new .. => true
  | .dot _ target _ => hasCall target
  | .sub _ target _ => hasCall target
  | _ => false

/-- Whether the expression has an `in` that no bracket encloses. -/
def containsIn : Expr → Bool
  | .binary _ op left right => op = .in || containsIn left || containsIn right
  | .assign _ _ target value => containsIn target || containsIn value
  | .seq _ first rest => containsIn first || containsIn rest
  | .conditional _ test yes no => containsIn test || containsIn yes || containsIn no
  | .prefixOp _ _ operand => containsIn operand
  | .postfixOp _ _ operand => containsIn operand
  | _ => false

/-- Whether the expression is a number. -/
def isNumber : Expr → Bool
  | .num .. => true
  | _ => false

/-! ## Leaves -/

/-- A number literal; infinity is written as a number that is too great. -/
def numberText (value : Float) : String :=
  if value.isInf then "1e999" else Number.toText value

/-- The key of a property: bare where it is a name. -/
def keyText (key : String) : String :=
  if Text.isName key.toList then key else Text.Quoted.literal key

/-- Texts with a comma between each two. -/
def commaSeparated (texts : List String) : String :=
  String.intercalate ", " texts

/-- A text in parentheses. -/
def inParentheses (text : String) : String := "(" ++ text ++ ")"

/-- A text in parentheses where it binds more weakly than its place asks for. -/
def guarded (least actual : Nat) (text : String) : String :=
  if actual < least then inParentheses text else text

/-- A jump with its label, if it has one. -/
def jumpText (keyword : String) : Option String → String
  | none => keyword ++ ";"
  | some label => keyword ++ " " ++ label ++ ";"

/-- An operator before its operand. A blank keeps words, and signs that would grow together,
apart. -/
def prefixedText (op : UnaryOp) (operand : String) : String :=
  let apart :=
    match op with
    | .typeof | .void | .delete => true
    | .neg | .decrement => operand.toList.head? = some '-'
    | .plus | .increment => operand.toList.head? = some '+'
    | .not | .bitNot => false
  op.spelling ++ (if apart then " " else "") ++ operand

/-- Whether an expression statement with the given text would be read as a block or a function
declaration. -/
def needsGuard (text : String) : Bool :=
  "\x7b".toList.isPrefixOf text.toList || "function".toList.isPrefixOf text.toList

/-! ## Expressions and statements -/

mutual

/-- The text of an expression, at a place that asks for the given strength. -/
def exprText (least : Nat) : Expr → String
  | .num _ value => guarded least primaryLevel (numberText value)
  | .string _ text => guarded least primaryLevel (Text.Quoted.literal text)
  | .name _ name => guarded least primaryLevel name
  | .atom _ atom => guarded least primaryLevel atom.spelling
  | .regexp _ pattern flags =>
    guarded least primaryLevel (inParentheses ("/" ++ pattern ++ "/" ++ flags))
  | .array _ items => guarded least primaryLevel ("[" ++ commaSeparated (exprTexts items) ++ "]")
  | .object _ properties =>
    guarded least primaryLevel
      ("\x7b" ++ commaSeparated (propertyTexts properties) ++ "\x7d")
  | .function _ function => guarded least primaryLevel (inlineCode (functionPieces function))
  | .dot _ target property =>
    let text :=
      if isNumber target then inParentheses (exprText sequenceLevel target)
      else exprText memberLevel target
    guarded least memberLevel (text ++ "." ++ property)
  | .sub _ target index =>
    guarded least memberLevel
      (exprText memberLevel target ++ "[" ++ exprText sequenceLevel index ++ "]")
  | .call _ callee args =>
    guarded least memberLevel
      (exprText memberLevel callee ++ inParentheses (commaSeparated (exprTexts args)))
  | .new _ callee args =>
    let text :=
      if hasCall callee then inParentheses (exprText sequenceLevel callee)
      else exprText memberLevel callee
    guarded least memberLevel
      ("new " ++ text ++ inParentheses (commaSeparated (exprTexts args)))
  | .prefixOp _ op operand =>
    guarded least prefixLevel (prefixedText op (exprText prefixLevel operand))
  | .postfixOp _ op operand =>
    guarded least postfixLevel (exprText memberLevel operand ++ op.spelling)
  | .binary _ op left right =>
    let level := binaryLevel + op.precedence
    guarded least level
      (exprText level left ++ " " ++ op.spelling ++ " " ++ exprText (level + 1) right)
  | .conditional _ test yes no =>
    guarded least conditionalLevel
      (exprText binaryLevel test ++ " ? " ++ exprText assignmentLevel yes ++ " : "
        ++ exprText assignmentLevel no)
  | .assign _ op target value =>
    let symbol :=
      match op with
      | none => "="
      | some op => op.spelling ++ "="
    guarded least assignmentLevel
      (exprText binaryLevel target ++ " " ++ symbol ++ " " ++ exprText assignmentLevel value)
  | .seq _ first rest =>
    guarded least sequenceLevel
      (exprText assignmentLevel first ++ ", " ++ exprText sequenceLevel rest)

/-- The texts of the expressions of a list. -/
def exprTexts : List Expr → List String
  | [] => []
  | e :: rest => exprText assignmentLevel e :: exprTexts rest

/-- The text of a property of an object literal. -/
def propertyText : Property → String
  | .init key value => keyText key ++ ": " ++ exprText assignmentLevel value
  | .getter key function => "get " ++ key ++ inlineCode (functionTail function)
  | .setter key function => "set " ++ key ++ inlineCode (functionTail function)

/-- The texts of the properties of an object literal. -/
def propertyTexts : List Property → List String
  | [] => []
  | p :: rest => propertyText p :: propertyTexts rest

/-- A function with its keyword and name. -/
def functionPieces : Function → List Piece
  | .mk name params body =>
    let named :=
      match name with
      | none => "function"
      | some name => "function " ++ name
    [.text named, .text (inParentheses (commaSeparated params)), .text " "] ++ blockPieces body

/-- The parameters and the body of a function. -/
def functionTail : Function → List Piece
  | .mk _ params body =>
    [.text (inParentheses (commaSeparated params)), .text " "] ++ blockPieces body

/-- Statements in braces. -/
def blockPieces : List Stmt → List Piece
  | [] => [.text "\x7b\x7d"]
  | s :: rest =>
    [.text "\x7b", .indent, .newline] ++ stmtPieces s ++ linePieces rest
      ++ [.dedent, .newline, .text "\x7d"]

/-- Statements, each on a line of its own. -/
def linePieces : List Stmt → List Piece
  | [] => []
  | s :: rest => .newline :: (stmtPieces s ++ linePieces rest)

/-- The text of an expression that may be absent, with a blank before it. -/
def spacedText? : Option Expr → String
  | none => ""
  | some e => " " ++ exprText sequenceLevel e

/-- The texts of the variables of a declaration. -/
def varDefTexts : List VarDef → List String
  | [] => []
  | .mk name none :: rest => name :: varDefTexts rest
  | .mk name (some value) :: rest =>
    (name ++ " = " ++ exprText assignmentLevel value) :: varDefTexts rest

/-- The texts of the variables of a declaration that may stand in the head of a loop: there a
bare `in` would end it. -/
def loopVarDefTexts : List VarDef → List String
  | [] => []
  | .mk name none :: rest => name :: loopVarDefTexts rest
  | .mk name (some value) :: rest =>
    let text :=
      if containsIn value then inParentheses (exprText sequenceLevel value)
      else exprText assignmentLevel value
    (name ++ " = " ++ text) :: loopVarDefTexts rest

/-- The text of the head of a loop. -/
def headText : ForHead → String
  | .var defs => "var " ++ commaSeparated (loopVarDefTexts defs)
  | .expr value =>
    let text := exprText sequenceLevel value
    if containsIn value then inParentheses text else text

/-- The branches of a switch. -/
def casePieces : List SwitchCase → List Piece
  | [] => []
  | .mk test body :: rest =>
    [.newline,
      .text
        (match test with
        | none => "default:"
        | some test => "case " ++ exprText sequenceLevel test ++ ":"),
      .indent]
      ++ linePieces body ++ [.dedent] ++ casePieces rest

/-- A statement. -/
def stmtPieces : Stmt → List Piece
  | .block span body => .mark span :: blockPieces body
  | .expression span value =>
    let text := exprText sequenceLevel value
    [.mark span, .text (if needsGuard text then inParentheses text ++ ";" else text ++ ";")]
  | .var span defs =>
    [.mark span, .text ("var " ++ commaSeparated (loopVarDefTexts defs) ++ ";")]
  | .const span defs =>
    [.mark span, .text ("const " ++ commaSeparated (varDefTexts defs) ++ ";")]
  | .ifElse span condition thenBranch elseBranch =>
    [.mark span, .text ("if (" ++ exprText sequenceLevel condition ++ ") ")]
      ++ stmtPieces thenBranch
      ++ match elseBranch with
        | none => []
        | some branch => .text " else " :: stmtPieces branch
  | .for span head test step body =>
    [.mark span, .text "for (",
      .text
        (match head with
        | none => ""
        | some head => headText head),
      .text ";", .text (spacedText? test), .text ";", .text (spacedText? step), .text ") "]
      ++ stmtPieces body
  | .forIn span head object body =>
    [.mark span,
      .text ("for (" ++ headText head ++ " in " ++ exprText sequenceLevel object ++ ") ")]
      ++ stmtPieces body
  | .while span condition body =>
    [.mark span, .text ("while (" ++ exprText sequenceLevel condition ++ ") ")]
      ++ stmtPieces body
  | .doWhile span body condition =>
    [.mark span, .text "do "] ++ stmtPieces body
      ++ [.text (" while (" ++ exprText sequenceLevel condition ++ ");")]
  | .switch span discriminant cases =>
    [.mark span, .text ("switch (" ++ exprText sequenceLevel discriminant ++ ") \x7b")]
      ++ casePieces cases ++ [.newline, .text "\x7d"]
  | .tryCatch span body handler finalizer =>
    [.mark span, .text "try "] ++ blockPieces body
      ++ (match handler with
        | none => []
        | some (.mk name body) => .text (" catch (" ++ name ++ ") ") :: blockPieces body)
      ++ match finalizer with
        | none => []
        | some body => .text " finally " :: blockPieces body
  | .defun span function => .mark span :: functionPieces function
  | .return span value => [.mark span, .text ("return" ++ spacedText? value ++ ";")]
  | .break span label => [.mark span, .text (jumpText "break" label)]
  | .continue span label => [.mark span, .text (jumpText "continue" label)]
  | .labelled span label body => [.mark span, .text (label ++ ": ")] ++ stmtPieces body
  | .throw span value => [.mark span, .text ("throw " ++ exprText sequenceLevel value ++ ";")]
  | .with span object body =>
    [.mark span, .text ("with (" ++ exprText sequenceLevel object ++ ") ")] ++ stmtPieces body
  | .debugger span => [.mark span, .text "debugger;"]

end

/-! ## Chunks -/

/-- Whether a text holds a marker. -/
def holdsMarker : List Char → Bool
  | [] => false
  | c :: rest => startsMarker (c :: rest) || holdsMarker rest

/-- Whether a text would not be read back as one piece of template text: it is empty, it holds a
marker, or it ends in a dollar sign, which could begin one. -/
def needsVerbatim (text : String) : Bool :=
  let cs := text.toList
  cs.isEmpty || cs.getLast? = some '$' || holdsMarker cs

/-- A text of a template. Behind another text it would be read as one with that. -/
def htmlPieces (afterText : Bool) (text : String) : List Piece :=
  if afterText || needsVerbatim text then
    [.text "\x7b\x7bverbatim\x7d\x7d", .text text, .text "\x7b\x7b/verbatim\x7d\x7d"]
  else [.text text]

/-- A list of names in parentheses, if there is one. -/
def bindingsText : Option (List String) → String
  | none => ""
  | some names => inParentheses (commaSeparated names)

/-- A list of arguments in parentheses, if there is one. -/
def argsText : Option (List Expr) → String
  | none => ""
  | some args => inParentheses (commaSeparated (exprTexts args))

/-- Whether the chunk is text. -/
def isText : Chunk → Bool
  | .html .. => true
  | _ => false

mutual

/-- A chunk; the flag tells whether the chunk before it is text. -/
def chunkPieces (afterText : Bool) : Chunk → List Piece
  | .html span text => .mark span :: htmlPieces afterText text
  | .echo span value =>
    [.mark span, .text ("$\x7b" ++ exprText sequenceLevel value ++ "\x7d")]
  | .include span args name =>
    [.mark span,
      .text ("\x7b\x7btmpl" ++ argsText args ++ " " ++ exprText sequenceLevel name ++ "\x7d\x7d")]
  | .each span bindings collection body =>
    [.mark span,
      .text ("\x7b\x7beach" ++ bindingsText bindings ++ " " ++ exprText sequenceLevel collection
        ++ "\x7d\x7d")]
      ++ chunksPieces false body ++ [.text "\x7b\x7b/each\x7d\x7d"]
  | .ifElse span condition thenBranch elseIfs elseBranch =>
    [.mark span, .text ("\x7b\x7bif " ++ exprText sequenceLevel condition ++ "\x7d\x7d")]
      ++ chunksPieces false thenBranch ++ elseIfPieces elseIfs
      ++ (match elseBranch with
        | none => []
        | some branch => .text "\x7b\x7belse\x7d\x7d" :: chunksPieces false branch)
      ++ [.text "\x7b\x7b/if\x7d\x7d"]
  | .rawHtml span value =>
    [.mark span, .text ("\x7b\x7bhtml " ++ exprText sequenceLevel value ++ "\x7d\x7d")]
  | .layout span name =>
    [.mark span, .text ("\x7b\x7blayout " ++ exprText sequenceLevel name ++ "\x7d\x7d")]
  | .var span defs =>
    [.mark span, .text ("\x7b\x7bvar " ++ commaSeparated (varDefTexts defs) ++ "\x7d\x7d")]

/-- Chunks in their order. -/
def chunksPieces (afterText : Bool) : List Chunk → List Piece
  | [] => []
  | c :: rest => chunkPieces afterText c ++ chunksPieces (isText c) rest

/-- Conditional `{{else}}` branches. -/
def elseIfPieces : List ElseIf → List Piece
  | [] => []
  | .mk condition body :: rest =>
    .text ("\x7b\x7belse " ++ exprText sequenceLevel condition ++ "\x7d\x7d")
      :: (chunksPieces false body ++ elseIfPieces rest)

end

/-! ## Whole trees -/

/-- The style that is used where none is asked for. -/
def defaultStyle : Style := ⟨"  ", false⟩

/-- The source text of an expression. -/
def ofExpr (e : Expr) : String := exprText sequenceLevel e

/-- The source text of a script. -/
def ofProgram (style : Style) (program : Program) : Printed :=
  layOut style
    (match program.body with
    | [] => []
    | s :: rest => stmtPieces s ++ linePieces rest)

/-- The source text of a template. -/
def ofTemplate (style : Style) (template : Template) : Printed :=
  layOut style (chunksPieces false template.chunks)

end Stencil.Print

import Stencil.Analysis.Restriction
import Stencil.Print.Source
import Stencil.Render.Process
import Stencil.Value.Operation
import Stencil.Value.Property
/-!
# Evaluating expressions

Evaluation goes from left to right. It refuses every expression that templates do not allow, at
the moment it reaches it, and keeps the place of the expression it reached last for error
reports.
-/

set_option autoImplicit false

namespace Stencil.Render

open Stencil.Error (Kind)
open Stencil.Syntax
open Stencil.Text (Span)

/-- How templates are rendered. -/
structure Settings where
  /-- The directory before the names of templates in error reports. -/
  root : String := ""
  /-- Whether templates are parsed with positions. -/
  positions : Bool := true
  /-- A bound on the nesting of templates and on the items of one iteration. -/
  limit : Nat := 1000000

/-- Why rendering gives no text. -/
inductive Failure where
  /-- An error, to be reported. -/
  | failed (error : RenderError)
  /-- The bound of the settings was reached. -/
  | exhausted

/-- The state of one rendering. -/
structure State where
  scope : Scope
  /-- The number of the next array or object that is made, or of the next iteration. -/
  fresh : Nat
  /-- Values outside the scope that are still in use. -/
  inUse : List Value := []

/-- What a rendering in the state holds on to. -/
def State.holding (state : State) : Holding := ⟨state.scope.frames, state.inUse⟩

/-- A part of a rendering. The scope is kept also when it fails. -/
abbrev RenderM := ExceptT Failure (StateT State Process)

namespace RenderM

variable {α : Type}

/-- Asks for an answer. -/
def ask (r : Request) : RenderM r.Answer := do
  let state ← get
  ExceptT.lift (StateT.lift (Process.request state.holding r))

/-- The scope. -/
def scope : RenderM Scope := do
  return (← get).scope

/-- Changes the scope. -/
def modifyScope (f : Scope → Scope) : RenderM Unit :=
  modify fun state => { state with scope := f state.scope }

/-- Keeps the place of a construct. -/
def saveToken (span : Option Span) : RenderM Unit :=
  modifyScope (Scope.modifyFrame (Frame.saveToken · span))

/-- A number for a new array, object or iteration. -/
def freshIdentity : RenderM Nat :=
  modifyGet fun state => (state.fresh, { state with fresh := state.fresh + 1 })

/-- Runs a part of a rendering in a frame of its own, which is left also when it fails. -/
def within (frame : Frame) (body : RenderM α) : RenderM α :=
  ExceptT.mk do
    modify fun state => { state with scope := state.scope.push frame }
    let result ← body.run
    modify fun state => { state with scope := state.scope.pop }
    return result

/-- Runs a part of a rendering behind which values are still used. -/
def keeping (values : List Value) (body : RenderM α) : RenderM α :=
  ExceptT.mk do
    let before := (← get).inUse
    modify fun state => { state with inUse := values ++ before }
    let result ← body.run
    modify fun state => { state with inUse := before }
    return result

variable (settings : Settings)

/-- Fails with an error at the present place. -/
def failWith (kind : Kind) (message : String) (cause : Option String) : RenderM α := do
  let scope ← scope
  throw
    (.failed
      { kind, message, span := scope.frame.lastToken, stack := stackOf settings.root scope, cause })

/-- Fails with an error that nothing else caused. -/
def fail (kind : Kind) (message : String) : RenderM α :=
  failWith settings kind message none

/-- Takes an answer that may be a failure of the data. -/
def accept (answer : Except Cause α) : RenderM α :=
  match answer with
  | .ok result => return result
  | .error cause =>
    failWith settings (if cause.violation then .protocolViolation else .collaborator) cause.text
      (some cause.text)

/-- Refuses what templates do not evaluate. -/
def unsupported (what : String) : RenderM α :=
  fail settings .disallowedExpression ("unsupported " ++ what ++ " in template")

/-! ## Names and members -/

/-- Looks a name up along frames, in the locals of each and then in its data. A lookup that does
not know the name passes it on to the enclosing frame. -/
def resolveIn (name : String) : List Frame → RenderM Value
  | [] => fail settings .unresolvedName ("cannot resolve name '" ++ name ++ "'")
  | frame :: outer =>
    match frame.local? name with
    | some value => return value
    | none =>
      match frame.data with
      | .dynamic handle => do
        let value ← accept settings (← ask (.lookup handle name))
        if value.isUndefined then resolveIn name outer else return value
      | data =>
        match data.own? name with
        | some value => return value
        | none => resolveIn name outer

/-- The value of a name. -/
def resolve (name : String) : RenderM Value := do
  resolveIn settings name (← scope).frames

/-- The member of a value. A member that is absent is undefined. -/
def member (base : Value) (key : String) : RenderM Value :=
  match base with
  | .undefined | .null =>
    fail settings .notAnObject
      ("cannot read property '" ++ key ++ "' of " ++ base.display)
  | .dynamic handle => do
    accept settings (← keeping [base] (ask (.lookup handle key)))
  | base => return (base.own? key).getD .undefined

/-- Applies a value to arguments; the expression names it in the error. -/
def apply (function : Value) (callee : Expr) (args : List Value) : RenderM Value :=
  match function with
  | .function handle => do accept settings (← ask (.call handle args))
  | _ => fail settings .notCallable (Print.ofExpr callee ++ " is not a function")

/-! ## Expressions -/

/-- Keeps the place of an expression, and refuses it if templates do not allow it. -/
def guarded (e : Expr) (body : RenderM Value) : RenderM Value := do
  saveToken e.span
  match Restriction.of? e with
  | some restriction => fail settings .disallowedExpression restriction.message
  | none => body

/-- The value of a constant. -/
def constant : Atom → Value
  | .true => .bool true
  | .false => .bool false
  | .null => .null
  | .undefined => .undefined

/-- Applies an operator to its operand. -/
def applyUnary (op : UnaryOp) (operand : Value) : RenderM Value :=
  match op with
  | .not => return .bool !operand.truthy
  | .neg => return .number (-operand.toNumber)
  | .plus => return .number operand.toNumber
  | _ => unsupported settings op.spelling

/-- Applies an operator to its operands. -/
def applyBinary (op : BinaryOp) (left right : Value) : RenderM Value :=
  match Value.binary? op left right with
  | some value => return value
  | none => unsupported settings op.spelling

mutual

/-- Evaluates an expression. -/
def evaluate : Expr → RenderM Value
  | .num s value => guarded settings (.num s value) (return .number value)
  | .string s text => guarded settings (.string s text) (return .string text)
  | .atom s atom => guarded settings (.atom s atom) (return constant atom)
  | .name s name => guarded settings (.name s name) (resolve settings name)
  | .array s items => guarded settings (.array s items) do
    let values ← evaluateAll items
    return .array (← freshIdentity) values
  | .object s properties => guarded settings (.object s properties) do
    let entries ← evaluateProperties [] properties
    return .object (← freshIdentity) entries
  | .dot s target property => guarded settings (.dot s target property) do
    member settings (← evaluate target) property
  | .sub s target index => guarded settings (.sub s target index) do
    let base ← evaluate target
    let key ← keeping [base] (evaluate index)
    member settings base key.display
  | .call s callee args => guarded settings (.call s callee args) do
    let function ← evaluate callee
    let values ← keeping [function] (evaluateAll args)
    saveToken s
    apply settings function callee values
  | .prefixOp s op operand => guarded settings (.prefixOp s op operand) do
    applyUnary settings op (← evaluate operand)
  | .binary s op left right => guarded settings (.binary s op left right) do
    let first ← evaluate left
    match op with
    | .and => if first.truthy then keeping [first] (evaluate right) else return first
    | .or => if first.truthy then return first else keeping [first] (evaluate right)
    | op => applyBinary settings op first (← keeping [first] (evaluate right))
  | .conditional s test yes no => guarded settings (.conditional s test yes no) do
    if (← evaluate test).truthy then evaluate yes else evaluate no
  | .regexp s pattern flags =>
    guarded settings (.regexp s pattern flags) (unsupported settings "expression")
  | .new s callee args => guarded settings (.new s callee args) (unsupported settings "expression")
  | .postfixOp s op operand =>
    guarded settings (.postfixOp s op operand) (unsupported settings "expression")
  | .assign s op target value =>
    guarded settings (.assign s op target value) (unsupported settings "expression")
  | .seq s first rest => guarded settings (.seq s first rest) (unsupported settings "expression")
  | .function s fn => guarded settings (.function s fn) (unsupported settings "expression")

/-- Evaluates the expressions of a list. -/
def evaluateAll : List Expr → RenderM (List Value)
  | [] => return []
  | e :: rest => do
    let value ← evaluate e
    return value :: (← keeping [value] (evaluateAll rest))

/-- Evaluates the properties of an object literal and puts them behind those there are. An
accessor holds a function, which templates do not allow. -/
def evaluateProperties (entries : List (String × Value)) :
    List Property → RenderM (List (String × Value))
  | [] => return entries
  | .init key value :: rest => do
    let value ← keeping (entries.map (·.2)) (evaluate value)
    evaluateProperties (Table.put entries key value) rest
  | .getter .. :: _ | .setter .. :: _ =>
    fail settings .disallowedExpression Restriction.function.message

end

end RenderM

end Stencil.Render

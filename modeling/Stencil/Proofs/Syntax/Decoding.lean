import Stencil.Proofs.Syntax.Induction
import Stencil.Proofs.Syntax.Parts
import Stencil.Syntax.Encoding
/-!
# Reading what was written of a tree

Every tree comes back from its JSON form: `toTemplate_ofTemplate`, `toProgram_ofProgram` and
`toSingleExpr_ofExpr`. Numbers are left to the form they are carried in, so all that is asked of a
tree is that each number in it comes back by itself. `Returns` states the property for one kind of
node; it follows by induction over trees, with the depth that a reader is given as its bound.
-/

set_option autoImplicit false

namespace Stencil.Syntax

open Stencil.Text (Position Span)

/-- Whether the number of a part comes back from the form that numbers are carried in. -/
def Part.Carried (form : NumberForm) : Part → Prop
  | .expr (.num _ value) => form.read (form.write value) = some value
  | _ => True

namespace Encoding

/-! ## Nodes -/

theorem toPosition_ofPosition (p : Position) : toPosition (ofPosition p) = some p := rfl

theorem toSpan_ofSpan (s : Span) : toSpan (ofSpan s) = some s := rfl

/-- The span of a node is read back, also where there is none. -/
@[simp] theorem spanOf_node (span : Option Span) (kind : Json) :
    spanOf (node span kind) = some span := by
  cases span with
  | none => rfl
  | some s => rfl

/-- The name of a kind is read back with what belongs to it. -/
@[simp] theorem kindOf_tagged (span : Option Span) (tag : String) (body : Json) :
    kindOf (node span (tagged tag body)) = some (tag, body) := by
  cases span with
  | none => rfl
  | some s => rfl

/-- A kind that has nothing but its name is read back. -/
@[simp] theorem kindOf_bare (span : Option Span) (tag : String) :
    kindOf (node span (.string tag)) = some (tag, .null) := by
  cases span with
  | none => rfl
  | some s => rfl

/-- A reader that asks for the span of a node goes on with it, before the rest of it is looked at. -/
@[simp ↓] theorem bind_spanOf_node {α : Type} (span : Option Span) (kind : Json)
    (next : Option Span → Option α) : (spanOf (node span kind) >>= next) = next span := by
  rw [spanOf_node]
  rfl

/-- A reader that asks for the kind of a node goes on with it. -/
@[simp ↓] theorem bind_kindOf_tagged {α : Type} (span : Option Span) (tag : String) (body : Json)
    (next : String × Json → Option α) :
    (kindOf (node span (tagged tag body)) >>= next) = next (tag, body) := by
  rw [kindOf_tagged]
  rfl

@[simp ↓] theorem bind_kindOf_bare {α : Type} (span : Option Span) (tag : String)
    (next : String × Json → Option α) :
    (kindOf (node span (.string tag)) >>= next) = next (tag, .null) := by
  rw [kindOf_bare]
  rfl

theorem node_ne_null (span : Option Span) (kind : Json) : node span kind ≠ .null := by
  cases span with
  | none => exact nofun
  | some s => exact nofun

/-- What belongs to a kind lies at least two levels below the node. -/
theorem depth_tagged_lt {span : Option Span} {tag : String} {body : Json} {n : Nat}
    (deep : (node span (tagged tag body)).depth ≤ n) : body.depth + 1 < n := by
  cases span with
  | none =>
    simp only [node, tagged, Json.depth, Json.depthOfMembers] at deep
    omega
  | some s =>
    simp only [node, tagged, Json.depth, Json.depthOfMembers] at deep
    omega

/-! ## Members, lists and what may be absent -/

theorem part_first {α : Type} (key : String) (value : Json) (rest : List (String × Json))
    (read : Json → Option α) : part (.object ((key, value) :: rest)) key read = read value := by
  simp [part, Json.member, Json.member?, Table.get?]

/-- The members before the one that is looked for do not matter. -/
theorem part_skip {α : Type} {key other : String} (differ : other ≠ key) (value : Json)
    (rest : List (String × Json)) (read : Json → Option α) :
    part (.object ((other, value) :: rest)) key read = part (.object rest) key read := by
  simp [part, Json.member, Json.member?, Table.get?, differ]

/-- A text that may be absent is read back. -/
@[simp] theorem option?_ofText? (text : Option String) :
    (ofText? text).option? Json.text? = some text := by
  cases text with
  | none => rfl
  | some text => rfl

/-- A list of texts is read back. -/
@[simp] theorem toList_texts (texts : List String) :
    toList Json.text? (.array (texts.map .string)) = some texts := by
  simp only [toList, Json.items?, Option.bind_some]
  induction texts with
  | nil => rfl
  | cons text texts ih => simp [Json.text?, ih]

/-- The operator of an assignment is read back. -/
@[simp] theorem toAssignment_ofText? (op : Option BinaryOp) :
    toAssignment (ofText? (op.map BinaryOp.spelling)) = some op := by
  cases op with
  | none => rfl
  | some op =>
    simp [toAssignment, ofText?, Json.ofOption, Json.option?, Json.text?,
      BinaryOp.ofSpelling?_spelling]

/-! ## Reading back -/

/-- A value comes back from its written form when the reader is given more than the depth of it. -/
def Returns {α : Type} (write : α → Json) (read : Nat → Json → Option α) (x : α) : Prop :=
  ∀ n, (write x).depth < n → read n (write x) = some x

namespace Returns

variable {α : Type} {write : α → Json} {read : Nat → Json → Option α}

/-- A reader that is given depth for one level more than what is below. -/
theorem of_level {x : α}
    (level : ∀ n, (write x).depth ≤ n → read (n + 1) (write x) = some x) :
    Returns write read x := by
  intro n deep
  cases n with
  | zero => omega
  | succ n => exact level n (by omega)

/-- A list comes back when each of its items does. -/
theorem list {items : List α} (each : ∀ x ∈ items, Returns write read x) {n : Nat}
    (deep : Json.depthOfItems (items.map write) < n) :
    toList (read n) (.array (items.map write)) = some items := by
  simp only [toList, Json.items?, Option.bind_some]
  induction items with
  | nil => rfl
  | cons x rest ih =>
    simp only [List.map_cons, Json.depthOfItems] at deep
    have first : read n (write x) = some x := each x (List.mem_cons_self ..) n (by omega)
    have others : (rest.map write).mapM (read n) = some rest :=
      ih (fun y listed => each y (List.mem_cons_of_mem _ listed)) (by omega)
    simp [first, others]

/-- What may be absent comes back, unless something that is present is written as null. -/
theorem optional {value : Option α} (each : ∀ x ∈ value, Returns write read x)
    (written : ∀ x, write x ≠ .null) {n : Nat}
    (deep : (Json.ofOption (value.map write)).depth < n) :
    (Json.ofOption (value.map write)).option? (read n) = some value := by
  cases value with
  | none => rfl
  | some x =>
    have present : read n (write x) = some x := each x rfl n deep
    have unlike := written x
    simp only [Option.map_some, Json.ofOption]
    cases shape : write x with
    | null => exact absurd shape unlike
    | _ => simp [Json.option?, ← shape, present]

end Returns

variable (form : NumberForm)

/-! ## Lists of nodes -/

@[simp] theorem ofExprs_eq (items : List Expr) : ofExprs form items = items.map (ofExpr form) := by
  induction items with
  | nil => rfl
  | cons e items ih => rw [ofExprs, ih, List.map_cons]

@[simp] theorem ofProperties_eq (properties : List Property) :
    ofProperties form properties = properties.map (ofProperty form) := by
  induction properties with
  | nil => rfl
  | cons p properties ih => rw [ofProperties, ih, List.map_cons]

@[simp] theorem ofStmts_eq (body : List Stmt) : ofStmts form body = body.map (ofStmt form) := by
  induction body with
  | nil => rfl
  | cons s body ih => rw [ofStmts, ih, List.map_cons]

@[simp] theorem ofVarDefs_eq (defs : List VarDef) :
    ofVarDefs form defs = defs.map (ofVarDef form) := by
  induction defs with
  | nil => rfl
  | cons d defs ih => rw [ofVarDefs, ih, List.map_cons]

@[simp] theorem ofCases_eq (cases : List SwitchCase) :
    ofCases form cases = cases.map (ofCase form) := by
  induction cases with
  | nil => rfl
  | cons c cases ih => rw [ofCases, ih, List.map_cons]

@[simp] theorem ofChunks_eq (chunks : List Chunk) :
    ofChunks form chunks = chunks.map (ofChunk form) := by
  induction chunks with
  | nil => rfl
  | cons c chunks ih => rw [ofChunks, ih, List.map_cons]

@[simp] theorem ofElseIfs_eq (branches : List ElseIf) :
    ofElseIfs form branches = branches.map (ofElseIf form) := by
  induction branches with
  | nil => rfl
  | cons b branches ih => rw [ofElseIfs, ih, List.map_cons]

/-! ## Nodes that may be absent -/

/-- An expression that may be absent is null or the expression. -/
@[simp] theorem ofExpr?_eq (value : Option Expr) :
    ofExpr? form value = Json.ofOption (value.map (ofExpr form)) := by
  cases value <;> rfl

theorem ofStmt_ifElse (s : Option Span) (condition : Expr) (thenBranch : Stmt)
    (elseBranch : Option Stmt) :
    ofStmt form (.ifElse s condition thenBranch elseBranch) =
      node s (tagged "if" (.object
        [("condition", ofExpr form condition), ("then_branch", ofStmt form thenBranch),
          ("else_branch", Json.ofOption (elseBranch.map (ofStmt form)))])) := by
  cases elseBranch <;> rfl

theorem ofStmt_for (s : Option Span) (head : Option ForHead) (test step : Option Expr)
    (body : Stmt) :
    ofStmt form (.for s head test step body) =
      node s (tagged "for" (.object
        [("init", Json.ofOption (head.map (ofForHead form))), ("test", ofExpr? form test),
          ("step", ofExpr? form step), ("body", ofStmt form body)])) := by
  cases head <;> rfl

theorem ofStmt_tryCatch (s : Option Span) (body : List Stmt) (handler : Option Handler)
    (finalizer : Option (List Stmt)) :
    ofStmt form (.tryCatch s body handler finalizer) =
      node s (tagged "try" (.object
        [("body", .array (body.map (ofStmt form))),
          ("catch", Json.ofOption (handler.map (ofHandler form))),
          ("finally",
            Json.ofOption (finalizer.map fun body => .array (body.map (ofStmt form))))])) := by
  cases handler <;> cases finalizer <;> simp [ofStmt, Json.ofOption]

theorem ofExpr_ne_null (e : Expr) : ofExpr form e ≠ .null := by
  rw [ofExpr.eq_def]
  cases e <;> exact node_ne_null _ _

theorem ofForHead_ne_null (head : ForHead) : ofForHead form head ≠ .null := by
  cases head <;> exact nofun

theorem ofStmt_ne_null (s : Stmt) : ofStmt form s ≠ .null := by
  rw [ofStmt.eq_def]
  cases s <;> exact node_ne_null _ _

theorem ofHandler_ne_null (handler : Handler) : ofHandler form handler ≠ .null := by
  cases handler
  exact nofun

/-- Whether an expression comes back, if its numbers do. -/
def ExprReturns (e : Expr) : Prop :=
  Everywhere (Part.Carried form) e.parts → Returns (ofExpr form) (toExpr form) e

/-- Whether a property comes back, if its numbers do. -/
def PropertyReturns (p : Property) : Prop :=
  Everywhere (Part.Carried form) p.parts → Returns (ofProperty form) (toProperty form) p

/-- Whether a function comes back, if its numbers do. -/
def FunctionReturns (fn : Function) : Prop :=
  Everywhere (Part.Carried form) fn.parts → Returns (ofFunction form) (toFunction form) fn

/-- Whether a statement comes back, if its numbers do. -/
def StmtReturns (s : Stmt) : Prop :=
  Everywhere (Part.Carried form) s.parts → Returns (ofStmt form) (toStmt form) s

/-- Whether a chunk comes back, if its numbers do. -/
def ChunkReturns (c : Chunk) : Prop :=
  Everywhere (Part.Carried form) c.parts → Returns (ofChunk form) (toChunk form) c

variable {form}

theorem returns_exprs {items : List Expr} (ih : ∀ e ∈ items, ExprReturns form e)
    (carried : Everywhere (Part.Carried form) (partsOfExprs items)) :
    ∀ e ∈ items, Returns (ofExpr form) (toExpr form) e :=
  fun e listed => ih e listed (everywhere_exprs.1 carried e listed)

theorem returns_stmts {body : List Stmt} (ih : ∀ s ∈ body, StmtReturns form s)
    (carried : Everywhere (Part.Carried form) (partsOfStmts body)) :
    ∀ s ∈ body, Returns (ofStmt form) (toStmt form) s :=
  fun s listed => ih s listed (everywhere_stmts.1 carried s listed)

/-- An expression that may be absent comes back. -/
theorem returns_optional {value : Option Expr} (ih : ∀ e ∈ value, ExprReturns form e)
    (carried : Everywhere (Part.Carried form) (partsOfOptional value)) {n : Nat}
    (deep : (Json.ofOption (value.map (ofExpr form))).depth < n) :
    (Json.ofOption (value.map (ofExpr form))).option? (toExpr form n) = some value := by
  refine Returns.optional (fun e present => ih e present ?_) (ofExpr_ne_null form) deep
  obtain rfl := Option.mem_def.1 present
  exact carried

/-- A variable comes back with its initial value. -/
theorem returns_varDef {name : String} {value : Option Expr}
    (ih : ∀ e ∈ value, ExprReturns form e)
    (carried : Everywhere (Part.Carried form) (partsOfOptional value)) :
    Returns (ofVarDef form) (toVarDef form) (.mk name value) := by
  refine .of_level fun n deep => ?_
  simp only [ofVarDef, ofExpr?_eq, Json.depth, Json.depthOfMembers] at deep
  simp [ofVarDef, toVarDef, part_first, part_skip, Json.text?,
    returns_optional ih carried (n := n) (by omega)]

theorem returns_varDefs {defs : List VarDef} (ih : InVarDefs (ExprReturns form) defs)
    (carried : Everywhere (Part.Carried form) (partsOfVarDefs defs)) :
    ∀ d ∈ defs, Returns (ofVarDef form) (toVarDef form) d := by
  rintro ⟨name, value⟩ listed
  have carried := everywhere_varDefs.1 carried _ listed
  simp only [VarDef.parts, everywhere_cons] at carried
  exact returns_varDef (fun e present => ih name e (Option.mem_def.1 present ▸ listed)) carried.2

/-- The head of a loop comes back. -/
theorem returns_head {head : ForHead} (ih : InHead (ExprReturns form) head)
    (carried : Everywhere (Part.Carried form) head.parts) :
    Returns (ofForHead form) (toForHead form) head := by
  refine .of_level fun n deep => ?_
  cases head with
  | var defs =>
    simp only [ForHead.parts, everywhere_cons] at carried
    simp only [ofForHead, ofVarDefs_eq, tagged, Json.depth, Json.depthOfMembers] at deep
    simp [ofForHead, tagged, toForHead, Returns.list (returns_varDefs ih carried.2) (n := n)
      (by omega)]
  | expr value =>
    simp only [ForHead.parts, everywhere_cons] at carried
    simp only [ofForHead, tagged, Json.depth, Json.depthOfMembers] at deep
    simp [ofForHead, tagged, toForHead, ih carried.2 n (by omega)]

/-- The branches of a switch come back, with and without a test. -/
theorem returns_cases {cases : List SwitchCase}
    (ih : InCases (ExprReturns form) (StmtReturns form) cases)
    (carried : Everywhere (Part.Carried form) (partsOfCases cases)) :
    ∀ c ∈ cases, Returns (ofCase form) (toCase form) c := by
  rintro ⟨test, body⟩ listed
  have carried := everywhere_cases.1 carried _ listed
  simp only [SwitchCase.parts, everywhere_cons, everywhere_append] at carried
  obtain ⟨onTest, onBody⟩ := ih test body listed
  refine .of_level fun n deep => ?_
  simp only [ofCase, ofExpr?_eq, ofStmts_eq, Json.depth, Json.depthOfMembers] at deep
  simp [ofCase, toCase, part_first, part_skip, returns_optional onTest carried.2.1 (n := n)
    (by omega), Returns.list (returns_stmts onBody carried.2.2) (n := n) (by omega)]

/-- A block comes back, as a list of statements. -/
theorem returns_block {body : List Stmt} (ih : ∀ s ∈ body, StmtReturns form s)
    (carried : Everywhere (Part.Carried form) (partsOfStmts body)) :
    Returns (fun body => .array (body.map (ofStmt form))) (fun n => toList (toStmt form n))
      body := by
  intro n deep
  simp only [Json.depth] at deep
  exact Returns.list (returns_stmts ih carried) (by omega)

/-- The handler of a `try` comes back. -/
theorem returns_handler {handler : Option Handler}
    (ih : ∀ name body, handler = some (.mk name body) → ∀ s ∈ body, StmtReturns form s)
    (carried : ∀ h, handler = some h → Everywhere (Part.Carried form) h.parts) :
    ∀ h ∈ handler, Returns (ofHandler form) (toHandler form) h := by
  rintro ⟨name, body⟩ present
  have onBody := carried _ present
  simp only [Handler.parts, everywhere_cons] at onBody
  refine .of_level fun n deep => ?_
  simp only [ofHandler, ofStmts_eq, Json.depth, Json.depthOfItems] at deep
  have body_ := Returns.list (returns_stmts (ih name body present) onBody.2) (n := n) (by omega)
  simp [ofHandler, toHandler, body_]

/-! ## One step for each kind of node -/

variable (form)

/-- Every tree comes back from what was written of it: one step for each kind of node. -/
theorem returning_steps :
    Induction (ExprReturns form) (PropertyReturns form) (FunctionReturns form)
      (StmtReturns form) where
  num s value carried := by
    refine .of_level fun n _ => ?_
    have carried : form.read (form.write value) = some value := by
      simpa [Part.Carried] using carried
    rw [ofExpr]
    simp [toExpr, carried]
  string s text _ := .of_level fun n _ => by
    rw [ofExpr]
    simp [toExpr]
  name s name _ := .of_level fun n _ => by
    rw [ofExpr]
    simp [toExpr]
  atom s atom _ := .of_level fun n _ => by
    rw [ofExpr]
    simp [toExpr, Atom.ofSpelling?_spelling]
  regexp s pattern flags _ := .of_level fun n _ => by
    rw [ofExpr]
    simp [toExpr, part_first, part_skip, Json.text?]
  array s items ih carried := by
    simp only [Expr.parts, everywhere_cons] at carried
    refine .of_level fun n deep => ?_
    simp only [ofExpr, ofExprs_eq] at deep
    have deep := depth_tagged_lt deep
    simp only [Json.depth] at deep
    have items_ := Returns.list (returns_exprs ih carried.2) (n := n) (by omega)
    rw [ofExpr]
    simp [toExpr, items_]
  object s properties ih carried := by
    simp only [Expr.parts, everywhere_cons] at carried
    refine .of_level fun n deep => ?_
    simp only [ofExpr, ofProperties_eq] at deep
    have deep := depth_tagged_lt deep
    simp only [Json.depth] at deep
    have each : ∀ p ∈ properties, Returns (ofProperty form) (toProperty form) p :=
      fun p listed => ih p listed (everywhere_properties.1 carried.2 p listed)
    have properties_ := Returns.list each (n := n) (by omega)
    rw [ofExpr]
    simp [toExpr, properties_]
  dot s target property ih carried := by
    simp only [Expr.parts, everywhere_cons] at carried
    refine .of_level fun n deep => ?_
    have deep := depth_tagged_lt deep
    simp only [Json.depth, Json.depthOfItems] at deep
    rw [ofExpr]
    simp [toExpr, ih carried.2 n (by omega)]
  sub s target index ih ih' carried := by
    simp only [Expr.parts, everywhere_cons, everywhere_append] at carried
    refine .of_level fun n deep => ?_
    have deep := depth_tagged_lt deep
    simp only [Json.depth, Json.depthOfItems] at deep
    rw [ofExpr]
    simp [toExpr, ih carried.2.1 n (by omega), ih' carried.2.2 n (by omega)]
  call s callee args ih ih' carried := by
    simp only [Expr.parts, everywhere_cons, everywhere_append] at carried
    refine .of_level fun n deep => ?_
    simp only [ofExpr, ofExprs_eq] at deep
    have deep := depth_tagged_lt deep
    simp only [Json.depth, Json.depthOfItems] at deep
    have args_ := Returns.list (returns_exprs ih' carried.2.2) (n := n) (by omega)
    rw [ofExpr]
    simp [toExpr, ih carried.2.1 n (by omega), args_]
  new s callee args ih ih' carried := by
    simp only [Expr.parts, everywhere_cons, everywhere_append] at carried
    refine .of_level fun n deep => ?_
    simp only [ofExpr, ofExprs_eq] at deep
    have deep := depth_tagged_lt deep
    simp only [Json.depth, Json.depthOfItems] at deep
    have args_ := Returns.list (returns_exprs ih' carried.2.2) (n := n) (by omega)
    rw [ofExpr]
    simp [toExpr, ih carried.2.1 n (by omega), args_]
  prefixOp s op operand ih carried := by
    simp only [Expr.parts, everywhere_cons] at carried
    refine .of_level fun n deep => ?_
    have deep := depth_tagged_lt deep
    simp only [Json.depth, Json.depthOfItems] at deep
    rw [ofExpr]
    simp [toExpr, UnaryOp.before?_spelling, ih carried.2 n (by omega)]
  postfixOp s op operand ih carried := by
    simp only [Expr.parts, everywhere_cons] at carried
    refine .of_level fun n deep => ?_
    have deep := depth_tagged_lt deep
    simp only [Json.depth, Json.depthOfItems] at deep
    rw [ofExpr]
    simp [toExpr, UnaryOp.before?_spelling, ih carried.2 n (by omega)]
  binary s op left right ih ih' carried := by
    simp only [Expr.parts, everywhere_cons, everywhere_append] at carried
    refine .of_level fun n deep => ?_
    have deep := depth_tagged_lt deep
    simp only [Json.depth, Json.depthOfItems] at deep
    rw [ofExpr]
    simp [toExpr, BinaryOp.ofSpelling?_spelling, ih carried.2.1 n (by omega),
      ih' carried.2.2 n (by omega)]
  conditional s test yes no ih ih' ih'' carried := by
    simp only [Expr.parts, everywhere_cons, everywhere_append] at carried
    refine .of_level fun n deep => ?_
    have deep := depth_tagged_lt deep
    simp only [Json.depth, Json.depthOfItems] at deep
    rw [ofExpr]
    simp [toExpr, ih carried.2.1.1 n (by omega), ih' carried.2.1.2 n (by omega),
      ih'' carried.2.2 n (by omega)]
  assign s op target value ih ih' carried := by
    simp only [Expr.parts, everywhere_cons, everywhere_append] at carried
    refine .of_level fun n deep => ?_
    have deep := depth_tagged_lt deep
    simp only [Json.depth, Json.depthOfItems] at deep
    rw [ofExpr]
    simp [toExpr, ih carried.2.1 n (by omega), ih' carried.2.2 n (by omega)]
  seq s first rest ih ih' carried := by
    simp only [Expr.parts, everywhere_cons, everywhere_append] at carried
    refine .of_level fun n deep => ?_
    have deep := depth_tagged_lt deep
    simp only [Json.depth, Json.depthOfItems] at deep
    rw [ofExpr]
    simp [toExpr, ih carried.2.1 n (by omega), ih' carried.2.2 n (by omega)]
  function s fn ih carried := by
    simp only [Expr.parts, everywhere_cons] at carried
    refine .of_level fun n deep => ?_
    have deep := depth_tagged_lt deep
    rw [ofExpr]
    simp [toExpr, ih carried.2 n (by omega)]
  init key value ih carried := by
    simp only [Property.parts, everywhere_cons] at carried
    refine .of_level fun n deep => ?_
    simp only [ofProperty, tagged, Json.depth, Json.depthOfMembers] at deep
    simp [ofProperty, tagged, toProperty, part_first, part_skip, Json.text?,
      ih carried.2 n (by omega)]
  getter key fn ih carried := by
    simp only [Property.parts, everywhere_cons] at carried
    refine .of_level fun n deep => ?_
    simp only [ofProperty, tagged, Json.depth, Json.depthOfMembers] at deep
    simp [ofProperty, tagged, toProperty, part_first, part_skip, Json.text?,
      ih carried.2 n (by omega)]
  setter key fn ih carried := by
    simp only [Property.parts, everywhere_cons] at carried
    refine .of_level fun n deep => ?_
    simp only [ofProperty, tagged, Json.depth, Json.depthOfMembers] at deep
    simp [ofProperty, tagged, toProperty, part_first, part_skip, Json.text?,
      ih carried.2 n (by omega)]
  functionBody name params body ih carried := by
    simp only [Function.parts, everywhere_cons] at carried
    refine .of_level fun n deep => ?_
    simp only [ofFunction, ofStmts_eq, Json.depth, Json.depthOfMembers] at deep
    have body_ := Returns.list (returns_stmts ih carried.2) (n := n) (by omega)
    simp [ofFunction, toFunction, part_first, part_skip, body_]
  block s body ih carried := by
    simp only [Stmt.parts, everywhere_cons] at carried
    refine .of_level fun n deep => ?_
    simp only [ofStmt, ofStmts_eq] at deep
    have deep := depth_tagged_lt deep
    simp only [Json.depth] at deep
    have body_ := Returns.list (returns_stmts ih carried.2) (n := n) (by omega)
    rw [ofStmt]
    simp [toStmt, body_]
  expression s value ih carried := by
    simp only [Stmt.parts, everywhere_cons] at carried
    refine .of_level fun n deep => ?_
    have deep := depth_tagged_lt deep
    rw [ofStmt]
    simp [toStmt, ih carried.2 n (by omega)]
  varStmt s defs ih carried := by
    simp only [Stmt.parts, everywhere_cons] at carried
    refine .of_level fun n deep => ?_
    simp only [ofStmt, ofVarDefs_eq] at deep
    have deep := depth_tagged_lt deep
    simp only [Json.depth] at deep
    have defs_ := Returns.list (returns_varDefs ih carried.2) (n := n) (by omega)
    rw [ofStmt]
    simp [toStmt, defs_]
  constStmt s defs ih carried := by
    simp only [Stmt.parts, everywhere_cons] at carried
    refine .of_level fun n deep => ?_
    simp only [ofStmt, ofVarDefs_eq] at deep
    have deep := depth_tagged_lt deep
    simp only [Json.depth] at deep
    have defs_ := Returns.list (returns_varDefs ih carried.2) (n := n) (by omega)
    rw [ofStmt]
    simp [toStmt, defs_]
  ifElse s condition thenBranch elseBranch ih ih' ih'' carried := by
    obtain ⟨-, onCondition, onThen, onElse⟩ := everywhere_ifElse.1 carried
    refine .of_level fun n deep => ?_
    rw [ofStmt_ifElse] at deep ⊢
    have deep := depth_tagged_lt deep
    simp only [Json.depth, Json.depthOfMembers] at deep
    have branch_ := Returns.optional (fun s present => ih'' s present (onElse s present))
      (ofStmt_ne_null form) (n := n) (by omega)
    simp [toStmt, part_first, part_skip, branch_, ih onCondition n (by omega),
      ih' onThen n (by omega)]
  forStmt s head test step body ih ih' ih'' body_ carried := by
    obtain ⟨-, onHead, onTest, onStep, onBody⟩ := everywhere_for.1 carried
    refine .of_level fun n deep => ?_
    rw [ofStmt_for, ofExpr?_eq, ofExpr?_eq] at deep ⊢
    have deep := depth_tagged_lt deep
    simp only [Json.depth, Json.depthOfMembers] at deep
    have head_ := Returns.optional (fun h present => returns_head (ih h present) (onHead h present))
      (ofForHead_ne_null form) (n := n) (by omega)
    simp [toStmt, part_first, part_skip, head_, returns_optional ih' onTest (n := n) (by omega),
      returns_optional ih'' onStep (n := n) (by omega), body_ onBody n (by omega)]
  forIn s head object body ih ih' ih'' carried := by
    simp only [Stmt.parts, everywhere_cons, everywhere_append] at carried
    refine .of_level fun n deep => ?_
    have deep := depth_tagged_lt deep
    simp only [Json.depth, Json.depthOfMembers] at deep
    rw [ofStmt]
    simp [toStmt, part_first, part_skip, returns_head ih carried.2.1.1 n (by omega),
      ih' carried.2.1.2 n (by omega), ih'' carried.2.2 n (by omega)]
  whileStmt s condition body ih ih' carried := by
    simp only [Stmt.parts, everywhere_cons, everywhere_append] at carried
    refine .of_level fun n deep => ?_
    have deep := depth_tagged_lt deep
    simp only [Json.depth, Json.depthOfMembers] at deep
    rw [ofStmt]
    simp [toStmt, part_first, part_skip, ih carried.2.1 n (by omega),
      ih' carried.2.2 n (by omega)]
  doWhile s body condition ih ih' carried := by
    simp only [Stmt.parts, everywhere_cons, everywhere_append] at carried
    refine .of_level fun n deep => ?_
    have deep := depth_tagged_lt deep
    simp only [Json.depth, Json.depthOfMembers] at deep
    rw [ofStmt]
    simp [toStmt, part_first, part_skip, ih carried.2.1 n (by omega),
      ih' carried.2.2 n (by omega)]
  switch s discriminant cases ih ih' carried := by
    simp only [Stmt.parts, everywhere_cons, everywhere_append] at carried
    refine .of_level fun n deep => ?_
    simp only [ofStmt, ofCases_eq] at deep
    have deep := depth_tagged_lt deep
    simp only [Json.depth, Json.depthOfMembers] at deep
    have cases_ := Returns.list (returns_cases ih' carried.2.2) (n := n) (by omega)
    rw [ofStmt]
    simp [toStmt, part_first, part_skip, ih carried.2.1 n (by omega), cases_]
  tryCatch s body handler finalizer ih ih' ih'' carried := by
    obtain ⟨-, onBody, onHandler, onFinalizer⟩ := everywhere_tryCatch.1 carried
    refine .of_level fun n deep => ?_
    rw [ofStmt_tryCatch] at deep ⊢
    have deep := depth_tagged_lt deep
    simp only [Json.depth, Json.depthOfMembers] at deep
    have body_ := Returns.list (returns_stmts ih onBody) (n := n) (by omega)
    have handler_ := Returns.optional (returns_handler ih' onHandler) (ofHandler_ne_null form)
      (n := n) (by omega)
    have finalizer_ := Returns.optional
      (fun final present => returns_block (ih'' final present) (onFinalizer final present))
      (fun _ => by simp) (n := n) (by omega)
    simp [toStmt, part_first, part_skip, body_, handler_, finalizer_]
  defun s fn ih carried := by
    simp only [Stmt.parts, everywhere_cons] at carried
    refine .of_level fun n deep => ?_
    have deep := depth_tagged_lt deep
    rw [ofStmt]
    simp [toStmt, ih carried.2 n (by omega)]
  returnStmt s value ih carried := by
    simp only [Stmt.parts, everywhere_cons] at carried
    refine .of_level fun n deep => ?_
    simp only [ofStmt, ofExpr?_eq] at deep
    have deep := depth_tagged_lt deep
    rw [ofStmt]
    simp [toStmt, returns_optional ih carried.2 (n := n) (by omega)]
  breakStmt s label _ := .of_level fun n _ => by
    rw [ofStmt]
    simp [toStmt]
  continueStmt s label _ := .of_level fun n _ => by
    rw [ofStmt]
    simp [toStmt]
  labelled s label body ih carried := by
    simp only [Stmt.parts, everywhere_cons] at carried
    refine .of_level fun n deep => ?_
    have deep := depth_tagged_lt deep
    simp only [Json.depth, Json.depthOfItems] at deep
    rw [ofStmt]
    simp [toStmt, ih carried.2 n (by omega)]
  throwStmt s value ih carried := by
    simp only [Stmt.parts, everywhere_cons] at carried
    refine .of_level fun n deep => ?_
    have deep := depth_tagged_lt deep
    rw [ofStmt]
    simp [toStmt, ih carried.2 n (by omega)]
  withStmt s object body ih ih' carried := by
    simp only [Stmt.parts, everywhere_cons, everywhere_append] at carried
    refine .of_level fun n deep => ?_
    have deep := depth_tagged_lt deep
    simp only [Json.depth, Json.depthOfItems] at deep
    rw [ofStmt]
    simp [toStmt, ih carried.2.1 n (by omega), ih' carried.2.2 n (by omega)]
  debuggerStmt s _ := .of_level fun n _ => by
    rw [ofStmt]
    simp [toStmt]

variable {form}

/-- An expression comes back. -/
theorem returns_expr {e : Expr} (carried : Everywhere (Part.Carried form) e.parts) :
    Returns (ofExpr form) (toExpr form) e :=
  (returning_steps form).expr e carried

/-! ## Chunks -/

variable (form)

theorem ofChunk_ifElse (s : Option Span) (condition : Expr) (thenBranch : List Chunk)
    (elseIfs : List ElseIf) (elseBranch : Option (List Chunk)) :
    ofChunk form (.ifElse s condition thenBranch elseIfs elseBranch) =
      node s (tagged "tmpl-if" (.object
        [("condition", ofExpr form condition),
          ("then_branch", .array (thenBranch.map (ofChunk form))),
          ("elif_branches", .array (elseIfs.map (ofElseIf form))),
          ("else_branch",
            Json.ofOption (elseBranch.map fun body => .array (body.map (ofChunk form))))])) := by
  cases elseBranch <;> simp [ofChunk, Json.ofOption]

variable {form}

/-- A body comes back, as a list of chunks. -/
theorem returns_chunks {body : List Chunk} (ih : ∀ c ∈ body, ChunkReturns form c)
    (carried : Everywhere (Part.Carried form) (partsOfChunks body)) :
    Returns (fun body => .array (body.map (ofChunk form))) (fun n => toList (toChunk form n))
      body := by
  intro n deep
  simp only [Json.depth] at deep
  exact Returns.list (fun c listed => ih c listed (everywhere_chunks.1 carried c listed)) (by omega)

/-- The conditional branches come back. -/
theorem returns_elseIfs {branches : List ElseIf}
    (ih : ∀ condition body, .mk condition body ∈ branches → ∀ c ∈ body, ChunkReturns form c)
    (carried : Everywhere (Part.Carried form) (partsOfElseIfs branches)) :
    ∀ b ∈ branches, Returns (ofElseIf form) (toElseIf form) b := by
  rintro ⟨condition, body⟩ listed
  have onBranch := everywhere_elseIfs.1 carried _ listed
  simp only [ElseIf.parts, everywhere_cons, everywhere_append] at onBranch
  refine .of_level fun n deep => ?_
  simp only [ofElseIf, ofChunks_eq, Json.depth, Json.depthOfItems] at deep
  have body_ := returns_chunks (ih condition body listed) onBranch.2.2 n
    (by simp only [Json.depth]; omega)
  simp [ofElseIf, toElseIf, returns_expr onBranch.2.1 n (by omega), body_]

/-- Arguments come back, as a list of expressions. -/
theorem returns_args {args : List Expr}
    (carried : Everywhere (Part.Carried form) (partsOfExprs args)) :
    Returns (fun args => .array (args.map (ofExpr form))) (fun n => toList (toExpr form n))
      args := by
  intro n deep
  simp only [Json.depth] at deep
  exact Returns.list
    (fun e listed => returns_expr (everywhere_exprs.1 carried e listed)) (by omega)

/-- Names that may be absent come back: none, empty or not. -/
@[simp] theorem option?_names (names : Option (List String)) :
    (Json.ofOption (names.map fun names => .array (names.map .string))).option?
      (toList Json.text?) = some names := by
  cases names with
  | none => rfl
  | some names => simp [Json.ofOption, Json.option?]

variable (form)

/-- Every chunk comes back from what was written of it: one step for each kind of chunk. -/
theorem returning_chunkSteps : ChunkInduction (ChunkReturns form) where
  html s text _ := .of_level fun n _ => by
    rw [ofChunk]
    simp [toChunk]
  echo s value carried := by
    simp only [Chunk.parts, everywhere_cons] at carried
    refine .of_level fun n deep => ?_
    have deep := depth_tagged_lt deep
    rw [ofChunk]
    simp [toChunk, returns_expr carried.2 n (by omega)]
  inclusion s args name carried := by
    simp only [Chunk.parts, everywhere_cons, everywhere_append] at carried
    refine .of_level fun n deep => ?_
    simp only [ofChunk, ofExprs_eq] at deep
    have deep := depth_tagged_lt deep
    simp only [Json.depth, Json.depthOfMembers] at deep
    have each : ∀ listed ∈ args, Returns (fun args => .array (args.map (ofExpr form)))
        (fun n => toList (toExpr form n)) listed :=
      fun args present => returns_args (by simpa [Option.mem_def.1 present] using carried.2.1)
    have args_ := Returns.optional each (fun _ => by simp) (n := n) (by omega)
    rw [ofChunk]
    simp [toChunk, part_first, part_skip, args_,
      returns_expr carried.2.2 n (by omega)]
  each s bindings collection body ih carried := by
    simp only [Chunk.parts, everywhere_cons, everywhere_append] at carried
    refine .of_level fun n deep => ?_
    simp only [ofChunk, ofChunks_eq] at deep
    have deep := depth_tagged_lt deep
    simp only [Json.depth, Json.depthOfMembers] at deep
    have body_ := returns_chunks ih carried.2.2 n (by simp only [Json.depth]; omega)
    rw [ofChunk]
    simp [toChunk, part_first, part_skip, returns_expr carried.2.1 n (by omega), body_]
  ifElse s condition thenBranch elseIfs elseBranch ih ih' ih'' carried := by
    obtain ⟨-, onCondition, onThen, onElseIfs, onElse⟩ := everywhere_conditional.1 carried
    refine .of_level fun n deep => ?_
    rw [ofChunk_ifElse] at deep ⊢
    have deep := depth_tagged_lt deep
    simp only [Json.depth, Json.depthOfMembers] at deep
    have then_ := returns_chunks ih onThen n (by simp only [Json.depth]; omega)
    have elseIfs_ := Returns.list (returns_elseIfs ih' onElseIfs) (n := n) (by omega)
    have else_ := Returns.optional
      (fun body present => returns_chunks (ih'' body present) (onElse body present))
      (fun _ => by simp) (n := n) (by omega)
    simp [toChunk, part_first, part_skip, returns_expr onCondition n (by omega), then_, elseIfs_,
      else_]
  rawHtml s value carried := by
    simp only [Chunk.parts, everywhere_cons] at carried
    refine .of_level fun n deep => ?_
    have deep := depth_tagged_lt deep
    rw [ofChunk]
    simp [toChunk, returns_expr carried.2 n (by omega)]
  layout s name carried := by
    simp only [Chunk.parts, everywhere_cons] at carried
    refine .of_level fun n deep => ?_
    have deep := depth_tagged_lt deep
    rw [ofChunk]
    simp [toChunk, returns_expr carried.2 n (by omega)]
  var s defs carried := by
    simp only [Chunk.parts, everywhere_cons] at carried
    refine .of_level fun n deep => ?_
    simp only [ofChunk, ofVarDefs_eq] at deep
    have deep := depth_tagged_lt deep
    simp only [Json.depth] at deep
    have defs_ := Returns.list (returns_varDefs ((returning_steps form).varDefs defs) carried.2)
      (n := n) (by omega)
    rw [ofChunk]
    simp [toChunk, defs_]

/-! ## Whole trees -/

theorem toTemplate_ofTemplate (t : Template) (carried : Everywhere (Part.Carried form) t.parts) :
    toTemplate form (ofTemplate form t) = some t := by
  have body := returns_chunks (fun c _ => (returning_chunkSteps form).chunk c) carried
  have chunks := body ((ofTemplate form t).depth + 1)
    (by simp only [ofTemplate, ofChunks_eq, Json.depth, Json.depthOfMembers]; omega)
  simp only [ofTemplate, ofChunks_eq] at chunks
  simp [toTemplate, ofTemplate, part_first, chunks]

theorem toProgram_ofProgram (p : Program) (carried : Everywhere (Part.Carried form) p.parts) :
    toProgram form (ofProgram form p) = some p := by
  have block := returns_block (fun s _ => (returning_steps form).stmt s) carried
  have body := block ((ofProgram form p).depth + 1)
    (by simp only [ofProgram, ofStmts_eq, Json.depth, Json.depthOfMembers]; omega)
  simp only [ofProgram, ofStmts_eq] at body
  simp [toProgram, ofProgram, part_first, body]

theorem toSingleExpr_ofExpr (e : Expr) (carried : Everywhere (Part.Carried form) e.parts) :
    toSingleExpr form (ofExpr form e) = some e :=
  returns_expr carried _ (Nat.lt_succ_self _)

/-- The JSON form of trees is lossless: every template, script and expression comes back from it,
of any nesting and with or without spans, if its numbers come back from the form that numbers are
carried in. -/
theorem trees_return (form : NumberForm) :
    (∀ t : Template, Everywhere (Part.Carried form) t.parts →
      toTemplate form (ofTemplate form t) = some t) ∧
    (∀ p : Program, Everywhere (Part.Carried form) p.parts →
      toProgram form (ofProgram form p) = some p) ∧
    ∀ e : Expr, Everywhere (Part.Carried form) e.parts →
      toSingleExpr form (ofExpr form e) = some e :=
  ⟨toTemplate_ofTemplate form, toProgram_ofProgram form, toSingleExpr_ofExpr form⟩

/-- An infinite number with a span, absent and empty lists and branches, default and tested cases,
and plain and compound assignments: a template, a script and an expression in which they stand
side by side. -/
theorem trees_return_side_by_side :
    (∀ infinite : Expr, infinite = .num (some ⟨⟨0, 1, 0⟩, ⟨6, 1, 6⟩⟩) Number.Decimal.infinity →
      ∀ t : Template, t = ⟨[.include none none infinite, .include none (some []) infinite,
        .ifElse none infinite [] [.mk infinite []] none, .ifElse none infinite [] [] (some [])]⟩ →
      toTemplate .text (ofTemplate .text t) = some t) ∧
    (∀ p : Program, p = ⟨[.switch none (.num none (-0.0))
          [.mk none [], .mk (some (.num none 1.5)) []],
        .tryCatch none [] none none, .tryCatch none [] (some (.mk "e" [])) (some [])]⟩ →
      toProgram .text (ofProgram .text p) = some p) ∧
    ∀ e : Expr, e = .seq none (.assign none none (.name none "a") (.array none []))
        (.assign none (some .add) (.name none "a") (.num none 5e-324)) →
      toSingleExpr .text (ofExpr .text e) = some e := by
  refine ⟨?_, ?_, ?_⟩
  · rintro _ rfl _ rfl
    refine (trees_return .text).1 _ ?_
    have infinity : NumberForm.text.read (NumberForm.text.write Number.Decimal.infinity)
        = some Number.Decimal.infinity := by decide +kernel
    simp [Template.parts, partsOfChunks, partsOfElseIfs, partsOfExprs, Part.Carried, infinity]
  · rintro _ rfl
    refine (trees_return .text).2.1 _ ?_
    have negativeZero : NumberForm.text.read (NumberForm.text.write (-0.0)) = some (-0.0) := by
      decide +kernel
    have fraction : NumberForm.text.read (NumberForm.text.write 1.5) = some 1.5 := by
      decide +kernel
    simp [Program.parts, partsOfStmts, partsOfCases, partsOfOptional, Part.Carried, negativeZero,
      fraction]
  · rintro _ rfl
    refine (trees_return .text).2.2 _ ?_
    have least : NumberForm.text.read (NumberForm.text.write 5e-324) = some 5e-324 := by
      decide +kernel
    simp [partsOfExprs, Part.Carried, least]

end Encoding

end Stencil.Syntax

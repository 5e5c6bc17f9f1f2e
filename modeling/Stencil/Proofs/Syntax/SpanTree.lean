import Stencil.Proofs.Lexing.Positions
import Stencil.Proofs.Syntax.Unspanned
/-!
# Spans that form a tree

The expressions, statements and chunks of a tree carry spans; what stands between them, such as
the properties of an object, does not. `Part.children` lists the parts with spans right below
another, in the order in which they are written. The spans form a tree (`SpanTree`) when each lies
in the text, goes round those below it, and ends before the next one on its level begins.

`Nested` says the same of a list of parts between two places of the text, as a run of the grammar
builds it: from left to right, a part being put round those that were just read.
-/

set_option autoImplicit false

namespace Stencil.Text

/-- The one span goes round the other. -/
def Span.Contains (outer inner : Span) : Prop :=
  outer.start.byte ≤ inner.start.byte ∧ inner.stop.byte ≤ outer.stop.byte

/-- The one span ends before the other begins. -/
def Span.Before (first second : Span) : Prop := first.stop.byte ≤ second.start.byte

end Stencil.Text

namespace Stencil.Syntax

open Stencil.Text (Span)

/-! ## The parts right below a part -/

/-- The statements in the body of a function. -/
def Function.children : Function → List Part
  | .mk _ _ body => body.map .stmt

/-- The parts with spans in a property. -/
def Property.children : Property → List Part
  | .init _ value => [.expr value]
  | .getter _ fn | .setter _ fn => fn.children

/-- The expression that may be absent. -/
def optionalChild (value : Option Expr) : List Part := value.toList.map .expr

/-- The initial value of a variable. -/
def VarDef.children : VarDef → List Part
  | .mk _ value => optionalChild value

/-- The parts with spans in the head of a loop. -/
def ForHead.children : ForHead → List Part
  | .var defs => defs.flatMap VarDef.children
  | .expr value => [.expr value]

/-- The parts with spans in a branch of a switch. -/
def SwitchCase.children : SwitchCase → List Part
  | .mk test body => optionalChild test ++ body.map .stmt

/-- The statements of a handler. -/
def Handler.children : Handler → List Part
  | .mk _ body => body.map .stmt

/-- The parts with spans right below an expression, in the order in which they are written. -/
def Expr.children : Expr → List Part
  | .num .. | .string .. | .name .. | .atom .. | .regexp .. => []
  | .array _ items => items.map .expr
  | .object _ properties => properties.flatMap Property.children
  | .dot _ target _ => [.expr target]
  | .sub _ target index => [.expr target, .expr index]
  | .call _ callee args | .new _ callee args => .expr callee :: args.map .expr
  | .prefixOp _ _ operand | .postfixOp _ _ operand => [.expr operand]
  | .binary _ _ left right => [.expr left, .expr right]
  | .conditional _ test yes no => [.expr test, .expr yes, .expr no]
  | .assign _ _ target value => [.expr target, .expr value]
  | .seq _ first rest => [.expr first, .expr rest]
  | .function _ fn => fn.children

/-- The parts with spans right below a statement, in the order in which they are written. -/
def Stmt.children : Stmt → List Part
  | .block _ body => body.map .stmt
  | .expression _ value | .throw _ value => [.expr value]
  | .var _ defs | .const _ defs => defs.flatMap VarDef.children
  | .ifElse _ condition thenBranch elseBranch =>
    [.expr condition, .stmt thenBranch] ++ elseBranch.toList.map .stmt
  | .for _ head test step body =>
    head.toList.flatMap ForHead.children ++ optionalChild test ++ optionalChild step ++ [.stmt body]
  | .forIn _ head object body => head.children ++ [.expr object, .stmt body]
  | .while _ condition body => [.expr condition, .stmt body]
  | .doWhile _ body condition => [.stmt body, .expr condition]
  | .switch _ discriminant cases => .expr discriminant :: cases.flatMap SwitchCase.children
  | .tryCatch _ body handler finalizer =>
    body.map .stmt ++ handler.toList.flatMap Handler.children ++ (finalizer.getD []).map .stmt
  | .defun _ fn => fn.children
  | .return _ value => optionalChild value
  | .labelled _ _ body => [.stmt body]
  | .with _ object body => [.expr object, .stmt body]
  | .break .. | .continue .. | .debugger .. => []

/-- The parts with spans in a conditional branch: its condition, then its body. -/
def ElseIf.children : ElseIf → List Part
  | .mk condition body => .expr condition :: body.map .chunk

/-- The parts with spans right below a chunk, in the order in which they are written. -/
def Chunk.children : Chunk → List Part
  | .html .. => []
  | .echo _ value | .rawHtml _ value => [.expr value]
  | .include _ args name => (args.getD []).map .expr ++ [.expr name]
  | .each _ _ collection body => .expr collection :: body.map .chunk
  | .ifElse _ condition thenBranch elseIfs elseBranch =>
    .expr condition :: (thenBranch.map .chunk ++ elseIfs.flatMap ElseIf.children
      ++ (elseBranch.getD []).map .chunk)
  | .layout _ name => [.expr name]
  | .var _ defs => defs.flatMap VarDef.children

namespace Part

/-- The parts with spans right below a part with a span, in the order in which they are written. -/
def children : Part → List Part
  | .expr e => e.children
  | .stmt s => s.children
  | .chunk c => c.children
  | _ => []

/-- The constant that stands for an expression missing from an array, the only part of its kind
without a span. -/
def missing : Part := .expr (.atom none .undefined)

theorem span_missing : missing.span = none := rfl

/-- The part is one of the given parts, or stands below one of them at some depth. -/
inductive Within (roots : List Part) : Part → Prop where
  | root {part : Part} (listed : part ∈ roots) : Within roots part
  | child {part child : Part} (above : Within roots part) (below : child ∈ part.children) :
    Within roots child

/-- What stands below parts that stand below the roots stands below the roots. -/
theorem Within.trans {roots middle : List Part} {part : Part} (inside : part.Within middle)
    (below : ∀ root ∈ middle, root.Within roots) : part.Within roots := by
  induction inside with
  | root listed => exact below _ listed
  | child _ below ih => exact ih.child below

end Part

/-! ## Every node is reached -/

/-- Expressions, statements and chunks, which may carry spans, are nodes of a tree. -/
def Part.isNode : Part → Bool
  | .expr _ | .stmt _ | .chunk _ => true
  | _ => false

theorem Part.isNode_of_span {part : Part} {span : Span} (own : part.span = some span) :
    part.isNode = true := by
  cases part <;> first | rfl | exact nomatch own

/-- The nodes among the parts stand at or below the roots. -/
def Rooted (roots parts : List Part) : Prop :=
  Everywhere (fun part => part.isNode = true → part.Within roots) parts

/-- Those of the parts that carry a span stand at or below the roots. -/
def Reached (roots parts : List Part) : Prop :=
  Everywhere (fun part => ∀ span, part.span = some span → part.Within roots) parts

namespace Rooted

variable {roots more parts others : List Part}

theorem reached (rooted : Rooted roots parts) : Reached roots parts :=
  fun part listed _ own => rooted part listed (Part.isNode_of_span own)

theorem nil : Rooted roots [] := everywhere_nil

/-- More roots. -/
theorem mono (rooted : Rooted roots parts) (fewer : roots ⊆ more) : Rooted more parts :=
  fun part listed node => (rooted part listed node).trans fun _ root => .root (fewer root)

/-- One of several roots. -/
theorem one {root : Part} (rooted : Rooted [root] parts) (listed : root ∈ roots) :
    Rooted roots parts :=
  rooted.mono fun _ same => List.mem_singleton.1 same ▸ listed

/-- One of several items, of which each has roots of its own. -/
theorem ofItem {α : Type} {below : α → List Part} {items : List α} {item : α}
    (rooted : Rooted (below item) parts) (listed : item ∈ items) :
    Rooted (items.flatMap below) parts :=
  rooted.mono fun _ inside => List.mem_flatMap.2 ⟨item, listed, inside⟩

theorem append (rooted : Rooted roots parts) (rooted' : Rooted more others) :
    Rooted (roots ++ more) (parts ++ others) :=
  (everywhere_append parts others).2
    ⟨rooted.mono (List.subset_append_left _ _), rooted'.mono (List.subset_append_right _ _)⟩

/-- A part, with the parts below it. -/
theorem node {part : Part} (below : Rooted part.children parts) :
    Rooted [part] (part :: parts) := by
  refine (everywhere_cons part parts).2 ⟨fun _ => .root (List.mem_singleton_self part), ?_⟩
  exact fun inner listed node => (below inner listed node).trans fun _ child =>
    .child (.root (List.mem_singleton_self part)) child

/-- A part that is no node, with the parts below it. -/
theorem bare {part : Part} (apart : part.isNode = false) (below : Rooted roots parts) :
    Rooted roots (part :: parts) :=
  (everywhere_cons part parts).2 ⟨fun node => absurd (apart.symm.trans node) (by simp), below⟩

end Rooted

theorem rooted_exprs {items : List Expr} (each : ∀ e ∈ items, Rooted [.expr e] e.parts) :
    Rooted (items.map .expr) (partsOfExprs items) :=
  everywhere_exprs.2 fun e listed => (each e listed).one (List.mem_map_of_mem listed)

theorem rooted_stmts {body : List Stmt} (each : ∀ s ∈ body, Rooted [.stmt s] s.parts) :
    Rooted (body.map .stmt) (partsOfStmts body) :=
  everywhere_stmts.2 fun s listed => (each s listed).one (List.mem_map_of_mem listed)

theorem rooted_chunks {body : List Chunk} (each : ∀ c ∈ body, Rooted [.chunk c] c.parts) :
    Rooted (body.map .chunk) (partsOfChunks body) :=
  everywhere_chunks.2 fun c listed => (each c listed).one (List.mem_map_of_mem listed)

theorem rooted_optional {value : Option Expr} (each : ∀ e ∈ value, Rooted [.expr e] e.parts) :
    Rooted (optionalChild value) (partsOfOptional value) := by
  cases value with
  | none => exact everywhere_nil
  | some value => exact each value rfl

theorem rooted_varDefs {defs : List VarDef}
    (each : InVarDefs (fun e => Rooted [.expr e] e.parts) defs) :
    Rooted (defs.flatMap VarDef.children) (partsOfVarDefs defs) := by
  refine everywhere_varDefs.2 ?_
  rintro ⟨name, value⟩ listed
  have initial : Rooted (VarDef.mk name value).children (partsOfOptional value) := by
    refine rooted_optional ?_
    rintro e rfl
    exact each name e listed
  exact Rooted.bare rfl (initial.ofItem listed)

theorem rooted_head {head : ForHead} (each : InHead (fun e => Rooted [.expr e] e.parts) head) :
    Rooted head.children head.parts := by
  cases head with
  | var defs => exact .bare rfl (rooted_varDefs each)
  | expr value => exact .bare rfl each

theorem rooted_cases {cases : List SwitchCase}
    (each : InCases (fun e => Rooted [.expr e] e.parts) (fun s => Rooted [.stmt s] s.parts)
      cases) :
    Rooted (cases.flatMap SwitchCase.children) (partsOfCases cases) := by
  refine everywhere_cases.2 ?_
  rintro ⟨test, body⟩ listed
  obtain ⟨tested, nested⟩ := each test body listed
  have branch : Rooted (SwitchCase.mk test body).children
      (partsOfOptional test ++ partsOfStmts body) :=
    (rooted_optional tested).append (rooted_stmts nested)
  exact Rooted.bare rfl (branch.ofItem listed)

/-- The parts of every construct are reached when those of its parts are. -/
theorem rooted_steps :
    Induction (fun e => Rooted [.expr e] e.parts) (fun p => Rooted p.children p.parts)
      (fun fn => Rooted fn.children fn.parts) (fun s => Rooted [.stmt s] s.parts) where
  num s value := .node .nil
  string s text := .node .nil
  name s name := .node .nil
  atom s atom := .node .nil
  regexp s pattern flags := .node .nil
  array s items ih := .node (rooted_exprs ih)
  object s properties ih :=
    .node (everywhere_properties.2 fun p listed => (ih p listed).ofItem listed)
  dot s target property ih := .node ih
  sub s target index ih ih' := .node (ih.append ih')
  call s callee args ih ih' := .node (ih.append (rooted_exprs ih'))
  new s callee args ih ih' := .node (ih.append (rooted_exprs ih'))
  prefixOp s op operand ih := .node ih
  postfixOp s op operand ih := .node ih
  binary s op left right ih ih' := .node (ih.append ih')
  conditional s test yes no ih ih' ih'' := .node ((ih.append ih').append ih'')
  assign s op target value ih ih' := .node (ih.append ih')
  seq s first rest ih ih' := .node (ih.append ih')
  function s fn ih := .node ih
  init key value ih := .bare rfl ih
  getter key fn ih := .bare rfl ih
  setter key fn ih := .bare rfl ih
  functionBody name params body ih := .bare rfl (rooted_stmts ih)
  block s body ih := .node (rooted_stmts ih)
  expression s value ih := .node ih
  varStmt s defs ih := .node (rooted_varDefs ih)
  constStmt s defs ih := .node (rooted_varDefs ih)
  ifElse s condition thenBranch elseBranch ih ih' ih'' := by
    cases elseBranch with
    | none => exact .node ((ih.append ih').append everywhere_nil)
    | some branch => exact .node ((ih.append ih').append (ih'' branch rfl))
  forStmt s head test step body ih ih' ih'' body_ := by
    have tested := rooted_optional ih'
    have stepped := rooted_optional ih''
    cases head with
    | none => exact .node (((Rooted.nil.append tested).append stepped).append body_)
    | some head =>
      have begun : Rooted ((some head).toList.flatMap ForHead.children) head.parts :=
        (rooted_head (ih head rfl)).ofItem (List.mem_singleton_self head)
      exact .node (((begun.append tested).append stepped).append body_)
  forIn s head object body ih ih' ih'' := by
    rw [Stmt.parts, List.append_assoc]
    exact .node ((rooted_head ih).append (ih'.append ih''))
  whileStmt s condition body ih ih' := .node (ih.append ih')
  doWhile s body condition ih ih' := .node (ih.append ih')
  switch s discriminant cases ih ih' := .node (ih.append (rooted_cases ih'))
  tryCatch s body handler finalizer ih ih' ih'' := by
    have tried := rooted_stmts ih
    have ended {roots parts : List Part} (handled : Rooted roots parts) :
        Rooted (roots ++ (finalizer.getD []).map .stmt)
          (parts ++ match finalizer with
            | none => []
            | some body => partsOfStmts body) := by
      cases finalizer with
      | none => exact handled.append .nil
      | some final => exact handled.append (rooted_stmts (ih'' final rfl))
    rcases handler with _ | ⟨name, handling⟩
    · cases finalizer with
      | none => exact .node (ended (tried.append .nil))
      | some final => exact .node (ended (tried.append .nil))
    · have handled : Rooted (Handler.mk name handling).children (Handler.mk name handling).parts :=
        .bare rfl (rooted_stmts (ih' name handling rfl))
      have caught : Rooted ((some (Handler.mk name handling)).toList.flatMap Handler.children)
          (Handler.mk name handling).parts := handled.ofItem (List.mem_singleton_self _)
      cases finalizer with
      | none => exact .node (ended (tried.append caught))
      | some final => exact .node (ended (tried.append caught))
  defun s fn ih := .node ih
  returnStmt s value ih := .node (rooted_optional ih)
  breakStmt s label := .node .nil
  continueStmt s label := .node .nil
  labelled s label body ih := .node ih
  throwStmt s value ih := .node ih
  withStmt s object body ih ih' := .node (ih.append ih')
  debuggerStmt s := .node .nil

theorem Expr.rooted_parts (e : Expr) : Rooted [.expr e] e.parts := Induction.expr rooted_steps e

/-- The parts of every chunk are reached when those of its parts are. -/
theorem rooted_chunkSteps : ChunkInduction fun c => Rooted [.chunk c] c.parts where
  html s text := .node .nil
  echo s value := .node value.rooted_parts
  inclusion s args name := by
    have named := name.rooted_parts
    cases args with
    | none => exact .node (Rooted.nil.append named)
    | some args => exact .node ((rooted_exprs fun e _ => e.rooted_parts).append named)
  each s bindings collection body ih :=
    .node (collection.rooted_parts.append (rooted_chunks ih))
  ifElse s condition thenBranch elseIfs elseBranch ih ih' ih'' := by
    have others : Rooted (elseIfs.flatMap ElseIf.children) (partsOfElseIfs elseIfs) := by
      refine everywhere_elseIfs.2 ?_
      rintro ⟨test, body⟩ listed
      have branch : Rooted (ElseIf.mk test body).children (test.parts ++ partsOfChunks body) :=
        test.rooted_parts.append (rooted_chunks (ih' test body listed))
      exact Rooted.bare rfl (branch.ofItem listed)
    have known := (condition.rooted_parts.append (rooted_chunks ih)).append others
    cases elseBranch with
    | none => exact .node (known.append .nil)
    | some branch => exact .node (known.append (rooted_chunks (ih'' branch rfl)))
  rawHtml s value := .node value.rooted_parts
  layout s name := .node name.rooted_parts
  var s defs := .node (rooted_varDefs fun _ e _ => e.rooted_parts)

theorem Program.rooted_parts (program : Program) :
    Rooted (program.body.map .stmt) program.parts :=
  rooted_stmts fun s _ => Induction.stmt rooted_steps s

theorem Template.rooted_parts (t : Template) : Rooted (t.chunks.map .chunk) t.parts :=
  rooted_chunks fun c _ => ChunkInduction.chunk rooted_chunkSteps c

/-! ## The tree of spans -/

/-- The spans of the parts of a tree form a tree: that of the parts at and below the roots. -/
structure SpanTree (text : List Char) (roots parts : List Part) : Prop where
  /-- Every part with a span is one of the roots, or stands below one. -/
  reached : Reached roots parts
  /-- Every part carries a span, but for what stands in the place of a missing expression. -/
  carried : ∀ part : Part, part.Within roots → part.span = none → part = .missing
  /-- Every span goes round a piece of the text, and the piece is not empty. -/
  inText : Everywhere (fun part => ∀ span ∈ part.span,
    span.LiesIn text ∧ span.start.byte < span.stop.byte) parts
  /-- The span of a part goes round those of the parts below it, at any depth. -/
  around : ∀ part : Part, part.Within roots → ∀ below : Part, below.Within part.children →
    ∀ outer ∈ part.span, ∀ inner ∈ below.span, outer.Contains inner
  /-- Of the parts right below a part, each ends before the next one begins. -/
  apart : ∀ part : Part, part.Within roots →
    (part.children.filterMap Part.span).Pairwise Span.Before
  /-- So do the roots. -/
  rootsApart : (roots.filterMap Part.span).Pairwise Span.Before

/-! ## Parts that are nested in a stretch of text -/

/-- The parts lie one behind the other between two bytes of the text, and so do the parts below
each of them between the ends of its span. -/
inductive Nested (text : List Char) : Nat → Nat → List Part → Prop where
  | nil {lo hi : Nat} (le : lo ≤ hi) : Nested text lo hi []
  | missing {lo hi : Nat} {parts : List Part} (more : Nested text lo hi parts) :
    Nested text lo hi (.missing :: parts)
  | part {lo hi : Nat} {part : Part} {parts : List Part} {span : Span}
      (own : part.span = some span) (lies : span.LiesIn text)
      (filled : span.start.byte < span.stop.byte) (behind : lo ≤ span.start.byte)
      (below : Nested text span.start.byte span.stop.byte part.children)
      (more : Nested text span.stop.byte hi parts) : Nested text lo hi (part :: parts)

namespace Nested

variable {text : List Char} {lo lo' mid hi hi' : Nat} {parts more : List Part}

/-- The stretch does not end before it begins. -/
theorem le (nested : Nested text lo hi parts) : lo ≤ hi := by
  induction nested with
  | nil le => exact le
  | missing _ ih => exact ih
  | part _ _ filled behind _ _ _ ih => omega

/-- What is nested in a stretch is nested in a wider one. -/
theorem widen (nested : Nested text lo hi parts) (before : lo' ≤ lo) (behind : hi ≤ hi') :
    Nested text lo' hi' parts := by
  induction nested generalizing lo' with
  | nil le => exact .nil (by omega)
  | missing _ ih => exact .missing (ih before behind)
  | part own lies filled after below _ _ ih =>
    exact .part own lies filled (by omega) below (ih (Nat.le_refl _) behind)

/-- Parts in a stretch, and others in the stretch behind it. -/
theorem append (nested : Nested text lo mid parts) (others : Nested text mid hi more) :
    Nested text lo hi (parts ++ more) := by
  induction nested with
  | nil le => exact others.widen le (Nat.le_refl _)
  | missing _ ih => exact .missing (ih others)
  | part own lies filled behind below _ _ ih => exact .part own lies filled behind below (ih others)

/-- Of the parts in a stretch, each ends before the next one begins, and none begins before the
stretch. -/
theorem apart (nested : Nested text lo hi parts) :
    (parts.filterMap Part.span).Pairwise Span.Before ∧
      ∀ span ∈ parts.filterMap Part.span, lo ≤ span.start.byte := by
  induction nested with
  | nil => simp
  | missing _ ih => rwa [List.filterMap_cons_none Part.span_missing]
  | part own _ filled behind _ _ _ ih =>
    obtain ⟨pairwise, after⟩ := ih
    rw [List.filterMap_cons_some own]
    refine ⟨List.pairwise_cons.2 ⟨after, pairwise⟩, ?_⟩
    intro other listed
    rcases List.mem_cons.1 listed with rfl | listed
    · exact behind
    · have := after other listed
      omega

end Nested

/-- A part stands in a stretch of the text with its span, in which the parts below it are nested. -/
structure Part.Settled (text : List Char) (lo hi : Nat) (part : Part) (span : Span) : Prop where
  own : part.span = some span
  lies : span.LiesIn text
  filled : span.start.byte < span.stop.byte
  start : lo ≤ span.start.byte
  stop : span.stop.byte ≤ hi
  below : Nested text span.start.byte span.stop.byte part.children

section Settled

variable {text : List Char} {lo hi : Nat} {roots : List Part} {part : Part}

/-- A part that is listed stands in the stretch. -/
theorem Nested.settled (nested : Nested text lo hi roots) (listed : part ∈ roots) :
    part = .missing ∨ ∃ span, part.Settled text lo hi span := by
  induction nested with
  | nil => exact absurd listed List.not_mem_nil
  | missing _ ih =>
    rcases List.mem_cons.1 listed with rfl | listed
    · exact .inl rfl
    · exact ih listed
  | part own lies filled behind below more _ ih =>
    rcases List.mem_cons.1 listed with rfl | listed
    · exact .inr ⟨_, own, lies, filled, behind, more.le, below⟩
    · rcases ih listed with missing | ⟨span, settled⟩
      · exact .inl missing
      · exact .inr ⟨span, { settled with start := by have := settled.start; omega }⟩

/-- A part at any depth stands in the stretch: by induction on its depth, the stretch of the part
above it being a part of this one. -/
theorem Nested.settled_within (nested : Nested text lo hi roots) (inside : part.Within roots) :
    part = .missing ∨ ∃ span, part.Settled text lo hi span := by
  induction inside with
  | root listed => exact nested.settled listed
  | child _ below ih =>
    rcases ih with rfl | ⟨outer, settled⟩
    · exact absurd below List.not_mem_nil
    · rcases settled.below.settled below with missing | ⟨inner, child⟩
      · exact .inl missing
      · have start := settled.start
        have stop := settled.stop
        refine .inr ⟨inner, { child with start := ?_, stop := ?_ }⟩
        · have := child.start
          omega
        · have := child.stop
          omega

/-- Every node of nested parts carries a span, but for what stands in the place of a missing
expression. -/
theorem Nested.spanned (nested : Nested text lo hi roots) {parts : List Part}
    (rooted : Rooted roots parts) :
    Everywhere (fun part => part.isNode = true → part = .missing ∨ ∃ span, part.span = some span)
      parts := by
  intro part listed node
  rcases nested.settled_within (rooted part listed node) with missing | ⟨span, settled⟩
  · exact .inl missing
  · exact .inr ⟨span, settled.own⟩

/-- The spans of nested parts form a tree. -/
theorem Nested.spanTree (nested : Nested text lo hi roots) {parts : List Part}
    (reached : Reached roots parts) : SpanTree text roots parts where
  reached := reached
  carried part inside none := by
    rcases nested.settled_within inside with missing | ⟨span, settled⟩
    · exact missing
    · exact absurd (settled.own.symm.trans none) (by simp)
  inText part listed span own := by
    rcases nested.settled_within (reached part listed span own) with rfl | ⟨span', settled⟩
    · exact absurd own (by simp [Part.span_missing])
    · obtain rfl := Option.some.inj (settled.own.symm.trans own)
      exact ⟨settled.lies, settled.filled⟩
  around part inside below deeper outer own inner own' := by
    rcases nested.settled_within inside with rfl | ⟨span, settled⟩
    · exact absurd own (by simp [Part.span_missing])
    · obtain rfl := Option.some.inj (settled.own.symm.trans own)
      rcases settled.below.settled_within deeper with rfl | ⟨span', settled'⟩
      · exact absurd own' (by simp [Part.span_missing])
      · obtain rfl := Option.some.inj (settled'.own.symm.trans own')
        exact ⟨settled'.start, settled'.stop⟩
  apart part inside := by
    rcases nested.settled_within inside with rfl | ⟨span, settled⟩
    · exact .nil
    · exact settled.below.apart.1
  rootsApart := nested.apart.1

end Settled

end Stencil.Syntax

import Stencil.Proofs.Syntax.Scoping
import Stencil.Proofs.Syntax.SpanTree
import Stencil.Proofs.Syntax.Subtrees
/-!
# What encloses a statement

A statement stands in the loops, switches, labelled statements and functions whose bodies hold it.
`Part.Stands` lists them for every part of a tree, the innermost first, by going down from the roots
one part at a time. Which jumps a statement may hold where it stands is said of this list
(`WellScoped`).

The grammar checks the jumps while it reads, against the surroundings of a statement. The enclosures
of a statement determine its surroundings, so in a tree whose statements and functions pass the checks
of the grammar every part is well scoped (`Part.Stands.wellScoped`).
-/

set_option autoImplicit false

namespace Stencil.Syntax

open Stencil.Grammar (Surroundings)

/-! ## Enclosures -/

/-- What a statement may stand in the body of. -/
inductive Enclosure where
  /-- A function, also an accessor of an object. -/
  | function
  /-- A loop of any kind. -/
  | loop
  | switch
  /-- A statement with a label. -/
  | label (name : String)
deriving DecidableEq

/-- What the statements right below a statement stand in the body of, if that matters to jumps. -/
def Stmt.enclosure : Stmt → Option Enclosure
  | .for .. | .forIn .. | .while .. | .doWhile .. => some .loop
  | .switch .. => some .switch
  | .labelled _ label _ => some (.label label)
  | .defun .. => some .function
  | _ => none

/-- What the statements right below a part stand in the body of. The statements right below an
expression are in the body of a function. -/
def Part.enclosure : Part → Option Enclosure
  | .expr _ => some .function
  | .stmt s => s.enclosure
  | _ => none

/-- The enclosures of a part that stands right below another. Only a statement stands in the body of
what is above it: the condition of a loop, say, does not stand in the loop. -/
def Part.enclosuresBelow (above : Part) (around : List Enclosure) : Part → List Enclosure
  | .stmt _ => above.enclosure.toList ++ around
  | _ => around

/-- The part stands in the enclosures, of which the innermost is the first: it is one of the roots,
or stands below a part that does. -/
inductive Part.Stands (roots : List Part) : List Enclosure → Part → Prop where
  | root {part : Part} (listed : part ∈ roots) : Stands roots [] part
  | child {around : List Enclosure} {part child : Part} (above : Stands roots around part)
    (below : child ∈ part.children) : Stands roots (part.enclosuresBelow around child) child

/-- Every part below the roots stands somewhere. -/
theorem Part.Within.stands {roots : List Part} {part : Part} (inside : part.Within roots) :
    ∃ around, part.Stands roots around := by
  induction inside with
  | root listed => exact ⟨[], .root listed⟩
  | child _ below ih =>
    obtain ⟨around, stands⟩ := ih
    exact ⟨_, stands.child below⟩

/-! ## Jumps and labels -/

/-- The enclosures within the innermost function. -/
def sameFunction (around : List Enclosure) : List Enclosure := around.takeWhile (· ≠ .function)

/-- Whether a jump with the given label, if any, has a target within the innermost function. -/
def Targeted (around : List Enclosure) : Option String → Prop
  | none => .loop ∈ sameFunction around ∨ .switch ∈ sameFunction around
  | some label => .label label ∈ sameFunction around

/-- Whether a part may stand in the enclosures: a `return` in a function, a jump with its target in
the same function, and a labelled statement in none with the same label in the same function. -/
def WellScoped (around : List Enclosure) : Part → Prop
  | .stmt (.return _ _) => .function ∈ around
  | .stmt (.break _ label) => Targeted around label
  | .stmt (.continue _ label) => Targeted around label
  | .stmt (.labelled _ label _) => .label label ∉ sameFunction around
  | _ => True

/-! ## Surroundings -/

/-- The surroundings in which the body of an enclosure is read. -/
def Enclosure.enter (around : Surroundings) : Enclosure → Surroundings
  | .function => .ofFunction
  | .loop => around.looping
  | .switch => around.looping
  | .label name => around.labelled name

/-- The surroundings in which what stands in the enclosures is read. -/
def surroundings : List Enclosure → Surroundings
  | [] => .outermost
  | enclosure :: around => enclosure.enter (surroundings around)

theorem inFunction_surroundings (around : List Enclosure) :
    (surroundings around).inFunction = true ↔ .function ∈ around := by
  induction around with
  | nil => simp [surroundings, Surroundings.outermost]
  | cons enclosure around ih =>
    cases enclosure <;>
      simp [surroundings, Enclosure.enter, Surroundings.ofFunction, Surroundings.looping,
        Surroundings.labelled, ih]

theorem inLoop_surroundings (around : List Enclosure) :
    (surroundings around).inLoop = true ↔ Targeted around none := by
  induction around with
  | nil => simp [surroundings, Surroundings.outermost, Targeted, sameFunction]
  | cons enclosure around ih =>
    cases enclosure <;>
      simp_all [surroundings, Enclosure.enter, Surroundings.ofFunction, Surroundings.looping,
        Surroundings.labelled, Targeted, sameFunction]

theorem labels_surroundings (around : List Enclosure) (label : String) :
    (surroundings around).labels.contains label = true ↔ Targeted around (some label) := by
  induction around with
  | nil => simp [surroundings, Surroundings.outermost, Targeted, sameFunction]
  | cons enclosure around ih =>
    cases enclosure <;>
      simp_all [surroundings, Enclosure.enter, Surroundings.ofFunction, Surroundings.looping,
        Surroundings.labelled, Targeted, sameFunction, or_comm]

/-- A jump passes the check of the grammar when it has a target. -/
theorem jumpScoped_surroundings (around : List Enclosure) (label : Option String) :
    JumpScoped (surroundings around) label ↔ Targeted around label := by
  cases label with
  | none => exact inLoop_surroundings around
  | some label => exact labels_surroundings around label

/-! ## What holds below a part -/

/-- Whether a condition holds everywhere in each of the parts. -/
def InEach (condition : Part → Prop) (children : List Part) : Prop :=
  ∀ child ∈ children, Everywhere condition child.parts

section InEach

variable {condition : Part → Prop}

@[simp] theorem inEach_nil : InEach condition [] := by simp [InEach]

@[simp] theorem inEach_cons (child : Part) (children : List Part) :
    InEach condition (child :: children) ↔
      Everywhere condition child.parts ∧ InEach condition children :=
  List.forall_mem_cons

@[simp] theorem inEach_append (children more : List Part) :
    InEach condition (children ++ more) ↔ InEach condition children ∧ InEach condition more :=
  List.forall_mem_append

/-- A condition holds in the children of several items when it holds in those of each. -/
theorem inEach_flatMap {α : Type} {below : α → List Part} {items : List α} :
    InEach condition (items.flatMap below) ↔ ∀ item ∈ items, InEach condition (below item) := by
  simp only [InEach, List.mem_flatMap]
  grind

@[simp] theorem inEach_exprs (items : List Expr) :
    InEach condition (items.map .expr) ↔ Everywhere condition (partsOfExprs items) := by
  simp [InEach, everywhere_exprs, Part.parts]

@[simp] theorem inEach_stmts (body : List Stmt) :
    InEach condition (body.map .stmt) ↔ Everywhere condition (partsOfStmts body) := by
  simp [InEach, everywhere_stmts, Part.parts]

@[simp] theorem inEach_chunks (body : List Chunk) :
    InEach condition (body.map .chunk) ↔ Everywhere condition (partsOfChunks body) := by
  simp [InEach, everywhere_chunks, Part.parts]

@[simp] theorem inEach_optional (value : Option Expr) :
    InEach condition (optionalChild value) ↔ Everywhere condition (partsOfOptional value) := by
  cases value with
  | none => simp [optionalChild, partsOfOptional]
  | some value => simp [optionalChild, partsOfOptional, Part.parts]

theorem inEach_function {fn : Function} (holds : Everywhere condition fn.parts) :
    InEach condition fn.children := by
  obtain ⟨name, params, body⟩ := fn
  exact (inEach_stmts body).2 ((everywhere_cons _ _).1 holds).2

theorem inEach_varDefs {defs : List VarDef} (holds : Everywhere condition (partsOfVarDefs defs)) :
    InEach condition (defs.flatMap VarDef.children) := by
  refine inEach_flatMap.2 ?_
  rintro ⟨name, value⟩ listed
  exact (inEach_optional value).2 ((everywhere_cons _ _).1 (everywhere_varDefs.1 holds _ listed)).2

theorem inEach_head {head : ForHead} (holds : Everywhere condition head.parts) :
    InEach condition head.children := by
  cases head with
  | var defs => exact inEach_varDefs ((everywhere_cons _ _).1 holds).2
  | expr value => simpa [ForHead.children, Part.parts] using ((everywhere_cons _ _).1 holds).2

theorem inEach_cases {cases : List SwitchCase} (holds : Everywhere condition (partsOfCases cases)) :
    InEach condition (cases.flatMap SwitchCase.children) := by
  refine inEach_flatMap.2 ?_
  rintro ⟨test, body⟩ listed
  have branch := everywhere_cases.1 holds _ listed
  simp only [SwitchCase.parts, everywhere_cons, everywhere_append] at branch
  simpa [SwitchCase.children] using branch.2

theorem inEach_elseIfs {branches : List ElseIf}
    (holds : Everywhere condition (partsOfElseIfs branches)) :
    InEach condition (branches.flatMap ElseIf.children) := by
  refine inEach_flatMap.2 ?_
  rintro ⟨test, body⟩ listed
  have branch := everywhere_elseIfs.1 holds _ listed
  simp only [ElseIf.parts, everywhere_cons, everywhere_append] at branch
  simpa [ElseIf.children, Part.parts] using branch.2

theorem inEach_expr {e : Expr} (holds : Everywhere condition e.parts) :
    InEach condition e.children := by
  cases e with
  | object s properties =>
    refine inEach_flatMap.2 fun p listed => ?_
    have property := everywhere_properties.1 ((everywhere_cons _ _).1 holds).2 p listed
    cases p with
    | init key value =>
      simpa [Property.children, Part.parts] using ((everywhere_cons _ _).1 property).2
    | getter key fn | setter key fn => exact inEach_function ((everywhere_cons _ _).1 property).2
  | function s fn => exact inEach_function ((everywhere_cons _ _).1 holds).2
  | _ => simp_all [Expr.children, Part.parts]

theorem inEach_stmt {s : Stmt} (holds : Everywhere condition s.parts) :
    InEach condition s.children := by
  cases s with
  | var s defs | const s defs => exact inEach_varDefs ((everywhere_cons _ _).1 holds).2
  | ifElse s condition thenBranch elseBranch =>
    cases elseBranch with
    | none => simp_all [Stmt.children, Part.parts]
    | some branch => simp_all [Stmt.children, Part.parts]
  | «for» s head test step body =>
    obtain ⟨-, headed, tested, stepped, looped⟩ := everywhere_for.1 holds
    simp only [Stmt.children, inEach_append, inEach_optional, inEach_cons, Part.parts]
    refine ⟨⟨⟨inEach_flatMap.2 ?_, tested⟩, stepped⟩, looped, inEach_nil⟩
    exact fun h listed => inEach_head (headed h (Option.mem_toList.1 listed))
  | forIn s head object body =>
    simp only [Stmt.parts, everywhere_cons, everywhere_append] at holds
    simpa [Stmt.children, Part.parts] using ⟨inEach_head holds.2.1.1, holds.2.1.2, holds.2.2⟩
  | switch s discriminant cases =>
    simp only [Stmt.parts, everywhere_cons, everywhere_append] at holds
    exact (inEach_cons _ _).2 ⟨holds.2.1, inEach_cases holds.2.2⟩
  | tryCatch s body handler finalizer =>
    obtain ⟨-, tried, handled, finished⟩ := everywhere_tryCatch.1 holds
    simp only [Stmt.children, inEach_append, inEach_stmts]
    refine ⟨⟨tried, inEach_flatMap.2 ?_⟩, ?_⟩
    · rintro ⟨name, handling⟩ listed
      exact (inEach_stmts _).2 ((everywhere_cons _ _).1 (handled _ (Option.mem_toList.1 listed))).2
    · cases finalizer with
      | none => exact everywhere_nil
      | some final => exact finished final rfl
  | defun s fn => exact inEach_function ((everywhere_cons _ _).1 holds).2
  | _ => simp_all [Stmt.children, Part.parts]

theorem inEach_chunk {c : Chunk} (holds : Everywhere condition c.parts) :
    InEach condition c.children := by
  cases c with
  | ifElse s test thenBranch elseIfs elseBranch =>
    obtain ⟨-, tested, chosen, others, last⟩ := everywhere_conditional.1 holds
    simp only [Chunk.children, inEach_cons, inEach_append, inEach_chunks, Part.parts]
    refine ⟨tested, ⟨chosen, inEach_elseIfs others⟩, ?_⟩
    cases elseBranch with
    | none => exact everywhere_nil
    | some body => exact last body rfl
  | var s defs => exact inEach_varDefs ((everywhere_cons _ _).1 holds).2
  | _ => simp_all [Chunk.children, Part.parts]

/-- What holds everywhere in a part holds everywhere in each part right below it. -/
theorem inEach_children {part : Part} (holds : Everywhere condition part.parts) :
    InEach condition part.children := by
  cases part with
  | expr e => exact inEach_expr holds
  | stmt s => exact inEach_stmt holds
  | chunk c => exact inEach_chunk holds
  | _ => exact inEach_nil

end InEach

/-! ## From the checks of the grammar -/

/-- Whether the jumps in the body of a function have targets in that body. -/
def ScopedFunction : Part → Prop
  | .function (.mk _ _ body) => scopedStmts .ofFunction body
  | _ => True

/-- The statements of a function that stand right below the part that holds it. -/
theorem scoped_functionChild {fn : Function} {s : Stmt} (holds : Everywhere ScopedFunction fn.parts)
    (below : .stmt s ∈ fn.children) : s.Scoped .ofFunction := by
  obtain ⟨name, params, body⟩ := fn
  have own : scopedStmts .ofFunction body := ((everywhere_cons _ _).1 holds).1
  exact scopedStmts_iff.1 own s (by simpa [Function.children] using below)

/-- The statements right below an expression are in the body of a function. -/
theorem scoped_exprChild {e : Expr} {s : Stmt} (holds : Everywhere ScopedFunction e.parts)
    (below : .stmt s ∈ e.children) : s.Scoped .ofFunction := by
  cases e with
  | object span properties =>
    obtain ⟨p, listed, below⟩ := List.mem_flatMap.1 below
    have property := everywhere_properties.1 ((everywhere_cons _ _).1 holds).2 p listed
    cases p with
    | init key value => simp [Property.children] at below
    | getter key fn | setter key fn =>
      exact scoped_functionChild ((everywhere_cons _ _).1 property).2 below
  | function span fn => exact scoped_functionChild ((everywhere_cons _ _).1 holds).2 below
  | _ => simp [Expr.children] at below

/-- No statement is an initial value. -/
theorem stmt_not_mem_varDefs {defs : List VarDef} {s : Stmt} :
    .stmt s ∉ defs.flatMap VarDef.children := by
  rintro below
  obtain ⟨⟨name, value⟩, -, below⟩ := List.mem_flatMap.1 below
  simp [VarDef.children, optionalChild] at below

theorem stmt_not_mem_head {head : ForHead} {s : Stmt} : .stmt s ∉ head.children := by
  cases head with
  | var defs => exact stmt_not_mem_varDefs
  | expr value => simp [ForHead.children]

/-- A statement right below another keeps to the surroundings that the other makes for it. -/
theorem scoped_stmtChild {outer s : Stmt} {around : List Enclosure}
    (jumps : outer.Scoped (surroundings around)) (holds : Everywhere ScopedFunction outer.parts)
    (below : .stmt s ∈ outer.children) :
    s.Scoped (surroundings (outer.enclosure.toList ++ around)) := by
  cases outer with
  | block span body => exact scopedStmts_iff.1 jumps s (by simpa [Stmt.children] using below)
  | ifElse span condition thenBranch elseBranch =>
    cases elseBranch with
    | none =>
      obtain rfl : s = thenBranch := by simpa [Stmt.children] using below
      exact jumps.1
    | some branch =>
      obtain rfl | rfl : s = thenBranch ∨ s = branch := by simpa [Stmt.children] using below
      · exact jumps.1
      · exact jumps.2
  | «for» span head test step body =>
    have notHead : .stmt s ∉ head.toList.flatMap ForHead.children := by
      rintro inside
      obtain ⟨h, -, inside⟩ := List.mem_flatMap.1 inside
      exact stmt_not_mem_head inside
    obtain rfl : s = body := by simpa [Stmt.children, optionalChild, notHead] using below
    exact jumps
  | forIn span head object body =>
    obtain rfl : s = body := by simpa [Stmt.children, stmt_not_mem_head] using below
    exact jumps
  | «while» span condition body =>
    obtain rfl : s = body := by simpa [Stmt.children] using below
    exact jumps
  | doWhile span body condition =>
    obtain rfl : s = body := by simpa [Stmt.children] using below
    exact jumps
  | switch span discriminant cases =>
    have below : .stmt s ∈ cases.flatMap SwitchCase.children := by
      simpa [Stmt.children] using below
    obtain ⟨⟨test, body⟩, listed, below⟩ := List.mem_flatMap.1 below
    have inside := scopedCases_iff.1 jumps test body listed
    exact scopedStmts_iff.1 inside s (by simpa [SwitchCase.children, optionalChild] using below)
  | tryCatch span body handler finalizer =>
    obtain ⟨tried, handled, finished⟩ := scoped_tryCatch.1 jumps
    simp only [Stmt.children, List.mem_append] at below
    rcases below with (below | below) | below
    · exact scopedStmts_iff.1 tried s (by simpa using below)
    · obtain ⟨⟨name, handling⟩, caught, below⟩ := List.mem_flatMap.1 below
      exact scopedStmts_iff.1 (handled name handling (Option.mem_toList.1 caught)) s
        (by simpa [Handler.children] using below)
    · cases finalizer with
      | none => simp at below
      | some final => exact scopedStmts_iff.1 (finished final rfl) s (by simpa using below)
  | defun span fn => exact scoped_functionChild ((everywhere_cons _ _).1 holds).2 below
  | labelled span label body =>
    obtain rfl : s = body := by simpa [Stmt.children] using below
    exact jumps.2
  | «with» span object body =>
    obtain rfl : s = body := by simpa [Stmt.children] using below
    exact jumps
  | var | const => exact absurd below stmt_not_mem_varDefs
  | «return» => simp [Stmt.children, optionalChild] at below
  | _ => simp [Stmt.children] at below

/-- Whether the part passes the checks of the grammar in the enclosures, and so do the bodies of the
functions below it. -/
structure Checked (around : List Enclosure) (part : Part) : Prop where
  functions : Everywhere ScopedFunction part.parts
  jumps : ∀ s, part = .stmt s → s.Scoped (surroundings around)

/-- A part right below one that passes the checks passes them. -/
theorem Checked.child {around : List Enclosure} {part child : Part} (checked : Checked around part)
    (below : child ∈ part.children) : Checked (part.enclosuresBelow around child) child := by
  refine ⟨inEach_children checked.functions child below, ?_⟩
  rintro s rfl
  cases part with
  | expr e => exact scoped_exprChild checked.functions below
  | stmt outer => exact scoped_stmtChild (checked.jumps outer rfl) checked.functions below
  | chunk c =>
    cases c with
    | ifElse span test thenBranch elseIfs elseBranch =>
      have notBranch : .stmt s ∉ elseIfs.flatMap ElseIf.children := by
        rintro inside
        obtain ⟨⟨condition, body⟩, -, inside⟩ := List.mem_flatMap.1 inside
        simp [ElseIf.children] at inside
      simp [Part.children, Chunk.children, notBranch] at below
    | var span defs => exact absurd below stmt_not_mem_varDefs
    | _ => simp [Part.children, Chunk.children] at below
  | _ => simp [Part.children] at below

/-- What passes the checks of the grammar is well scoped. -/
theorem Checked.wellScoped {around : List Enclosure} {part : Part} (checked : Checked around part) :
    WellScoped around part := by
  cases part with
  | stmt s =>
    have jumps := checked.jumps s rfl
    cases s with
    | «return» span value => exact (inFunction_surroundings around).1 jumps
    | «break» span label | «continue» span label => exact (jumpScoped_surroundings around label).1 jumps
    | labelled span label body =>
      have free := jumps.1
      exact fun inside => Bool.false_ne_true (free.symm.trans ((labels_surroundings around label).2 inside))
    | _ => trivial
  | _ => trivial

/-- In a tree that passes the checks of the grammar at its roots every part is well scoped: by going
down from the roots. -/
theorem Part.Stands.wellScoped {roots : List Part} {around : List Enclosure} {part : Part}
    (stands : part.Stands roots around) (checked : ∀ root ∈ roots, Checked [] root) :
    WellScoped around part := by
  have passes : Checked around part := by
    induction stands with
    | root listed => exact checked _ listed
    | child above below ih => exact ih.child below
  exact passes.wellScoped

end Stencil.Syntax

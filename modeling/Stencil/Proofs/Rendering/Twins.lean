import Stencil.Proofs.Rendering.Views
import Mathlib.Data.List.Basic
/-!
# Data that differs in one collection

Two values are twins when they are alike but for a collection at the end of a path of keys, which is an
array in the one and a stream in the other. A template spares the collection when it names it only in
the head of an iteration. Names and members of names are all that such a template needs to be looked
at for: the names of the collection are those that begin its path, or are the name that all data has.
-/

set_option autoImplicit false

namespace Stencil.Render

open Stencil.Syntax
open Stencil.Text (Span)

/-! ## Values -/

/-- Whether two values are alike but for what stands at the end of a path: an array here, a stream
there. -/
inductive Twins (array stream : Value) : List String → Value → Value → Prop
  | here : Twins array stream [] array stream
  | inside {key : String} {path : List String} {value value' : Value} (identity : Nat)
    (front back : List (String × Value)) (absent : ∀ entry ∈ front, entry.1 ≠ key)
    (twins : Twins array stream path value value') :
    Twins array stream (key :: path) (.object identity (front ++ (key, value) :: back))
      (.object identity (front ++ (key, value') :: back))

/-- Whether two values are the same, or twins with what is left of the path. -/
def Pair (array stream : Value) (path : List String) (value value' : Value) : Prop :=
  value = value' ∨ Twins array stream path value value'

/-- Whether arrays have something under a name. -/
def IsArrayKey (name : String) : Prop := name = "length" ∨ (Value.index? name.toList).isSome

namespace Twins

variable {array stream value value' : Value} {key : String} {path : List String}

/-- Under another key than the next of the path, twins have the same. -/
theorem own?_of_ne (twins : Twins array stream (key :: path) value value') {name : String}
    (differs : name ≠ key) : value.own? name = value'.own? name := by
  cases twins with
  | inside identity front back absent inner =>
    simp only [Value.own?, Table.get?, List.find?_append, List.find?_cons,
      decide_eq_false (Ne.symm differs)]

/-- Under the next key of the path, twins have twins. -/
theorem own?_key (twins : Twins array stream (key :: path) value value') :
    ∃ inner inner', value.own? key = some inner ∧ value'.own? key = some inner' ∧
      Twins array stream path inner inner' := by
  cases twins with
  | @inside _ _ inner inner' identity front back absent twins =>
    have found : ∀ inner : Value, (front ++ (key, inner) :: back).find?
        (fun entry => decide (entry.1 = key)) = some (key, inner) := by
      intro inner
      rw [List.find?_append, List.find?_eq_none.2 (by simpa using absent)]
      simp
    refine ⟨inner, inner', ?_, ?_, twins⟩ <;> simp [Value.own?, Table.get?, found]

/-- Twins differ. -/
theorem differs {identity number : Nat} {values : List Value}
    (twins : Twins (.array identity values) (.stream number) path value value') : value ≠ value' := by
  induction twins with
  | here => exact (nomatch ·)
  | inside identity front back absent twins ih =>
    intro same
    have entries := (Value.object.inj same).2
    exact ih (congrArg Prod.snd (List.cons.inj (List.append_cancel_left entries)).1)

/-- Twins are no lookups. -/
theorem ne_dynamic {identity number handle : Nat} {values : List Value}
    (twins : Twins (.array identity values) (.stream number) path value value') :
    value ≠ .dynamic handle ∧ value' ≠ .dynamic handle := by
  cases twins with
  | here => exact ⟨(nomatch ·), (nomatch ·)⟩
  | inside => exact ⟨(nomatch ·), (nomatch ·)⟩

/-- A name that is no key of arrays is neither one of the array nor one of the stream. -/
theorem own?_here {identity number : Nat} {values : List Value} {name : String}
    (foreign : ¬IsArrayKey name) :
    (Value.array identity values).own? name = none ∧ (Value.stream number).own? name = none := by
  have length : name ≠ "length" := fun same => foreign (.inl same)
  have index : Value.index? name.toList = none := by
    cases found : Value.index? name.toList with
    | none => rfl
    | some index => exact absurd (.inr (found ▸ rfl)) foreign
  exact ⟨by simp [Value.own?, length, index], rfl⟩

end Twins

/-! ## Templates -/

/-- What is left of the path to the collection behind an expression that goes along it. -/
def trail (path : List String) : Expr → Option (List String)
  | .name _ name =>
    if name = "$data" then some path
    else
      match path with
      | key :: rest => if name = key then some rest else none
      | [] => none
  | .dot _ target property =>
    match trail path target with
    | some (key :: rest) => if property = key then some rest else none
    | _ => none
  | _ => none

mutual

/-- Whether an expression does not name the collection, nor the data that holds it. It may name other
members of this data; where the data is the collection, it names none of its members. -/
def ExprSpares (path : List String) : Expr → Prop
  | .name s name => trail path (.name s name) = none ∧ (path = [] → ¬IsArrayKey name)
  | .dot _ target property =>
    (∃ key rest, trail path target = some (key :: rest) ∧ property ≠ key) ∨ ExprSpares path target
  | .array _ items => ListSpares path items
  | .object _ properties => PropertiesSpare path properties
  | .sub _ target index => ExprSpares path target ∧ ExprSpares path index
  | .call _ callee args => ExprSpares path callee ∧ ListSpares path args
  | .prefixOp _ _ operand => ExprSpares path operand
  | .binary _ _ left right => ExprSpares path left ∧ ExprSpares path right
  | .conditional _ test yes no =>
    ExprSpares path test ∧ ExprSpares path yes ∧ ExprSpares path no
  | _ => True

/-- Whether all expressions of a list spare the collection. -/
def ListSpares (path : List String) : List Expr → Prop
  | [] => True
  | e :: rest => ExprSpares path e ∧ ListSpares path rest

/-- Whether the values of properties spare the collection. -/
def PropertiesSpare (path : List String) : List Property → Prop
  | [] => True
  | .init _ value :: rest => ExprSpares path value ∧ PropertiesSpare path rest
  | _ :: rest => PropertiesSpare path rest

end

/-- Whether an expression spares the collection, or goes along the path to it. -/
def Near (path : List String) (e : Expr) : Prop :=
  ExprSpares path e ∨ ∃ rest, trail path e = some rest

mutual

/-- Whether a chunk names the collection only in heads of iterations. It may pass on the data that
holds the collection to a template. -/
def ChunkSpares (path : List String) : Chunk → Prop
  | .html .. => True
  | .echo _ value | .rawHtml _ value => ExprSpares path value
  | .include _ args name =>
    (match args with
      | some (first :: others) =>
        (ExprSpares path first ∨ trail path first = some path) ∧ ListSpares path others
      | _ => True) ∧ ExprSpares path name
  | .each _ _ collection body => Near path collection ∧ ChunksSpare path body
  | .ifElse _ condition thenBranch elseIfs elseBranch =>
    ExprSpares path condition ∧ ChunksSpare path thenBranch ∧ ElseIfsSpare path elseIfs ∧
      match elseBranch with
      | some branch => ChunksSpare path branch
      | none => True
  | .layout _ name => ExprSpares path name
  | .var _ defs => ∀ name value, VarDef.mk name (some value) ∈ defs → ExprSpares path value

/-- Whether all chunks of a list do so. -/
def ChunksSpare (path : List String) : List Chunk → Prop
  | [] => True
  | chunk :: rest => ChunkSpares path chunk ∧ ChunksSpare path rest

/-- Whether conditional branches do so. -/
def ElseIfsSpare (path : List String) : List ElseIf → Prop
  | [] => True
  | .mk condition body :: rest =>
    ExprSpares path condition ∧ ChunksSpare path body ∧ ElseIfsSpare path rest

end

/-- Whether all templates that can be loaded name the collection only in heads of iterations. -/
def TemplatesSpare (settings : Settings) (provider : Provider) (path : List String) : Prop :=
  ∀ name template, Coherent settings provider name template → ChunksSpare path template.chunks

/-! ## Deciding what a template spares -/

instance (name : String) : Decidable (IsArrayKey name) :=
  inferInstanceAs (Decidable (_ ∨ _))

mutual

/-- It can be computed whether an expression spares the collection. -/
def ExprSpares.decide (path : List String) : (e : Expr) → Decidable (ExprSpares path e)
  | .name s name =>
    inferInstanceAs (Decidable (trail path (.name s name) = none ∧ (path = [] → ¬IsArrayKey name)))
  | .dot _ target property =>
    have := ExprSpares.decide path target
    decidable_of_iff ((∃ left ∈ trail path target, ∃ key ∈ left.head?, property ≠ key) ∨
      ExprSpares path target) (by simp [ExprSpares, List.head?_eq_some_iff])
  | .array _ items => ListSpares.decide path items
  | .object _ properties => PropertiesSpare.decide path properties
  | .sub _ target index =>
    have := ExprSpares.decide path target
    have := ExprSpares.decide path index
    inferInstanceAs (Decidable (_ ∧ _))
  | .call _ callee args =>
    have := ExprSpares.decide path callee
    have := ListSpares.decide path args
    inferInstanceAs (Decidable (_ ∧ _))
  | .prefixOp _ _ operand => ExprSpares.decide path operand
  | .binary _ _ left right =>
    have := ExprSpares.decide path left
    have := ExprSpares.decide path right
    inferInstanceAs (Decidable (_ ∧ _))
  | .conditional _ test yes no =>
    have := ExprSpares.decide path test
    have := ExprSpares.decide path yes
    have := ExprSpares.decide path no
    inferInstanceAs (Decidable (_ ∧ _ ∧ _))
  | .num .. | .string .. | .atom .. | .regexp .. | .new .. | .postfixOp .. | .assign .. | .seq ..
  | .function .. => .isTrue trivial

def ListSpares.decide (path : List String) : (items : List Expr) → Decidable (ListSpares path items)
  | [] => .isTrue trivial
  | e :: rest =>
    have := ExprSpares.decide path e
    have := ListSpares.decide path rest
    inferInstanceAs (Decidable (_ ∧ _))

def PropertiesSpare.decide (path : List String) :
    (properties : List Property) → Decidable (PropertiesSpare path properties)
  | [] => .isTrue trivial
  | .init _ value :: rest =>
    have := ExprSpares.decide path value
    have := PropertiesSpare.decide path rest
    inferInstanceAs (Decidable (_ ∧ _))
  | .getter .. :: rest | .setter .. :: rest => PropertiesSpare.decide path rest

end

instance (path : List String) (e : Expr) : Decidable (ExprSpares path e) := ExprSpares.decide path e
instance (path : List String) (items : List Expr) : Decidable (ListSpares path items) :=
  ListSpares.decide path items

instance (path : List String) (e : Expr) : Decidable (Near path e) :=
  decidable_of_iff (ExprSpares path e ∨ (trail path e).isSome) (by simp [Near, Option.isSome_iff_exists])

/-- Whether the first value of a variable spares the collection, if it has one. -/
def VarSpares (path : List String) : VarDef → Prop
  | .mk _ (some value) => ExprSpares path value
  | .mk _ none => True

instance (path : List String) : DecidablePred (VarSpares path)
  | .mk _ (some value) => inferInstanceAs (Decidable (ExprSpares path value))
  | .mk _ none => .isTrue trivial

mutual

/-- It can be computed whether a chunk names the collection only in heads of iterations. -/
def ChunkSpares.decide (path : List String) : (chunk : Chunk) → Decidable (ChunkSpares path chunk)
  | .html .. => .isTrue trivial
  | .echo _ value | .rawHtml _ value | .layout _ value => inferInstanceAs (Decidable (ExprSpares path value))
  | .include _ none name | .include _ (some []) name =>
    inferInstanceAs (Decidable (True ∧ ExprSpares path name))
  | .include _ (some (first :: others)) name =>
    inferInstanceAs (Decidable (((ExprSpares path first ∨ trail path first = some path) ∧
      ListSpares path others) ∧ ExprSpares path name))
  | .each _ _ collection body =>
    have := ChunksSpare.decide path body
    inferInstanceAs (Decidable (Near path collection ∧ ChunksSpare path body))
  | .ifElse _ condition thenBranch elseIfs none =>
    have := ChunksSpare.decide path thenBranch
    have := ElseIfsSpare.decide path elseIfs
    inferInstanceAs (Decidable (ExprSpares path condition ∧ _ ∧ _ ∧ True))
  | .ifElse _ condition thenBranch elseIfs (some branch) =>
    have := ChunksSpare.decide path thenBranch
    have := ElseIfsSpare.decide path elseIfs
    have := ChunksSpare.decide path branch
    inferInstanceAs (Decidable (ExprSpares path condition ∧ _ ∧ _ ∧ _))
  | .var _ defs =>
    decidable_of_iff (∀ d ∈ defs, VarSpares path d) (by
      refine ⟨fun all name value listed => all _ listed, fun all d listed => ?_⟩
      obtain ⟨name, value⟩ := d
      cases value with
      | none => trivial
      | some value => exact all name value listed)

def ChunksSpare.decide (path : List String) : (chunks : List Chunk) → Decidable (ChunksSpare path chunks)
  | [] => .isTrue trivial
  | chunk :: rest =>
    have := ChunkSpares.decide path chunk
    have := ChunksSpare.decide path rest
    inferInstanceAs (Decidable (_ ∧ _))

def ElseIfsSpare.decide (path : List String) :
    (branches : List ElseIf) → Decidable (ElseIfsSpare path branches)
  | [] => .isTrue trivial
  | .mk condition body :: rest =>
    have := ChunksSpare.decide path body
    have := ElseIfsSpare.decide path rest
    inferInstanceAs (Decidable (ExprSpares path condition ∧ _ ∧ _))

end

instance (path : List String) (chunks : List Chunk) : Decidable (ChunksSpare path chunks) :=
  ChunksSpare.decide path chunks

/-! ## Frames -/

/-- Whether two frames are alike but for the data that holds the collection. -/
structure FrameTwins (array stream : Value) (path : List String) (frame frame' : Frame) : Prop where
  data : Pair array stream path frame.data frame'.data
  /-- The data of a template has a name of its own. -/
  named : frame.data = frame'.data ∨ (frame.local? "$data").isSome
  locals : ∀ name, Option.Rel
    (fun value value' => value = value' ∨ name = "$data" ∧ Twins array stream path value value')
    (frame.local? name) (frame'.local? name)
  template : frame.template = frame'.template
  layout : frame.layout = frame'.layout
  lastToken : frame.lastToken = frame'.lastToken
  origin : frame.origin = frame'.origin

namespace FrameTwins

variable {array stream : Value} {path : List String} {frame frame' : Frame}

theorem refl (array stream : Value) (path : List String) (frame : Frame) :
    FrameTwins array stream path frame frame := by
  refine ⟨.inl rfl, .inl rfl, fun name => ?_, rfl, rfl, rfl, rfl⟩
  cases frame.local? name with
  | none => exact .none
  | some value => exact .some (.inl rfl)

theorem setLocal (twins : FrameTwins array stream path frame frame') (name : String)
    {value value' : Value} (pair : value = value' ∨ name = "$data" ∧ Twins array stream path value value') :
    FrameTwins array stream path (frame.setLocal name value) (frame'.setLocal name value') := by
  refine { twins with named := ?_, locals := fun other => ?_ }
  · refine twins.named.imp_right fun named => ?_
    show (Table.get? (Table.put frame.locals name value) "$data").isSome
    by_cases same : "$data" = name
    · rw [same, Table.get?_put_self]
      rfl
    · rw [Table.get?_put_ne _ _ same]
      exact named
  · show Option.Rel _ (Table.get? (Table.put frame.locals name value) other)
      (Table.get? (Table.put frame'.locals name value') other)
    by_cases same : other = name
    · subst same
      rw [Table.get?_put_self, Table.get?_put_self]
      exact .some pair
    · rw [Table.get?_put_ne _ _ same, Table.get?_put_ne _ _ same]
      exact twins.locals other

theorem openedBy (twins : FrameTwins array stream path frame frame') (origin : Option Span) :
    FrameTwins array stream path (frame.openedBy origin) (frame'.openedBy origin) :=
  { twins with origin := rfl }

theorem saveToken (twins : FrameTwins array stream path frame frame') (span : Option Span) :
    FrameTwins array stream path (frame.saveToken span) (frame'.saveToken span) :=
  { twins with
    lastToken := by
      show span.or frame.lastToken = span.or frame'.lastToken
      rw [twins.lastToken] }

theorem setLayout (twins : FrameTwins array stream path frame frame') (name : String)
    (origin : Option Span) :
    FrameTwins array stream path (frame.setLayout name origin) (frame'.setLayout name origin) :=
  { twins with layout := rfl }

theorem dropLayout (twins : FrameTwins array stream path frame frame') :
    FrameTwins array stream path frame.dropLayout frame'.dropLayout :=
  { twins with layout := rfl }

/-- The frames of a template for data and for its twin. -/
theorem ofTemplate (name : String) {data data' : Value} (pair : Pair array stream path data data') :
    FrameTwins array stream path (Frame.ofTemplate name data) (Frame.ofTemplate name data') where
  data := pair
  named := by
    right
    show (Table.get? (Table.put [] "$data" data) "$data").isSome
    rw [Table.get?_put_self]
    rfl
  locals other := by
    show Option.Rel _ (Table.get? (Table.put [] "$data" data) other)
      (Table.get? (Table.put [] "$data" data') other)
    by_cases same : other = "$data"
    · rw [same, Table.get?_put_self, Table.get?_put_self]
      exact .some (pair.imp_right fun twins => ⟨rfl, twins⟩)
    · rw [Table.get?_put_ne _ _ same, Table.get?_put_ne _ _ same]
      exact .none
  template := rfl
  layout := rfl
  lastToken := rfl
  origin := rfl

end FrameTwins

/-! ## Scopes -/

/-- Whether the frames of two scopes are twins, one by one. -/
def ScopeTwins (array stream : Value) (path : List String) (scope scope' : Scope) : Prop :=
  List.Forall₂ (FrameTwins array stream path) scope.frames scope'.frames

section

variable {array stream : Value} {path : List String}

theorem templateName?_twins {frames frames' : List Frame}
    (twins : List.Forall₂ (FrameTwins array stream path) frames frames') :
    Scope.templateName? frames = Scope.templateName? frames' := by
  unfold Scope.templateName?
  induction twins with
  | nil => rfl
  | cons head tail ih => rw [List.findSome?_cons, List.findSome?_cons, head.template, ih]

theorem stackEntry_twins (root : String) {frames frames' : List Frame} (span : Option Span)
    (twins : List.Forall₂ (FrameTwins array stream path) frames frames') :
    stackEntry root frames span = stackEntry root frames' span := by
  rw [stackEntry, templateName?_twins twins]
  rfl

theorem outerEntries_twins (root : String) {inner inner' : Frame} {frames frames' : List Frame}
    (origin : inner.origin = inner'.origin)
    (twins : List.Forall₂ (FrameTwins array stream path) frames frames') :
    outerEntries root inner frames = outerEntries root inner' frames' := by
  induction twins generalizing inner inner' with
  | nil => rfl
  | cons head tail ih =>
    rw [outerEntries, outerEntries, origin]
    split
    · rw [stackEntry_twins root _ (.cons head tail), ih head.origin]
    · exact ih head.origin

namespace ScopeTwins

variable {scope scope' : Scope}

theorem frame (twins : ScopeTwins array stream path scope scope') :
    FrameTwins array stream path scope.frame scope'.frame := by
  cases twins with
  | cons head tail => exact head

theorem outer (twins : ScopeTwins array stream path scope scope') :
    List.Forall₂ (FrameTwins array stream path) scope.outer scope'.outer := by
  cases twins with
  | cons head tail => exact tail

/-- Errors in twin scopes have the same stack. -/
theorem stackOf (twins : ScopeTwins array stream path scope scope') (root : String) :
    Render.stackOf root scope = Render.stackOf root scope' := by
  unfold Render.stackOf
  rw [stackEntry_twins root _ twins, twins.frame.lastToken,
    outerEntries_twins root twins.frame.origin twins.outer]

theorem push (twins : ScopeTwins array stream path scope scope') {frame frame' : Frame}
    (inner : FrameTwins array stream path frame frame') :
    ScopeTwins array stream path (scope.push frame) (scope'.push frame') :=
  .cons inner twins

theorem pop (twins : ScopeTwins array stream path scope scope') :
    ScopeTwins array stream path scope.pop scope'.pop := by
  obtain ⟨frame, outer⟩ := scope
  obtain ⟨frame', outer'⟩ := scope'
  cases twins with
  | cons head tail =>
    cases tail with
    | nil => exact .cons head .nil
    | cons second rest => exact .cons second rest

theorem modifyFrame (twins : ScopeTwins array stream path scope scope') {f f' : Frame → Frame}
    (keeps : ∀ frame frame', FrameTwins array stream path frame frame' →
      FrameTwins array stream path (f frame) (f' frame')) :
    ScopeTwins array stream path (scope.modifyFrame f) (scope'.modifyFrame f') :=
  .cons (keeps _ _ twins.frame) twins.outer

theorem modifyTemplateFrames {frames frames' : List Frame}
    (twins : List.Forall₂ (FrameTwins array stream path) frames frames') {f : Frame → Frame}
    (keeps : ∀ frame frame', FrameTwins array stream path frame frame' →
      FrameTwins array stream path (f frame) (f frame')) :
    List.Forall₂ (FrameTwins array stream path) (Scope.modifyTemplateFrames f frames)
      (Scope.modifyTemplateFrames f frames') := by
  induction twins with
  | nil => exact .nil
  | cons head tail ih =>
    rw [Scope.modifyTemplateFrames, Scope.modifyTemplateFrames, head.template]
    split
    · exact .cons (keeps _ _ head) tail
    · exact .cons head ih

theorem declareLayout (twins : ScopeTwins array stream path scope scope') (name : String)
    (origin : Option Span) :
    ScopeTwins array stream path (scope.declareLayout 0 name origin)
      (scope'.declareLayout 0 name origin) := by
  unfold Scope.declareLayout
  dsimp only
  rw [twins.frame.template]
  split
  · exact twins.modifyFrame fun _ _ inner => inner.setLayout name origin
  · exact .cons twins.frame
      (modifyTemplateFrames twins.outer fun _ _ inner => inner.setLayout name origin)

end ScopeTwins

end

end Stencil.Render

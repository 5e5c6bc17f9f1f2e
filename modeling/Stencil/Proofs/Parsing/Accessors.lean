import Stencil.Proofs.Parsing.GrammaticalTemplates
import Stencil.Proofs.Parsing.PlainExprs
/-!
# Accessors read back

An object literal that was read is read back from its canonical text with the same properties in the
same order: each accessor with its key, its parameters and its body (`accessors_read_back`). One thing
is lost on the way. Between the key and the parameters of an accessor the grammar accepts a name for
the function, which it takes for functions everywhere; the printer writes the parameters behind the key
at once. So the function of an accessor comes back without its name (`accessor_name_lost`).
-/

set_option autoImplicit false

namespace Stencil.Syntax

/-- The function without its name. -/
def Function.anonymous : Function → Function
  | .mk _ params body => .mk none params body

/-- The property, without the name of its function if it is an accessor. -/
def Property.anonymous : Property → Property
  | .init key value => .init key value
  | .getter key fn => .getter key fn.anonymous
  | .setter key fn => .setter key fn.anonymous

end Stencil.Syntax

namespace Stencil.Print

open Stencil.Lexing (IsNameText)
open Stencil.Number
open Stencil.Syntax

/-! ## Names -/

/-- The names of a part are spelt as names, and a property behind a point is no reserved word. The key
of an accessor may be any word. -/
def OrdinaryNames : Part → Prop
  | .expr (.name _ name) => IsNameText name.toList
  | .expr (.dot _ _ property) => IsNameText property.toList ∧ isReserved property = false
  | .property (.getter key _) => IsNameText key.toList
  | .property (.setter key _) => IsNameText key.toList
  | .function fn => SpellableFunction fn
  | .stmt s => SpellableStmt s
  | .varDef (.mk name _) => IsNameText name.toList
  | .handler (.mk name _) => IsNameText name.toList
  | .chunk _ => False
  | _ => True

/-- If the part is an accessor, its function has no name. -/
def AnonymousAccessor : Part → Prop
  | .property p => p.anonymous = p
  | _ => True

theorem spellable_of_names {part : Part} (names : OrdinaryNames part) (number : NumberReturns part)
    (anonymous : AnonymousAccessor part) : Spellable part := by
  cases part with
  | expr e =>
    cases e with
    | num s value => exact number
    | name s name => exact names
    | dot s target property => exact names
    | _ => trivial
  | property p =>
    cases p with
    | init key value => trivial
    | getter key fn | setter key fn =>
      obtain ⟨name, params, body⟩ := fn
      refine ⟨names, ?_⟩
      simpa [AnonymousAccessor, Property.anonymous, Function.anonymous, eq_comm] using anonymous
  | function fn => exact names
  | stmt s => exact names
  | varDef d =>
    obtain ⟨name, value⟩ := d
    exact names
  | handler h =>
    obtain ⟨name, body⟩ := h
    exact names
  | chunk c => exact names.elim
  | head | switchCase | elseIf => trivial

/-- The test for plain names is enough. -/
theorem names_of_isPlainlySpelt {part : Part} (plain : isPlainlySpelt part = true) :
    OrdinaryNames part ∧ NumberReturns part ∧ AnonymousAccessor part := by
  have spellable := spellable_of_isPlainlySpelt plain
  cases part with
  | expr e =>
    cases e with
    | num => cases plain
    | name | dot => exact ⟨spellable, trivial, trivial⟩
    | _ => exact ⟨trivial, trivial, trivial⟩
  | property p =>
    cases p with
    | init key value => exact ⟨trivial, trivial, rfl⟩
    | getter key fn | setter key fn =>
      obtain ⟨name, params, body⟩ := fn
      obtain ⟨key_, rfl⟩ := spellable
      exact ⟨key_, trivial, rfl⟩
  | varDef d =>
    obtain ⟨name, value⟩ := d
    exact ⟨spellable, trivial, trivial⟩
  | handler h =>
    obtain ⟨name, body⟩ := h
    exact ⟨spellable, trivial, trivial⟩
  | function | stmt => exact ⟨spellable, trivial, trivial⟩
  | chunk c => cases plain
  | head | switchCase | elseIf => exact ⟨trivial, trivial, trivial⟩

/-! ## Functions without their names -/

/-- The text of a property does not hold the name of its function. -/
theorem propertyText_anonymous (p : Property) : propertyText p.anonymous = propertyText p := by
  cases p with
  | init key value => rfl
  | getter key fn | setter key fn =>
    cases fn
    simp only [Property.anonymous, Function.anonymous, propertyText, functionTail]

/-- The text of an object literal does not hold the names of its accessors' functions. -/
theorem ofExpr_anonymous (s : Option Text.Span) (properties : List Property) :
    ofExpr (.object s (properties.map Property.anonymous)) = ofExpr (.object s properties) := by
  have texts : propertyTexts (properties.map Property.anonymous) = propertyTexts properties := by
    induction properties with
    | nil => rfl
    | cons p properties ih =>
      simp only [List.map_cons, propertyTexts, propertyText_anonymous, ih]
  simp only [ofExpr, exprText, texts]

/-- A condition on the parts of a property is one on the property and on what is below it. -/
theorem everywhere_property {good : Part → Prop} {p : Property} :
    Everywhere good p.parts ↔ good (.property p) ∧ Everywhere good p.parts.tail := by
  cases p <;> exact everywhere_cons _ _

/-- What holds of the parts of a property holds of those of the property whose function has no name,
if it does not depend on that name. -/
theorem everywhere_anonymous {good : Part → Prop} {p : Property}
    (property : good (.property p.anonymous))
    (function : ∀ fn : Function, good (.function fn) → good (.function fn.anonymous))
    (known : Everywhere good p.parts.tail) : Everywhere good p.anonymous.parts := by
  cases p with
  | init key value =>
    simp only [Property.anonymous, Property.parts, everywhere_cons]
    exact ⟨property, known⟩
  | getter key fn | setter key fn =>
    obtain ⟨name, params, body⟩ := fn
    simp only [Property.parts, Function.parts, List.tail_cons, everywhere_cons] at known
    simp only [Property.anonymous, Function.anonymous, Property.parts, Function.parts,
      everywhere_cons]
    exact ⟨property, function _ known.1, known.2⟩

/-- The same of all properties of a list. -/
theorem everywhere_map_anonymous {good : Part → Prop} {properties : List Property}
    (property : ∀ p ∈ properties, good (.property p.anonymous))
    (function : ∀ fn : Function, good (.function fn) → good (.function fn.anonymous))
    (known : ∀ p ∈ properties, Everywhere good p.parts.tail) :
    Everywhere good (partsOfProperties (properties.map Property.anonymous)) := by
  refine everywhere_properties.2 fun p listed => ?_
  obtain ⟨p, inside, rfl⟩ := List.mem_map.1 listed
  exact everywhere_anonymous (property p inside) function (known p inside)

theorem grammaticalFunction_anonymous (fn : Function) (known : GrammaticalFunction fn) :
    GrammaticalFunction fn.anonymous := by
  obtain ⟨name, params, body⟩ := fn
  exact ⟨by simp, known.2⟩

theorem spellableFunction_anonymous (fn : Function) (known : SpellableFunction fn) :
    SpellableFunction fn.anonymous := by
  obtain ⟨name, params, body⟩ := fn
  exact ⟨by simp, known.2⟩

theorem faithfulProperty_anonymous {p : Property} (names : OrdinaryNames (.property p)) :
    FaithfulProperty p.anonymous := by
  cases p with
  | init key value => trivial
  | getter key fn | setter key fn =>
    obtain ⟨name, params, body⟩ := fn
    exact ⟨names, rfl⟩

/-- The name of a function does not matter to the spans of a property. -/
theorem eraseSpans_anonymous (p : Property) : p.anonymous.eraseSpans = p.eraseSpans.anonymous := by
  cases p with
  | init key value => simp [Property.anonymous]
  | getter key fn | setter key fn =>
    obtain ⟨name, params, body⟩ := fn
    simp [Property.anonymous, Function.anonymous]

end Stencil.Print

namespace Stencil

open Stencil.Grammar
open Stencil.Print
open Stencil.Syntax

/-- An object literal that was read, with or without accessors, is read back from its canonical text:
the same properties in the same order, every accessor with its key, its parameters and its body, and
without a name for its function. Names are ordinary, numbers come back from their digits, and the
accessors within the properties have no names for their functions. -/
theorem accessors_read_back {source : String} {properties : List Property}
    (read : parseExpression ⟨false, false⟩ source = .ok (.object none properties))
    (names : Everywhere OrdinaryNames (partsOfProperties properties))
    (numbers : Everywhere NumberReturns (partsOfProperties properties))
    (anonymous : ∀ p ∈ properties, Everywhere AnonymousAccessor p.parts.tail) :
    parseExpression ⟨false, false⟩ (ofExpr (.object none properties))
      = .ok (.object none (properties.map Property.anonymous)) := by
  have each {good : Part → Prop} (known : Everywhere good (partsOfProperties properties))
      (p : Property) (listed : p ∈ properties) : good (.property p) ∧ Everywhere good p.parts.tail :=
    everywhere_property.1 (everywhere_properties.1 known p listed)
  have grammatical := grammatical_of_expression read
  simp only [Expr.parts, everywhere_cons] at grammatical
  have sound : Everywhere Grammatical (partsOfProperties (properties.map Property.anonymous)) :=
    everywhere_map_anonymous (fun _ _ => trivial) grammaticalFunction_anonymous
      fun p listed => (each grammatical.2 p listed).2
  have spellable : Everywhere Spellable (partsOfProperties (properties.map Property.anonymous)) :=
    everywhere_map_anonymous
      (fun p listed => faithfulProperty_anonymous (each names p listed).1)
      spellableFunction_anonymous fun p listed part inside =>
        spellable_of_names ((each names p listed).2 part inside)
          ((each numbers p listed).2 part inside) (anonymous p listed part inside)
  have faithful : Everywhere Faithful
      (Expr.object none (properties.map Property.anonymous)).parts := by
    refine faithful_of_grammatical (Expr.closed_parts _) ?_ ?_
    · simp only [Expr.parts, everywhere_cons]
      exact ⟨trivial, sound⟩
    · simp only [Expr.parts, everywhere_cons]
      exact ⟨trivial, spellable⟩
  obtain ⟨result, parsed, same⟩ :=
    parseExpression_printed (o := ⟨false, false⟩) rfl _ faithful
  have spanless := expression_eraseSpans_of_read read
  simp only [Expr.eraseSpans, eraseProperties_eq, Expr.object.injEq, true_and] at spanless
  have still : (Expr.object none (properties.map Property.anonymous)).eraseSpans
      = .object none (properties.map Property.anonymous) := by
    have commutes : Property.eraseSpans ∘ Property.anonymous
        = Property.anonymous ∘ Property.eraseSpans := funext eraseSpans_anonymous
    rw [Expr.eraseSpans, eraseProperties_eq, List.map_map, commutes, ← List.map_map, spanless]
  rw [ofExpr_anonymous] at parsed
  rw [expression_eraseSpans_of_read parsed, still] at same
  rw [parsed, same]

/-- The properties of an object literal without a span. -/
def properties? : Expr → Option (List Property)
  | .object none properties => some properties
  | _ => none

/-- The name of the function of the first accessor of an object literal. -/
def firstAccessorName? : Expr → Option String
  | .object _ (.getter _ (.mk name _ _) :: _) => name
  | _ => none

/-- An accessor within another, both with reserved words for keys, and properties that are not called
as accessors though they begin like them. -/
theorem accessors_read_back_nested :
    ∃ properties,
      parseExpression ⟨false, false⟩
          "\x7bget: a, get return() \x7b return \x7bset in(b) \x7b c.d = b \x7d\x7d \x7d, set: e\x7d"
          = .ok (.object none properties) ∧
        parseExpression ⟨false, false⟩ (ofExpr (.object none properties))
          = .ok (.object none (properties.map Property.anonymous)) := by
  have found : (parseExpression ⟨false, false⟩
      "\x7bget: a, get return() \x7b return \x7bset in(b) \x7b c.d = b \x7d\x7d \x7d, set: e\x7d").toOption.bind
        (fun e => (properties? e).map fun properties =>
          (partsOfProperties properties).all isPlainlySpelt) = some true := by
    decide +kernel
  cases read : parseExpression ⟨false, false⟩
      "\x7bget: a, get return() \x7b return \x7bset in(b) \x7b c.d = b \x7d\x7d \x7d, set: e\x7d" with
  | error error => simp [read, Except.toOption] at found
  | ok e =>
    simp only [read, Except.toOption, Option.bind_some, Option.map_eq_some_iff] at found
    obtain ⟨properties, same, plain⟩ := found
    obtain rfl : e = .object none properties := by
      unfold properties? at same
      split at same
      · cases same
        rfl
      · cases same
    have known (part : Part) (listed : part ∈ partsOfProperties properties) :=
      names_of_isPlainlySpelt (List.all_eq_true.1 plain part listed)
    refine ⟨properties, rfl, accessors_read_back read (fun part listed => (known part listed).1)
      (fun part listed => (known part listed).2.1) fun p listed => ?_⟩
    exact (everywhere_property.1
      (everywhere_properties.1 (fun part inside => (known part inside).2.2) p listed)).2

/-- The name that stands between key and parameters is read, and not printed. -/
theorem accessor_name_lost :
    ∃ e again, parseExpression ⟨false, false⟩ "\x7bget a b() \x7b\x7d\x7d" = .ok e ∧
      parseExpression ⟨false, false⟩ (ofExpr e) = .ok again ∧
      firstAccessorName? e = some "b" ∧ firstAccessorName? again = none := by
  have found : (parseExpression ⟨false, false⟩ "\x7bget a b() \x7b\x7d\x7d").toOption.map
      (fun e => (firstAccessorName? e,
        (parseExpression ⟨false, false⟩ (ofExpr e)).toOption.map firstAccessorName?))
      = some (some "b", some none) := by
    decide +kernel
  cases read : parseExpression ⟨false, false⟩ "\x7bget a b() \x7b\x7d\x7d" with
  | error error => simp [read, Except.toOption] at found
  | ok e =>
    simp only [read, Except.toOption, Option.map_some, Option.some.injEq, Prod.mk.injEq] at found
    obtain ⟨named, found⟩ := found
    cases printed : parseExpression ⟨false, false⟩ (ofExpr e) with
    | error error => simp [printed] at found
    | ok again =>
      simp only [printed, Option.map_some, Option.some.injEq] at found
      exact ⟨e, again, rfl, printed, named, found⟩

end Stencil

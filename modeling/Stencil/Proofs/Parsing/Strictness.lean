import Stencil.Proofs.Parsing.BegunTokens
import Stencil.Proofs.Parsing.SidedChunks
import Stencil.Proofs.Parsing.Spanless
/-!
# What strictness refuses

A strict parser puts in no semicolon at a line break, and a lenient one does only where the strict
parser refuses the text: with one exception. Behind `return`, `break` and `continue` a lenient parser
stops at a line break, where a strict one goes on to the value or to the label. Where no jump of the tree
is broken in this way, a text that is read strictly is read leniently as well, as the same tree
(`strict_only_refuses`).

The strict run is followed by the lenient one at the same cursor (`Sides`), with spans, so that the jumps
of the tree tell where their keywords stand.
-/

set_option autoImplicit false

namespace Stencil

open Stencil.Error (ParseError)
open Stencil.Grammar
open Stencil.Syntax
open Stencil.Text

/-! ## Broken jumps -/

/-- Whether a line break stands behind the first token of the code. -/
def breaksBehindFirst (code : List Char) : Bool :=
  match (Lexer.ofText false code).next with
  | (.ok _, behind) => behind.skipTrivia.2.sawBreak
  | (.error _, _) => false

/-- Whether a line break stands behind the token that begins at the place in the text. -/
def breaksBehind (text : List Char) (place : Position) : Bool :=
  (List.range (text.length + 1)).any fun count =>
    decide (place = Position.origin.after (text.take count)) && breaksBehindFirst (text.drop count)

/-- No line break stands behind the keyword of a jump that names what it jumps with. -/
def JumpsUnbroken (text : List Char) (parts : List Part) : Prop :=
  ∀ part ∈ parts, ∀ span ∈ part.jumpSpan?, breaksBehind text span.start = false

instance (text : List Char) (parts : List Part) : Decidable (JumpsUnbroken text parts) :=
  inferInstanceAs (Decidable (∀ part ∈ parts, ∀ span ∈ part.jumpSpan?,
    breaksBehind text span.start = false))

/-- The jumps of a tree that was read are unbroken; where nothing was read, there is no jump. -/
def unbrokenJumps {α : Type} (source : String) (parts : α → List Part) (read : Except ParseError α) :
    Bool :=
  read.toOption.all fun tree => decide (JumpsUnbroken (normalize source.toList) (parts tree))

theorem jumpsUnbroken_of_all {α : Type} {source : String} {parts : α → List Part}
    {read : Except ParseError α} (all : unbrokenJumps source parts read = true) :
    ∀ tree, read = .ok tree → JumpsUnbroken (normalize source.toList) (parts tree) := by
  rintro tree rfl
  simpa [unbrokenJumps, Except.toOption] using all

theorem breaksBehind_of_first {text before rest : List Char} {place : Position}
    (whole : text = before ++ rest) (here : place = Position.origin.after before)
    (broken : breaksBehindFirst rest = true) : breaksBehind text place = true := by
  refine List.any_eq_true.2 ⟨before.length, ?_, ?_⟩
  · rw [List.mem_range, whole, List.length_append]
    omega
  · simp [whole, here, broken]

namespace Grammar

/-- The token behind a keyword tells whether a line break stands between them. -/
theorem Cursor.Begun.breaksBehind {text : List Char} {c : Cursor} {token : Token} {lexer : Lexer}
    {keyword : Keyword} (begun : c.Begun text) (kind : c.token.kind = .keyword keyword)
    (read : c.lexer.next = (.ok token, lexer)) (broke : token.afterBreak = true) :
    Stencil.breaksBehind text c.token.span.start = true := by
  obtain ⟨before, rest, whole, place, restart⟩ := begun.restart (going_of_kind kind (by simp))
    (by simp [kind]) (by simp [kind]) (by simp [Cursor.AtSlash, Token.isOperator, kind])
  obtain ⟨first, m, anew, -, -, cut⟩ := restart rest [] (by simp) (Nat.zero_le _)
  refine breaksBehind_of_first whole place ?_
  unfold Lexer.next at read
  split at read
  · next s moved =>
    obtain ⟨m', moved', short, -⟩ := cut.skipTrivia moved (Nat.zero_le _)
    obtain ⟨piece, ends⟩ := Lexer.ends_readToken read
    have seen : s.sawBreak = true :=
      (ends.afterBreak (Lexer.noHtml_of_readToken short.code read)).symm.trans broke
    unfold breaksBehindFirst
    rw [anew]
    dsimp only
    rw [moved']
    exact short.broke.trans seen
  · cases read

/-- A strict run with spans over a text, and a lenient one at the same cursors. -/
def strictly (text : List Char) : Sides where
  first := ⟨true, true⟩
  second := ⟨true, false⟩
  spans := rfl
  stricter := by simp
  Plain _ := True
  code _ _ _ _ := trivial
  Good _ := True
  others _ _ := trivial
  missing := trivial
  Stands := Cursor.Begun text
  stands_advance begun read := begun.advance read
  stands_reread begun slash read := begun.reread slash read
  Beside c d := d = c
  Admits parts _ := JumpsUnbroken text parts
  admits _ subset unbroken part listed := unbroken part (subset listed)
  names {names parts _} named unbroken part listed span jump := by
    obtain inside | listed := List.mem_append.1 listed
    · obtain ⟨place, name, rfl⟩ := named part inside
      simp [Part.jumpSpan?] at jump
    · exact unbroken part listed span jump
  places same _ := same ▸ ⟨rfl, rfl⟩
  alike same := .inl (same ▸ ⟨rfl, rfl⟩)
  advance same _ read _ _ := by
    subst same
    exact ⟨_, _, read, rfl⟩
  reread same _ _ read _ _ := by
    subst same
    exact ⟨_, _, read, rfl⟩
  Broken place := Stencil.breaksBehind text place = true
  broken begun kind read broke := begun.breaksBehind kind read broke
  jumps _ := ⟨rfl, fun {_ _ part span} unbroken listed jump => by
    simp [unbroken part listed span jump]⟩

theorem whole_strictly (text : List Char) : (strictly text).Whole := ⟨id, fun _ => trivial⟩

theorem sided_strictly (text : List Char) (depth : Nat) :
    (Rules.upTo depth).SidedExprs (strictly text) (Rules.upTo depth) :=
  sided_upTo (fun _ => trivial) (Nat.le_refl depth)

variable {α : Type} {source : List Char} {rule : Rules → Parser α} {parts : α → List Part}

/-- A tree with unbroken jumps that is read strictly is read leniently. -/
theorem run_strictly {template : Bool} {tree : α}
    (follows : ∀ depth c, (strictly (normalize source)).Follows c c (rule (.upTo depth))
      (rule (.upTo depth)) fun read tree _ => (strictly (normalize source)).Holds parts read tree)
    (unbroken : JumpsUnbroken (normalize source) (parts tree))
    (read : run template ⟨true, true⟩ source rule = .ok tree) :
    run template ⟨true, false⟩ source rule = .ok tree := by
  unfold run at read ⊢
  cases begun : Cursor.ofSource template source with
  | error failure =>
    rw [begun] at read
    cases read
  | ok c =>
    rw [begun] at read
    change (rule _ ⟨true, true⟩ c >>= fun read => .ok read.1) = _ at read
    change (rule _ ⟨true, false⟩ c >>= fun read => .ok read.1) = _
    cases ran : rule (.upTo (c.lexer.rest.length + 2)) ⟨true, true⟩ c with
    | error failure =>
      rw [ran] at read
      cases read
    | ok outcome =>
      obtain ⟨result, behind⟩ := outcome
      rw [ran] at read
      cases read
      obtain ⟨-, -, parts', known, second⟩ := follows _ c _ _ (begun_ofSource begun) ran
      obtain ⟨behind', ran', -⟩ := second rfl behind (.refl behind) False.elim
        fun part listed => unbroken part (known.1 listed)
      exact (congrArg (· >>= fun read => .ok read.1) ran')

/-- The same without spans, given that spans do not matter. -/
theorem run_strictly_spanless {template : Bool} {tree : α} {erase : α → α}
    (follows : ∀ depth c, (strictly (normalize source)).Follows c c (rule (.upTo depth))
      (rule (.upTo depth)) fun read tree _ => (strictly (normalize source)).Holds parts read tree)
    (differ : ∀ strict, DifferInSpans erase parts
      ((run template ⟨true, strict⟩ source rule).mapError (·.toError))
      ((run template ⟨false, strict⟩ source rule).mapError (·.toError)))
    (unbroken : ∀ spanned, (run template ⟨true, true⟩ source rule).mapError (·.toError) = .ok spanned →
      JumpsUnbroken (normalize source) (parts spanned))
    (read : (run template ⟨false, true⟩ source rule).mapError (·.toError) = .ok tree) :
    (run template ⟨false, false⟩ source rule).mapError (·.toError) = .ok tree := by
  have strict := differ true
  have lenient := differ false
  rw [read] at strict
  cases spanned : run template ⟨true, true⟩ source rule with
  | error failure =>
    rw [spanned] at strict
    exact strict.elim
  | ok spannedTree =>
    rw [spanned] at strict unbroken
    rw [run_strictly follows (unbroken _ rfl) spanned] at lenient
    cases second : run template ⟨false, false⟩ source rule with
    | error failure =>
      rw [second] at lenient
      exact lenient.elim
    | ok tree' =>
      rw [second] at lenient
      exact congrArg Except.ok (lenient.1.trans strict.1.symm)

end Grammar

/-- A template, a script or an expression that is read strictly is read leniently as well, as the same
tree, when no line break stands behind the keyword of a jump that names what it jumps with. -/
theorem strict_only_refuses (source : String) :
    (∀ t, parseTemplate ⟨false, true⟩ source = .ok t →
        (∀ spanned, parseTemplate ⟨true, true⟩ source = .ok spanned →
          JumpsUnbroken (normalize source.toList) spanned.parts) →
        parseTemplate ⟨false, false⟩ source = .ok t) ∧
      (∀ script, parseScript ⟨false, true⟩ source = .ok script →
        (∀ spanned, parseScript ⟨true, true⟩ source = .ok spanned →
          JumpsUnbroken (normalize source.toList) spanned.parts) →
        parseScript ⟨false, false⟩ source = .ok script) ∧
      ∀ e, parseExpression ⟨false, true⟩ source = .ok e →
        (∀ spanned, parseExpression ⟨true, true⟩ source = .ok spanned →
          JumpsUnbroken (normalize source.toList) spanned.parts) →
        parseExpression ⟨false, false⟩ source = .ok e := by
  refine ⟨fun t read unbroken => ?_, fun script read unbroken => ?_, fun e read unbroken => ?_⟩
  · exact run_strictly_spanless
      (fun depth _ => follows_template (whole_strictly _) (sided_strictly _ depth).toSided)
      (fun strict => template_differInSpans strict source) unbroken read
  · refine run_strictly_spanless (fun depth _ => ?_)
      (fun strict => script_differInSpans strict source) unbroken read
    have sided := sided_strictly (normalize source.toList) depth
    exact follows_program sided.toSided (follows_expression (fun _ => trivial) sided true false)
  · refine run_strictly_spanless (fun depth _ => ?_)
      (fun strict => expression_differInSpans strict source) unbroken read
    exact follows_wholeExpression (whole_strictly _)
      (follows_expression (fun _ => trivial) (sided_strictly _ depth) true false)

/-- A line break in a loop, and one behind a `return` without a value, a label that is jumped to, and a
value that is returned. -/
theorem strict_only_refuses_examples :
    (∃ t, parseTemplate ⟨false, true⟩ "$\x7bfunction () \x7b return a; \x7d\x7d" = .ok t ∧
        parseTemplate ⟨false, false⟩ "$\x7bfunction () \x7b return a; \x7d\x7d" = .ok t) ∧
      (∃ script, parseScript ⟨false, true⟩ "a: while (b)\n\x7b break a; \x7d" = .ok script ∧
        parseScript ⟨false, false⟩ "a: while (b)\n\x7b break a; \x7d" = .ok script) ∧
      ∃ e, parseExpression ⟨false, true⟩ "function () \x7b return\n; \x7d" = .ok e ∧
        parseExpression ⟨false, false⟩ "function () \x7b return\n; \x7d" = .ok e := by
  refine ⟨?_, ?_, ?_⟩
  · have found : (parseTemplate ⟨false, true⟩
        "$\x7bfunction () \x7b return a; \x7d\x7d").toOption.isSome = true := by
      decide +kernel
    cases read : parseTemplate ⟨false, true⟩ "$\x7bfunction () \x7b return a; \x7d\x7d" with
    | error error => simp [read, Except.toOption] at found
    | ok t => exact ⟨t, rfl, (strict_only_refuses _).1 t read (jumpsUnbroken_of_all (by decide +kernel))⟩
  · have found : (parseScript ⟨false, true⟩
        "a: while (b)\n\x7b break a; \x7d").toOption.isSome = true := by
      decide +kernel
    cases read : parseScript ⟨false, true⟩ "a: while (b)\n\x7b break a; \x7d" with
    | error error => simp [read, Except.toOption] at found
    | ok script =>
      exact ⟨script, rfl, (strict_only_refuses _).2.1 script read (jumpsUnbroken_of_all (by decide +kernel))⟩
  · have found : (parseExpression ⟨false, true⟩
        "function () \x7b return\n; \x7d").toOption.isSome = true := by
      decide +kernel
    cases read : parseExpression ⟨false, true⟩ "function () \x7b return\n; \x7d" with
    | error error => simp [read, Except.toOption] at found
    | ok e => exact ⟨e, rfl, (strict_only_refuses _).2.2 e read (jumpsUnbroken_of_all (by decide +kernel))⟩

/-- Whether the function of a script returns a name. -/
def returnsName : Program → Bool
  | ⟨[.defun _ (.mk _ _ [.return _ (some (.name _ _))])]⟩ => true
  | _ => false

/-- Whether the function of a script returns nothing, before a name. -/
def returnsBefore : Program → Bool
  | ⟨[.defun _ (.mk _ _ [.return _ none, .expression _ (.name _ _)])]⟩ => true
  | _ => false

/-- Behind `return` and a line break a strict parser reads the value, and a lenient one reads a statement
of its own. -/
theorem lenient_return_stops :
    ∃ strict lenient,
      parseScript ⟨false, true⟩ "function f() \x7b return\n x; \x7d" = .ok strict ∧
        parseScript ⟨false, false⟩ "function f() \x7b return\n x; \x7d" = .ok lenient ∧
        returnsName strict = true ∧ returnsBefore lenient = true ∧ lenient ≠ strict := by
  have value : (parseScript ⟨false, true⟩
      "function f() \x7b return\n x; \x7d").toOption.any returnsName = true := by
    decide +kernel
  have nothing : (parseScript ⟨false, false⟩ "function f() \x7b return\n x; \x7d").toOption.any
      (fun script => returnsBefore script && !returnsName script) = true := by
    decide +kernel
  cases strict : parseScript ⟨false, true⟩ "function f() \x7b return\n x; \x7d" with
  | error error => simp [strict, Except.toOption] at value
  | ok read =>
    cases lenient : parseScript ⟨false, false⟩ "function f() \x7b return\n x; \x7d" with
    | error error => simp [lenient, Except.toOption] at nothing
    | ok read' =>
      simp only [strict, lenient, Except.toOption, Option.any_some, Bool.and_eq_true,
        Bool.not_eq_true'] at value nothing
      refine ⟨read, read', rfl, rfl, value, nothing.1, ?_⟩
      rintro rfl
      simp [value] at nothing

end Stencil

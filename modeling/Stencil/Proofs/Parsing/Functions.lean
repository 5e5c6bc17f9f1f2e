import Stencil.Proofs.Parsing.Operands
import Stencil.Proofs.Syntax.Scoping
/-!
# Reading blocks, functions and object literals

What it means that a statement is read back. Blocks, the bodies of functions among them, are read
statement by statement; parameters and properties are read as the items of a list.
-/

set_option autoImplicit false

namespace Stencil.Grammar

open Stencil.Lexing (Face)
open Stencil.Print
open Stencil.Syntax
open Stencil.Text (Position Span)

/-! ## Statements -/

/-- The tokens may stand behind a statement: they do not begin with `finally`, and with no `else`
that would be taken for one of the statement's own. -/
def MayFollow (opensElse : Bool) (rest : List Face) : Prop :=
  ∃ x more, rest = x :: more ∧ x.kind ≠ .keyword .finally ∧
    (opensElse = true → x.kind ≠ .keyword .else)

/-- Something follows. -/
theorem MayFollow.ne_nil {opensElse : Bool} {rest : List Face} (follow : MayFollow opensElse rest) :
    rest ≠ [] := by
  obtain ⟨x, more, rfl, -⟩ := follow
  simp

/-- What may follow every statement. -/
theorem MayFollow.all {rest : List Face} (follow : MayFollow true rest) (opensElse : Bool) :
    MayFollow opensElse rest := by
  obtain ⟨x, more, same, noFinally, noElse⟩ := follow
  exact ⟨x, more, same, noFinally, fun _ => noElse rfl⟩

/-- The result is the statement up to its spans, and the rest of the tokens is left. -/
def ReadStmt (s : Stmt) (rest : List Face) (result : Stmt) (behind : Cursor) : Prop :=
  result.eraseSpans = s.eraseSpans ∧ behind.Shows rest

/-- The statement is read back from its tokens, given that what follows does not continue it. -/
def ReadsStmt (o : Options) (around : Surroundings) (s : Stmt) : Prop :=
  ∀ n rest c, (stmtFaces s).length ≤ n → MayFollow s.opensElse rest →
    c.Shows (stmtFaces s ++ rest) →
    Ends (Parser.statement (.upTo n) around) o c (ReadStmt s rest) Never

/-- What is to be shown of a statement: if it is faithful, it is read back wherever its jumps have
their targets. -/
def StmtReads (o : Options) (s : Stmt) : Prop :=
  Everywhere Faithful s.parts → ∀ around, s.Scoped around → ReadsStmt o around s

/-- Whether a statement may begin with the token. -/
def startsStatement (kind : TokenKind) : Bool :=
  startsExpression kind ||
    match kind with
    | .keyword k => Parser.beginsStatement k
    | _ => false

/-- The tokens of a statement begin as a statement does. -/
theorem stmtFaces_starts (s : Stmt) :
    ∃ x more, stmtFaces s = x :: more ∧ startsStatement x.kind = true := by
  cases s with
  | expression span value =>
    obtain ⟨x, more, same, starts, -⟩ := exprFaces_opens value sequenceLevel
    rw [stmtFaces]
    split
    · exact ⟨mark '(', _, rfl, rfl⟩
    · exact ⟨x, more ++ ending, by rw [same]; rfl, by simp [startsStatement, starts]⟩
  | defun span fn =>
    obtain ⟨name, params, body⟩ := fn
    cases name <;> exact ⟨keyword .function, _, rfl, rfl⟩
  | ifElse span condition thenBranch elseBranch =>
    cases elseBranch <;> exact ⟨keyword .if, _, by simp [stmtFaces]; rfl, rfl⟩
  | «for» span head test step body =>
    cases head <;> exact ⟨keyword .for, _, by simp [stmtFaces]; rfl, rfl⟩
  | tryCatch span body handler finalizer =>
    rcases handler with _ | ⟨name, recovery⟩ <;> cases finalizer <;>
      exact ⟨keyword .try, _, by simp [stmtFaces]; rfl, rfl⟩
  | _ => exact ⟨_, _, rfl, rfl⟩

/-- Before a statement the current token is none with which no statement begins. -/
theorem stmt_apart {s : Stmt} {rest : List Face} {c : Cursor} (shows : c.Shows (stmtFaces s ++ rest))
    {kind : TokenKind} (noStart : startsStatement kind = false) : c.token.kind ≠ kind := by
  obtain ⟨x, more, same, starts⟩ := stmtFaces_starts s
  rw [same] at shows
  intro here
  rw [← shows.kind, here, noStart] at starts
  exact absurd starts (by decide)

/-- A statement may follow every other one. -/
theorem stmtFaces_mayFollow (s : Stmt) (more : List Face) :
    MayFollow true (stmtFaces s ++ more) := by
  obtain ⟨x, tail, same, starts⟩ := stmtFaces_starts s
  refine ⟨x, tail ++ more, by rw [same, List.cons_append], fun kind => ?_, fun _ kind => ?_⟩
  · rw [kind] at starts
    exact absurd starts (by decide)
  · rw [kind] at starts
    exact absurd starts (by decide)

section

variable {o : Options} {rest : List Face} {x y : Face} {c : Cursor}

/-! ## Blocks -/

/-- The step of the loop over the statements of a block. -/
def blockStep (rules : Rules) (around : Surroundings) (body : List Stmt) :
    Parser (List Stmt ⊕ List Stmt) := do
  if ← Parser.atPunctuation '\x7d' then return .inr body
  if (← Parser.current).isEof then Parser.unexpected
  return .inl (body ++ [← rules.statement around])

/-- A block is read by a loop between its braces. -/
theorem block_eq (rules : Rules) (around : Surroundings) :
    Parser.block rules around = (do
      Parser.expectPunctuation '\x7b'
      let body ← Parser.loop (blockStep rules around) []
      Parser.advance
      return body) := rfl

/-- The tokens of statements are those of each. -/
theorem stmtsFaces_eq (body : List Stmt) : stmtsFaces body = body.flatMap stmtFaces := by
  induction body with
  | nil => rfl
  | cons s body ih => rw [stmtsFaces, ih, List.flatMap_cons]

/-- The tokens of a statement are no more than those of all. -/
theorem length_le_stmtsFaces {s : Stmt} {body : List Stmt} (listed : s ∈ body) :
    (stmtFaces s).length ≤ (stmtsFaces body).length := by
  rw [stmtsFaces_eq]
  exact (List.sublist_flatten_of_mem (List.mem_map_of_mem listed)).length_le

/-- What is to be shown of the statements in braces. -/
def BodyReads (o : Options) (around : Surroundings) (body : List Stmt) : Prop :=
  ∀ n rest c good, (stmtsFaces body).length < n → rest ≠ [] →
    c.Shows (braced (stmtsFaces body) ++ rest) →
    (∀ results c', eraseStmts results = eraseStmts body → c'.Shows rest → good results c') →
    Ends (Parser.block (.upTo n) around) o c good Never

/-- A loop that gathers statements: each step adds the one it reads. -/
theorem stmts_shown {step : List Stmt → Parser (List Stmt ⊕ List Stmt)} {body : List Stmt}
    (each : ∀ s ∈ body, ∀ done more c, MayFollow true more → c.Shows (stmtFaces s ++ more) →
      Ends (step done) o c
        (fun outcome c' => ∃ result, outcome = .inl (done ++ [result]) ∧
          result.eraseSpans = s.eraseSpans ∧ c'.Shows more) Never)
    (follow : MayFollow true rest)
    (stop : ∀ done c, c.Shows rest →
      Ends (step done) o c (fun outcome c' => outcome = .inr done ∧ c'.Shows rest) Never)
    (shows : c.Shows (stmtsFaces body ++ rest)) :
    Ends (Parser.loop step []) o c
      (fun results c' => eraseStmts results = eraseStmts body ∧ c'.Shows rest) Never := by
  rw [stmtsFaces_eq] at shows
  have nonempty (s : Stmt) : stmtFaces s ≠ [] := by
    obtain ⟨x, more, same, -⟩ := stmtFaces_starts s
    simp [same]
  refine loop_shown shows fun k enough => ?_
  refine (gather_shown (fun _ => True) (fun _ _ => trivial) nonempty body
    (fun s listed done more c _ => each s listed done more c) (fun s _ => stmtFaces_mayFollow s) follow
    follow.ne_nil (fun done c _ => stop done c) [] k c trivial shows enough).mono ?_ fun _ bad => bad
  rintro results c' ⟨more, rfl, erased, shows⟩
  exact ⟨by simpa using erased, shows⟩

/-- A block is read back when its statements are. -/
theorem block_reads {body : List Stmt} (ih : ∀ s ∈ body, StmtReads o s)
    (faithful : Everywhere Faithful (partsOfStmts body)) {around : Surroundings}
    (jumps : scopedStmts around body) : BodyReads o around body := by
  intro n rest c good room some_ shows then_
  obtain ⟨z, rest, rfl⟩ := List.exists_cons_of_ne_nil some_
  obtain ⟨n, rfl⟩ := Nat.exists_eq_succ_of_ne_zero (n := n) (by omega)
  simp only [braced, List.cons_append, List.append_assoc, List.nil_append] at shows
  rw [block_eq, ends_bind]
  refine expectPunctuation_shown (by simp) shows rfl fun c shows => ?_
  rw [ends_bind]
  refine (stmts_shown ?_ ⟨_, _, rfl, by simp [mark], by simp [mark]⟩ ?_ shows).mono ?_ fun _ bad => bad
  · intro s listed done more c next shows
    have noClose : c.token.isPunctuation '\x7d' = false := isPunctuation_of_ne (stmt_apart shows rfl)
    have fits := length_le_stmtsFaces listed
    simp only [blockStep, ends_bind, ends_atPunctuation, noClose, Bool.false_eq_true, if_false,
      ends_current, Token.isEof_of_ne (stmt_apart shows rfl), upTo_statement]
    refine (ih s listed (everywhere_stmts.1 faithful s listed) around
      (scopedStmts_iff.1 jumps s listed) n more c (by omega) (next.all _) shows).mono ?_
      fun _ bad => bad
    rintro result c' ⟨erased, shows⟩
    exact ⟨result, rfl, erased, shows⟩
  · intro done c shows
    have kind : c.token.kind = .punctuation '\x7d' := shows.kind
    simp only [blockStep, ends_bind, ends_atPunctuation, Token.isPunctuation, kind, decide_true,
      if_true, ends_pure]
    exact ⟨trivial, shows⟩
  · rintro results c' ⟨erased, shows⟩
    rw [ends_bind]
    exact advance_shown (by simp) shows fun c shows => then_ _ c erased shows

/-! ## Functions -/

/-- The step of the loop over parameters. -/
def parameterItem (names : List String) : Parser (List String ⊕ List String) := do
  return .inl (names ++ [← Parser.plainName])

/-- Parameters are gathered by a loop. -/
theorem parameters_eq :
    Parser.parameters = (do
      let names ← Parser.loop (listStep ')' parameterItem) []
      Parser.advance
      return names) := rfl

/-- A name is read back. -/
theorem plainName_shown {name : String} (shows : c.Shows (named name :: x :: rest))
    {good : String → Cursor → Prop} {bad : Failure → Prop}
    (then_ : ∀ c', c'.Shows (x :: rest) → good name c') :
    Ends Parser.plainName o c good bad := by
  have kind : c.token.kind = .name name := shows.kind
  simp only [Parser.plainName, ends_bind, ends_currentKind, kind, ends_pure]
  exact advance_shown (by simp) shows then_

/-- Parameters are read back. -/
theorem parameters_shown {names : List String}
    (shown : c.Shows (nameFaces names ++ mark ')' :: x :: rest)) {good : List String → Cursor → Prop}
    (then_ : ∀ c', c'.Shows (x :: rest) → good names c') :
    Ends Parser.parameters o c good Never := by
  rw [parameters_eq, ends_bind]
  refine (list_shown id id names (fun name _ => ⟨named name, [], rfl, by simp [named]⟩) ?_ (by decide)
    shown).mono ?_ fun _ bad => bad
  · rintro name - done more c ⟨y, tail, rfl, -⟩ shows
    simp only [parameterItem, ends_bind, ends_pure]
    exact plainName_shown shows fun c shows => ⟨name, rfl, rfl, shows⟩
  · rintro results c' ⟨same, shows⟩
    obtain rfl : results = names := by simpa using same
    rw [ends_bind]
    exact advance_shown (by simp) shows then_

/-- What is to be shown of a function: its body is read back. -/
def FunctionReads (o : Options) : Function → Prop
  | .mk _ _ body =>
    Everywhere Faithful (partsOfStmts body) → scopedStmts .ofFunction body →
      BodyReads o .ofFunction body

/-- A function is read back from behind its keyword. -/
theorem function_shown {name : Option String} {params : List String} {body : List Stmt}
    (reads : BodyReads o .ofFunction body) (declaration : Bool)
    (declared : declaration = true → name.isSome = true) {n : Nat}
    (room : (stmtsFaces body).length < n)
    (shows : c.Shows (name.toList.map named ++
      (enclosed (nameFaces params) ++ (braced (stmtsFaces body) ++ x :: rest))))
    {good : Function → Cursor → Prop}
    (then_ : ∀ result c', result.eraseSpans = (Function.mk name params body).eraseSpans →
      c'.Shows (x :: rest) → good result c') :
    Ends (Parser.function (.upTo n) declaration) o c good Never := by
  have tail {c : Cursor} (shows : c.Shows (enclosed (nameFaces params) ++
      (braced (stmtsFaces body) ++ x :: rest))) :
      Ends (do
        Parser.expectPunctuation '('
        let names ← Parser.parameters
        return Function.mk name names (← Parser.block (.upTo n) .ofFunction)) o c good Never := by
    simp only [enclosed, List.cons_append, List.append_assoc, List.nil_append] at shows
    rw [ends_bind]
    refine expectPunctuation_shown (by simp) shows rfl fun c shows => ?_
    rw [ends_bind]
    refine parameters_shown shows fun c shows => ?_
    rw [ends_bind]
    refine reads n _ c _ room (by simp) shows fun results c erased shows => ?_
    exact then_ _ c (by simp only [Function.eraseSpans, erased]) shows
  cases name with
  | none =>
    have kind : c.token.kind = .punctuation '(' := shows.kind
    obtain rfl : declaration = false := by simpa using declared
    simp only [Parser.function, ends_bind, ends_currentKind, kind, Bool.false_eq_true, if_false,
      ends_pure]
    simpa only [ends_bind, ends_pure] using tail shows
  | some name =>
    have kind : c.token.kind = .name name := shows.kind
    simp only [Parser.function, ends_bind, ends_currentKind, kind, ends_pure]
    refine advance_shown (by simp [enclosed]) shows fun c shows => ?_
    simpa only [ends_bind, ends_pure] using tail shows

/-- Function literals. -/
theorem reads_function (span : Option Span) (fn : Function) (ih : FunctionReads o fn) :
    ExprReads o (.function span fn) := by
  intro faithful
  obtain ⟨name, params, body⟩ := fn
  rw [Expr.parts, everywhere_cons, Function.parts, everywhere_cons] at faithful
  obtain ⟨-, ⟨-, -, jumps⟩, inside⟩ := faithful
  have faces : exprFaces sequenceLevel (.function span (.mk name params body))
      = keyword .function :: (name.toList.map named ++
        (enclosed (nameFaces params) ++ braced (stmtsFaces body))) := by
    cases name <;> rfl
  refine .ofMember (fun calls _ => ?_) member_le_primary
  rw [faces]
  refine reads_atom (by simp [keyword]) (by simp [keyword]) ?_ calls
  intro n start y rest c room shows
  have kind : c.token.kind = .keyword .function := shows.kind
  simp only [List.length_cons, List.length_append, braced, List.length_nil] at room
  simp only [Parser.atom, ends_bind, ends_currentKind, kind, ends_spanFrom, ends_pure]
  simp only [List.append_assoc] at shows
  refine advance_shown (by simp [enclosed]) shows fun c shows => ?_
  refine function_shown (ih inside jumps) false (by simp) (by omega) shows
    fun result c erased shows => ⟨?_, shows⟩
  simp only [Expr.eraseSpans, erased]

/-! ## Object literals -/

/-- What is to be shown of a property: if it is faithful, it is read back. -/
def PropertyReads (o : Options) (p : Property) : Prop :=
  Everywhere Faithful p.parts →
    ∀ n rest c, (propertyFaces p).length ≤ n → Continues '\x7d' rest →
      c.Shows (propertyFaces p ++ rest) →
      Ends (Parser.property (.upTo n)) o c
        (fun result behind => result.eraseSpans = p.eraseSpans ∧ behind.Shows rest) Never

/-- A key is read back. -/
theorem propertyKey_shown {key : String} (shows : c.Shows (keyFace key :: x :: rest))
    {good : String → Cursor → Prop} {bad : Failure → Prop}
    (then_ : ∀ c', c'.Shows (x :: rest) → good key c') :
    Ends Parser.propertyKey o c good bad := by
  unfold keyFace at shows
  split at shows
  · have read : Ends Parser.anyName o c good bad := anyName_shown shows then_
    have kind : c.token.kind = wordKind key := shows.kind
    rcases Lexing.wordKind_cases key with ⟨symbol, same⟩ | ⟨k, same⟩ | ⟨atom, same⟩ | same <;>
      simpa only [Parser.propertyKey, ends_bind, ends_currentKind, kind, same] using read
  · have kind : c.token.kind = .string key := shows.kind
    simp only [Parser.propertyKey, ends_bind, ends_currentKind, kind, ends_pure]
    exact advance_shown (by simp) shows then_

/-- The token of a key. -/
theorem keyFace_cases (key : String) :
    keyFace key = { kind := .string key } ∨ keyFace key = word key := by
  unfold keyFace
  split
  · exact .inr rfl
  · exact .inl rfl

/-- Properties with a value. -/
theorem reads_init (key : String) (value : Expr) (ih : ExprReads o value) :
    PropertyReads o (.init key value) := by
  intro faithful n rest c room continues shows
  rw [Property.parts, everywhere_cons] at faithful
  simp only [propertyFaces, List.length_cons] at room
  obtain ⟨n, rfl⟩ := Nat.exists_eq_succ_of_ne_zero (n := n) (by omega)
  simp only [propertyFaces, List.cons_append] at shows
  have rest_ (c' : Cursor) (shows : c'.Shows (mark ':' :: (exprFaces assignmentLevel value ++ rest))) :
      Ends (do
        Parser.expectPunctuation ':'
        return Property.init key (← (Rules.upTo (n + 1)).expression false false)) o c'
        (fun result behind => result.eraseSpans = (Property.init key value).eraseSpans ∧
          behind.Shows rest) Never := by
    simp only [ends_bind, upTo_expression]
    obtain ⟨y, more, same, -⟩ := exprFaces_opens value assignmentLevel
    refine expectPunctuation_shown (by simp [same]) shows rfl fun c shows => ?_
    refine ((ih faithful.2).assignment.expression (by omega) (by simp)
      (continues.follows (by decide) false) shows).mono ?_ fun _ bad => bad
    rintro result behind ⟨erased, shows⟩
    exact ⟨by simp only [Property.eraseSpans, erased], shows⟩
  simp only [Parser.property, ends_bind, ends_currentKind]
  refine propertyKey_shown shows fun c' shows => ?_
  have colon : c'.token.isPunctuation ':' = true := by
    have kind : c'.token.kind = .punctuation ':' := shows.kind
    simp [Token.isPunctuation, kind]
  simp only [ends_atPunctuation, colon]
  split
  · rename_i none_
    exact absurd none_ (by decide)
  · rename_i none_
    exact absurd none_ (by decide)
  · simpa only [ends_bind, ends_pure] using rest_ c' shows

/-- Accessors. -/
theorem accessor_shown {accessor key : String} {fn : Function} (which : accessor = "get" ∨ accessor = "set")
    (ih : FunctionReads o fn) (unnamed : FaithfulAccessor key fn) (faithful : Everywhere Faithful fn.parts)
    {n : Nat} (room : (functionTailFaces fn).length ≤ n)
    (shows : c.Shows (named accessor :: word key :: (functionTailFaces fn ++ x :: rest)))
    {good : Property → Cursor → Prop}
    (then_ : ∀ result c', result.eraseSpans = fn.eraseSpans → c'.Shows (x :: rest) →
      good (if accessor = "get" then .getter key result else .setter key result) c') :
    Ends (Parser.property (.upTo n)) o c good Never := by
  obtain ⟨name, params, body⟩ := fn
  rw [Function.parts, everywhere_cons] at faithful
  obtain ⟨⟨-, -, jumps⟩, inside⟩ := faithful
  obtain rfl : name = none := unnamed.2
  simp only [functionTailFaces, List.length_append, List.length_cons, braced] at room
  have kind : c.token.kind = .name accessor := shows.kind
  simp only [Parser.property, ends_bind, ends_currentKind, kind, Parser.propertyKey, Parser.anyName,
    ends_pure, ends_atPunctuation]
  refine advance_shown (by simp) shows fun c behind => ?_
  have noColon : c.token.isPunctuation ':' = false := by
    refine isPunctuation_of_ne fun same => ?_
    exact Lexing.wordKind_ne_punctuation key ':' (behind.kind.symm.trans same)
  have tail {c : Cursor} (shows : c.Shows (word key :: (functionTailFaces (.mk none params body) ++ x :: rest)))
      {make : String → Function → Property}
      (then_ : ∀ result c', result.eraseSpans = (Function.mk none params body).eraseSpans →
        c'.Shows (x :: rest) → good (make key result) c') :
      Ends (do
        let key ← Parser.anyName
        return make key (← Parser.function (.upTo n) false)) o c good Never := by
    simp only [ends_bind, ends_pure]
    simp only [functionTailFaces, enclosed, List.cons_append, List.append_assoc] at shows
    refine anyName_shown shows fun c shows => ?_
    have shows' : c.Shows ((none : Option String).toList.map named ++
        (enclosed (nameFaces params) ++ (braced (stmtsFaces body) ++ x :: rest))) := by
      simpa [enclosed] using shows
    exact function_shown (ih inside jumps) false (by simp) (by omega) shows' then_
  rcases which with rfl | rfl
  · simp only [noColon]
    exact tail behind then_
  · simp only [noColon]
    exact tail behind then_

/-- The step of the loop over the properties of an object literal. -/
def propertyItem (rules : Rules) (strict : Bool) (properties : List Property) :
    Parser (List Property ⊕ List Property) := do
  if !strict && (← Parser.atPunctuation '\x7d') then return .inr properties
  return .inl (properties ++ [← Parser.property rules])

/-- Properties are gathered by a loop. -/
theorem objectBody_eq (rules : Rules) :
    Parser.objectBody rules = (do
      let strict := (← read).strict
      let properties ← Parser.loop (listStep '\x7d' (propertyItem rules strict)) []
      Parser.advance
      return properties) := rfl

/-- The tokens of a property begin with its key, or with the word for an accessor. -/
theorem propertyFaces_opens (p : Property) {kind : TokenKind} (mark_ : ∃ c, kind = .punctuation c) :
    ∃ x more, propertyFaces p = x :: more ∧ x.kind ≠ kind := by
  obtain ⟨c, rfl⟩ := mark_
  cases p with
  | init key value =>
    refine ⟨keyFace key, _, rfl, ?_⟩
    rcases keyFace_cases key with same | same
    · simp [same]
    · rw [same]
      exact Lexing.wordKind_ne_punctuation key c
  | getter => exact ⟨named "get", _, rfl, by simp [named]⟩
  | setter => exact ⟨named "set", _, rfl, by simp [named]⟩

/-- Object literals. -/
theorem reads_object (span : Option Span) (properties : List Property)
    (ih : ∀ p ∈ properties, PropertyReads o p) : ExprReads o (.object span properties) := by
  intro faithful
  rw [Expr.parts, everywhere_cons, everywhere_properties] at faithful
  have faces : exprFaces sequenceLevel (.object span properties)
      = mark '\x7b' :: (commaFaces (properties.map propertyFaces) ++ [mark '\x7d']) := by
    rw [← propertiesFaces_eq]
    rfl
  refine .ofMember (fun calls _ => ?_) member_le_primary
  rw [faces]
  refine reads_atom (by simp [mark]) (by simp [mark]) ?_ calls
  intro n start y rest c room shows
  have kind : c.token.kind = .punctuation '\x7b' := shows.kind
  simp only [List.length_cons, List.length_append] at room
  simp only [Parser.atom, ends_bind, ends_currentKind, kind, ends_spanFrom, ends_pure, objectBody_eq,
    ends_read]
  rw [List.append_assoc] at shows
  refine advance_shown (by simp) shows fun c shows => ?_
  refine (list_shown Property.eraseSpans Property.eraseSpans properties
    (fun p _ => propertyFaces_opens p ⟨_, rfl⟩) ?_ (by decide) shows).mono ?_ fun _ bad => bad
  · intro p listed done more c continues shows
    obtain ⟨z, tail, same, apart⟩ := propertyFaces_opens p ⟨'\x7d', rfl⟩
    have kind : c.token.kind = z.kind := by
      rw [same] at shows
      exact shows.kind
    have noClose : c.token.isPunctuation '\x7d' = false := isPunctuation_of_ne (kind ▸ apart)
    have fits := length_le_commaFaces (List.mem_map_of_mem (f := propertyFaces) listed)
    simp only [propertyItem, ends_bind, ends_atPunctuation, noClose, Bool.and_false,
      Bool.false_eq_true, if_false, ends_pure]
    refine (ih p listed (faithful.2 p listed) n more c (by omega) continues shows).mono ?_
      fun _ bad => bad
    rintro result c' ⟨erased, shows⟩
    exact ⟨result, rfl, erased, shows⟩
  · rintro results c' ⟨erased, shows⟩
    refine advance_shown (by simp) shows fun c shows => ⟨?_, shows⟩
    simp only [Expr.eraseSpans, eraseProperties_eq, erased]

end

end Stencil.Grammar

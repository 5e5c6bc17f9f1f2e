import Stencil.Proofs.Printing.Laying
/-!
# The text of statements

The printed text of a faithful statement spells its tokens, whatever the indentation, and ends in a
semicolon or a closing brace. With the function literals and the accessors, which hold statements,
every faithful expression is spelt by its text (`exprSpelt`), and every faithful script by its own
(`spells_program`).
-/

set_option autoImplicit false

namespace Stencil.Print

open Stencil.Lexing
open Stencil.Syntax
open Stencil.Text

/-! ## Words and expressions in a statement -/

/-- An expression where every text may stand. -/
theorem spells_expr {e : Expr} (spelt : ExprSpelt e) (faithful : Everywhere Faithful e.parts)
    (least : Nat) {s : Phase} (opened : s.Open) :
    ∃ kind, Spells s (exprFaces least e) (exprText least e).toList (s.closed kind) ∧
      EndsItem kind := by
  obtain ⟨kind, spells, closes⟩ := (spelt faithful least).spells s (opened _)
  exact ⟨kind, spells, closes.item⟩

/-- An expression in parentheses. -/
theorem spells_enclosed {e : Expr} (spelt : ExprSpelt e) (faithful : Everywhere Faithful e.parts)
    {s : Phase} (admits : s.Admits ['(']) :
    Spells s (enclosed (exprFaces sequenceLevel e)) (inParentheses (exprText sequenceLevel e)).toList
      (s.closed (.punctuation ')')) := by
  have text : (inParentheses (exprText sequenceLevel e)).toList
      = '(' :: ((exprText sequenceLevel e).toList ++ [')']) := by
    simp [inParentheses]
  obtain ⟨kind, spells, ends⟩ := spells_expr spelt faithful sequenceLevel
    (admits_behind_mark (s := s) (c := '(') (by decide))
  rw [text]
  exact spells_between (by decide) admits spells ⟨rfl, rfl⟩ rfl
    (Phase.admits_closed (ends ')' (by decide)))

/-- A keyword ends before whatever may follow it. -/
theorem stopsAt_keyword (k : Keyword) {c : Char} (listed : c ∈ separators) :
    stopsAt (.keyword k) c = true := by
  have stops := stopsAt_word k.spelling c (by simp [listed])
  rwa [(keyword_plain k).2] at stops

/-- A keyword and an expression in parentheses, as most statements begin. -/
theorem spells_condition (k : Keyword) {e : Expr} (spelt : ExprSpelt e)
    (faithful : Everywhere Faithful e.parts) {s : Phase} (opened : s.Open) :
    Spells s (keyword k :: enclosed (exprFaces sequenceLevel e))
      (k.spelling.toList ++ ' ' :: (inParentheses (exprText sequenceLevel e)).toList)
      (s.closed (.punctuation ')')) :=
  spells_keyword k (opened _)
    (spells_gap (spells_enclosed spelt faithful (Phase.open_past _ _ _)))

/-- A name ends before whatever may follow it. -/
theorem stopsAt_name {name : String} (fine : IsFineName name) {c : Char} (listed : c ∈ separators) :
    stopsAt (.name name) c = true := by
  have stops := stopsAt_word name c (by simp [listed])
  rwa [fine.2] at stops

/-- A name of its own. -/
theorem spells_name {name : String} (fine : IsFineName name) {s : Phase} (opened : s.Open) :
    Spells s [named name] name.toList (s.closed (.name name)) := by
  have spelt := spells_named fine.1 fine.2 (opened _) .nil
  rwa [List.append_nil] at spelt

/-- A semicolon behind an item. -/
theorem spells_ending {s : Phase} {kind : TokenKind} (ends : EndsItem kind) :
    Spells (s.closed kind) ending [';'] (s.closed (.punctuation ';')) :=
  spells_separator (by decide) (Phase.admits_closed (ends ';' (by decide))) .nil

/-! ## Functions -/

/-- The statements of a body, in braces. -/
def BodyLaid (body : List Stmt) : Prop :=
  Everywhere Faithful (partsOfStmts body) →
    Laid (braced (stmtsFaces body)) (blockPieces body) (· = .punctuation '\x7d')

/-- The statements of the body of a function. -/
def FunctionSpelt : Function → Prop
  | .mk _ _ body => BodyLaid body

/-- A list of names in parentheses. -/
theorem spells_names (names : List String) (fine : ∀ n ∈ names, IsFineName n) {s : Phase}
    (admits : s.Admits ['(']) :
    Spells s (enclosed (nameFaces names)) (inParentheses (commaSeparated names)).toList
      (s.closed (.punctuation ')')) := by
  have text : (inParentheses (commaSeparated names)).toList
      = '(' :: ((commaSeparated (names.map id)).toList ++ [')']) := by
    simp [inParentheses]
  rw [text]
  refine spells_list (by decide) (fun name => [named name]) id names ?_ admits
  intro name listed s opened
  exact ⟨_, spells_name (fine name listed) opened, fun c => stopsAt_name (fine name listed)⟩

/-- The parameters and the body of a function. -/
theorem tail_laid (name : Option String) {params : List String} {body : List Stmt}
    (fine : ∀ n ∈ params, IsFineName n) (block : BodyLaid body)
    (faithful : Everywhere Faithful (partsOfStmts body)) (unit : String) (depth : Nat) :
    ∃ tail, Writes unit depth (functionTail (.mk name params body)) ('(' :: tail) ∧
      ∀ s : Phase, IsIndentation unit s → s.Admits ['('] →
        Spells s (functionTailFaces (.mk name params body)) ('(' :: tail)
          (s.closed (.punctuation '\x7d')) := by
  obtain ⟨text, writes, spells⟩ := block faithful unit depth
  have front : ([inParentheses (commaSeparated params), " "].flatMap String.toList)
      = '(' :: ((commaSeparated params).toList ++ [')', ' ']) := by
    simp [inParentheses]
  refine ⟨((commaSeparated params).toList ++ [')', ' ']) ++ text, ?_, ?_⟩
  · have both := (Writes.texts unit depth
      [inParentheses (commaSeparated params), " "]).append writes
    rw [front] at both
    exact both
  · intro s indentation admits
    have names := spells_names params fine admits
    obtain ⟨kind, inner, rfl⟩ :=
      spells (((s.closed (.punctuation ')')).past ' ')) indentation (Phase.open_past _ _)
    have both := names.append (spells_gap inner)
    simpa [inParentheses, functionTailFaces] using both

/-- A name ends before a parenthesis. -/
theorem stopsAt_parenthesis {name : String} (fine : IsFineName name) :
    stopsAt (.name name) '(' = true :=
  fine.2 ▸ stopsAt_word name '(' (by decide)

/-- A function with its keyword and name. -/
theorem function_text {fn : Function} (block : FunctionSpelt fn)
    (faithful : Everywhere Faithful fn.parts) (unit : String) (depth : Nat) :
    ∃ tail, Writes unit depth (functionPieces fn) ("function".toList ++ tail) ∧
      ∀ s : Phase, IsIndentation unit s → s.Admits "function".toList →
        Spells s (functionFaces fn) ("function".toList ++ tail) (s.closed (.punctuation '\x7d')) := by
  obtain ⟨name, params, body⟩ := fn
  rw [Function.parts, everywhere_cons] at faithful
  obtain ⟨⟨fineName, fine, -⟩, inside⟩ := faithful
  obtain ⟨tail, writes, spells⟩ := tail_laid name fine block inside unit depth
  cases name with
  | none =>
    refine ⟨'(' :: tail, ?_, fun s indentation admits => ?_⟩
    · have both := (Writes.texts unit depth ["function"]).append writes
      exact both
    · refine spells_keyword .function admits (spells _ indentation ?_)
      exact Phase.admits_closed (endsName_table '(' (by decide))
  | some name =>
    have known : IsFineName name := fineName name rfl
    refine ⟨' ' :: (name.toList ++ '(' :: tail), ?_, fun s indentation admits => ?_⟩
    · have both := (Writes.texts unit depth ["function " ++ name]).append writes
      rw [List.flatMap_cons, List.flatMap_nil, List.append_nil, String.toList_append,
        List.append_assoc] at both
      exact both
    · refine spells_keyword .function admits (spells_gap ?_)
      refine spells_named known.1 known.2 (Phase.open_past _ _ _) (spells _ indentation ?_)
      exact Phase.admits_closed (stopsAt_parenthesis known)

/-- Function literals. -/
theorem spelt_function (span : Option Span) (fn : Function) (ih : FunctionSpelt fn) :
    ExprSpelt (.function span fn) := by
  intro faithful least
  rw [Expr.parts, everywhere_cons] at faithful
  refine spelt_bracketed (c := '\x7d') (by decide) ?_
  obtain ⟨tail, writes, spells⟩ := function_text ih faithful.2 "  " 0
  rw [inlineCode_toList, writes.alone]
  refine ⟨⟨'f', _, rfl, by decide, by decide⟩, fun s admits => ⟨_, ?_, rfl⟩⟩
  exact spells s (isIndentation_inline s) (admits.of_append (by decide))

/-- Function declarations, and functions where every text may stand. -/
theorem function_laid {fn : Function} (block : FunctionSpelt fn)
    (faithful : Everywhere Faithful fn.parts) :
    Laid (functionFaces fn) (functionPieces fn) (· = .punctuation '\x7d') := by
  intro unit depth
  obtain ⟨tail, writes, spells⟩ := function_text block faithful unit depth
  exact ⟨_, writes, fun s indentation opened => ⟨_, spells s indentation (opened _), rfl⟩⟩

/-! ## Properties -/

/-- The key of a property is spelt by its text, and ends before a colon. -/
theorem spells_key (key : String) {s s' : Phase} {faces : List Face} {text : List Char}
    (opened : s.Open)
    (rest : ∀ kind, stopsAt kind ':' = true → Spells (s.closed kind) faces text s') :
    Spells s (keyFace key :: faces) ((keyText key).toList ++ text) s' := by
  unfold keyFace keyText
  split
  · rename_i plain
    exact spells_plainWord plain (opened _) (rest _ (stopsAt_word key ':' (by decide)))
  · refine .word (.string key) (opened _) (holds_of_ne s (by simp)) (by simp) rfl ?_
    rw [Phase.behind_eq_closed s (by simp)]
    exact rest _ rfl

/-- Properties with a value. -/
theorem spelt_init (key : String) (value : Expr) (ih : ExprSpelt value) :
    PropertySpelt (.init key value) := by
  intro faithful s opened
  rw [Property.parts, everywhere_cons] at faithful
  have text : (propertyText (.init key value)).toList
      = (keyText key).toList ++ ':' :: ' ' :: (exprText assignmentLevel value).toList := by
    simp [propertyText]
  obtain ⟨kind, spells, ends⟩ := spells_expr ih faithful.2 assignmentLevel
    (Phase.open_past (s.closed (.punctuation ':')) ' ')
  refine ⟨kind, ?_, ends⟩
  rw [text]
  exact spells_key key opened fun _ stops =>
    spells_separator (by decide) (Phase.admits_closed stops) (spells_gap spells)

/-- Accessors: a word that says which, the key, and the function. -/
theorem spelt_accessor {accessor key : String} {fn : Function} (ih : FunctionSpelt fn)
    (which : accessor = "get" ∨ accessor = "set") (spelt : FaithfulAccessor key fn)
    (faithful : Everywhere Faithful fn.parts) {s : Phase} (opened : s.Open) :
    Spells s (named accessor :: word key :: functionTailFaces fn)
      (accessor ++ " " ++ key ++ inlineCode (functionTail fn)).toList
      (s.closed (.punctuation '\x7d')) := by
  obtain ⟨name, params, body⟩ := fn
  rw [Function.parts, everywhere_cons] at faithful
  have fine : IsFineName accessor := by
    rcases which with rfl | rfl <;> exact ⟨.inl (by decide), rfl⟩
  obtain ⟨tail, writes, spells⟩ := tail_laid name faithful.1.2.1 ih faithful.2 "  " 0
  have text : (accessor ++ " " ++ key ++ inlineCode (functionTail (.mk name params body))).toList
      = accessor.toList ++ ' ' :: (key.toList ++ '(' :: tail) := by
    simp [inlineCode_toList, writes.alone]
  rw [text]
  refine spells_named fine.1 fine.2 (opened _) (spells_gap ?_)
  refine spells_word spelt.1 rfl (by simp [word]) rfl (Phase.open_past _ _ _) ?_
  exact spells _ (isIndentation_inline _)
    (Phase.admits_closed (stopsAt_word key '(' (by decide)))

/-! ## Declarations -/

/-- The text of a variable; in the head of a loop a bare `in` would end it. -/
def varText (loop : Bool) : VarDef → String
  | .mk name none => name
  | .mk name (some value) =>
    name ++ " = " ++
      (if loop && containsIn value then inParentheses (exprText sequenceLevel value)
        else exprText assignmentLevel value)

/-- The texts of a declaration are those of each variable. -/
theorem varDefTexts_eq (defs : List VarDef) : varDefTexts defs = defs.map (varText false) := by
  induction defs with
  | nil => rfl
  | cons d defs ih =>
    obtain ⟨name, value⟩ := d
    cases value with
    | none => rw [varDefTexts, ih]; rfl
    | some value => rw [varDefTexts, ih]; rfl

/-- The texts of a declaration that may stand in the head of a loop are those of each variable. -/
theorem loopVarDefTexts_eq (defs : List VarDef) :
    loopVarDefTexts defs = defs.map (varText true) := by
  induction defs with
  | nil => rfl
  | cons d defs ih =>
    obtain ⟨name, value⟩ := d
    cases value with
    | none => rw [loopVarDefTexts, ih]; rfl
    | some value => rw [loopVarDefTexts, ih]; rfl

/-- An expression that stands in parentheses in some cases, where every text may stand. -/
theorem spells_either {e : Expr} (spelt : ExprSpelt e) (faithful : Everywhere Faithful e.parts)
    (paren : Bool) (least : Nat) {s : Phase} (opened : s.Open) :
    ∃ kind, Spells s (if paren then enclosed (exprFaces sequenceLevel e) else exprFaces least e)
        (if paren then inParentheses (exprText sequenceLevel e) else exprText least e).toList
        (s.closed kind) ∧ EndsItem kind := by
  obtain ⟨kind, spells, ends⟩ := (spelt_either spelt faithful paren least EndsItem
    (endsItem_bracket (by decide)) fun _ _ closes => closes.item).spells s (opened _)
  exact ⟨kind, spells, ends⟩

/-- A variable. -/
theorem spells_var (loop : Bool) {defs : List VarDef} (ih : InVarDefs ExprSpelt defs)
    (faithful : Everywhere Faithful (partsOfVarDefs defs)) :
    ∀ d ∈ defs, ∀ s : Phase, s.Open →
      ∃ kind, Spells s (varFaces loop d) (varText loop d).toList (s.closed kind) ∧
        EndsItem kind := by
  rintro ⟨name, value⟩ listed s opened
  have fine := everywhere_varDefs.1 faithful _ listed
  rw [VarDef.parts, everywhere_cons] at fine
  have known : IsFineName name := fine.1
  cases value with
  | none => exact ⟨_, spells_name known opened, fun c => stopsAt_name known⟩
  | some value =>
    obtain ⟨kind, spells, ends⟩ := spells_either (ih name value listed) fine.2
      (loop && containsIn value) assignmentLevel
      (Phase.open_past (((s.closed (.name name)).past ' ').closed (.operator "=")) ' ')
    have text : (varText loop (.mk name (some value))).toList
        = name.toList ++ ' ' :: ("=".toList ++ ' ' ::
          (if loop && containsIn value then inParentheses (exprText sequenceLevel value)
            else exprText assignmentLevel value).toList) := by
      simp [varText]
    refine ⟨kind, ?_, ends⟩
    rw [text]
    exact spells_named known.1 known.2 (opened _) (spells_gap
      (spells_operator (by decide) (fun same => absurd same (by decide)) (Phase.open_past _ _ _)
        (spells_gap spells)))

/-- The variables of a declaration. -/
theorem spells_varDefs (loop : Bool) {defs : List VarDef} (some_ : defs ≠ [])
    (ih : InVarDefs ExprSpelt defs) (faithful : Everywhere Faithful (partsOfVarDefs defs))
    {s : Phase} (opened : s.Open) :
    ∃ kind, Spells s (commaFaces (defs.map (varFaces loop)))
        (commaSeparated (defs.map (varText loop))).toList (s.closed kind) ∧ EndsItem kind := by
  cases defs with
  | nil => exact absurd rfl some_
  | cons d defs => exact spells_items _ _ defs d (spells_var loop ih faithful) s opened

/-- The head of a loop. -/
theorem spells_head {head : ForHead} (ih : InHead ExprSpelt head)
    (faithful : Everywhere Faithful head.parts) {s : Phase} (opened : s.Open) :
    ∃ kind, Spells s (headFaces head) (headText head).toList (s.closed kind) ∧ EndsItem kind := by
  cases head with
  | var defs =>
    rw [ForHead.parts, everywhere_cons] at faithful
    obtain ⟨kind, spells, ends⟩ := spells_varDefs true faithful.1 ih faithful.2
      (Phase.open_past (s.closed (.keyword .var)) ' ')
    have text : (headText (.var defs)).toList
        = "var".toList ++ ' ' :: (commaSeparated (defs.map (varText true))).toList := by
      simp [headText, loopVarDefTexts_eq]
    refine ⟨kind, ?_, ends⟩
    rw [text, headFaces, loopVarDefsFaces_eq]
    exact spells_keyword .var (opened _) (spells_gap spells)
  | expr value =>
    rw [ForHead.parts, everywhere_cons] at faithful
    exact spells_either ih faithful.2 (containsIn value) sequenceLevel opened

/-! ## Statements -/

/-- The text of a statement spells its tokens. -/
def StmtSpelt (s : Stmt) : Prop :=
  Everywhere Faithful s.parts → Laid (stmtFaces s) (stmtPieces s) EndsStmt

/-- A closing brace ends a statement. -/
theorem endsStmt_brace (kind : TokenKind) (brace : kind = .punctuation '\x7d') : EndsStmt kind :=
  .inr brace

/-- A statement of one text that ends in a semicolon. -/
theorem laid_simple (faces : List Face) (front : List Char) {text : String}
    (same : text.toList = front ++ [';'])
    (spells : ∀ s : Phase, s.Open →
      ∃ kind, Spells s faces front (s.closed kind) ∧ EndsItem kind) (span : Option Span) :
    Laid (faces ++ ending) [.mark span, .text text] EndsStmt := by
  refine .mark span (.ofText fun s opened => ⟨.punctuation ';', ?_, .inl rfl⟩)
  obtain ⟨kind, spelt, ends⟩ := spells s opened
  rw [same]
  exact spelt.append (spells_ending ends)

/-- The statements of a list, each on a line of its own. -/
theorem lines_laid {body : List Stmt} (ih : ∀ s ∈ body, StmtSpelt s)
    (faithful : Everywhere Faithful (partsOfStmts body)) :
    Lines (stmtsFaces body) (linePieces body) := by
  rw [everywhere_stmts] at faithful
  induction body with
  | nil => exact .nil
  | cons s body rest =>
    exact .cons (ih s (by simp) (faithful s (by simp)))
      (rest (fun t listed => ih t (List.mem_cons_of_mem _ listed))
        fun t listed => faithful t (List.mem_cons_of_mem _ listed))

/-- Statements in braces. -/
theorem body_laid {body : List Stmt} (ih : ∀ s ∈ body, StmtSpelt s) : BodyLaid body := by
  intro faithful
  cases body with
  | nil =>
    refine .ofText fun s opened => ⟨_, ?_, rfl⟩
    exact spells_between (by decide) (opened _) .nil ⟨rfl, rfl⟩ rfl
      (admits_behind_mark (by decide) _)
  | cons s body =>
    have laid := (lines_laid ih faithful).braced
    simpa [blockPieces, linePieces, stmtsFaces] using laid

/-- Blocks. -/
theorem spelt_block (span : Option Span) (body : List Stmt) (ih : ∀ s ∈ body, StmtSpelt s) :
    StmtSpelt (.block span body) := by
  intro faithful
  rw [Stmt.parts, everywhere_cons] at faithful
  exact .mark span ((body_laid ih faithful.2).mono endsStmt_brace)

/-- Expression statements. -/
theorem spelt_expression (span : Option Span) (value : Expr) (ih : ExprSpelt value) :
    StmtSpelt (.expression span value) := by
  intro faithful
  rw [Stmt.parts, everywhere_cons] at faithful
  refine laid_simple _ (if needsGuard (exprText sequenceLevel value) then
    inParentheses (exprText sequenceLevel value) else exprText sequenceLevel value).toList ?_ ?_ span
  · split <;> simp
  · intro s opened
    exact spells_either ih faithful.2 _ sequenceLevel opened

/-- Declarations, after their keyword. -/
theorem spelt_declaration {k : Keyword} {loop : Bool} {defs : List VarDef} {span : Option Span}
    (some_ : defs ≠ []) (ih : InVarDefs ExprSpelt defs)
    (faithful : Everywhere Faithful (partsOfVarDefs defs)) {text : String}
    (same : text.toList = (k.spelling.toList ++
      ' ' :: (commaSeparated (defs.map (varText loop))).toList) ++ [';']) :
    Laid (keyword k :: (commaFaces (defs.map (varFaces loop)) ++ ending))
      [.mark span, .text text] EndsStmt := by
  refine laid_simple (keyword k :: commaFaces (defs.map (varFaces loop))) _ same ?_ span
  intro s opened
  obtain ⟨kind, spells, ends⟩ := spells_varDefs loop some_ ih faithful
    (Phase.open_past (s.closed (.keyword k)) ' ')
  exact ⟨kind, spells_keyword k (opened _) (spells_gap spells), ends⟩

/-- Declarations of variables. -/
theorem spelt_varStmt (span : Option Span) (defs : List VarDef) (ih : InVarDefs ExprSpelt defs) :
    StmtSpelt (.var span defs) := by
  intro faithful
  rw [Stmt.parts, everywhere_cons] at faithful
  rw [stmtFaces, stmtPieces, loopVarDefsFaces_eq]
  exact spelt_declaration (k := .var) faithful.1 ih faithful.2 (by simp [loopVarDefTexts_eq]; rfl)

/-- Declarations of constants. -/
theorem spelt_constStmt (span : Option Span) (defs : List VarDef) (ih : InVarDefs ExprSpelt defs) :
    StmtSpelt (.const span defs) := by
  intro faithful
  rw [Stmt.parts, everywhere_cons] at faithful
  rw [stmtFaces, stmtPieces, varDefsFaces_eq]
  exact spelt_declaration (k := .const) faithful.1 ih faithful.2 (by simp [varDefTexts_eq]; rfl)

/-- A statement behind a condition in parentheses. -/
theorem laid_condition (k : Keyword) {e : Expr} (spelt : ExprSpelt e)
    (faithful : Everywhere Faithful e.parts) {text : String}
    (same : text.toList = k.spelling.toList ++
      ' ' :: ((inParentheses (exprText sequenceLevel e)).toList ++ [' ']))
    {faces : List Face} {pieces : List Piece} {good : TokenKind → Prop}
    (laid : Laid faces pieces good) (span : Option Span) :
    Laid (keyword k :: enclosed (exprFaces sequenceLevel e) ++ faces)
      (.mark span :: .text text :: pieces) good := by
  refine .mark span (.before _ [text] (fun s opened => ⟨.punctuation ')', ?_⟩) laid)
  have front := (spells_condition k spelt faithful opened).append
    (spells_gap (.nil : Spells ((s.closed (.punctuation ')')).past ' ') [] [] _))
  rw [List.append_nil] at front
  simpa [same] using front

/-- Conditionals. -/
theorem spelt_ifElse (span : Option Span) (condition : Expr) (thenBranch : Stmt)
    (elseBranch : Option Stmt) (ih : ExprSpelt condition) (ih' : StmtSpelt thenBranch)
    (ih'' : ∀ s ∈ elseBranch, StmtSpelt s) :
    StmtSpelt (.ifElse span condition thenBranch elseBranch) := by
  intro faithful
  have text : ("if (" ++ exprText sequenceLevel condition ++ ") ").toList
      = Keyword.if.spelling.toList ++
        ' ' :: ((inParentheses (exprText sequenceLevel condition)).toList ++ [' ']) := by
    simp [inParentheses, Keyword.spelling]
  cases elseBranch with
  | none =>
    simp only [Stmt.parts, everywhere_cons, everywhere_append] at faithful
    have front := laid_condition .if ih faithful.2.1.1 text (ih' faithful.2.1.2) span
    simpa [stmtFaces, stmtPieces] using front
  | some branch =>
    simp only [Stmt.parts, everywhere_cons, everywhere_append] at faithful
    have front := laid_condition .if ih faithful.2.1.1 text (ih' faithful.2.1.2) span
    have back : LaidBehind (keyword .else :: stmtFaces branch)
        (.text " else " :: stmtPieces branch) := by
      refine Laid.behind (.before [keyword .else] [" else "]
        (fun s _ => ⟨.keyword .else, ?_⟩) (ih'' branch rfl faithful.2.2)) fun _ ends => ends
      exact spells_gap (spells_keyword .else (Phase.open_past _ _ _) (spells_gap .nil))
    simpa [stmtFaces, stmtPieces] using front.append back fun _ ends => ends

/-- An expression that may be absent, with a blank before it. -/
theorem spells_optional {value : Option Expr} (ih : ∀ e ∈ value, ExprSpelt e)
    (faithful : Everywhere Faithful (partsOfOptional value)) (s : Phase) :
    ∃ s', Spells s (optionalFaces value) (spacedText? value).toList s' ∧ ReachedByList s s' := by
  cases value with
  | none => exact ⟨s, .nil, .inl rfl⟩
  | some e =>
    obtain ⟨kind, spells, ends⟩ :=
      spells_expr (ih e rfl) faithful sequenceLevel (Phase.open_past s ' ')
    have text : (spacedText? (some e)).toList = ' ' :: (exprText sequenceLevel e).toList := by
      simp [spacedText?]
    exact ⟨_, text ▸ spells_gap spells, .inr ⟨kind, rfl, ends⟩⟩

/-- A separator behind a list leads to the same phase whatever the list. -/
theorem ReachedByList.closed {s s' : Phase} (reached : ReachedByList s s') (kind : TokenKind) :
    s'.closed kind = s.closed kind := by
  rcases reached with rfl | ⟨last, rfl, -⟩
  · rfl
  · rfl

/-- A separator ends nothing. -/
theorem open_separator {c : Char} (plain : c ≠ '.') (s : Phase) :
    (s.closed (.punctuation c)).Open := by
  intro text last same d first
  obtain rfl := Option.some.inj same
  simp [stopsAt, plain]

/-- The text of the head of a loop, if it has one. -/
def optionalHeadText : Option ForHead → String
  | none => ""
  | some head => headText head

/-- The head of a loop, if it has one. -/
theorem spells_optionalHead {head : Option ForHead} (ih : ∀ h ∈ head, InHead ExprSpelt h)
    (faithful : ∀ h ∈ head, Everywhere Faithful h.parts) {s : Phase} (opened : s.Open) :
    ∃ s', Spells s (optionalHeadFaces head) (optionalHeadText head).toList s' ∧
      ReachedByList s s' := by
  cases head with
  | none => exact ⟨s, .nil, .inl rfl⟩
  | some head =>
    obtain ⟨kind, spells, ends⟩ := spells_head (ih head rfl) (faithful head rfl) opened
    exact ⟨_, spells, .inr ⟨kind, rfl, ends⟩⟩

/-- The three parts of the head of a loop over conditions. -/
theorem spells_forHead {head : Option ForHead} {test step : Option Expr}
    (ih : ∀ h ∈ head, InHead ExprSpelt h) (ih' : ∀ e ∈ test, ExprSpelt e)
    (ih'' : ∀ e ∈ step, ExprSpelt e) (first : ∀ h ∈ head, Everywhere Faithful h.parts)
    (second : Everywhere Faithful (partsOfOptional test))
    (third : Everywhere Faithful (partsOfOptional step)) {s : Phase} (opened : s.Open) :
    Spells s (keyword .for :: mark '(' :: (optionalHeadFaces head ++
        mark ';' :: (optionalFaces test ++ mark ';' :: (optionalFaces step ++ [mark ')']))))
      ("for (".toList ++ ((optionalHeadText head).toList ++ ';' :: ((spacedText? test).toList ++
        ';' :: ((spacedText? step).toList ++ [')', ' ']))))
      ((s.closed (.punctuation ')')).past ' ') := by
  obtain ⟨a, head_, afterHead⟩ :=
    spells_optionalHead ih first (open_separator (c := '(') (by decide) s)
  obtain ⟨b, test_, afterTest⟩ :=
    spells_optional ih' second (s.closed (.punctuation ';'))
  obtain ⟨c, step_, afterStep⟩ :=
    spells_optional ih'' third (s.closed (.punctuation ';'))
  have close : Spells c [mark ')'] [')', ' '] ((s.closed (.punctuation ')')).past ' ') := by
    refine spells_separator (by decide)
      (afterStep.admits (open_separator (by decide) s) (by decide)) ?_
    rw [afterStep.closed]
    exact spells_gap .nil
  have third_ : Spells b (mark ';' :: (optionalFaces step ++ [mark ')']))
      (';' :: ((spacedText? step).toList ++ [')', ' ']))
      ((s.closed (.punctuation ')')).past ' ') := by
    refine spells_separator (by decide)
      (afterTest.admits (open_separator (by decide) s) (by decide)) ?_
    rw [afterTest.closed]
    exact step_.append close
  have second_ : Spells a (mark ';' :: (optionalFaces test ++ mark ';' ::
        (optionalFaces step ++ [mark ')'])))
      (';' :: ((spacedText? test).toList ++ ';' :: ((spacedText? step).toList ++ [')', ' '])))
      ((s.closed (.punctuation ')')).past ' ') := by
    refine spells_separator (by decide)
      (afterHead.admits (open_separator (by decide) s) (by decide)) ?_
    rw [afterHead.closed]
    exact test_.append third_
  exact spells_keyword .for (opened _) (spells_gap (spells_separator (c := '(')
    (by decide) (Phase.open_past _ _ _) (head_.append second_)))

/-- Loops over conditions. -/
theorem spelt_forStmt (span : Option Span) (head : Option ForHead) (test step : Option Expr)
    (body : Stmt) (ih : ∀ h ∈ head, InHead ExprSpelt h) (ih' : ∀ e ∈ test, ExprSpelt e)
    (ih'' : ∀ e ∈ step, ExprSpelt e) (body_ : StmtSpelt body) :
    StmtSpelt (.for span head test step body) := by
  intro faithful
  have below : (∀ h ∈ head, Everywhere Faithful h.parts) ∧
      Everywhere Faithful (partsOfOptional test) ∧ Everywhere Faithful (partsOfOptional step) ∧
      Everywhere Faithful body.parts := by
    cases head with
    | none =>
      simp only [Stmt.parts, everywhere_cons, everywhere_append] at faithful
      exact ⟨by simp, faithful.2.1.1.2, faithful.2.1.2, faithful.2.2⟩
    | some head =>
      simp only [Stmt.parts, everywhere_cons, everywhere_append] at faithful
      exact ⟨by simpa using faithful.2.1.1.1, faithful.2.1.1.2, faithful.2.1.2, faithful.2.2⟩
  obtain ⟨first, second, third, fourth⟩ := below
  have front (s : Phase) (opened : s.Open) := spells_forHead ih ih' ih'' first second third opened
  have laid := Laid.before _
    ["for (", optionalHeadText head, ";", spacedText? test, ";", spacedText? step, ") "]
    (fun s opened => ⟨.punctuation ')', by simpa using front s opened⟩) (body_ fourth)
  cases head <;>
    simpa [stmtFaces, stmtPieces, optionalHeadFaces, optionalHeadText] using laid.mark span

/-- Loops over keys. -/
theorem spelt_forIn (span : Option Span) (head : ForHead) (object : Expr) (body : Stmt)
    (ih : InHead ExprSpelt head) (ih' : ExprSpelt object) (ih'' : StmtSpelt body) :
    StmtSpelt (.forIn span head object body) := by
  intro faithful
  rw [Stmt.parts, everywhere_cons, everywhere_append, everywhere_append] at faithful
  obtain ⟨-, ⟨first, second⟩, third⟩ := faithful
  have front (s : Phase) (opened : s.Open) :
      Spells s (keyword .for :: mark '(' :: (headFaces head ++ operator "in" ::
          (exprFaces sequenceLevel object ++ [mark ')'])))
        ("for (".toList ++ ((headText head).toList ++ ' ' :: ("in".toList ++
          ' ' :: ((exprText sequenceLevel object).toList ++ [')', ' ']))))
        ((s.closed (.punctuation ')')).past ' ') := by
    obtain ⟨kind, head_, -⟩ := spells_head ih first (open_separator (c := '(') (by decide) s)
    obtain ⟨last, object_, ends⟩ := spells_expr ih' second sequenceLevel
      (Phase.open_past (s.closed (.operator "in")) ' ')
    have close : Spells (s.closed last) [mark ')'] [')', ' ']
        ((s.closed (.punctuation ')')).past ' ') :=
      spells_separator (by decide) (Phase.admits_closed (ends ')' (by decide))) (spells_gap .nil)
    have back : Spells (s.closed kind) (operator "in" ::
          (exprFaces sequenceLevel object ++ [mark ')']))
        (' ' :: ("in".toList ++ ' ' :: ((exprText sequenceLevel object).toList ++ [')', ' '])))
        ((s.closed (.punctuation ')')).past ' ') :=
      spells_gap (spells_operator (by decide) (fun same => absurd same (by decide))
        (Phase.open_past _ _ _) (spells_gap (object_.append close)))
    exact spells_keyword .for (opened _) (spells_gap (spells_separator (c := '(')
      (by decide) (Phase.open_past _ _ _) (head_.append back)))
  have laid := Laid.before _
    ["for (" ++ headText head ++ " in " ++ exprText sequenceLevel object ++ ") "]
    (fun s opened => ⟨.punctuation ')', by simpa using front s opened⟩) (ih'' third)
  simpa [stmtFaces, stmtPieces] using laid.mark span

/-- Loops with a condition before their body. -/
theorem spelt_whileStmt (span : Option Span) (condition : Expr) (body : Stmt)
    (ih : ExprSpelt condition) (ih' : StmtSpelt body) : StmtSpelt (.while span condition body) := by
  intro faithful
  rw [Stmt.parts, everywhere_cons, everywhere_append] at faithful
  have text : ("while (" ++ exprText sequenceLevel condition ++ ") ").toList
      = Keyword.while.spelling.toList ++
        ' ' :: ((inParentheses (exprText sequenceLevel condition)).toList ++ [' ']) := by
    simp [inParentheses, Keyword.spelling]
  have laid := laid_condition .while ih faithful.2.1 text (ih' faithful.2.2) span
  simpa [stmtFaces, stmtPieces] using laid

/-- Statements in the scope of an object. -/
theorem spelt_withStmt (span : Option Span) (object : Expr) (body : Stmt) (ih : ExprSpelt object)
    (ih' : StmtSpelt body) : StmtSpelt (.with span object body) := by
  intro faithful
  rw [Stmt.parts, everywhere_cons, everywhere_append] at faithful
  have text : ("with (" ++ exprText sequenceLevel object ++ ") ").toList
      = Keyword.with.spelling.toList ++
        ' ' :: ((inParentheses (exprText sequenceLevel object)).toList ++ [' ']) := by
    simp [inParentheses, Keyword.spelling]
  have laid := laid_condition .with ih faithful.2.1 text (ih' faithful.2.2) span
  simpa [stmtFaces, stmtPieces] using laid

/-- A keyword and a blank before the pieces. -/
theorem laid_keyword (k : Keyword) (text : String)
    (same : text.toList = k.spelling.toList ++ [' ']) {faces : List Face} {pieces : List Piece} {good : TokenKind → Prop}
    (laid : Laid faces pieces good) : Laid (keyword k :: faces) (.text text :: pieces) good := by
  refine .before [keyword k] [text] (fun s opened => ⟨.keyword k, ?_⟩) laid
  simpa [same] using spells_keyword k (opened _) (spells_gap .nil)

/-- Loops with a condition behind their body. -/
theorem spelt_doWhile (span : Option Span) (body : Stmt) (condition : Expr) (ih : StmtSpelt body)
    (ih' : ExprSpelt condition) : StmtSpelt (.doWhile span body condition) := by
  intro faithful
  rw [Stmt.parts, everywhere_cons, everywhere_append] at faithful
  have front := laid_keyword .do "do " rfl (ih faithful.2.1)
  have text : (" while (" ++ exprText sequenceLevel condition ++ ");").toList
      = ' ' :: (Keyword.while.spelling.toList ++
        ' ' :: (inParentheses (exprText sequenceLevel condition)).toList) ++ [';'] := by
    simp [inParentheses, Keyword.spelling]
  have back : Laid (keyword .while :: (enclosed (exprFaces sequenceLevel condition) ++ ending))
      [.text (" while (" ++ exprText sequenceLevel condition ++ ");")] EndsStmt := by
    refine .ofText fun s opened => ⟨.punctuation ';', ?_, .inl rfl⟩
    rw [text]
    have head := spells_gap (spells_condition .while ih' faithful.2.2 (Phase.open_past s ' '))
    exact head.append (spells_ending (endsItem_bracket (by decide)))
  have laid := front.append (back.behind fun _ ends => ends) fun _ ends => ends
  simpa [stmtFaces, stmtPieces] using laid.mark span

/-- The branches of a switch. -/
theorem cases_laid {cases : List SwitchCase} (ih : InCases ExprSpelt StmtSpelt cases)
    (faithful : Everywhere Faithful (partsOfCases cases)) :
    Lines (casesFaces cases) (casePieces cases) := by
  induction cases with
  | nil => exact .nil
  | cons case cases rest =>
    obtain ⟨test, body⟩ := case
    rw [partsOfCases, everywhere_append, SwitchCase.parts, everywhere_cons, everywhere_append]
      at faithful
    obtain ⟨⟨-, fineTest, fineBody⟩, fine⟩ := faithful
    obtain ⟨ihTest, ihBody⟩ := ih test body (by simp)
    have below := lines_laid ihBody fineBody
    have more := rest (fun test body listed => ih test body (List.mem_cons_of_mem _ listed)) fine
    cases test with
    | none =>
      have lines := Lines.below [keyword .default, mark ':'] "default:"
        (fun s opened => spells_keyword .default (opened _) (spells_separator (by decide)
          (Phase.admits_closed (stopsAt_keyword _ (by decide))) .nil)) below more
      simpa [casesFaces, casePieces] using lines
    | some test =>
      have front (s : Phase) (opened : s.Open) :
          Spells s (keyword .case :: (exprFaces sequenceLevel test ++ [mark ':']))
            ("case " ++ exprText sequenceLevel test ++ ":").toList
            (s.closed (.punctuation ':')) := by
        obtain ⟨kind, spells, ends⟩ := spells_expr (ihTest test rfl) fineTest sequenceLevel
          (Phase.open_past (s.closed (.keyword .case)) ' ')
        have close : Spells (s.closed kind) [mark ':'] [':'] (s.closed (.punctuation ':')) :=
          spells_separator (by decide) (Phase.admits_closed (ends ':' (by decide))) .nil
        have whole := spells_keyword .case (opened _) (spells_gap (spells.append close))
        simpa [Keyword.spelling] using whole
      simpa [casesFaces, casePieces] using Lines.below _ _ front below more

/-- Switches. -/
theorem spelt_switch (span : Option Span) (discriminant : Expr) (cases : List SwitchCase)
    (ih : ExprSpelt discriminant) (ih' : InCases ExprSpelt StmtSpelt cases) :
    StmtSpelt (.switch span discriminant cases) := by
  intro faithful
  rw [Stmt.parts, everywhere_cons, everywhere_append] at faithful
  obtain ⟨-, first, second⟩ := faithful
  intro unit depth
  obtain ⟨text, writes, spells⟩ := cases_laid ih' second unit depth
  have all := (Writes.texts unit depth
    ["switch (" ++ exprText sequenceLevel discriminant ++ ") \x7b"]).append
      (writes.append (Writes.newline (.texts _ _ ["\x7d"])))
  refine ⟨_, by simpa [stmtPieces] using all.mark span, fun s indentation opened => ⟨_, ?_, .inr rfl⟩⟩
  let outside := (s.closed (.punctuation ')')).past ' '
  obtain ⟨s', lines, level⟩ := spells (outside.behind (.punctuation '\x7b')) indentation
  have block := spells_block (s := outside) indentation depth (Phase.open_past _ _) lines level
  have whole := (spells_condition .switch ih first opened).append (spells_gap block)
  simpa [stmtFaces, inParentheses, Keyword.spelling, outside] using whole

/-- Statements in braces behind a keyword. -/
theorem laid_keywordBody (k : Keyword) (text : String)
    (same : text.toList = ' ' :: (k.spelling.toList ++ [' '])) {body : List Stmt}
    (block : BodyLaid body) (faithful : Everywhere Faithful (partsOfStmts body)) :
    LaidBehind (keyword k :: braced (stmtsFaces body)) (.text text :: blockPieces body) := by
  refine Laid.behind (.before [keyword k] [text] (fun s _ => ⟨.keyword k, ?_⟩)
    (block faithful)) endsStmt_brace
  simpa [same] using spells_gap (s := s) (spells_keyword k (Phase.open_past _ _ _) (spells_gap .nil))

/-- The handler of a `try`. -/
theorem laid_handler (name : String) {body : List Stmt} (fine : IsFineName name)
    (block : BodyLaid body) (faithful : Everywhere Faithful (partsOfStmts body)) :
    LaidBehind (keyword .catch :: (enclosed [named name] ++ braced (stmtsFaces body)))
      (.text (" catch (" ++ name ++ ") ") :: blockPieces body) := by
  have front (s : Phase) : Spells s (keyword .catch :: enclosed [named name])
      (" catch (" ++ name ++ ") ").toList ((s.closed (.punctuation ')')).past ' ') := by
    have names := spells_names [name] (by simpa using fine)
      (Phase.open_past ((s.past ' ').closed (.keyword .catch)) ' ' ['('])
    have whole := spells_gap (s := s) (spells_keyword .catch (Phase.open_past _ _ _)
      (spells_gap (names.append (spells_gap .nil))))
    simpa [nameFaces, commaFaces, inParentheses, commaSeparated, Keyword.spelling] using whole
  have laid := Laid.before _ [" catch (" ++ name ++ ") "]
    (fun s _ => ⟨_, by simpa using front s⟩) (block faithful)
  simpa using laid.behind endsStmt_brace

/-- Statements with handlers for failures. -/
theorem spelt_tryCatch (span : Option Span) (body : List Stmt) (handler : Option Handler)
    (finalizer : Option (List Stmt)) (ih : ∀ s ∈ body, StmtSpelt s)
    (ih' : ∀ name body, handler = some (.mk name body) → ∀ s ∈ body, StmtSpelt s)
    (ih'' : ∀ body, finalizer = some body → ∀ s ∈ body, StmtSpelt s) :
    StmtSpelt (.tryCatch span body handler finalizer) := by
  intro faithful
  have catching (name : String) (body : List Stmt) (same : handler = some (.mk name body))
      (fine : Everywhere Faithful (Handler.mk name body).parts) := by
    rw [Handler.parts, everywhere_cons] at fine
    exact laid_handler name fine.1 (body_laid (ih' name body same)) fine.2
  have finally_ (body : List Stmt) (same : finalizer = some body) :=
    laid_keywordBody .finally " finally " rfl (body_laid (ih'' body same))
  have front (fine : Everywhere Faithful (partsOfStmts body)) :=
    laid_keyword .try "try " rfl (body_laid ih fine)
  rcases handler with _ | ⟨name, recovery⟩
  · rcases finalizer with _ | cleanup
    · simp only [Stmt.parts, everywhere_cons, everywhere_append] at faithful
      have laid := (front faithful.2.1.1).append .nil endsStmt_brace
      simpa [stmtFaces, stmtPieces] using laid.mark span
    · simp only [Stmt.parts, everywhere_cons, everywhere_append] at faithful
      have laid := (front faithful.2.1.1).append (finally_ cleanup rfl faithful.2.2) endsStmt_brace
      simpa [stmtFaces, stmtPieces] using laid.mark span
  · rcases finalizer with _ | cleanup
    · simp only [Stmt.parts, everywhere_cons, everywhere_append] at faithful
      have laid := (front faithful.2.1.1).append (catching name recovery rfl faithful.2.1.2)
        endsStmt_brace
      simpa [stmtFaces, stmtPieces] using laid.mark span
    · simp only [Stmt.parts, everywhere_cons, everywhere_append] at faithful
      have back := (catching name recovery rfl faithful.2.1.2).append
        (finally_ cleanup rfl faithful.2.2)
      have laid := (front faithful.2.1.1).append back endsStmt_brace
      simpa [stmtFaces, stmtPieces] using laid.mark span

/-- Function declarations. -/
theorem spelt_defun (span : Option Span) (fn : Function) (ih : FunctionSpelt fn) :
    StmtSpelt (.defun span fn) := by
  intro faithful
  rw [Stmt.parts, everywhere_cons] at faithful
  exact .mark span ((function_laid ih faithful.2).mono endsStmt_brace)

/-! ### Jumps -/

/-- A text that begins with a token spells the tokens also where the first is to follow without a
line break. -/
theorem spells_joined {s s' : Phase} {faces : List Face} {c : Char} {text : List Char}
    (spells : Spells s faces (c :: text) s') (solid : isBlank c = false) (near : s.broke = false) :
    Spells s (joinedFirst faces) (c :: text) s' := by
  generalize same : c :: text = whole at spells
  cases spells with
  | nil => exact .nil
  | blank blank broken rest =>
    obtain ⟨rfl, -⟩ := List.cons.inj same
    rw [blank] at solid
    exact absurd solid (by decide)
  | @word _ _ face _ _ _ spelt admitted held joined unplaced rest =>
    have again : Spells s ({ face with joined := true } :: _) _ s' :=
      .word spelt admitted held (fun _ => near) unplaced rest
    exact again

/-- A value behind a keyword, on the same line. -/
theorem spells_value (k : Keyword) {value : Expr} (spelt : ExprSpelt value)
    (faithful : Everywhere Faithful value.parts) {s : Phase} (opened : s.Open) :
    ∃ kind, Spells s (keyword k :: joinedFirst (exprFaces sequenceLevel value))
        (k.spelling.toList ++ ' ' :: (exprText sequenceLevel value).toList) (s.closed kind) ∧
      EndsItem kind := by
  obtain ⟨kind, spells, ends⟩ := spells_expr spelt faithful sequenceLevel
    (Phase.open_past (s.closed (.keyword k)) ' ')
  obtain ⟨c, tail, text, -, solid⟩ := (spelt faithful sequenceLevel).begins
  rw [text] at spells ⊢
  exact ⟨kind, spells_keyword k (opened _) (spells_gap (spells_joined spells solid rfl)), ends⟩

/-- A keyword ends before a semicolon. -/
theorem endsItem_keyword (k : Keyword) : EndsItem (.keyword k) := fun _ => stopsAt_keyword k

/-- Returns. -/
theorem spelt_returnStmt (span : Option Span) (value : Option Expr)
    (ih : ∀ e ∈ value, ExprSpelt e) : StmtSpelt (.return span value) := by
  intro faithful
  rw [Stmt.parts, everywhere_cons] at faithful
  cases value with
  | none =>
    refine laid_simple [keyword .return] "return".toList rfl ?_ span
    intro s opened
    exact ⟨_, spells_keyword .return (opened _) .nil, endsItem_keyword _⟩
  | some value =>
    have text : ("return" ++ spacedText? (some value) ++ ";").toList
        = (Keyword.return.spelling.toList ++ ' ' :: (exprText sequenceLevel value).toList)
          ++ [';'] := by
      simp [spacedText?, Keyword.spelling]
    have laid := laid_simple _ _ text (fun s => spells_value .return (ih value rfl) faithful.2) span
    simpa [stmtFaces, stmtPieces, optionalFaces] using laid

/-- Throws. -/
theorem spelt_throwStmt (span : Option Span) (value : Expr) (ih : ExprSpelt value) :
    StmtSpelt (.throw span value) := by
  intro faithful
  rw [Stmt.parts, everywhere_cons] at faithful
  have text : ("throw " ++ exprText sequenceLevel value ++ ";").toList
      = (Keyword.throw.spelling.toList ++ ' ' :: (exprText sequenceLevel value).toList)
        ++ [';'] := by
    simp [Keyword.spelling]
  have laid := laid_simple _ _ text (fun s => spells_value .throw ih faithful.2) span
  simpa [stmtFaces, stmtPieces] using laid

/-- Jumps out of a loop, or to its next round. -/
theorem laid_jump (k : Keyword) {label : Option String} (fine : ∀ name ∈ label, IsFineName name)
    (span : Option Span) :
    Laid (keyword k :: (labelFaces label ++ ending)) [.mark span, .text (jumpText k.spelling label)]
      EndsStmt := by
  cases label with
  | none =>
    refine laid_simple [keyword k] k.spelling.toList (by simp [jumpText]) ?_ span
    intro s opened
    have spells := spells_keyword k (opened _) .nil
    rw [List.append_nil] at spells
    exact ⟨_, spells, endsItem_keyword k⟩
  | some label =>
    have known := fine label rfl
    refine laid_simple (keyword k :: labelFaces (some label))
      (k.spelling.toList ++ ' ' :: label.toList) (by simp [jumpText]) ?_ span
    intro s opened
    have name : Spells ((s.closed (.keyword k)).past ' ') (labelFaces (some label))
        (label.toList ++ []) (s.closed (.name label)) := by
      refine spells_word known.1 known.2.symm (fun _ => rfl) rfl (Phase.open_past _ _ _) ?_
      rw [known.2]
      exact .nil
    rw [List.append_nil] at name
    exact ⟨_, spells_keyword k (opened _) (spells_gap name), fun c => stopsAt_name known⟩

/-- Breaks. -/
theorem spelt_breakStmt (span : Option Span) (label : Option String) :
    StmtSpelt (.break span label) := by
  intro faithful
  rw [Stmt.parts, everywhere_cons] at faithful
  exact laid_jump .break faithful.1 span

/-- Continues. -/
theorem spelt_continueStmt (span : Option Span) (label : Option String) :
    StmtSpelt (.continue span label) := by
  intro faithful
  rw [Stmt.parts, everywhere_cons] at faithful
  exact laid_jump .continue faithful.1 span

/-- Labelled statements. -/
theorem spelt_labelled (span : Option Span) (label : String) (body : Stmt) (ih : StmtSpelt body) :
    StmtSpelt (.labelled span label body) := by
  intro faithful
  rw [Stmt.parts, everywhere_cons] at faithful
  have known : IsFineName label := faithful.1
  refine .mark span (.before [named label, mark ':'] [label ++ ": "]
    (fun s opened => ⟨.punctuation ':', ?_⟩) (ih faithful.2))
  have front := spells_named known.1 known.2 (opened _) (spells_separator (c := ':') (by decide)
    (Phase.admits_closed (stopsAt_name known (by decide))) (spells_gap .nil))
  simpa using front

/-- Breakpoints. -/
theorem spelt_debuggerStmt (span : Option Span) : StmtSpelt (.debugger span) := by
  intro _
  refine laid_simple [keyword .debugger] "debugger".toList rfl ?_ span
  intro s opened
  exact ⟨_, spells_keyword .debugger (opened _) .nil, endsItem_keyword _⟩

/-! ## All trees -/

/-- Every construct is spelt by its text when its parts are. -/
theorem spelling_steps : Induction ExprSpelt PropertySpelt FunctionSpelt StmtSpelt where
  num := spelt_num
  string := spelt_string
  name := spelt_name
  atom := spelt_atom
  regexp := spelt_regexp
  array := spelt_array
  object := spelt_object
  dot := spelt_dot
  sub := spelt_sub
  call := spelt_call
  new := spelt_new
  prefixOp := spelt_prefixOp
  postfixOp := spelt_postfixOp
  binary := spelt_binary
  conditional := spelt_conditional
  assign := spelt_assign
  seq := spelt_seq
  function := spelt_function
  init := spelt_init
  getter key fn ih faithful s opened := by
    rw [Property.parts, everywhere_cons] at faithful
    exact ⟨_, spelt_accessor ih (.inl rfl) faithful.1 faithful.2 opened,
      endsItem_bracket (by decide)⟩
  setter key fn ih faithful s opened := by
    rw [Property.parts, everywhere_cons] at faithful
    exact ⟨_, spelt_accessor ih (.inr rfl) faithful.1 faithful.2 opened,
      endsItem_bracket (by decide)⟩
  functionBody name params body ih := body_laid ih
  block := spelt_block
  expression := spelt_expression
  varStmt := spelt_varStmt
  constStmt := spelt_constStmt
  ifElse := spelt_ifElse
  forStmt := spelt_forStmt
  forIn := spelt_forIn
  whileStmt := spelt_whileStmt
  doWhile := spelt_doWhile
  switch := spelt_switch
  tryCatch := spelt_tryCatch
  defun := spelt_defun
  returnStmt := spelt_returnStmt
  breakStmt := spelt_breakStmt
  continueStmt := spelt_continueStmt
  labelled := spelt_labelled
  throwStmt := spelt_throwStmt
  withStmt := spelt_withStmt
  debuggerStmt := spelt_debuggerStmt

/-- The text of every expression spells its tokens. -/
theorem exprSpelt (e : Expr) : ExprSpelt e := spelling_steps.expr e

/-- The text of every statement spells its tokens. -/
theorem stmtSpelt (s : Stmt) : StmtSpelt s := spelling_steps.stmt s

/-- The text of every script spells its tokens, whatever the indentation. -/
theorem spells_program (style : Style) (program : Program)
    (faithful : Everywhere Faithful program.parts) {s : Phase} (opened : s.Open)
    (indentation : IsIndentation style.unit s) :
    ∃ s', Spells s (stmtsFaces program.body) (ofProgram style program).code.toList s' := by
  obtain ⟨body⟩ := program
  cases body with
  | nil => exact ⟨s, .nil⟩
  | cons first rest =>
    rw [Program.parts, partsOfStmts, everywhere_append] at faithful
    obtain ⟨text, writes, spells⟩ := stmtSpelt first faithful.1 style.unit 0
    obtain ⟨more, writes', spells'⟩ := lines_laid (fun s _ => stmtSpelt s) faithful.2 style.unit 0
    obtain ⟨kind, front, -⟩ := spells s indentation opened
    obtain ⟨s', back, -⟩ := spells' (s.closed kind) indentation
    have code : (ofProgram style ⟨first :: rest⟩).code.toList = text ++ more := by
      rw [ofProgram, layOut, Layout.printed, addAll_code]
      exact (writes.append writes').alone
    exact ⟨s', code ▸ front.append back⟩

end Stencil.Print

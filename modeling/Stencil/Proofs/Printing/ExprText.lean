import Stencil.Proofs.Printing.Faithful
import Stencil.Proofs.Printing.Joining
import Stencil.Proofs.Syntax.Induction
/-!
# The text of expressions

The printed text of a faithful expression spells its tokens. What a place asks for decides before
which characters the last token of the text ends: a member access or call may follow an operand,
and behind every expression there may be a separator.
-/

set_option autoImplicit false

namespace Stencil.Print

open Stencil.Lexing
open Stencil.Number
open Stencil.Syntax
open Stencil.Text

/-! ## Spelt texts -/

/-- The text spells the tokens wherever it may stand, and ends in a token with a property. -/
structure Spelt (faces : List Face) (text : List Char) (good : TokenKind → Prop) : Prop where
  /-- The text begins with a character that is no blank and with which no operator goes on. -/
  begins : ∃ c tail, text = c :: tail ∧ c ≠ '=' ∧ isBlank c = false
  spells : ∀ s : Phase, s.Admits text → ∃ kind, Spells s faces text (s.closed kind) ∧ good kind

namespace Spelt

variable {faces more : List Face} {text rest : List Char} {good better : TokenKind → Prop}

/-- A weaker property of the last token. -/
theorem mono (spelt : Spelt faces text good) (weaker : ∀ kind, good kind → better kind) :
    Spelt faces text better where
  begins := spelt.begins
  spells s admits := by
    obtain ⟨kind, spells, fine⟩ := spelt.spells s admits
    exact ⟨kind, spells, weaker kind fine⟩

/-- A spelt text is not empty. -/
theorem ne_nil (spelt : Spelt faces text good) : text ≠ [] := by
  obtain ⟨c, tail, same, -⟩ := spelt.begins
  simp [same]

/-- A text that goes on behind a spelt text. -/
theorem followedBy (first : Spelt faces text good)
    (then_ : ∀ (s : Phase) (kind : TokenKind), good kind →
      ∃ last, Spells (s.closed kind) more rest (s.closed last) ∧ better last) :
    Spelt (faces ++ more) (text ++ rest) better where
  begins := by
    obtain ⟨c, tail, same, other⟩ := first.begins
    exact ⟨c, tail ++ rest, by rw [same]; rfl, other⟩
  spells s admits := by
    obtain ⟨kind, spells, fine⟩ := first.spells s (admits.of_append first.ne_nil)
    obtain ⟨last, after, fine⟩ := then_ s kind fine
    exact ⟨last, spells.append after, fine⟩

/-- A text in parentheses. -/
theorem enclosed (inner : Spelt faces text good) (ends : ∀ kind, good kind → EndsItem kind) :
    Spelt (enclosed faces) ('(' :: (text ++ [')'])) (· = .punctuation ')') where
  begins := ⟨'(', _, rfl, by decide⟩
  spells s admits := by
    obtain ⟨kind, spells, fine⟩ :=
      inner.spells (s.behind (.punctuation '(')) (admits_behind_mark (by decide) _)
    refine ⟨_, spells_between (by decide) admits.head spells ⟨rfl, rfl⟩ rfl ?_, rfl⟩
    exact Phase.admits_closed (ends kind fine ')' (by decide))

/-- A text in parentheses where it binds more weakly than its place asks for. -/
theorem guarded (good : TokenKind → Prop) {least actual : Nat} {text : String}
    (bare : Spelt faces text.toList good)
    (ends : ∀ kind, good kind → EndsItem kind)
    (fine : ∀ kind, actual ≥ least → good kind → better kind) (paren : better (.punctuation ')')) :
    Spelt (guardedFaces least actual faces) (guarded least actual text).toList better := by
  unfold guardedFaces Print.guarded
  split
  · have text_ : (inParentheses text).toList = '(' :: (text.toList ++ [')']) := by
      simp [inParentheses]
    rw [text_]
    refine (bare.enclosed ends).mono ?_
    rintro _ rfl
    exact paren
  · rename_i strong
    exact bare.mono fun kind => fine kind (Nat.le_of_not_lt strong)

/-- A single word. -/
theorem ofWord (kind : TokenKind) {word : List Char} (spelt : ∀ regexp, Word regexp kind word)
    (begins : word.head? ≠ some '=')
    (plain : kind ≠ .punctuation '\x7b' ∧ kind ≠ .punctuation '\x7d') :
    Spelt [{ kind }] word (· = kind) where
  begins := by
    obtain ⟨c, tail, rfl, blank, -⟩ := (spelt true).begins
    exact ⟨c, tail, rfl, by simpa using begins, blank⟩
  spells s admits := by
    refine ⟨kind, ?_, rfl⟩
    have last : s.behind kind = s.closed kind := Phase.behind_eq_closed s plain
    have step : Spells s [{ kind }] (word ++ []) (s.behind kind) :=
      .word (spelt s.regexp) admits (holds_of_ne s plain.2) (by simp) rfl .nil
    rwa [List.append_nil, last] at step

/-- A list in brackets. -/
theorem list {α : Type} {opening closing : Char} (pair : (opening, closing) ∈ brackets)
    (faces : α → List Face) (text : α → String) (items : List α)
    (each : ∀ a ∈ items, ∀ s : Phase, s.Open →
      ∃ kind, Spells s (faces a) (text a).toList (s.closed kind) ∧ EndsItem kind) :
    Spelt (mark opening :: (commaFaces (items.map faces) ++ [mark closing]))
      (opening :: ((commaSeparated (items.map text)).toList ++ [closing]))
      (· = .punctuation closing) where
  begins := ⟨opening, _, rfl, (by decide : ∀ pair ∈ brackets, pair.1 ≠ '=' ∧ isBlank pair.1 = false) _ pair⟩
  spells s admits := by
    refine ⟨_, spells_list pair faces text items each ?_, rfl⟩
    exact admits.head

end Spelt

/-! ## Ends of expressions -/

/-- The characters with which a member access, a call or an update may begin. -/
def memberStarts : List Char := "[(+-".toList

/-- What may stand behind the last token of an expression, at a place that asks for the given
strength. -/
structure Closes (least : Nat) (e : Expr) (kind : TokenKind) : Prop where
  item : EndsItem kind
  member : memberLevel ≤ least → ∀ c ∈ memberStarts, stopsAt kind c = true
  point : memberLevel ≤ least → isNumber e = false → stopsAt kind '.' = true
  cold : endsHot least e = false → kind.precedesExpression = false

/-- A token ends an expression if it ends before everything and a slash behind it divides. -/
theorem Closes.of_all {kind : TokenKind}
    (stops : ∀ c ∈ separators ++ memberStarts ++ ['.'], stopsAt kind c = true)
    (cold : kind.precedesExpression = false) (least : Nat) (e : Expr) : Closes least e kind where
  item c listed := stops c (by simp [listed])
  member _ c listed := stops c (by simp [listed])
  point _ _ := stops '.' (by simp)
  cold _ := cold

/-- A closing bracket ends every expression. -/
theorem closes_bracket {c : Char} (known : c ∈ ")]\x7d".toList) (least : Nat) (e : Expr) :
    Closes least e (.punctuation c) := by
  have table : ∀ c ∈ ")]\x7d".toList,
      (∀ d ∈ separators ++ memberStarts ++ ['.'], stopsAt (.punctuation c) d = true) ∧
        (TokenKind.punctuation c).precedesExpression = false := by
    decide
  exact .of_all (table c known).1 (table c known).2 least e

/-- A name ends before whatever may follow an expression. -/
theorem endsName_table : ∀ c ∈ separators ++ memberStarts ++ ['.'], endsName c = true := by
  have table : ∀ c ∈ separators ++ memberStarts ++ ['.'], c.toNat < 0xaa ∧ c ≠ '\\' ∧ c ≠ '$' ∧
      CodeRange.has [(0x41, 0x5a), (0x61, 0x7a), (0x30, 0x39), (0x5f, 0x5f)] c = false := by
    decide
  intro c listed
  obtain ⟨below, backslash, dollar, outside⟩ := table c listed
  simp [endsName, isNamePart_plain below, backslash, dollar, outside]

/-- A word ends before whatever may follow an expression. -/
theorem stopsAt_word (name : String) :
    ∀ c ∈ separators ++ memberStarts ++ ['.'], stopsAt (wordKind name) c = true := by
  intro c listed
  rw [stopsAt_wordKind]
  exact endsName_table c listed

/-- A number ends before whatever may follow it but a point. -/
theorem stopsAt_number (value : Float) :
    ∀ c ∈ separators ++ memberStarts, stopsAt (.num value) c = true := by
  have table : ∀ c ∈ separators ++ memberStarts, c.toNat < 0xaa ∧ c ≠ '.' ∧ isDigit c = false ∧
      CodeRange.has [(0x41, 0x5a), (0x61, 0x7a)] c = false := by
    decide
  intro c listed
  obtain ⟨below, point, digit, letter⟩ := table c listed
  simp [stopsAt, isAlphanumeric, isLetter_plain below, point, digit, letter]

/-- The text of an expression spells its tokens. -/
def ExprSpelt (e : Expr) : Prop :=
  Everywhere Faithful e.parts →
    ∀ least, Spelt (exprFaces least e) (exprText least e).toList (Closes least e)

/-! ## Literals and names -/

/-- A spelling that begins with a character of names does not begin with an equals sign. -/
theorem head_ne_equals {cs : List Char} (spelt : IsNameText cs) : cs.head? ≠ some '=' := by
  obtain ⟨-, c, tail, rfl, start⟩ := spelt.begins
  intro same
  obtain rfl := Option.some.inj same
  rcases start with start | start
  · exact nameStart_other start (by decide)
  · exact absurd start (by decide)

/-- A word by itself is spelt. -/
theorem spelt_word {name : String} {kind : TokenKind} (spelt : IsNameText name.toList)
    (same : wordKind name = kind) : Spelt [{ kind }] name.toList (· = kind) := by
  subst same
  exact .ofWord _ (fun _ => .name spelt) (head_ne_equals spelt)
    ⟨wordKind_ne_punctuation _ _, wordKind_ne_punctuation _ _⟩

/-- A place that asks for no more than literals and names. -/
theorem spelt_primary {faces : List Face} {text : String} (kind : TokenKind) {least : Nat}
    {e : Expr} (bare : Spelt faces text.toList (· = kind)) (closes : Closes least e kind) :
    Spelt (guardedFaces least primaryLevel faces) (guarded least primaryLevel text).toList
      (Closes least e) := by
  refine bare.guarded _ ?_ ?_ (closes_bracket (by decide) least e)
  · rintro _ rfl
    exact closes.item
  · rintro _ - rfl
    exact closes

/-- Numbers. -/
theorem spelt_num (span : Option Span) (value : Float) : ExprSpelt (.num span value) := by
  intro faithful least
  have known : Literal.value? (numberText value).toList = some value := by
    simpa [Expr.parts, Faithful, FaithfulExpr] using faithful
  have begins : (numberText value).toList.head? ≠ some '=' := by
    have start := (statesThrough_value? known).1
    unfold BeginsNumber at start
    split at start
    · rename_i chars
      simp [chars]
    · rename_i c tail _ chars
      rw [chars]
      intro same
      obtain rfl := Option.some.inj same
      exact absurd start (by decide)
    · exact absurd start id
  refine spelt_primary _ (.ofWord (.num value) (fun _ => .number known) begins (by simp)) ?_
  have stops := stopsAt_number value
  exact
    { item := fun c listed => stops c (by simp [listed])
      member := fun _ c listed => stops c (by simp [listed])
      point := fun _ other => absurd other (by simp [isNumber])
      cold := fun _ => rfl }

/-- String literals. -/
theorem spelt_string (span : Option Span) (text : String) : ExprSpelt (.string span text) := by
  intro _ least
  refine spelt_primary _ (.ofWord (.string text) (fun _ => .string text) ?_ (by simp)) ?_
  · rw [Quoted.literal, String.toList_ofList]
    simp
  · exact .of_all (fun _ _ => rfl) rfl least _

/-- Names. -/
theorem spelt_name (span : Option Span) (name : String) : ExprSpelt (.name span name) := by
  intro faithful least
  obtain ⟨spelt, kind⟩ : IsFineName name := by
    simpa [Expr.parts, Faithful, FaithfulExpr] using faithful
  refine spelt_primary _ (spelt_word spelt kind) ?_
  exact .of_all (kind ▸ stopsAt_word name) rfl least _

/-- The constants are plain words. -/
theorem atom_plain (atom : Atom) :
    isName atom.spelling.toList = true ∧ wordKind atom.spelling = .atom atom := by
  have table : ∀ atom ∈ Atom.all, isName atom.spelling.toList = true ∧
      wordOperators.contains atom.spelling = false ∧ Keyword.ofSpelling? atom.spelling = none := by
    decide
  obtain ⟨plain, operator, keyword⟩ := table atom (by cases atom <;> decide)
  refine ⟨plain, ?_⟩
  rw [wordKind, if_neg (by rw [operator]; decide), keyword]
  simp only [Atom.ofSpelling?_spelling]

/-- Constants. -/
theorem spelt_atom (span : Option Span) (atom : Atom) : ExprSpelt (.atom span atom) := by
  intro _ least
  obtain ⟨plain, kind⟩ := atom_plain atom
  refine spelt_primary _ (spelt_word (.inl plain) kind) ?_
  exact .of_all (kind ▸ stopsAt_word atom.spelling) rfl least _

/-- Regular expressions, always in parentheses. -/
theorem spelt_regexp (span : Option Span) (pattern flags : String) :
    ExprSpelt (.regexp span pattern flags) := by
  intro faithful least
  have fine : IsFineRegexp pattern flags := by
    simpa [Expr.parts, Faithful, FaithfulExpr] using faithful
  have text : (inParentheses ("/" ++ pattern ++ "/" ++ flags)).toList
      = '(' :: ('/' :: (pattern.toList ++ '/' :: flags.toList) ++ [')']) := by
    simp [inParentheses]
  show Spelt (guardedFaces least primaryLevel (enclosed [{ kind := .regexp pattern flags }]))
    (guarded least primaryLevel _).toList _
  refine spelt_primary (.punctuation ')') ?_ (closes_bracket (by decide) least _)
  rw [text]
  refine ⟨⟨'(', _, rfl, by decide⟩, fun s admits => ?_⟩
  -- Behind the parenthesis a slash begins a regular expression.
  have literal : Spells (s.behind (.punctuation '('))
      ([{ kind := .regexp pattern flags }] ++ []) (('/' :: (pattern.toList ++ '/' :: flags.toList)) ++ [])
      ((s.behind (.punctuation '(')).closed (.regexp pattern flags)) := by
    refine .word ?_ (admits_behind_mark (by decide) _) trivial (by simp) rfl .nil
    exact .regexp fine.proper fine.nonempty fine.star fine.spelling fine.unbroken
  rw [List.append_nil, List.append_nil] at literal
  refine ⟨_, spells_between (by decide) admits.head literal ⟨rfl, rfl⟩ rfl ?_, rfl⟩
  refine Phase.admits_closed ?_
  exact endsName_table ')' (by decide)

/-! ## Brackets -/

/-- The texts of a list are those of each item. -/
theorem exprTexts_eq (items : List Expr) :
    exprTexts items = items.map (exprText assignmentLevel) := by
  induction items with
  | nil => rfl
  | cons e items ih => rw [exprTexts, ih, List.map_cons]

/-- An expression of a list. -/
theorem spelt_item {items : List Expr} (ih : ∀ e ∈ items, ExprSpelt e)
    (faithful : Everywhere Faithful (partsOfExprs items)) :
    ∀ e ∈ items, ∀ s : Phase, s.Open →
      ∃ kind, Spells s (exprFaces assignmentLevel e) (exprText assignmentLevel e).toList
        (s.closed kind) ∧ EndsItem kind := by
  intro e listed s opened
  have fine := everywhere_exprs.1 faithful e listed
  obtain ⟨kind, spells, closes⟩ := (ih e listed fine assignmentLevel).spells s (opened _)
  exact ⟨kind, spells, closes.item⟩

/-- A closing bracket ends every item. -/
theorem endsItem_bracket {c : Char} (known : c ∈ ")]\x7d".toList) : EndsItem (.punctuation c) :=
  (closes_bracket known 0 (.num none 0)).item

/-- A place that asks for no more than a text in brackets. -/
theorem spelt_bracketed {faces : List Face} {text : String} {least level : Nat} {c : Char}
    {e : Expr} (known : c ∈ ")]\x7d".toList)
    (bare : Spelt faces text.toList (· = .punctuation c)) :
    Spelt (guardedFaces least level faces) (guarded least level text).toList (Closes least e) := by
  refine bare.guarded _ ?_ ?_ (closes_bracket (by decide) least e)
  · rintro _ rfl
    exact endsItem_bracket known
  · rintro _ - rfl
    exact closes_bracket known least e

/-- Array literals. -/
theorem spelt_array (span : Option Span) (items : List Expr) (ih : ∀ e ∈ items, ExprSpelt e) :
    ExprSpelt (.array span items) := by
  intro faithful least
  rw [Expr.parts, everywhere_cons] at faithful
  refine spelt_bracketed (c := ']') (by decide) ?_
  have text : ("[" ++ commaSeparated (exprTexts items) ++ "]").toList
      = '[' :: ((commaSeparated (items.map (exprText assignmentLevel))).toList ++ [']']) := by
    simp [exprTexts_eq]
  rw [text, exprsFaces_eq]
  exact .list (by decide) _ _ items (spelt_item ih faithful.2)

/-- The condition on the properties of an object literal. -/
def PropertySpelt (p : Property) : Prop :=
  Everywhere Faithful p.parts →
    ∀ s : Phase, s.Open →
      ∃ kind, Spells s (propertyFaces p) (propertyText p).toList (s.closed kind) ∧ EndsItem kind

/-- Object literals. -/
theorem spelt_object (span : Option Span) (properties : List Property)
    (ih : ∀ p ∈ properties, PropertySpelt p) : ExprSpelt (.object span properties) := by
  intro faithful least
  rw [Expr.parts, everywhere_cons, everywhere_properties] at faithful
  refine spelt_bracketed (c := '\x7d') (by decide) ?_
  have texts : ∀ properties, propertyTexts properties = properties.map propertyText := by
    intro properties
    induction properties with
    | nil => rfl
    | cons p properties ih => rw [propertyTexts, ih, List.map_cons]
  have text : ("\x7b" ++ commaSeparated (propertyTexts properties) ++ "\x7d").toList
      = '\x7b' :: ((commaSeparated (properties.map propertyText)).toList ++ ['\x7d']) := by
    simp [texts]
  rw [text, propertiesFaces_eq]
  exact .list (by decide) _ _ properties fun p listed s opened =>
    ih p listed (faithful.2 p listed) s opened

/-- The arguments of a call. -/
theorem spells_arguments {args : List Expr} (ih : ∀ e ∈ args, ExprSpelt e)
    (faithful : Everywhere Faithful (partsOfExprs args)) {s : Phase} (admits : s.Admits ['(']) :
    Spells s (enclosed (commaFaces (exprsFaces args)))
      (inParentheses (commaSeparated (exprTexts args))).toList (s.closed (.punctuation ')')) := by
  have text : (inParentheses (commaSeparated (exprTexts args))).toList
      = '(' :: ((commaSeparated (args.map (exprText assignmentLevel))).toList ++ [')']) := by
    simp [inParentheses, exprTexts_eq]
  rw [text, exprsFaces_eq]
  exact spells_list (by decide) _ _ args (spelt_item ih faithful) admits

/-! ## Member accesses and calls -/

/-- An expression that stands in parentheses in some cases. -/
theorem spelt_either {e : Expr} (ih : ExprSpelt e) (faithful : Everywhere Faithful e.parts)
    (paren : Bool) (least : Nat) (good : TokenKind → Prop) (fine : good (.punctuation ')'))
    (bare : paren = false → ∀ kind, Closes least e kind → good kind) :
    Spelt (if paren then enclosed (exprFaces sequenceLevel e) else exprFaces least e)
      (if paren then inParentheses (exprText sequenceLevel e) else exprText least e).toList
      good := by
  cases paren with
  | true =>
    have text : (inParentheses (exprText sequenceLevel e)).toList
        = '(' :: ((exprText sequenceLevel e).toList ++ [')']) := by
      simp [inParentheses]
    simp only [if_true, text]
    refine ((ih faithful sequenceLevel).enclosed fun _ closes => closes.item).mono ?_
    rintro _ rfl
    exact fine
  | false =>
    simp only [Bool.false_eq_true, if_false]
    exact (ih faithful least).mono (bare rfl)

/-- What begins the spelling of a name is no digit. -/
theorem stopsAt_point {c : Char} (start : isNameStart c = true ∨ c = '\\') :
    stopsAt (.punctuation '.') c = true := by
  have digit : isDigit c = false := by
    rw [← Bool.not_eq_true]
    intro digit
    have listed : ∀ d ∈ "0123456789".toList, d ∈ otherStarts ∧ d ≠ '\\' := by decide
    obtain ⟨other, backslash⟩ := listed c (mem_digits digit)
    rcases start with start | start
    · exact nameStart_other start other
    · exact backslash start
  simp [stopsAt, digit]

/-- Members by name. -/
theorem spelt_dot (span : Option Span) (target : Expr) (property : String)
    (ih : ExprSpelt target) : ExprSpelt (.dot span target property) := by
  intro faithful least
  rw [Expr.parts, everywhere_cons] at faithful
  have spelt : IsNameText property.toList := faithful.1
  have text : ((if isNumber target then inParentheses (exprText sequenceLevel target)
        else exprText memberLevel target) ++ "." ++ property).toList
      = (if isNumber target then inParentheses (exprText sequenceLevel target)
        else exprText memberLevel target).toList ++ '.' :: property.toList := by
    simp
  refine Spelt.guarded (· = wordKind property) ?_ ?_ ?_ (closes_bracket (by decide) least _)
  · rw [text]
    have operand := spelt_either ih faithful.2 (isNumber target) memberLevel
      (stopsAt · '.' = true) (by decide)
      fun other _ closes => closes.point (Nat.le_refl _) other
    refine operand.followedBy fun s kind point => ?_
    refine ⟨_, ?_, rfl⟩
    -- The name touches the point, which a digit would continue.
    have name : Spells ((s.closed kind).closed (.punctuation '.')) [word property]
        (property.toList ++ []) (s.closed (wordKind property)) := by
      refine spells_word spelt rfl (by simp [word]) rfl ?_ .nil
      obtain ⟨-, c, tail, chars, start⟩ := spelt.begins
      rw [chars]
      exact Phase.admits_closed (stopsAt_point start)
    rw [List.append_nil] at name
    show Spells (s.closed kind) [mark '.', word property] (['.'] ++ property.toList) _
    exact .word .point (Phase.admits_closed point) trivial (by simp [mark]) rfl name
  · rintro _ rfl c listed
    exact stopsAt_word property c (by simp [listed])
  · rintro _ strong rfl
    refine
      { item := fun c listed => stopsAt_word property c (by simp [listed])
        member := fun _ c listed => stopsAt_word property c (by simp [listed])
        point := fun _ _ => stopsAt_word property '.' (by simp)
        cold := fun cold => ?_ }
    simpa [endsHot, isHot, Nat.not_lt.2 strong] using cold

/-- Members by index. -/
theorem spelt_sub (span : Option Span) (target index : Expr) (ih : ExprSpelt target)
    (ih' : ExprSpelt index) : ExprSpelt (.sub span target index) := by
  intro faithful least
  rw [Expr.parts, everywhere_cons, everywhere_append] at faithful
  refine spelt_bracketed (c := ']') (by decide) ?_
  have text : (exprText memberLevel target ++ "[" ++ exprText sequenceLevel index ++ "]").toList
      = (exprText memberLevel target).toList ++
        '[' :: ((exprText sequenceLevel index).toList ++ [']']) := by
    simp
  rw [text]
  refine (ih faithful.2.1 memberLevel).followedBy fun s kind closes => ?_
  obtain ⟨inner, inside, ends⟩ := (ih' faithful.2.2 sequenceLevel).spells
    ((s.closed kind).behind (.punctuation '[')) (admits_behind_mark (by decide) _)
  refine ⟨_, spells_between (by decide) ?_ inside ⟨rfl, rfl⟩ rfl ?_, rfl⟩
  · exact Phase.admits_closed (closes.member (Nat.le_refl _) '[' (by decide))
  · exact Phase.admits_closed (ends.item ']' (by decide))

/-- Calls. -/
theorem spelt_call (span : Option Span) (callee : Expr) (args : List Expr)
    (ih : ExprSpelt callee) (ih' : ∀ e ∈ args, ExprSpelt e) :
    ExprSpelt (.call span callee args) := by
  intro faithful least
  rw [Expr.parts, everywhere_cons, everywhere_append] at faithful
  refine spelt_bracketed (c := ')') (by decide) ?_
  rw [String.toList_append]
  refine (ih faithful.2.1 memberLevel).followedBy fun s kind closes => ?_
  refine ⟨_, spells_arguments ih' faithful.2.2 ?_, rfl⟩
  exact Phase.admits_closed (closes.member (Nat.le_refl _) '(' (by decide))

/-! ## Operators -/

/-- The word operators are plain words. -/
theorem wordOperators_plain :
    ∀ symbol ∈ wordOperators, isName symbol.toList = true := by
  decide

/-- An operator before a text, of symbols or a word. -/
theorem spells_operator {s s' : Phase} {faces : List Face} {text : List Char} {symbol : String}
    (known : isOperator symbol = true)
    (divides : symbol.toList.head? = some '/' → s.regexp = false)
    (admits : s.Admits symbol.toList) (rest : Spells (s.closed (.operator symbol)) faces text s') :
    Spells s (operator symbol :: faces) (symbol.toList ++ text) s' := by
  rw [isOperator, Bool.or_eq_true, List.contains_iff_mem, List.contains_iff_mem] at known
  rcases known with listed | listed
  · have kind : wordKind symbol = .operator symbol := by
      rw [wordKind, if_pos (List.contains_iff_mem.2 listed)]
    exact spells_word (.inl (wordOperators_plain symbol listed)) kind.symm (by simp [operator]) rfl
      admits (kind.symm ▸ rest)
  · exact spells_symbol rfl listed divides (by simp [operator]) rfl admits rest

/-- A construction. -/
theorem spelt_new (span : Option Span) (callee : Expr) (args : List Expr)
    (ih : ExprSpelt callee) (ih' : ∀ e ∈ args, ExprSpelt e) :
    ExprSpelt (.new span callee args) := by
  intro faithful least
  rw [Expr.parts, everywhere_cons, everywhere_append] at faithful
  refine spelt_bracketed (c := ')') (by decide) ?_
  let operand :=
    if hasCall callee then inParentheses (exprText sequenceLevel callee)
    else exprText memberLevel callee
  have text : ("new " ++ operand ++ inParentheses (commaSeparated (exprTexts args))).toList
      = "new".toList ++ ' ' :: (operand.toList ++
        (inParentheses (commaSeparated (exprTexts args))).toList) := by
    simp
  have target := spelt_either ih faithful.2.1 (hasCall callee) memberLevel
    (stopsAt · '(' = true) (by decide)
    fun _ _ closes => closes.member (Nat.le_refl _) '(' (by decide)
  show Spelt _ ("new " ++ operand ++ inParentheses (commaSeparated (exprTexts args))).toList _
  rw [text]
  refine ⟨⟨'n', _, rfl, by decide⟩, fun s admits => ⟨_, ?_, rfl⟩⟩
  obtain ⟨kind, spells, opens⟩ :=
    target.spells ((s.closed (.operator "new")).past ' ') (Phase.open_past _ _ _)
  refine spells_operator (by decide) (fun same => absurd same (by decide))
    (admits.of_append (by decide)) (spells_gap ?_)
  exact spells.append (spells_arguments ih' faithful.2.2 (Phase.admits_closed opens))

/-- The operators that may stand before an operand are operators, and none begins with a slash or
an equals sign. -/
theorem unary_operator (op : UnaryOp) :
    isOperator op.spelling = true ∧ op.spelling.toList.head? ≠ some '/' ∧
      ∃ c tail, op.spelling.toList = c :: tail ∧ c ≠ '=' ∧ isBlank c = false := by
  cases op <;> exact ⟨by decide, by decide, _, _, rfl, by decide⟩

/-- Which characters continue an operator before an operand. -/
theorem unary_continued : ∀ symbol ∈ wordOperators ++ symbolOperators,
    ∀ op ∈ [UnaryOp.not, .bitNot, .neg, .plus, .decrement, .increment],
      symbol.toList.dropLast = op.spelling.toList → ∀ c, symbol.toList.getLast? = some c →
        c = '=' ∨ (op = .neg ∨ op = .decrement) ∧ c = '-' ∨
          (op = .plus ∨ op = .increment) ∧ c = '+' := by
  decide

/-- An operator before an operand ends before the operand, signs that would grow together apart. -/
theorem stopsAt_unary {op : UnaryOp}
    (symbolic : op ∈ [UnaryOp.not, .bitNot, .neg, .plus, .decrement, .increment]) {c : Char}
    (equals : c ≠ '=') (minus : op = .neg ∨ op = .decrement → c ≠ '-')
    (plus : op = .plus ∨ op = .increment → c ≠ '+') :
    stopsAt (.operator op.spelling) c = true := by
  have none_ : isOperator (String.ofList (op.spelling.toList ++ [c])) = false := by
    rw [← Bool.not_eq_true]
    intro operator
    rw [isOperator, Bool.or_eq_true, List.contains_iff_mem, List.contains_iff_mem] at operator
    have continued := unary_continued _ (List.mem_append.2 operator) op symbolic (by simp) c (by simp)
    rcases continued with same | ⟨known, same⟩ | ⟨known, same⟩
    · exact equals same
    · exact minus known same
    · exact plus known same
  have apart : ∀ op ∈ [UnaryOp.not, .bitNot, .neg, .plus, .decrement, .increment],
      wordOperators.contains op.spelling = false ∧ op.spelling ≠ "/" := by
    decide
  obtain ⟨noWord, noSlash⟩ := apart op symbolic
  rw [stopsAt, if_neg (by rw [noWord]; decide), none_]
  simp [noSlash]

/-- Between an operator and its operand there is a blank, or nothing where the operator ends before
the operand anyway. -/
theorem prefixedText_gap (op : UnaryOp) {operand : String} {c : Char} {tail : List Char}
    (begins : operand.toList = c :: tail) (equals : c ≠ '=') :
    (prefixedText op operand).toList = op.spelling.toList ++ ' ' :: operand.toList ∨
      (prefixedText op operand).toList = op.spelling.toList ++ operand.toList ∧
        stopsAt (.operator op.spelling) c = true := by
  have minus (apart : operand.toList.head? ≠ some '-') : c ≠ '-' := by
    rintro rfl
    exact apart (by rw [begins]; rfl)
  have plus (apart : operand.toList.head? ≠ some '+') : c ≠ '+' := by
    rintro rfl
    exact apart (by rw [begins]; rfl)
  cases op with
  | typeof | void | delete => exact .inl (by simp [prefixedText])
  | not | bitNot =>
    exact .inr ⟨by simp [prefixedText], stopsAt_unary (by decide) equals (by simp) (by simp)⟩
  | neg | decrement =>
    by_cases sign : operand.toList.head? = some '-'
    · exact .inl (by simp [prefixedText, sign])
    · exact .inr ⟨by simp [prefixedText, sign],
        stopsAt_unary (by decide) equals (fun _ => minus sign) (by simp)⟩
  | plus | increment =>
    by_cases sign : operand.toList.head? = some '+'
    · exact .inl (by simp [prefixedText, sign])
    · exact .inr ⟨by simp [prefixedText, sign],
        stopsAt_unary (by decide) equals (by simp) (fun _ => plus sign)⟩

/-- The last token of an operand ends the expression around it, where that stands bare. -/
theorem Closes.around {least level inner : Nat} {e operand : Expr} {kind : TokenKind}
    (closes : Closes inner operand kind) (strong : level ≥ least) (weak : level < memberLevel)
    (cold : endsHot least e = false → endsHot inner operand = false) : Closes least e kind where
  item := closes.item
  member above := absurd above (by omega)
  point above := absurd above (by omega)
  cold known := closes.cold (cold known)

/-- Operators before an operand. -/
theorem spelt_prefixOp (span : Option Span) (op : UnaryOp) (operand : Expr)
    (ih : ExprSpelt operand) : ExprSpelt (.prefixOp span op operand) := by
  intro faithful least
  rw [Expr.parts, everywhere_cons] at faithful
  have inner := ih faithful.2 prefixLevel
  obtain ⟨c, tail, begins, equals, -⟩ := inner.begins
  obtain ⟨operator_, slash, d, more, chars, other⟩ := unary_operator op
  refine Spelt.guarded (Closes prefixLevel operand) ⟨?_, fun s admits => ?_⟩
    (fun _ closes => closes.item) ?_ (closes_bracket (by decide) least _)
  · rcases prefixedText_gap op begins equals with text | ⟨text, -⟩
    · exact ⟨d, _, by rw [text, chars]; rfl, other⟩
    · exact ⟨d, _, by rw [text, chars]; rfl, other⟩
  · have nonempty : op.spelling.toList ≠ [] := by simp [chars]
    rcases prefixedText_gap op begins equals with text | ⟨text, stops⟩
    · rw [text] at admits ⊢
      obtain ⟨kind, spells, closes⟩ :=
        inner.spells ((s.closed (.operator op.spelling)).past ' ') (Phase.open_past _ _ _)
      exact ⟨kind, spells_operator operator_ (fun same => absurd same slash)
        (admits.of_append nonempty) (spells_gap spells), closes⟩
    · rw [text] at admits ⊢
      obtain ⟨kind, spells, closes⟩ := inner.spells (s.closed (.operator op.spelling))
        (by rw [begins]; exact Phase.admits_closed stops)
      exact ⟨kind, spells_operator operator_ (fun same => absurd same slash)
        (admits.of_append nonempty) spells, closes⟩
  · intro kind strong closes
    refine closes.around strong (by decide) fun cold => ?_
    simpa [endsHot, Nat.not_lt.2 strong] using cold

/-- Operators behind an operand. -/
theorem spelt_postfixOp (span : Option Span) (op : UnaryOp) (operand : Expr)
    (ih : ExprSpelt operand) : ExprSpelt (.postfixOp span op operand) := by
  intro faithful least
  rw [Expr.parts, everywhere_cons] at faithful
  have update : op.isUpdate = true := faithful.1
  have table : ∀ op ∈ UnaryOp.all, op.isUpdate = true →
      op.spelling ∈ symbolOperators ∧ op.spelling.toList.head? ≠ some '/' ∧
        (∃ c ∈ memberStarts, op.spelling.toList = [c, c]) ∧
        (∀ c ∈ separators, stopsAt (.operator op.spelling) c = true) ∧
        (TokenKind.operator op.spelling).precedesExpression = false := by
    decide
  obtain ⟨known, slash, ⟨c, sign, chars⟩, item, cold⟩ := table op (by cases op <;> decide) update
  have ends : EndsItem (.operator op.spelling) := item
  refine Spelt.guarded (· = .operator op.spelling) ?_ ?_ ?_
    (closes_bracket (by decide) least _)
  · rw [String.toList_append]
    refine (ih faithful.2 memberLevel).followedBy fun s kind closes => ⟨_, ?_, rfl⟩
    have admits : (s.closed kind).Admits op.spelling.toList := by
      rw [chars]
      exact Phase.admits_closed (closes.member (Nat.le_refl _) c sign)
    have step : Spells (s.closed kind) [{ kind := .operator op.spelling, joined := true }]
        (op.spelling.toList ++ []) ((s.closed kind).closed (.operator op.spelling)) :=
      spells_symbol rfl known (fun same => absurd same slash) (fun _ => rfl) rfl admits .nil
    rwa [List.append_nil] at step
  · rintro _ rfl
    exact ends
  · rintro _ strong rfl
    have weak : postfixLevel < memberLevel := by decide
    exact
      { item := ends
        member := fun above => absurd above (by omega)
        point := fun above => absurd above (by omega)
        cold := fun _ => cold }

/-- An operator between blanks, and an operand behind it. -/
theorem spells_infix {s : Phase} (symbol : String) {least : Nat} {operand : Expr}
    (spelt : Spelt (exprFaces least operand) (exprText least operand).toList
      (Closes least operand))
    (known : isOperator symbol = true)
    (divides : symbol.toList.head? = some '/' → s.regexp = false) :
    ∃ kind, Spells s (operator symbol :: exprFaces least operand)
        (' ' :: (symbol.toList ++ ' ' :: (exprText least operand).toList)) (s.closed kind) ∧
      Closes least operand kind := by
  obtain ⟨kind, spells, closes⟩ :=
    spelt.spells (((s.past ' ').closed (.operator symbol)).past ' ') (Phase.open_past _ _ _)
  exact ⟨kind, spells_gap (spells_operator known divides (Phase.open_past _ _ _)
    (spells_gap spells)), closes⟩

/-- The binary operators, and the slash among them. -/
theorem binary_operator (op : BinaryOp) :
    isOperator op.spelling = true ∧ (op.spelling.toList.head? = some '/' → op = .div) ∧
      binaryLevel + op.precedence < memberLevel := by
  cases op <;> decide

/-- Binary operators. -/
theorem spelt_binary (span : Option Span) (op : BinaryOp) (left right : Expr)
    (ih : ExprSpelt left) (ih' : ExprSpelt right) : ExprSpelt (.binary span op left right) := by
  intro faithful least
  rw [Expr.parts, everywhere_cons, everywhere_append] at faithful
  have dividend : op = .div → endsHot (binaryLevel + op.precedence) left = false := faithful.1
  obtain ⟨known, slash, weak⟩ := binary_operator op
  let level := binaryLevel + op.precedence
  have text : (exprText level left ++ " " ++ op.spelling ++ " " ++ exprText (level + 1) right).toList
      = (exprText level left).toList ++
        ' ' :: (op.spelling.toList ++ ' ' :: (exprText (level + 1) right).toList) := by
    simp
  refine Spelt.guarded (Closes (level + 1) right) ?_ (fun _ closes => closes.item) ?_
    (closes_bracket (by decide) least _)
  · show Spelt _ (exprText level left ++ " " ++ op.spelling ++ " "
      ++ exprText (level + 1) right).toList _
    rw [text]
    refine (ih faithful.2.1 level).followedBy fun s kind closes => ?_
    exact spells_infix _ (ih' faithful.2.2 (level + 1)) known
      (fun same => closes.cold (dividend (slash same)))
  · intro kind strong closes
    refine closes.around strong weak fun cold => ?_
    simpa [endsHot, Nat.not_lt.2 strong] using cold

/-- Conditional expressions. -/
theorem spelt_conditional (span : Option Span) (test yes no : Expr) (ih : ExprSpelt test)
    (ih' : ExprSpelt yes) (ih'' : ExprSpelt no) : ExprSpelt (.conditional span test yes no) := by
  intro faithful least
  rw [Expr.parts, everywhere_cons, everywhere_append, everywhere_append] at faithful
  obtain ⟨-, ⟨first, second⟩, third⟩ := faithful
  have text : (exprText binaryLevel test ++ " ? " ++ exprText assignmentLevel yes ++ " : "
        ++ exprText assignmentLevel no).toList
      = (exprText binaryLevel test).toList ++
        (' ' :: ("?".toList ++ ' ' :: (exprText assignmentLevel yes).toList) ++
          ' ' :: ':' :: ' ' :: (exprText assignmentLevel no).toList) := by
    simp
  refine Spelt.guarded (Closes assignmentLevel no) ?_ (fun _ closes => closes.item) ?_
    (closes_bracket (by decide) least _)
  · rw [text]
    refine (ih first binaryLevel).followedBy fun s kind closes => ?_
    obtain ⟨inner, yes_, ends⟩ : ∃ inner, Spells (s.closed kind) _ _ (s.closed inner) ∧ _ :=
      spells_infix "?" (ih' second assignmentLevel) (by decide) (fun same => absurd same (by decide))
    obtain ⟨last, no_, fine⟩ := (ih'' third assignmentLevel).spells
      ((((s.closed inner).past ' ').closed (.punctuation ':')).past ' ') (Phase.open_past _ _ _)
    refine ⟨last, ?_, fine⟩
    exact yes_.append (spells_gap (spells_separator (by decide) (Phase.open_past _ _ _)
      (spells_gap no_)))
  · intro kind strong closes
    refine closes.around strong (by decide) fun cold => ?_
    simpa [endsHot, Nat.not_lt.2 strong] using cold

/-- Assignments. -/
theorem spelt_assign (span : Option Span) (op : Option BinaryOp) (target value : Expr)
    (ih : ExprSpelt target) (ih' : ExprSpelt value) :
    ExprSpelt (.assign span op target value) := by
  intro faithful least
  rw [Expr.parts, everywhere_cons, everywhere_append] at faithful
  have compound : ∀ symbol, op = some symbol → symbol.isCompound = true ∧
      (symbol = .div → endsHot binaryLevel target = false) := faithful.1
  have table : ∀ op ∈ BinaryOp.all, op.isCompound = true →
      isOperator (op.spelling ++ "=") = true ∧
        ((op.spelling ++ "=").toList.head? = some '/' → op = .div) := by
    decide
  have infix_ (symbol : String) (known : isOperator symbol = true)
      (cold : symbol.toList.head? = some '/' → endsHot binaryLevel target = false) :
      Spelt (exprFaces binaryLevel target ++ operator symbol :: exprFaces assignmentLevel value)
        (exprText binaryLevel target ++ " " ++ symbol ++ " " ++ exprText assignmentLevel value).toList
        (Closes assignmentLevel value) := by
    have text : (exprText binaryLevel target ++ " " ++ symbol ++ " "
          ++ exprText assignmentLevel value).toList
        = (exprText binaryLevel target).toList ++
          ' ' :: (symbol.toList ++ ' ' :: (exprText assignmentLevel value).toList) := by
      simp
    rw [text]
    refine (ih faithful.2.1 binaryLevel).followedBy fun s kind closes => ?_
    exact spells_infix _ (ih' faithful.2.2 assignmentLevel) known fun same => closes.cold (cold same)
  refine Spelt.guarded (Closes assignmentLevel value) ?_ (fun _ closes => closes.item) ?_
    (closes_bracket (by decide) least _)
  · cases op with
    | none => exact infix_ "=" (by decide) fun same => absurd same (by decide)
    | some op =>
      obtain ⟨first, second⟩ := compound op rfl
      obtain ⟨known, slash⟩ := table op op.mem_all first
      exact infix_ _ known fun same => second (slash same)
  · intro kind strong closes
    refine closes.around strong (by decide) fun cold => ?_
    simpa [endsHot, Nat.not_lt.2 strong] using cold

/-- Sequences. -/
theorem spelt_seq (span : Option Span) (first rest : Expr) (ih : ExprSpelt first)
    (ih' : ExprSpelt rest) : ExprSpelt (.seq span first rest) := by
  intro faithful least
  rw [Expr.parts, everywhere_cons, everywhere_append] at faithful
  have text : (exprText assignmentLevel first ++ ", " ++ exprText sequenceLevel rest).toList
      = (exprText assignmentLevel first).toList ++
        ',' :: ' ' :: (exprText sequenceLevel rest).toList := by
    simp
  refine Spelt.guarded (Closes sequenceLevel rest) ?_ (fun _ closes => closes.item) ?_
    (closes_bracket (by decide) least _)
  · rw [text]
    refine (ih faithful.2.1 assignmentLevel).followedBy fun s kind closes => ?_
    obtain ⟨last, spells, fine⟩ := (ih' faithful.2.2 sequenceLevel).spells
      (((s.closed kind).closed (.punctuation ',')).past ' ') (Phase.open_past _ _ _)
    exact ⟨last, spells_separator (by decide)
      (Phase.admits_closed (closes.item ',' (by decide))) (spells_gap spells), fine⟩
  · intro kind strong closes
    refine closes.around strong (by decide) fun cold => ?_
    simpa [endsHot, Nat.not_lt.2 strong] using cold

end Stencil.Print

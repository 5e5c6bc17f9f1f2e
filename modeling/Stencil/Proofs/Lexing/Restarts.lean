import Stencil.Proofs.Lexing.Excerpts
import Stencil.Proofs.Lexing.Modes
import Stencil.Proofs.Lexing.Spelling
/-!
# Reading a token from where it begins

A lexer that stands at the beginning of a token reads that token whatever came before: the line breaks
and comments behind the token before it do not matter, and whether a slash begins a regular expression
matters only if there is one. So a lexer that is started anew at the beginning of a token, on a text
that may end behind it, reads the same token (`Lexer.Settled.restart`). A slash that was read as an
operator, and is read again, is what the new lexer reads at once (`Lexer.Settled.rereadRegexp`).
-/

set_option autoImplicit false

namespace Stencil

open Stencil.Error (Fault ParseError)
open Stencil.Text

namespace Lexer

variable {s l' : Lexer} {token : Token}

/-! ## The beginning of a token -/

/-- Behind a run of characters there are none of its kind. -/
theorem takeWhile_drop_takeWhile {α : Type} (p : α → Bool) (xs : List α) :
    (xs.drop (xs.takeWhile p).length).takeWhile p = [] := by
  induction xs with
  | nil => rfl
  | cons x xs ih =>
    cases here : p x with
    | true => simpa [here] using ih
    | false => simp [here]

/-- The lexer stands where a token begins: no blank and no comment stands before it. -/
structure Settled (s : Lexer) : Prop where
  start : s.start = s.place
  unblank : s.mode ≠ .text → s.rest.takeWhile isBlank = []
  uncommented : s.comment? = none

theorem settled_skipTriviaWithin {n : Nat} {l : Lexer} (room : l.rest.length < n)
    (moved : l.skipTriviaWithin n = (.ok (), s)) : s.Settled := by
  induction n generalizing l with
  | zero => exact absurd room (Nat.not_lt_zero _)
  | succ n ih =>
    unfold Lexer.skipTriviaWithin at moved
    dsimp only at moved
    have shorter : (if l.mode = .text then l else l.skipBlanks).mark.rest.length ≤ l.rest.length := by
      split_ifs
      · exact Nat.le_refl _
      · show (l.rest.drop _).length ≤ _
        rw [List.length_drop]
        exact Nat.sub_le _ _
    split at moved
    · next behind read =>
      exact ih (by have := comment?_lt read; omega) moved
    · cases moved
    · next none_ =>
      cases moved
      refine ⟨rfl, fun code => ?_, none_⟩
      split_ifs at code ⊢ with text
      · exact absurd text code
      · exact takeWhile_drop_takeWhile isBlank l.rest

theorem settled_skipTrivia {l : Lexer} (moved : l.skipTrivia = (.ok (), s)) : s.Settled :=
  settled_skipTriviaWithin (Nat.lt_succ_self _) moved

/-- There a lexer for code has nothing to skip. -/
theorem Settled.skipTrivia (settled : s.Settled) (code : s.mode ≠ .text) :
    s.skipTrivia = (.ok (), s) := by
  have blanks : s.skipBlanks.mark = s := by
    unfold Lexer.skipBlanks
    rw [settled.unblank code]
    show ({ s with
      rest := s.rest.drop 0
      place := s.place.after []
      sawBreak := s.sawBreak || [].contains '\n'
      start := s.place.after [] } : Lexer) = s
    have start := settled.start
    cases s
    simp_all
  unfold Lexer.skipTrivia
  rw [Lexer.skipTriviaWithin, if_neg code, blanks, settled.uncommented]

/-! ## Reading it anew -/

/-- The lexer at the same place that has met no line break, and before which a value may stand. -/
def anew (s : Lexer) : Lexer := { s with sawBreak := false, regexpAllowed := true }

/-- The one step reads what the other reads, at the beginning of a text. -/
def Renews (step step' : Step) : Prop :=
  ∀ token l', step = (.ok token, l') → step' = (.ok { token with afterBreak := false }, l')

theorem Settled.anew (settled : s.Settled) (code : s.mode ≠ .text) : s.anew.Settled := by
  refine ⟨settled.start, settled.unblank, ?_⟩
  have none_ := settled.uncommented
  unfold Lexer.comment? at none_ ⊢
  rw [if_neg code] at none_
  rw [if_neg (show s.anew.mode ≠ .text from code)]
  split
  · next same =>
    rw [show s.rest = _ from same] at none_
    cases none_
  · next same =>
    rw [show s.rest = _ from same] at none_
    cases found : findPattern ['*', '/'] (s.skip 2).rest with
    | none => simp [found] at none_
    | some length => simp [found] at none_
  · rfl

theorem renews_token (s : Lexer) (kind : TokenKind) : Renews (s.token kind) (s.anew.token kind) := by
  intro token l' read
  cases read
  rfl

theorem renews_accept {α : Type} (s : Lexer) (scan : Scan α) (kind : α → TokenKind) :
    Renews (s.accept scan kind) (s.anew.accept scan kind) := by
  intro token l' read
  obtain ⟨result, ok, ended⟩ := accept_ok read
  unfold Lexer.accept
  rw [ok]
  exact renews_token (s.cross scan.width) (kind result) token l' ended

/-- A token of code that does not begin with a slash, or before which a value may stand. -/
theorem renews_readCode {c : Char} {following : List Char} (slash : c = '/' → s.regexpAllowed = true) :
    Renews (s.readCode c following) (s.anew.readCode c following) := by
  intro token l' read
  unfold Lexer.readCode at read ⊢
  dsimp only at read ⊢
  split_ifs at read ⊢ with quote point number slash' regexp regexp' regexp''
  · exact renews_accept _ _ _ token l' read
  · exact renews_accept (s.cross 1) _ _ token l' read
  · exact renews_token (s.cross 1) _ token l' read
  · exact renews_accept (s.cross 1) _ _ token l' read
  · exact absurd (slash slash') regexp'
  · exact absurd rfl regexp
  · exact absurd rfl regexp
  · exact renews_accept s _ _ token l' read
  · exact renews_accept s _ _ token l' read
  · exact renews_accept s _ _ token l' read
  · exact renews_token (s.cross 1) _ token l' read
  · exact renews_accept s _ _ token l' read
  · cases read

/-- A token of code, markers excepted. -/
theorem renews_readToken (code : s.mode ≠ .text)
    (slash : ∀ following, s.rest = '/' :: following → s.regexpAllowed = true)
    (read : s.readToken = (.ok token, l')) (unmarked : ∀ marker, token.kind ≠ .marker marker) :
    s.anew.readToken = (.ok { token with afterBreak := false }, l') := by
  unfold Lexer.readToken at read ⊢
  cases rest : s.rest with
  | nil =>
    rw [rest] at read
    rw [show s.anew.rest = [] from rest]
    exact renews_token s _ token l' read
  | cons c following =>
    have slash' : c = '/' → s.regexpAllowed = true := fun same => slash following (same ▸ rest)
    rw [rest] at read
    rw [show s.anew.rest = c :: following from rest]
    simp only [if_neg code] at read
    simp only [if_neg (show s.anew.mode ≠ .text from code)]
    rw [show s.anew.countsBraces = s.countsBraces from rfl, show s.anew.depth = s.depth from rfl]
    split_ifs at read ⊢ with opening closing outer
    · exact renews_readCode (s := { s with rest := c :: following, depth := s.depth + 1 }) slash'
        token l' read
    · obtain ⟨marker, kind⟩ := marker_of_closeCode read
      exact absurd kind (unmarked marker)
    · exact renews_readCode (s := { s with rest := c :: following, depth := s.depth - 1 }) slash'
        token l' read
    · exact renews_readCode slash' token l' read

/-- A lexer that is started anew where a token begins, on a text that ends behind the token, reads the
token, and both read alike behind it. -/
theorem Settled.restart (settled : s.Settled) (code : s.mode ≠ .text)
    (slash : ∀ following, s.rest = '/' :: following → s.regexpAllowed = true)
    (read : s.readToken = (.ok token, l')) (going : token.isEof = false)
    (unmarked : ∀ marker, token.kind ≠ .marker marker) {slice tail : List Char}
    (whole : s.rest = slice ++ tail) (within : tail.length ≤ l'.rest.length) :
    Followed tail { token with afterBreak := false } l' (ofText false slice).next := by
  have next : s.anew.next = (.ok { token with afterBreak := false }, l') := by
    unfold Lexer.next
    rw [(settled.anew code).skipTrivia code]
    exact renews_readToken code slash read unmarked
  have cut : Cut tail s.anew (ofText false slice) := ⟨⟨whole, rfl, code, rfl⟩, rfl⟩
  exact cut.next next going unmarked within

/-! ## Slashes -/

/-- The operators that begin with a slash. -/
theorem operatorRun_slash (following : List Char) :
    operatorRun ['/'] following = ['/'] ∨
      ∃ rest, following = '=' :: rest ∧ operatorRun ['/'] following = ['/', '='] := by
  have table : ∀ operator ∈ wordOperators ++ symbolOperators, ∀ c rest,
      operator.toList = '/' :: c :: rest → c = '=' ∧ rest = [] := by
    simp [wordOperators, symbolOperators]
  have known {cs : List Char} {c : Char} (operator : isOperator (String.ofList ('/' :: c :: cs)) = true) :
      c = '=' ∧ cs = [] := by
    refine table (String.ofList ('/' :: c :: cs)) ?_ c cs (by simp)
    simpa [isOperator] using operator
  cases following with
  | nil => exact .inl rfl
  | cons c rest =>
    unfold operatorRun
    split_ifs with longer
    · obtain ⟨rfl, -⟩ := known longer
      refine .inr ⟨rest, rfl, ?_⟩
      cases rest with
      | nil => rfl
      | cons d rest =>
        unfold operatorRun
        rw [if_neg]
        · rfl
        · exact fun operator => absurd (known operator).2 (by simp)
    · exact .inl rfl

/-- An operator begins with the character that it grows from. -/
theorem operatorRun_head (c : Char) (cs following : List Char) :
    ∃ more, operatorRun (c :: cs) following = c :: more := by
  induction following generalizing cs with
  | nil => exact ⟨cs, rfl⟩
  | cons d following ih =>
    unfold operatorRun
    split_ifs
    · exact ih (cs ++ [d])
    · exact ⟨cs, rfl⟩

/-- A token that is a slash, or a slash and an equals sign. -/
def IsSlash (token : Token) (lead : String) : Prop :=
  token.kind = .operator "/" ∧ lead = "" ∨ token.kind = .operator "/=" ∧ lead = "="

theorem operator_of_readOperator {c : Char} {following : List Char}
    (read : s.readOperator c following = (.ok token, l')) :
    token.kind = .operator (String.ofList (operatorRun [c] following)) ∧
      ((s.cross (operatorRun [c] following).length).token token.kind).2 = l' := by
  unfold Lexer.readOperator at read
  obtain ⟨result, ok, ended⟩ := accept_ok read
  split_ifs at ok ended
  · cases ok
    have kind := kind_of_token ended
    refine ⟨kind, ?_⟩
    rw [kind]
    exact congrArg Prod.snd ended
  · cases ok

theorem IsSlash.operator {lead : String} (slash : IsSlash token lead) :
    ∃ symbol ∈ ["/", "/="], token.kind = .operator symbol := by
  obtain ⟨kind, -⟩ | ⟨kind, -⟩ := slash
  · exact ⟨_, by simp, kind⟩
  · exact ⟨_, by simp, kind⟩

/-- A word that is an operator is one of the operators spelt as words. -/
theorem word_of_operator {word symbol : String} (kind : wordKind word = .operator symbol) :
    wordOperators.contains symbol = true := by
  unfold wordKind at kind
  split_ifs at kind with known
  · cases kind
    exact known
  · split at kind
    · cases kind
    · split at kind <;> cases kind

/-- A slash begins with a slash, where no regular expression may stand. -/
theorem IsSlash.of_readCode {c : Char} {following : List Char} {lead : String}
    (slash : IsSlash token lead) (read : s.readCode c following = (.ok token, l')) :
    c = '/' ∧ s.regexpAllowed = false := by
  obtain ⟨symbol, among, kind⟩ := slash.operator
  cases readsCode_of_readCode read with
  | operator divides read =>
    obtain ⟨more, head⟩ := operatorRun_head c [] following
    have same := kind.symm.trans (operator_of_readOperator read).1
    rw [head, TokenKind.operator.injEq] at same
    have table : ∀ symbol ∈ ["/", "/="], symbol.toList.head? = some '/' := by decide
    obtain rfl : c = '/' := by simpa [same] using table symbol among
    exact ⟨rfl, divides rfl⟩
  | word _ read =>
    obtain ⟨name, made⟩ := kind_of_accept read
    have other : wordOperators.contains symbol = false := by
      have table : ∀ symbol ∈ ["/", "/="], wordOperators.contains symbol = false := by decide
      exact table symbol among
    have known := word_of_operator (made.symm.trans kind)
    rw [other] at known
    cases known
  | fraction _ read =>
    obtain ⟨_, made⟩ := kind_of_accept read
    cases made.symm.trans kind
  | number read =>
    obtain ⟨_, made⟩ := kind_of_accept read
    cases made.symm.trans kind
  | string made => cases made.symm.trans kind
  | regexp made => cases made.symm.trans kind
  | punctuation made => cases made.symm.trans kind

/-- What is read as a slash, and the lexer behind it. -/
theorem IsSlash.of_readToken {lead : String} (slash : IsSlash token lead) (code : s.mode ≠ .text)
    (read : s.readToken = (.ok token, l')) :
    s.regexpAllowed = false ∧ (∃ following, s.rest = '/' :: (lead.toList ++ following)) ∧
      l' = ((s.cross (1 + lead.length)).token token.kind).2 := by
  unfold Lexer.readToken at read
  cases rest : s.rest with
  | nil =>
    rw [rest] at read
    obtain ⟨symbol, -, kind⟩ := slash.operator
    rw [kind_of_token read] at kind
    cases kind
  | cons c following =>
    rw [rest] at read
    simp only [if_neg code] at read
    obtain ⟨symbol, -, symbolic⟩ := slash.operator
    split_ifs at read with opening closing outer
    · obtain ⟨rfl, -⟩ := slash.of_readCode read
      simp at opening
    · obtain ⟨marker, kind⟩ := marker_of_closeCode read
      rw [kind] at symbolic
      cases symbolic
    · obtain ⟨rfl, -⟩ := slash.of_readCode read
      simp at closing
    · obtain ⟨rfl, operator⟩ := slash.of_readCode read
      have run : s.readOperator '/' following = (.ok token, l') := by
        unfold Lexer.readCode at read
        simpa [operator] using read
      obtain ⟨kind, behind⟩ := operator_of_readOperator run
      refine ⟨operator, ?_⟩
      obtain single | ⟨after, rfl, double⟩ := operatorRun_slash following
      · rw [single] at kind behind
        obtain ⟨-, rfl⟩ : token.kind = .operator "/" ∧ lead = "" := by
          obtain same | ⟨other, -⟩ := slash
          · exact same
          · exact absurd (kind.symm.trans other) (by simp)
        exact ⟨⟨following, rfl⟩, behind.symm⟩
      · rw [double] at kind behind
        obtain ⟨-, rfl⟩ : token.kind = .operator "/=" ∧ lead = "=" := by
          obtain ⟨other, -⟩ | same := slash
          · exact absurd (kind.symm.trans other) (by simp)
          · exact same
        exact ⟨⟨after, rfl⟩, behind.symm⟩

/-- What is found of a regular expression behind an equals sign. -/
theorem regexpRest_equals {text pattern flags : List Char} {width : Nat}
    (found : regexpRest text = .found (pattern, flags) width) :
    regexpRest ('=' :: text) = .found ('=' :: pattern, flags) (width + 1) := by
  unfold regexpRest at found ⊢
  obtain ⟨body, taken, more, inner, named, rfl⟩ := Scan.andThen_eq_found.1 found
  obtain ⟨flags, spelt, same⟩ := Scan.map_eq_found.1 named
  cases same
  refine Scan.andThen_eq_found.2 ⟨'=' :: pattern, 1 + taken, more, ?_, ?_, by omega⟩
  · unfold regexpBody
    rw [if_neg (by decide), if_neg (by decide), if_neg (by decide), if_neg (by decide)]
    exact Scan.behind_eq_found.2 ⟨taken, Scan.map_eq_found.2 ⟨pattern, inner, rfl⟩, rfl⟩
  · refine Scan.map_eq_found.2 ⟨flags, ?_, rfl⟩
    rw [Nat.add_comm, List.drop_succ_cons]
    exact spelt

/-- A slash that is read again is what a lexer reads at once before which a value may stand. -/
theorem IsSlash.reread {lead : String} {token' : Token} {l'' : Lexer} (slash : IsSlash token lead)
    (code : s.mode ≠ .text) (read : s.readToken = (.ok token, l'))
    (again : l'.rereadRegexp lead = (.ok token', l'')) :
    token'.span.start = s.start ∧
      ∃ token'', s.anew.readToken = (.ok token'', l'') ∧ token''.kind = token'.kind := by
  obtain ⟨-, ⟨following, rest⟩, rfl⟩ := slash.of_readToken code read
  have begins : s.anew.readToken = (s.anew.cross 1).readRegexp [] := by
    unfold Lexer.readToken
    rw [show s.anew.rest = _ from rest]
    simp only [if_neg (show s.anew.mode ≠ .text from code)]
    rw [if_neg (by simp), if_neg (by simp)]
    unfold Lexer.readCode
    simp [Lexer.anew]
  rw [begins]
  unfold Lexer.rereadRegexp Lexer.readRegexp at again
  obtain ⟨⟨pattern, flags⟩, ok, ended⟩ := accept_ok again
  have left : s.rest.drop (1 + lead.length) = following := by
    rw [rest, Nat.add_comm, List.drop_succ_cons, ← String.length_toList, List.drop_left]
  change (regexpRest (s.rest.drop (1 + lead.length))).outcome = _ at ok
  change ((((s.cross (1 + lead.length)).token token.kind).2.cross
    (regexpRest (s.rest.drop (1 + lead.length))).width).token _) = _ at ended
  rw [left] at ok ended
  have found : regexpRest following = .found (pattern, flags) (regexpRest following).width := by
    rw [Scan.found, ← ok]
  generalize (regexpRest following).width = width at found ended
  have kind := kind_of_token ended
  have start : token'.span.start = s.start := by
    cases ended
    rfl
  obtain rfl : _ = l'' := congrArg Prod.snd ended
  refine ⟨start, ?_⟩
  unfold Lexer.readRegexp
  obtain ⟨-, rfl⟩ | ⟨-, rfl⟩ := slash
  · have here : (s.anew.cross 1).rest = following := left
    rw [here, found, Lexing.accept_found]
    exact ⟨_, rfl, kind.symm⟩
  · have here : (s.anew.cross 1).rest = '=' :: following := by
      show s.rest.drop 1 = _
      rw [rest]
      rfl
    rw [here, regexpRest_equals found, Lexing.accept_found]
    refine ⟨_, Prod.ext rfl ?_, ?_⟩
    · simp only [Lexer.token, Lexer.cross, Lexer.anew, rest, show 1 + "=".length = 2 from rfl,
        show "=".toList = ['='] from rfl]
      rfl
    · simp [kind]

/-- A slash that is read where no regular expression may stand is an operator. -/
theorem isSlash_of_readToken {following : List Char} (code : s.mode ≠ .text)
    (rest : s.rest = '/' :: following) (operator : s.regexpAllowed = false)
    (read : s.readToken = (.ok token, l')) : ∃ lead, IsSlash token lead := by
  have run : s.readOperator '/' following = (.ok token, l') := by
    unfold Lexer.readToken at read
    rw [rest] at read
    simp only [if_neg code] at read
    rw [if_neg (by simp), if_neg (by simp)] at read
    unfold Lexer.readCode at read
    simpa [operator] using read
  obtain ⟨kind, -⟩ := operator_of_readOperator run
  obtain single | ⟨_, -, double⟩ := operatorRun_slash following
  · exact ⟨"", .inl ⟨by rw [kind, single], rfl⟩⟩
  · exact ⟨"=", .inr ⟨by rw [kind, double], rfl⟩⟩

/-- No text of a template is read in code. -/
theorem noHtml_of_readToken (code : s.mode ≠ .text) (read : s.readToken = (.ok token, l')) :
    ∀ text, token.kind ≠ .html text := by
  by_cases inTemplate : s.InTemplate
  · have turns := (turns_readToken inTemplate read).mode
    intro text kind
    rw [kind] at turns
    cases mode : s.mode with
    | text => exact code mode
    | _ =>
      rw [mode] at turns
      cases turns
  · have script : s.mode = .script := not_not.1 inTemplate
    unfold Lexer.readToken at read
    split at read
    · cases read
      simp
    · have unread : s.countsBraces = false := by simp [Lexer.countsBraces, script]
      simp only [script, unread, reduceCtorEq, if_false, Bool.and_false, Bool.false_eq_true] at read
      exact (isCode_readCode read).noHtml

/-- Only markers and text are read in the text of a template. -/
theorem code_of_readToken (read : s.readToken = (.ok token, l')) (going : token.isEof = false)
    (unmarked : ∀ marker, token.kind ≠ .marker marker) (noHtml : ∀ text, token.kind ≠ .html text) :
    s.mode ≠ .text := by
  intro inText
  have turns := (turns_readToken (show s.mode ≠ .script by simp [inText]) read).mode
  rw [inText] at turns
  cases kind : token.kind with
  | eof => simp [Token.isEof, kind] at going
  | html text => exact noHtml text kind
  | marker marker => exact unmarked marker kind
  | _ =>
    rw [kind] at turns
    cases turns

/-- All other tokens are tokens of code, read after braces were counted. -/
theorem readCode_of_readToken (read : s.readToken = (.ok token, l')) (going : token.isEof = false)
    (unmarked : ∀ marker, token.kind ≠ .marker marker) (noHtml : ∀ text, token.kind ≠ .html text) :
    ∃ c following depth, s.rest = c :: following ∧
      ({ s with depth } : Lexer).readCode c following = (.ok token, l') := by
  have code := code_of_readToken read going unmarked noHtml
  unfold Lexer.readToken at read
  split at read
  · rw [Token.isEof, kind_of_token read] at going
    cases going
  · next c following rest =>
    rw [if_neg code] at read
    split_ifs at read
    · exact ⟨c, following, s.depth + 1, rest, read⟩
    · obtain ⟨marker, kind⟩ := marker_of_closeCode read
      exact absurd kind (unmarked marker)
    · exact ⟨c, following, s.depth - 1, rest, read⟩
    · exact ⟨c, following, s.depth, rest, read⟩

end Lexer

end Stencil

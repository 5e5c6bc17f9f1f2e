import Stencil.Proofs.Lexing.Closers
import Stencil.Proofs.Lexing.TemplateText
import Stencil.Proofs.Printing.Faithful
/-!
# What the lexer makes sure of

A token that the lexer gives is sure: a name is no reserved word, a text of a template can stand in a
verbatim block, and a regular expression ends where it ends when it is read again. A slash that was
read as an operator is followed by nothing that would make it a comment, so that it can be read again
as the beginning of a regular expression, which then is sure as well (`Lexer.Sure.rereadRegexp`).
-/

set_option autoImplicit false

namespace Stencil

open Stencil.Lexing
open Stencil.Print (IsFineRegexp IsFineText)
open Stencil.Text

/-! ## Readers -/

/-- What was read before a result, when reading went on behind it. -/
theorem Scan.ok_of_andThen {α β : Type} {scan : Scan α} {text : List Char}
    {next : α → List Char → Scan β} {result : β}
    (read : (scan.andThen text next).outcome = .ok result) :
    ∃ first, scan.outcome = .ok first ∧
      (next first (text.drop scan.width)).outcome = .ok result := by
  unfold Scan.andThen at read
  split at read
  · next first found => exact ⟨first, found, read⟩
  · cases read

/-- What was read before a result, when the result was changed. -/
theorem Scan.ok_of_change {α β : Type} {f : α → β} {scan : Scan α} {result : β}
    (read : (scan.map f).outcome = .ok result) :
    ∃ before, scan.outcome = .ok before ∧ f before = result :=
  ok_of_map (show ((scan.map f).behind 0).outcome = .ok result from read)

/-- A character that a name escapes belongs to names. -/
theorem isNamePart_of_nameEscape {text : List Char} {char : Char}
    (read : (nameEscape text).outcome = .ok char) : isNamePart char = true := by
  unfold nameEscape at read
  split at read
  · cases read
  · obtain ⟨code, -, read⟩ := Scan.ok_of_andThen read
    split_ifs at read with part
    · cases read
      exact part
    · cases read
  · cases read

/-- The characters of a name that was read belong to names. -/
theorem isNamePart_of_nameBody {n : Nat} {text chars : List Char} {escaped : Bool}
    (read : (nameBody n text).outcome = .ok (chars, escaped)) : chars.all isNamePart = true := by
  induction n generalizing text chars escaped with
  | zero =>
    cases read
    rfl
  | succ n ih =>
    cases text with
    | nil =>
      cases read
      rfl
    | cons c rest =>
      rw [nameBody] at read
      split_ifs at read with escape part
      · obtain ⟨char, found, read⟩ := Scan.ok_of_andThen read
        obtain ⟨⟨body, again⟩, body_, same⟩ := Scan.ok_of_change read
        cases same
        rw [List.all_cons, isNamePart_of_nameEscape found, ih body_]
        rfl
      · obtain ⟨⟨body, again⟩, body_, same⟩ := ok_of_map read
        cases same
        rw [List.all_cons, part, ih body_]
        rfl
      · cases read
        rfl

/-- The text of a name that was read is a spelling. -/
theorem isSpelling_of_nameText {text chars : List Char}
    (read : (nameText text).outcome = .ok chars) : IsSpelling chars := by
  obtain ⟨⟨body, escaped⟩, body_, same⟩ := Scan.ok_of_change read
  dsimp only at same
  split_ifs at same with reserved
  · subst same
    exact .inr ⟨body, (Bool.and_eq_true_iff.1 reserved).2, rfl⟩
  · subst same
    exact .inl (isNamePart_of_nameBody body_)

/-- The characters of a pattern are those that were read, and backslashes. -/
theorem mem_of_regexpBody {text pattern : List Char} (inClass afterBackslash : Bool)
    (read : (regexpBody inClass afterBackslash text).outcome = .ok pattern) :
    ∀ c ∈ pattern, c ∈ text ∨ c = '\\' := by
  induction text generalizing inClass afterBackslash pattern with
  | nil => cases read
  | cons d text ih =>
    have keep {inClass : Bool} {body : List Char}
        (read : (regexpBody inClass false text).outcome = .ok body) :
        ∀ c ∈ d :: body, c ∈ d :: text ∨ c = '\\' := by
      intro c listed
      rcases List.mem_cons.1 listed with rfl | listed
      · exact .inl (List.mem_cons_self ..)
      · exact (ih _ _ read c listed).imp_left (List.mem_cons_of_mem _)
    cases afterBackslash with
    | true =>
      rw [regexpBody] at read
      obtain ⟨body, tail, rfl⟩ := ok_of_map read
      intro c listed
      rcases List.mem_cons.1 listed with rfl | listed
      · exact .inr rfl
      · exact keep tail c listed
    | false =>
      rw [regexpBody] at read
      split_ifs at read with opening closing slash backslash
      · obtain ⟨body, tail, rfl⟩ := ok_of_map read
        exact keep tail
      · obtain ⟨body, tail, rfl⟩ := ok_of_map read
        exact keep tail
      · cases read
        exact fun c listed => absurd listed List.not_mem_nil
      · exact fun c listed => (ih _ _ read c listed).imp_left (List.mem_cons_of_mem _)
      · obtain ⟨body, tail, rfl⟩ := ok_of_map read
        exact keep tail

/-- A pattern begins with the character that was read first, if it is not the closing slash. -/
theorem regexpBody_begins {d : Char} {text pattern : List Char} (apart : d ≠ '/')
    (read : (regexpBody false false (d :: text)).outcome = .ok pattern) :
    ∃ tail, pattern = d :: tail := by
  rw [regexpBody] at read
  simp only [apart, decide_false, Bool.and_false, Bool.false_and, Bool.false_eq_true, if_false]
    at read
  split_ifs at read with opening backslash
  · obtain ⟨body, -, rfl⟩ := ok_of_map read
    exact ⟨body, rfl⟩
  · obtain ⟨c, body, rfl, -⟩ := (regexpBody_reread false).2 read
    exact ⟨c :: body, backslash ▸ rfl⟩
  · obtain ⟨body, -, rfl⟩ := ok_of_map read
    exact ⟨body, rfl⟩

/-- Behind a slash that opens no comment, a regular expression is fine. -/
theorem isFineRegexp_of_read {text pattern flags : List Char}
    (apart : ∀ d, text.head? = some d → d ≠ '/' ∧ d ≠ '*')
    (unbroken : ∀ c ∈ text, isForeignBreak c = false)
    (read : (regexpBody false false text).outcome = .ok pattern) (spelling : IsSpelling flags) :
    IsFineRegexp (String.ofList pattern) (String.ofList flags) := by
  cases text with
  | nil => cases read
  | cons d text =>
    obtain ⟨slash, star⟩ := apart d rfl
    obtain ⟨tail, rfl⟩ := regexpBody_begins slash read
    refine ⟨?_, ?_, ?_, ?_, ?_⟩
    · simpa using isPattern_of_read read
    · exact fun empty => by simpa using congrArg String.toList empty
    · simpa using star
    · simpa using spelling
    · intro c listed
      rw [String.toList_ofList] at listed
      rcases mem_of_regexpBody _ _ read c listed with listed | rfl
      · exact unbroken c listed
      · rfl

/-! ## Texts of templates -/

/-- The end of a verbatim block is a marker. -/
theorem startsMarker_of_verbatimEnd {text : List Char} (begins : verbatimEnd <+: text) :
    startsMarker text = true := by
  obtain ⟨rest, rfl⟩ := begins
  have closer := @at?_closing .verbatim rfl '\x7d' rfl ('\x7d' :: rest)
  rw [startsMarker_eq fun other same => by cases same]
  exact congrArg Option.isSome closer

/-- Plain text stands at the beginning of the text it was read from. -/
theorem plainText_begins (text : List Char) : plainText text <+: text := by
  induction text with
  | nil => exact List.prefix_rfl
  | cons c text ih =>
    rw [plainText]
    split_ifs
    · exact List.nil_prefix
    · exact (List.prefix_cons_inj c).2 ih

/-- Plain text does not hold the end of a verbatim block, for it ends before every marker. -/
theorem findPattern_plainText (text : List Char) :
    findPattern verbatimEnd (plainText text) = none := by
  induction text with
  | nil => rfl
  | cons c text ih =>
    rw [plainText]
    split_ifs with starts
    · rfl
    · have apart : ¬verbatimEnd <+: c :: plainText text := fun begins =>
        starts (startsMarker_of_verbatimEnd
          (begins.trans ((List.prefix_cons_inj c).2 (plainText_begins text))))
      rw [findPattern, if_neg (mt List.isPrefixOf_iff_prefix.1 apart), ih]
      rfl

/-! ## Tokens -/

/-- What is sure of the kind of a token. -/
def TokenKind.Sure : TokenKind → Prop
  | .html text => IsFineText text
  | .name word => wordKind word = .name word
  | .regexp pattern flags => IsFineRegexp pattern flags
  | _ => True

/-- The token of a word is sure. -/
theorem sure_wordKind (word : String) : (wordKind word).Sure := by
  by_cases same : wordKind word = .name word
  · rw [same]
    exact same
  · unfold wordKind at same ⊢
    split
    · trivial
    · split
      · trivial
      · split
        · trivial
        · simp_all

/-- An operator that is a word is one of the list. -/
theorem mem_wordOperators {word symbol : String} (same : wordKind word = .operator symbol) :
    symbol ∈ wordOperators := by
  unfold wordKind at same
  split at same
  · next listed =>
    cases same
    exact List.contains_iff_mem.1 listed
  · split at same
    · cases same
    · split at same <;> cases same

namespace Lexer

variable {lexer behind : Lexer} {token token' : Token}

/-- What is sure of a token that was read, and of the text behind it. -/
structure Sure (token : Token) (behind : Lexer) : Prop where
  kind : token.kind.Sure
  unbroken : ∀ c ∈ behind.rest, isForeignBreak c = false
  slash : token.kind = .operator "/" →
    ∀ d, behind.rest.head? = some d → d ≠ '/' ∧ d ≠ '*'

/-- The beginning of the text is that of no comment in code. -/
def Clear (lexer : Lexer) : Prop :=
  lexer.mode ≠ .text → ∀ d following, lexer.rest = '/' :: d :: following → d ≠ '/' ∧ d ≠ '*'

theorem clear_of_comment?_none (none_ : lexer.comment? = none) : lexer.Clear := by
  intro code d following rest
  unfold comment? at none_
  rw [if_neg code, rest] at none_
  constructor
  · rintro rfl
    cases none_
  · rintro rfl
    simp only at none_
    split at none_
    · cases none_
    · cases none_

/-- Behind blanks and comments, of which there are no more than the bound, no comment begins. -/
theorem clear_skipTriviaWithin {n : Nat} (enough : lexer.rest.length < n)
    (moved : lexer.skipTriviaWithin n = (.ok (), behind)) :
    behind.Clear ∧ behind.rest <:+ lexer.rest := by
  induction n generalizing lexer with
  | zero => exact absurd enough (Nat.not_lt_zero _)
  | succ n ih =>
    have suffix : lexer.atToken.rest <:+ lexer.rest := by
      unfold atToken
      split_ifs
      · exact List.suffix_rfl
      · exact List.drop_suffix _ _
    unfold skipTriviaWithin at moved
    dsimp only at moved
    rw [← atToken] at moved
    split at moved
    · next remarked read =>
      obtain ⟨comment, remarks⟩ := comment?_remarks read
      have shorter := suffix.length_le
      have written := List.length_pos_iff.2 comment.written_ne_nil
      have taken := congrArg List.length remarks.rest
      rw [List.length_append] at taken
      obtain ⟨clear, later⟩ := ih (by omega) moved
      exact ⟨clear, later.trans (List.IsSuffix.trans ⟨_, remarks.rest.symm⟩ suffix)⟩
    · cases moved
    · next none_ =>
      cases moved
      exact ⟨clear_of_comment?_none none_, suffix⟩

/-- The token of a step is of a sure kind, and a slash begins no comment behind it. -/
def GivesSure : Step → Prop
  | (.ok token, behind) =>
    token.kind.Sure ∧
      (token.kind = .operator "/" → ∀ d, behind.rest.head? = some d → d ≠ '/' ∧ d ≠ '*')
  | (.error _, _) => True

theorem givesSure_accept {α : Type} {scan : Scan α} {kind : α → TokenKind}
    (kinds : ∀ result, scan.outcome = .ok result →
      (kind result).Sure ∧ kind result ≠ .operator "/") : GivesSure (lexer.accept scan kind) := by
  unfold accept
  dsimp only
  split
  · next result found =>
    obtain ⟨sure, apart⟩ := kinds result found
    exact ⟨sure, fun slash => absurd slash apart⟩
  · trivial

theorem givesSure_readWord : GivesSure lexer.readWord := by
  refine givesSure_accept fun chars _ => ⟨sure_wordKind _, fun slash => ?_⟩
  exact absurd (mem_wordOperators slash) (by decide)

/-- An operator grows from what was read first. -/
theorem operatorRun_begins (operator following : List Char) :
    operator <+: operatorRun operator following := by
  induction following generalizing operator with
  | nil => exact List.prefix_rfl
  | cons c following ih =>
    unfold operatorRun
    split
    · exact (List.prefix_append _ _).trans (ih _)
    · exact List.prefix_rfl

theorem givesSure_readOperator {c : Char} {following : List Char} (code : lexer.mode ≠ .text)
    (clear : lexer.Clear) (rest : lexer.rest = c :: following) :
    GivesSure (lexer.readOperator c following) := by
  unfold readOperator accept
  dsimp only
  split_ifs
  · refine ⟨trivial, fun slash d first => ?_⟩
    have run : operatorRun [c] following = ['/'] := by
      have same : String.ofList (operatorRun [c] following) = "/" := TokenKind.operator.inj slash
      simpa using congrArg String.toList same
    obtain rfl : c = '/' := by
      have begins := operatorRun_begins [c] following
      rw [run] at begins
      simpa using begins
    have left : (lexer.cross (operatorRun ['/'] following).length).rest = following := by
      simp [cross, rest, run]
    have first : (lexer.cross (operatorRun ['/'] following).length).rest.head? = some d := first
    rw [left] at first
    obtain ⟨more, rfl⟩ := List.head?_eq_some_iff.1 first
    exact clear code d more rest
  · trivial

/-- A regular expression with the beginning that was read before. -/
theorem givesSure_readRegexp {lead : List Char} (known : lead = [] ∨ lead = ['='])
    (apart : ∀ d, (lead ++ lexer.rest).head? = some d → d ≠ '/' ∧ d ≠ '*')
    (unbroken : ∀ c ∈ lexer.rest, isForeignBreak c = false) :
    GivesSure (lexer.readRegexp lead) := by
  refine givesSure_accept ?_
  rintro ⟨pattern, flags⟩ read
  obtain ⟨body, found, read⟩ := Scan.ok_of_andThen read
  obtain ⟨chars, named, same⟩ := Scan.ok_of_change read
  cases same
  have again : (regexpBody false false (lead ++ lexer.rest)).outcome = .ok (lead ++ pattern) := by
    rcases known with rfl | rfl
    · exact found
    · simp [regexpBody, found, Except.map]
  have unbroken : ∀ c ∈ lead ++ lexer.rest, isForeignBreak c = false := by
    intro c listed
    rcases List.mem_append.1 listed with listed | listed
    · rcases known with rfl | rfl
      · exact absurd listed List.not_mem_nil
      · rw [List.mem_singleton.1 listed]
        rfl
    · exact unbroken c listed
  exact ⟨isFineRegexp_of_read apart unbroken again (isSpelling_of_nameText named), by rintro ⟨⟩⟩

/-- A token of code, whatever character it begins with. -/
theorem givesSure_readCode {c : Char} {following : List Char} (code : lexer.mode ≠ .text)
    (clear : lexer.Clear) (rest : lexer.rest = c :: following)
    (unbroken : ∀ c ∈ lexer.rest, isForeignBreak c = false) :
    GivesSure (lexer.readCode c following) := by
  have behind : (lexer.cross 1).rest = following := by simp [cross, rest]
  unfold readCode
  dsimp only
  split_ifs with quote point number slash regexp
  · exact givesSure_accept fun _ _ => ⟨trivial, by rintro ⟨⟩⟩
  · exact givesSure_accept fun _ _ => ⟨trivial, by rintro ⟨⟩⟩
  · exact ⟨trivial, by rintro ⟨⟩⟩
  · subst slash
    refine givesSure_readRegexp (.inl rfl) (fun d first => ?_) fun d listed => ?_
    · rw [List.nil_append, behind] at first
      obtain ⟨more, rfl⟩ := List.head?_eq_some_iff.1 first
      exact clear code d more rest
    · rw [behind] at listed
      exact unbroken d (rest ▸ List.mem_cons_of_mem _ listed)
  · exact givesSure_readOperator code clear rest
  · exact givesSure_readWord
  · exact givesSure_accept fun _ _ => ⟨trivial, by rintro ⟨⟩⟩
  · exact givesSure_readOperator code clear rest
  · exact ⟨trivial, by rintro ⟨⟩⟩
  · exact givesSure_readWord
  · trivial

/-- A piece of the text at the place that does not hold the end of a verbatim block. -/
theorem isFineText_of_piece {piece : List Char}
    (unbroken : ∀ c ∈ lexer.rest, isForeignBreak c = false) (inside : piece <:+: lexer.rest)
    (unclosed : findPattern verbatimEnd piece = none) : IsFineText (String.ofList piece) := by
  constructor
  · intro c listed
    rw [String.toList_ofList] at listed
    exact unbroken c (inside.subset listed)
  · change findPattern verbatimEnd (String.ofList piece).toList = none
    rw [String.toList_ofList, unclosed]

theorem givesSure_readVerbatim (unbroken : ∀ c ∈ lexer.rest, isForeignBreak c = false) :
    GivesSure lexer.readVerbatim := by
  unfold readVerbatim
  dsimp only
  split
  · split
    · trivial
    · next length found =>
      have piece : ∀ {first second : Nat}, (((lexer.skip first).skip second).skip 2).rest.take length
          <:+: lexer.rest := (List.take_prefix _ _).isInfix.trans
        (((List.drop_suffix _ _).trans (List.drop_suffix _ _)).trans (List.drop_suffix _ _)).isInfix
      exact ⟨isFineText_of_piece unbroken piece (findPattern_take (by decide) found), by rintro ⟨⟩⟩
  · trivial

theorem givesSure_readText (unbroken : ∀ c ∈ lexer.rest, isForeignBreak c = false) :
    GivesSure lexer.readText := by
  unfold readText
  split
  · exact ⟨trivial, by rintro ⟨⟩⟩
  · split
    · exact givesSure_readVerbatim unbroken
    · exact ⟨trivial, by rintro ⟨⟩⟩
    · exact ⟨trivial, by rintro ⟨⟩⟩
    · exact ⟨isFineText_of_piece unbroken (plainText_begins _).isInfix (findPattern_plainText _),
        by rintro ⟨⟩⟩

theorem givesSure_closeCode : GivesSure lexer.closeCode := by
  unfold closeCode
  dsimp only
  split
  · split
    · exact ⟨trivial, by rintro ⟨⟩⟩
    · trivial
  · exact ⟨trivial, by rintro ⟨⟩⟩

/-- The token at the place, in every mode. -/
theorem givesSure_readToken (clear : lexer.Clear)
    (unbroken : ∀ c ∈ lexer.rest, isForeignBreak c = false) : GivesSure lexer.readToken := by
  unfold readToken
  split
  · exact ⟨trivial, by rintro ⟨⟩⟩
  · next c following rest =>
    split_ifs with text
    · exact givesSure_readText unbroken
    · exact givesSure_readCode text clear rest unbroken
    · exact givesSure_closeCode
    · exact givesSure_readCode text clear rest unbroken
    · exact givesSure_readCode text clear rest unbroken

/-- The next token is sure where the text holds no foreign line break. -/
theorem sure_next (unbroken : ∀ c ∈ lexer.rest, isForeignBreak c = false)
    (read : lexer.next = (.ok token, behind)) : Sure token behind := by
  unfold Lexer.next at read
  split at read
  · next skipped moved =>
    obtain ⟨clear, suffix⟩ := clear_skipTriviaWithin (Nat.lt_succ_self _) moved
    have left : ∀ c ∈ skipped.rest, isForeignBreak c = false :=
      fun c listed => unbroken c (suffix.subset listed)
    have sure := givesSure_readToken clear left
    rw [read] at sure
    obtain ⟨piece, ends⟩ := ends_readToken read
    exact ⟨sure.1, fun c listed => left c (ends.rest ▸ List.mem_append_right _ listed), sure.2⟩
  · cases read

/-- A slash that is read again begins a regular expression that is sure. -/
theorem Sure.rereadRegexp (sure : Sure token lexer)
    (slash : token.kind = .operator "/" ∨ token.kind = .operator "/=")
    (read : lexer.rereadRegexp (if token.isOperator "/=" then "=" else "") = (.ok token', behind)) :
    Sure token' behind := by
  have gives : GivesSure (lexer.rereadRegexp (if token.isOperator "/=" then "=" else "")) := by
    rcases slash with slash | slash
    · rw [if_neg (by simp [Token.isOperator, slash])]
      exact givesSure_readRegexp (.inl rfl) (sure.slash slash) sure.unbroken
    · rw [if_pos (by simp [Token.isOperator, slash])]
      refine givesSure_readRegexp (.inr rfl) (fun d first => ?_) sure.unbroken
      cases first
      exact ⟨by decide, by decide⟩
  rw [read] at gives
  obtain ⟨result, -, ended⟩ := accept_ok read
  cases ended
  exact ⟨gives.1, fun c listed => sure.unbroken c (List.mem_of_mem_drop listed), gives.2⟩

end Lexer

end Stencil

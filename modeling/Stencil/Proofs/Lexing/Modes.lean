import Stencil.Proofs.Lexing.Closers
import Stencil.Proofs.Lexing.Tiling
/-!
# The modes of a template nest

A template is text with commands and echoes in it. Read from left to right, its tokens go through
these three modes: text and the markers that open code stand in text only, all else stands in
code, and each kind of code is left by its own marker. The braces of the code between two markers
are balanced, whatever strings, regular expressions and comments stand there.

The lexer counts the open braces. One step of it (`Lexer.turns_next`) follows the mode and keeps the
count true of the token that it gives; along a run the count is the difference between the
opening and the closing braces since the marker that opened the code.
-/

set_option autoImplicit false

namespace Stencil

open Stencil.Text

/-! ## The statement -/

/-- Whether the marker opens code. -/
def Marker.opens : Marker → Bool
  | .echoOpen | .commandOpen | .closerOpen => true
  | .commandClose | .echoClose => false

/-- The mode behind a token, if the token may stand in the mode. The end of the text may stand
anywhere. -/
def Mode.behind? : Mode → TokenKind → Option Mode
  | mode, .eof => some mode
  | .text, .html _ => some .text
  | .text, .marker .echoOpen => some .echo
  | .text, .marker .commandOpen => some .command
  | .text, .marker .closerOpen => some .command
  | .text, _ => none
  | .echo, .marker .echoClose => some .text
  | .command, .marker .commandClose => some .text
  | _, .marker _ => none
  | _, .html _ => none
  | mode, _ => some mode

/-- The mode behind tokens, if each may stand where it stands. -/
def Mode.through? (mode : Mode) (kinds : List TokenKind) : Option Mode :=
  kinds.foldlM Mode.behind? mode

/-- Whether the token is the brace. -/
def TokenKind.isBrace (brace : Char) : TokenKind → Bool
  | .punctuation c => c = brace
  | _ => false

/-- How often the brace is among the tokens. -/
def bracesIn (brace : Char) (kinds : List TokenKind) : Nat :=
  kinds.countP (TokenKind.isBrace brace)

/-- The modes of a template nest: every token stands in a mode that it may stand in, and behind a
marker that opens code, up to the next marker, no brace closes that was not opened, and all are
closed at the marker. -/
structure ModesNest (kinds : List TokenKind) : Prop where
  modes : ∃ last, Mode.through? .text kinds = some last
  braces : ∀ earlier opener inside later,
    kinds = earlier ++ .marker opener :: (inside ++ later) → opener.opens = true →
    (∀ marker, .marker marker ∉ inside) →
    (∀ part, part <+: inside → bracesIn '\x7d' part ≤ bracesIn '\x7b' part) ∧
    ∀ closer rest, later = .marker closer :: rest →
      bracesIn '\x7d' inside = bracesIn '\x7b' inside

namespace Lexer

variable {lexer behind : Lexer} {token : Token}

/-! ## Tokens of code -/

/-- A token of code that begins with a character. -/
structure IsCode (lexer : Lexer) (c : Char) (kind : TokenKind) (behind : Lexer) : Prop where
  mode : behind.mode = lexer.mode
  depth : behind.depth = lexer.depth
  noHtml : ∀ text, kind ≠ .html text
  noMarker : ∀ marker, kind ≠ .marker marker
  /-- A token is punctuation only as its first character. -/
  punctuation : ∀ d, kind = .punctuation d → d = c

/-- What a reader that is no reader of punctuation accepts. -/
theorem isCode_accept {α : Type} {c : Char} {scan : Scan α} {kind : α → TokenKind}
    (read : lexer.accept scan kind = (.ok token, behind)) (html : ∀ a text, kind a ≠ .html text)
    (marker : ∀ a marker, kind a ≠ .marker marker) (punctuation : ∀ a d, kind a ≠ .punctuation d) :
    lexer.IsCode c token.kind behind := by
  obtain ⟨result, -, ended⟩ := accept_ok read
  rw [kind_of_token ended]
  cases ended
  exact ⟨rfl, rfl, html result, marker result, fun d same => absurd same (punctuation result d)⟩

/-- A word is a token of code. -/
theorem isCode_readWord {c : Char} (read : lexer.readWord = (.ok token, behind)) :
    lexer.IsCode c token.kind behind := by
  have html (word text : String) : wordKind word ≠ .html text := by
    rcases Lexing.wordKind_cases word with ⟨_, same⟩ | ⟨_, same⟩ | ⟨_, same⟩ | same <;> simp [same]
  exact isCode_accept read (fun _ => html _) (fun _ => wordKind_ne_marker _)
    fun _ => Lexing.wordKind_ne_punctuation _

theorem isCode_readCode {c : Char} {following : List Char}
    (read : lexer.readCode c following = (.ok token, behind)) :
    lexer.IsCode c token.kind behind := by
  have crossed {kind : TokenKind} (read : (lexer.cross 1).token kind = (.ok token, behind))
      (form : kind = .punctuation c) : lexer.IsCode c token.kind behind := by
    subst form
    cases read
    exact ⟨rfl, rfl, by simp, by simp, fun d same => (TokenKind.punctuation.inj same).symm⟩
  have beyond {kind : TokenKind} (code : (lexer.cross 1).IsCode c kind behind) :
      lexer.IsCode c kind behind := { code with }
  unfold readCode at read
  dsimp only at read
  split_ifs at read with quote point
  · exact isCode_accept read (by simp) (by simp) (by simp)
  · exact beyond (isCode_accept read (by simp) (by simp) (by simp))
  · exact crossed read (by rw [point])
  · exact beyond (isCode_accept read (by simp) (by simp) (by simp))
  · exact isCode_accept read (by simp) (by simp) (by simp)
  · exact isCode_readWord read
  · exact isCode_accept read (by simp) (by simp) (by simp)
  · exact isCode_accept read (by simp) (by simp) (by simp)
  · exact crossed read rfl
  · exact isCode_readWord read
  · cases read

/-- A brace is a token by itself. -/
theorem kind_of_brace {c : Char} {following : List Char} (brace : c = '\x7b' ∨ c = '\x7d')
    (read : lexer.readCode c following = (.ok token, behind)) : token.kind = .punctuation c := by
  have first : lexer.readCode c following = (lexer.cross 1).token (.punctuation c) := by
    have digit : isDigit c = false := by rcases brace with rfl | rfl <;> decide
    have operator : isOperatorChar c = false := by rcases brace with rfl | rfl <;> decide
    have mark : isPunctuation c = true := by rcases brace with rfl | rfl <;> decide
    have other : c ≠ '"' ∧ c ≠ '\'' ∧ c ≠ '.' ∧ c ≠ '/' ∧ c ≠ '\\' := by
      rcases brace with rfl | rfl <;> decide
    simp [readCode, digit, operator, mark, other]
  rw [first] at read
  exact kind_of_token read

/-! ## One step -/

/-- What a step does to the mode and to the count of open braces. -/
structure Turns (lexer : Lexer) (kind : TokenKind) (behind : Lexer) : Prop where
  mode : lexer.mode.behind? kind = some behind.mode
  opened : ∀ marker, kind = .marker marker → marker.opens = true → behind.depth = 0
  closed : ∀ marker, kind = .marker marker → marker.opens = false → lexer.depth = 0
  counted : (∀ marker, kind ≠ .marker marker) →
    behind.depth + bracesIn '\x7d' [kind] = lexer.depth + bracesIn '\x7b' [kind]

/-- The lexer reads a template. -/
def InTemplate (lexer : Lexer) : Prop := lexer.mode ≠ .script

/-- In code a token of code leaves the mode. -/
theorem IsCode.behind? {c : Char} {kind : TokenKind} (code : lexer.IsCode c kind behind)
    (inside : lexer.mode = .command ∨ lexer.mode = .echo) :
    lexer.mode.behind? kind = some behind.mode := by
  rw [code.mode]
  rcases inside with mode | mode <;> rw [mode]
  · cases kind with
    | html text => exact absurd rfl (code.noHtml text)
    | marker marker => exact absurd rfl (code.noMarker marker)
    | _ => rfl
  · cases kind with
    | html text => exact absurd rfl (code.noHtml text)
    | marker marker => exact absurd rfl (code.noMarker marker)
    | _ => rfl

/-- The braces of a token of code. -/
theorem bracesIn_single (brace : Char) (kind : TokenKind) :
    bracesIn brace [kind] = if kind.isBrace brace then 1 else 0 := by
  simp [bracesIn, List.countP_cons]

/-- A token of code that begins with no brace counts for none. -/
theorem IsCode.bracesIn {c brace : Char} {kind : TokenKind} (code : lexer.IsCode c kind behind)
    (other : c ≠ brace) : bracesIn brace [kind] = 0 := by
  rw [bracesIn_single, if_neg]
  intro same
  cases kind with
  | punctuation d =>
    have here : d = brace := by simpa [TokenKind.isBrace] using same
    exact other ((code.punctuation d rfl).symm.trans here)
  | _ => cases same

/-- A token that begins with no brace. -/
theorem turns_code {c : Char} {following : List Char}
    (inside : lexer.mode = .command ∨ lexer.mode = .echo) (other : c ≠ '\x7b' ∧ c ≠ '\x7d')
    (read : lexer.readCode c following = (.ok token, behind)) : lexer.Turns token.kind behind := by
  have code := isCode_readCode read
  refine ⟨code.behind? inside, fun marker same => absurd same (code.noMarker marker),
    fun marker same => absurd same (code.noMarker marker), fun _ => ?_⟩
  rw [code.bracesIn other.1, code.bracesIn other.2, code.depth]

/-- A brace that is opened is counted. -/
theorem turns_openBrace {following : List Char}
    (inside : lexer.mode = .command ∨ lexer.mode = .echo)
    (read : ({ lexer with depth := lexer.depth + 1 } : Lexer).readCode '\x7b' following
      = (.ok token, behind)) : lexer.Turns token.kind behind := by
  have code := isCode_readCode read
  have kind := kind_of_brace (.inl rfl) read
  refine ⟨code.behind? inside, fun marker same => absurd same (code.noMarker marker),
    fun marker same => absurd same (code.noMarker marker), fun _ => ?_⟩
  have depth : behind.depth = lexer.depth + 1 := code.depth
  rw [kind, depth]
  rfl

/-- A brace that is closed is counted off. -/
theorem turns_closeBrace {following : List Char} (open_ : lexer.depth ≠ 0)
    (inside : lexer.mode = .command ∨ lexer.mode = .echo)
    (read : ({ lexer with depth := lexer.depth - 1 } : Lexer).readCode '\x7d' following
      = (.ok token, behind)) : lexer.Turns token.kind behind := by
  have code := isCode_readCode read
  have kind := kind_of_brace (.inr rfl) read
  refine ⟨code.behind? inside, fun marker same => absurd same (code.noMarker marker),
    fun marker same => absurd same (code.noMarker marker), fun _ => ?_⟩
  have depth : behind.depth = lexer.depth - 1 := code.depth
  have counted : bracesIn '\x7d' [TokenKind.punctuation '\x7d'] = 1 ∧
      bracesIn '\x7b' [TokenKind.punctuation '\x7d'] = 0 := by decide
  rw [kind, depth, counted.1, counted.2]
  omega

/-- A closing brace that closes none of the code ends the code. -/
theorem turns_closeCode (inside : lexer.mode = .command ∨ lexer.mode = .echo)
    (none : lexer.depth = 0) (read : lexer.closeCode = (.ok token, behind)) :
    lexer.Turns token.kind behind := by
  unfold closeCode at read
  dsimp only at read
  split_ifs at read with command
  · split at read
    · cases read
      have mode : lexer.mode = .command := command
      refine ⟨?_, ?_, fun _ _ _ => none, fun noMarker => absurd rfl (noMarker _)⟩
      · rw [mode]
        rfl
      · rintro marker ⟨⟩ opens
        cases opens
    · cases read
  · cases read
    have mode : lexer.mode = .echo := inside.resolve_left command
    refine ⟨?_, ?_, fun _ _ _ => none, fun noMarker => absurd rfl (noMarker _)⟩
    · rw [mode]
      rfl
    · rintro marker ⟨⟩ opens
      cases opens

/-- A marker that opens code. -/
theorem turns_enter {mode : Mode} {marker : Marker}
    (turn : lexer.mode.behind? (.marker marker) = some mode) (opens : marker.opens = true)
    (read : lexer.enter mode marker = (.ok token, behind)) : lexer.Turns token.kind behind := by
  cases read
  refine ⟨turn, fun _ _ _ => rfl, ?_, fun noMarker => absurd rfl (noMarker _)⟩
  rintro marker ⟨⟩ closes
  rw [opens] at closes
  cases closes

/-- Text of a template, verbatim or not. -/
theorem turns_html {text : String} {reader : Lexer}
    (read : reader.token (.html text) = (.ok token, behind)) (inText : lexer.mode = .text)
    (same : reader.mode = lexer.mode ∧ reader.depth = lexer.depth) :
    lexer.Turns token.kind behind := by
  cases read
  refine ⟨?_, fun _ same => (nomatch same), fun _ same => (nomatch same), fun _ => ?_⟩
  · show lexer.mode.behind? _ = some reader.mode
    rw [same.1, inText]
    rfl
  · show reader.depth + 0 = lexer.depth + 0
    rw [same.2]

theorem turns_readText (inText : lexer.mode = .text)
    (read : lexer.readText = (.ok token, behind)) : lexer.Turns token.kind behind := by
  unfold readText at read
  split at read
  · exact turns_enter (by rw [inText]; rfl) rfl read
  · split at read
    · unfold readVerbatim at read
      dsimp only at read
      split_ifs at read
      · split at read
        · cases read
        · exact turns_html read inText ⟨rfl, rfl⟩
      · cases read
    · exact turns_enter (by rw [inText]; rfl) rfl read
    · exact turns_enter (by rw [inText]; rfl) rfl read
    · exact turns_html read inText ⟨rfl, rfl⟩

/-- The token at the place, in every mode of a template. -/
theorem turns_readToken (template : lexer.InTemplate)
    (read : lexer.readToken = (.ok token, behind)) : lexer.Turns token.kind behind := by
  have inside (code : lexer.mode ≠ .text) : lexer.mode = .command ∨ lexer.mode = .echo := by
    have notScript : lexer.mode ≠ .script := template
    cases mode : lexer.mode with
    | script => exact absurd mode notScript
    | text => exact absurd mode code
    | command => exact .inl rfl
    | echo => exact .inr rfl
  unfold readToken at read
  split at read
  · cases read
    refine ⟨?_, fun _ same => (by cases same), fun _ same => (by cases same), fun _ => rfl⟩
    show lexer.mode.behind? .eof = some lexer.mode
    cases lexer.mode <;> rfl
  · next c following rest =>
    split_ifs at read with text opening closing last
    · exact turns_readText text read
    · have brace : c = '\x7b' := by simpa using (Bool.and_eq_true_iff.1 opening).1
      subst brace
      exact turns_openBrace (inside text) read
    · exact turns_closeCode (inside text) last read
    · have brace : c = '\x7d' := by simpa using (Bool.and_eq_true_iff.1 closing).1
      subst brace
      exact turns_closeBrace last (inside text) read
    · have counts : lexer.countsBraces = true := by
        rcases inside text with mode | mode <;> simp [countsBraces, mode]
      simp only [counts, Bool.and_true, decide_eq_true_eq] at opening closing
      exact turns_code (inside text) ⟨opening, closing⟩ read

/-- Blanks and comments change neither the mode nor the count: by induction on the bound of the
comments. -/
theorem depth_skipTriviaWithin {n : Nat} (moved : lexer.skipTriviaWithin n = (.ok (), behind)) :
    behind.depth = lexer.depth := by
  induction n generalizing lexer with
  | zero =>
    cases moved
    rfl
  | succ n ih =>
    have blanks : lexer.atToken.depth = lexer.depth := by
      unfold atToken
      split_ifs <;> rfl
    unfold skipTriviaWithin at moved
    dsimp only at moved
    rw [← atToken] at moved
    split at moved
    · next remarked read =>
      have kept : remarked.depth = lexer.atToken.depth := by
        unfold comment? at read
        dsimp only at read
        split_ifs at read
        · split at read
          · split at read
            · cases read
            · cases read
              rfl
          · cases read
        · split at read
          · cases read
            rfl
          · split at read
            · cases read
            · cases read
              rfl
          · cases read
      rw [ih moved, kept, blanks]
    · cases moved
    · cases moved
      exact blanks

/-- One step of the lexer. -/
theorem turns_next (template : lexer.InTemplate) (read : lexer.next = (.ok token, behind)) :
    lexer.Turns token.kind behind := by
  unfold Lexer.next at read
  split at read
  · next skipped moved =>
    have mode : skipped.mode = lexer.mode := (skipTriviaWithin_le moved).2
    have depth : skipped.depth = lexer.depth := depth_skipTriviaWithin moved
    have turns := turns_readToken (by rwa [InTemplate, mode]) read
    refine ⟨?_, turns.opened, fun marker same closes => ?_, fun noMarker => ?_⟩
    · rw [← mode]
      exact turns.mode
    · rw [← depth]
      exact turns.closed marker same closes
    · rw [← depth]
      exact turns.counted noMarker
  · cases read

/-- A template is not left for a script. -/
theorem Turns.inTemplate {kind : TokenKind} (template : lexer.InTemplate)
    (turns : lexer.Turns kind behind) : behind.InTemplate := by
  intro script
  have turn := turns.mode
  rw [script] at turn
  have never : ∀ (mode : Mode) (kind : TokenKind), mode ≠ .script →
      mode.behind? kind ≠ some .script := by
    intro mode kind notScript same
    unfold Mode.behind? at same
    split at same <;> simp_all
  exact never _ _ template turn

end Lexer

/-! ## Runs -/

namespace Lexer

/-- Some tokens in a row, and the lexer behind them. -/
inductive Runs : Lexer → List TokenKind → Lexer → Prop where
  | nil (lexer : Lexer) : Runs lexer [] lexer
  | cons {lexer middle behind : Lexer} {kind : TokenKind} {kinds : List TokenKind}
    (turns : lexer.Turns kind middle) (rest : Runs middle kinds behind) :
    Runs lexer (kind :: kinds) behind

variable {lexer behind : Lexer} {kinds : List TokenKind}

/-- Along a run the modes follow each other. -/
theorem Runs.through? (runs : Runs lexer kinds behind) :
    lexer.mode.through? kinds = some behind.mode := by
  induction runs with
  | nil lexer => rfl
  | cons turns rest ih =>
    rw [Mode.through?, List.foldlM_cons, turns.mode]
    exact ih

/-- The count behind tokens that are no markers: each brace among them was counted. -/
theorem Runs.counted (runs : Runs lexer kinds behind) (none : ∀ marker, .marker marker ∉ kinds) :
    behind.depth + bracesIn '\x7d' kinds = lexer.depth + bracesIn '\x7b' kinds := by
  induction runs with
  | nil lexer => rfl
  | @cons lexer middle behind kind kinds turns rest ih =>
    have first := turns.counted fun marker same => none marker (by simp [same])
    have later := ih fun marker listed => none marker (by simp [listed])
    have split (brace : Char) :
        bracesIn brace (kind :: kinds) = bracesIn brace [kind] + bracesIn brace kinds := by
      rw [bracesIn, bracesIn, bracesIn, ← List.countP_append, List.singleton_append]
    rw [split, split]
    omega

/-- Tokens that are no markers do not leave the code. -/
theorem Runs.inCode (runs : Runs lexer kinds behind) (none : ∀ marker, .marker marker ∉ kinds)
    (code : lexer.mode ≠ .text) : behind.mode ≠ .text := by
  have stays : ∀ (mode : Mode) (kind : TokenKind), mode ≠ .text →
      (∀ marker, kind ≠ .marker marker) → mode.behind? kind ≠ some .text := by
    intro mode kind code noMarker same
    unfold Mode.behind? at same
    split at same <;> simp_all
  induction runs with
  | nil lexer => exact code
  | cons turns rest ih =>
    apply ih fun marker listed => none marker (by simp [listed])
    intro text
    have turn := turns.mode
    rw [text] at turn
    exact stays _ _ code (fun marker same => none marker (by simp [same])) turn

/-- A run over two stretches of tokens. -/
theorem Runs.of_append {more : List TokenKind} (runs : Runs lexer (kinds ++ more) behind) :
    ∃ middle, Runs lexer kinds middle ∧ Runs middle more behind := by
  induction kinds generalizing lexer with
  | nil => exact ⟨lexer, .nil lexer, runs⟩
  | cons kind kinds ih =>
    cases runs with
    | cons turns rest =>
      obtain ⟨middle, first, second⟩ := ih rest
      exact ⟨middle, .cons turns first, second⟩

end Lexer

/-- The tokens of a template are a run of the lexer. -/
theorem Tiling.runs {before : List Char} {lexer : Lexer} {tokens : List Token}
    (tiling : Tiling before lexer tokens) (template : lexer.InTemplate) :
    ∃ behind, Lexer.Runs lexer (tokens.map (·.kind)) behind := by
  induction tiling with
  | @last before gap lexer behind token read takes =>
    exact ⟨behind, .cons (Lexer.turns_next template read) (.nil behind)⟩
  | more read takes going later ih =>
    have turns := Lexer.turns_next template read
    obtain ⟨behind, rest⟩ := ih (turns.inTemplate template)
    exact ⟨behind, .cons turns rest⟩

/-- The tokens of a template go through text, commands and echoes as these nest: text and the
markers that open code stand in text, all other tokens stand in code, and each marker that closes
code stands in the code of its kind. Between a marker that opens code and the next marker no brace
closes that was not opened before, and at that marker all are closed. -/
theorem modes_nest (source : List Char) {tokens : List Token}
    (read : tokenize true source = .ok tokens) : ModesNest (tokens.map (·.kind)) := by
  have tiling : Tiling [] (Lexer.ofSource true source) tokens :=
    Lexer.tiling_tokensWithin (Nat.lt_succ_self _) rfl rfl rfl read
  obtain ⟨last, runs⟩ := tiling.runs (by simp [Lexer.InTemplate, Lexer.ofSource, Lexer.ofText])
  refine ⟨⟨last.mode, runs.through?⟩, fun earlier opener inside later split opens none => ?_⟩
  rw [split] at runs
  obtain ⟨here, -, rest⟩ := runs.of_append
  cases rest with
  | @cons _ opened _ _ _ turns rest =>
    have start : opened.depth = 0 := turns.opened opener rfl opens
    have code : opened.mode ≠ .text := by
      intro text
      have turn := turns.mode
      rw [text] at turn
      cases opener <;> cases opens <;> cases mode : here.mode <;> rw [mode] at turn <;> cases turn
    obtain ⟨closing, within, behind⟩ := rest.of_append
    constructor
    · rintro part ⟨others, rfl⟩
      obtain ⟨middle, first, -⟩ := within.of_append
      have counted := first.counted fun marker listed => none marker (by simp [listed])
      omega
    · rintro closer others rfl
      have counted := within.counted none
      cases behind with
      | cons turns _ =>
        -- In code no marker opens code, so this one closes it.
        have closes : closer.opens = false := by
          have turn := turns.mode
          have inCode := within.inCode none code
          cases closer <;> first | rfl | (cases mode : closing.mode <;> simp_all [Mode.behind?])
        have closed := turns.closed closer rfl closes
        omega

/-- An echo with an object and a brace in a string, and a command with a comment that holds
braces. -/
theorem modes_nest_braces :
    ∃ tokens, tokenize true
        "a$\x7b \x7bb: '\x7d'\x7d \x7d\x7b\x7bif /* \x7b */ c\x7d\x7dd\x7b\x7b/if\x7d\x7d".toList
          = .ok tokens ∧
      tokens.length = 17 ∧ ModesNest (tokens.map (·.kind)) := by
  have shape : (tokenize true
      "a$\x7b \x7bb: '\x7d'\x7d \x7d\x7b\x7bif /* \x7b */ c\x7d\x7dd\x7b\x7b/if\x7d\x7d".toList
      ).toOption.map List.length = some 17 := by
    decide +kernel
  cases read : tokenize true
      "a$\x7b \x7bb: '\x7d'\x7d \x7d\x7b\x7bif /* \x7b */ c\x7d\x7dd\x7b\x7b/if\x7d\x7d".toList with
  | error e =>
    rw [read] at shape
    cases shape
  | ok tokens =>
    rw [read] at shape
    exact ⟨tokens, rfl, Option.some.inj shape, modes_nest _ read⟩

end Stencil

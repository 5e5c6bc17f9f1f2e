import Stencil.Proofs.Lexing.Spelling
/-!
# Texts that spell a sequence of tokens

`Spells` relates a sequence of tokens to a text: words with blanks between them, where each word
ends before what stands behind it. The relation follows the state of the lexer, so that a slash is
known to divide or to begin a regular expression, and the braces inside a marker stay balanced.
The lexer reads the tokens back from every such text (`Spells.streams`).
-/

set_option autoImplicit false

namespace Stencil.Lexing

open Stencil.Text

/-! ## Streams of tokens -/

/-- A token, as far as it matters to whoever reads it. -/
structure Face where
  kind : TokenKind
  /-- Whether no line break separates the token from the one before. -/
  joined : Bool := false
  /-- Where the token begins, if that matters. -/
  start : Option Position := none

/-- The end of a text. -/
def endOfText : Face := { kind := .eof }

/-- Whether a token looks like a face. -/
structure Face.Fits (face : Face) (token : Token) : Prop where
  kind : token.kind = face.kind
  joined : face.joined = true → token.afterBreak = false
  start : ∀ p, face.start = some p → token.span.start = p

/-- Whether the next tokens of a lexer look like the faces. Every token but the last takes some of
the text. -/
def Streams : Lexer → List Face → Prop
  | _, [] => True
  | lexer, face :: faces =>
    ∃ token behind, lexer.next = (.ok token, behind) ∧ face.Fits token ∧
      (faces = [] ∨ behind.rest.length < lexer.rest.length) ∧ Streams behind faces

/-- A lexer has at most one token more than its text has characters. -/
theorem Streams.length_le {faces : List Face} :
    ∀ {lexer : Lexer}, Streams lexer faces → faces.length ≤ lexer.rest.length + 1 := by
  induction faces with
  | nil => simp
  | cons face faces ih =>
    rintro lexer ⟨token, behind, -, -, shorter, others⟩
    have bound := ih others
    rcases shorter with rfl | shorter
    · simp
    · simp only [List.length_cons]
      omega

/-! ## Phases -/

/-- The state of the lexer between two tokens, as far as it decides how the text goes on. -/
structure Phase where
  mode : Mode
  /-- The open braces since the mode was entered. -/
  depth : Nat
  /-- Whether a slash begins a regular expression. -/
  regexp : Bool
  /-- Whether a line break was met since the last token. -/
  broke : Bool
  /-- The last token, if nothing stands behind it yet. -/
  last : Option TokenKind
  /-- Whether a carriage return may stand behind a line break. -/
  returns : Bool

namespace Phase

/-- Whether braces are counted. -/
def counts (s : Phase) : Bool := s.mode = .command || s.mode = .echo

/-- The number of open braces behind a token. -/
def depthBehind (s : Phase) (kind : TokenKind) : Nat :=
  match kind with
  | .punctuation '\x7b' => if s.counts then s.depth + 1 else s.depth
  | .punctuation '\x7d' => if s.counts then s.depth - 1 else s.depth
  | _ => s.depth

/-- The phase behind a token. -/
def behind (s : Phase) (kind : TokenKind) : Phase :=
  { s with
    depth := s.depthBehind kind, regexp := kind.precedesExpression, broke := false,
    last := some kind }

/-- The phase behind a text that leaves the open braces as they are. -/
def closed (s : Phase) (kind : TokenKind) : Phase :=
  { s with regexp := kind.precedesExpression, broke := false, last := some kind }

/-- The phase behind a blank. -/
def past (s : Phase) (c : Char) : Phase :=
  { s with broke := s.broke || c = '\n', last := none }

/-- Whether the last token ends before the text. -/
def Admits (s : Phase) (text : List Char) : Prop :=
  ∀ kind, s.last = some kind → StopsBefore kind text

/-- Whether every text may stand behind the last token. -/
def Open (s : Phase) : Prop := ∀ text, s.Admits text

@[simp] theorem closed_past (s : Phase) (c : Char) (kind : TokenKind) :
    (s.past c).closed kind = s.closed kind := rfl

@[simp] theorem closed_closed (s : Phase) (first kind : TokenKind) :
    (s.closed first).closed kind = s.closed kind := rfl

/-- A token that is no brace leaves the open braces as they are. -/
theorem behind_eq_closed (s : Phase) {kind : TokenKind}
    (plain : kind ≠ .punctuation '\x7b' ∧ kind ≠ .punctuation '\x7d') :
    s.behind kind = s.closed kind := by
  unfold behind closed depthBehind
  split
  · exact absurd rfl plain.1
  · exact absurd rfl plain.2
  · rfl

/-- Behind a blank every text may stand. -/
theorem open_past (s : Phase) (c : Char) : (s.past c).Open :=
  fun _ _ last => absurd last (by simp [past])

/-- A text may stand behind a token that ends before its first character. -/
theorem admits_closed {s : Phase} {kind : TokenKind} {c : Char} {rest : List Char}
    (stops : stopsAt kind c = true) : (s.closed kind).Admits (c :: rest) := by
  intro last same d first
  obtain rfl := Option.some.inj same
  obtain rfl := Option.some.inj first
  exact stops

/-- Of a text that may stand here, a beginning may. -/
theorem Admits.of_append {s : Phase} {text more : List Char} (admits : s.Admits (text ++ more))
    (nonempty : text ≠ []) : s.Admits text := by
  intro kind last c first
  apply admits kind last c
  cases text with
  | nil => exact absurd rfl nonempty
  | cons d text => exact first

/-- Of a text that may stand here, its first character may. -/
theorem Admits.head {s : Phase} {c : Char} {more : List Char} (admits : s.Admits (c :: more)) :
    s.Admits [c] :=
  fun kind last d first => admits kind last d first

/-- Whether the token closes no brace that encloses the code. -/
def Holds (s : Phase) (kind : TokenKind) : Prop :=
  match kind with
  | .punctuation '\x7d' => s.counts = true → 0 < s.depth
  | _ => True

end Phase

/-- `Spells s faces text s'`: from the phase `s` the text spells the faces, and leads to the phase
`s'`. A carriage return counts as a blank only behind a line break, and only where it is allowed. -/
inductive Spells : Phase → List Face → List Char → Phase → Prop where
  | nil {s : Phase} : Spells s [] [] s
  | blank {s s' : Phase} {c : Char} {faces : List Face} {text : List Char}
      (blank : isBlank c = true)
      (broken : c = '\r' → s.returns = true ∧ s.broke = true ∧ s.last = none)
      (rest : Spells (s.past c) faces text s') : Spells s faces (c :: text) s'
  | word {s s' : Phase} {face : Face} {word : List Char} {faces : List Face} {text : List Char}
      (spelt : Word s.regexp face.kind word) (admitted : s.Admits word)
      (held : s.Holds face.kind) (joined : face.joined = true → s.broke = false)
      (unplaced : face.start = none)
      (rest : Spells (s.behind face.kind) faces text s') :
      Spells s (face :: faces) (word ++ text) s'

namespace Spells

variable {s s' s'' : Phase} {faces more : List Face} {text after : List Char}

/-- Two texts in a row spell the tokens of both. -/
theorem append (first : Spells s faces text s') (second : Spells s' more after s'') :
    Spells s (faces ++ more) (text ++ after) s'' := by
  induction first with
  | nil => exact second
  | blank blank broken rest ih => exact .blank blank broken (ih second)
  | word spelt admitted held joined unplaced rest ih =>
    rw [List.append_assoc]
    exact .word spelt admitted held joined unplaced (ih second)

/-- What may stand behind the whole text lets the last token before the text end. -/
theorem admits (spelt : Spells s faces text s') (ends : s'.Admits after) :
    s.Admits (text ++ after) := by
  cases spelt with
  | nil => exact ends
  | blank blank =>
    intro kind _ c first
    obtain rfl := Option.some.inj first
    exact stopsAt_blank kind blank
  | word spelt admitted =>
    intro kind last c first
    obtain ⟨d, tail, rfl, -⟩ := spelt.begins
    obtain rfl := Option.some.inj first
    exact admitted kind last _ rfl

end Spells

/-! ## The lexer in a phase -/

/-- The lexer is in the phase, before blanks and the text; the text begins at the place. -/
structure Stands (lexer : Lexer) (s : Phase) (place : Position) (text : List Char) : Prop where
  code : s.mode ≠ .text
  mode : lexer.mode = s.mode
  depth : lexer.depth = s.depth
  regexp : lexer.regexpAllowed = s.regexp
  fresh : lexer.sawBreak = false
  blanks : ∃ blanks, lexer.rest = blanks ++ text ∧ lexer.place.after blanks = place ∧
    blanks.all isBlank = true ∧ s.broke = blanks.contains '\n'

/-- The lexer behind blanks, at the beginning of a token. -/
def settled (lexer : Lexer) (blanks : List Char) : Lexer :=
  (lexer.skip blanks.length).mark

/-- Of a text, as many characters are taken as belong to the blanks before it. -/
theorem takeWhile_blanks {blanks text : List Char} (all : blanks.all isBlank = true)
    (ends : ∀ c, text.head? = some c → isBlank c = false) :
    (blanks ++ text).takeWhile isBlank = blanks := by
  rw [List.takeWhile_append_of_pos (List.all_eq_true.1 all)]
  cases text with
  | nil => simp
  | cons c text => simp [ends c rfl]

/-- Blanks before a token are skipped. -/
theorem next_of_blanks {lexer : Lexer} {blanks text : List Char} (code : lexer.mode ≠ .text)
    (rest : lexer.rest = blanks ++ text) (all : blanks.all isBlank = true)
    (ends : ∀ c, text.head? = some c → isBlank c = false) (plain : BeginsNoComment text) :
    lexer.next = (settled lexer blanks).readToken := by
  have skipped : lexer.skipBlanks.mark = settled lexer blanks := by
    rw [Lexer.skipBlanks, rest, takeWhile_blanks all ends]
    rfl
  have text_ : (settled lexer blanks).rest = text := by
    simp [settled, Lexer.mark, Lexer.skip, Lexer.cross, rest]
  have none_ : (settled lexer blanks).comment? = none := by
    have mode : (settled lexer blanks).mode ≠ .text := code
    unfold Lexer.comment?
    rw [if_neg mode, text_]
    split
    · rename_i more
      exact absurd rfl (plain more).1
    · rename_i more
      exact absurd rfl (plain more).2
    · rfl
  unfold Lexer.next Lexer.skipTrivia Lexer.skipTriviaWithin
  simp only [if_neg code, skipped, none_]

section Stands

variable {lexer : Lexer} {s : Phase} {place : Position}

/-- The lexer across one more blank. -/
theorem Stands.past {c : Char} {text : List Char} (stands : Stands lexer s place (c :: text))
    (blank : isBlank c = true) : Stands lexer (s.past c) (place.next c) text := by
  obtain ⟨blanks, rest, behind, all, broke⟩ := stands.blanks
  refine
    { code := stands.code, mode := stands.mode, depth := stands.depth, regexp := stands.regexp,
      fresh := stands.fresh, blanks := ⟨blanks ++ [c], ?_, ?_, ?_, ?_⟩ }
  · rw [rest, List.append_assoc]
    rfl
  · rw [Position.after_append, behind]
    rfl
  · rw [List.all_append, all]
    simp [blank]
  · simp only [Phase.past, broke, List.contains_eq_mem, List.mem_append, List.mem_singleton,
      Bool.decide_or]
    congr 1
    exact decide_eq_decide.2 eq_comm

/-- Code is read after its brace was counted. -/
theorem readToken_code {kind : TokenKind} {c : Char} {following : List Char}
    (rest : lexer.rest = c :: following) (code : s.mode ≠ .text) (mode : lexer.mode = s.mode)
    (depth : lexer.depth = s.depth) (held : s.Holds kind)
    (braces : ∀ brace, brace = '\x7b' ∨ brace = '\x7d' → (c = brace ↔ kind = .punctuation brace)) :
    lexer.readToken = ({ lexer with depth := s.depthBehind kind }).readCode c following := by
  have counting : lexer.countsBraces = s.counts := by
    rw [Lexer.countsBraces, mode]
    rfl
  unfold Lexer.readToken
  rw [rest]
  simp only [if_neg (mode ▸ code : lexer.mode ≠ .text), counting]
  by_cases opening : c = '\x7b'
  · obtain rfl := (braces _ (.inl rfl)).1 opening
    subst opening
    cases counts : s.counts with
    | true => simp only [Phase.depthBehind, counts, ← depth, decide_true, Bool.and_self, if_true]
    | false =>
      simp only [Phase.depthBehind, counts, ← depth, Bool.and_false, Bool.false_eq_true, if_false]
      rw [← rest]
  · by_cases closing : c = '\x7d'
    · obtain rfl := (braces _ (.inr rfl)).1 closing
      subst closing
      cases counts : s.counts with
      | true =>
        have inside : lexer.depth ≠ 0 := by
          have : 0 < s.depth := held counts
          omega
        simp only [Phase.depthBehind, counts, ← depth, opening, decide_true, decide_false,
          Bool.and_true, if_true, if_neg inside]
        simp only [Bool.false_eq_true, if_false]
      | false =>
        simp only [Phase.depthBehind, counts, ← depth, Bool.and_false, Bool.false_eq_true, if_false]
        rw [← rest]
    · have plain : s.depthBehind kind = s.depth := by
        unfold Phase.depthBehind
        split
        · exact absurd ((braces _ (.inl rfl)).2 rfl) opening
        · exact absurd ((braces _ (.inr rfl)).2 rfl) closing
        · rfl
      simp only [opening, closing, decide_false, Bool.false_and, Bool.false_eq_true, if_false,
        plain, ← depth]
      rw [← rest]

/-- A word at the place is the next token. -/
theorem Stands.next {kind : TokenKind} {word after : List Char}
    (stands : Stands lexer s place (word ++ after)) (spelt : Word s.regexp kind word)
    (held : s.Holds kind) (stops : StopsBefore kind after) :
    ∃ token behind, lexer.next = (.ok token, behind) ∧ token.kind = kind ∧
      token.afterBreak = s.broke ∧ behind.rest.length < lexer.rest.length ∧
      Stands behind (s.behind kind) (place.after word) after := by
  obtain ⟨blanks, rest, at_, all, broke⟩ := stands.blanks
  obtain ⟨c, tail, rfl, blank, -, braces⟩ := spelt.begins
  have skipped : lexer.next = (settled lexer blanks).readToken := by
    apply next_of_blanks (stands.mode ▸ stands.code) rest all
    · intro d first
      obtain rfl := Option.some.inj first
      exact blank
    · exact spelt.beginsNoComment stops
  -- The lexer that reads the word has counted the brace, if the word is one.
  let reader : Lexer := { settled lexer blanks with depth := s.depthBehind kind }
  have text : reader.rest = (c :: tail) ++ after := by
    simp [reader, settled, Lexer.mark, Lexer.skip, Lexer.cross, rest]
  have dispatched : (settled lexer blanks).readToken = reader.readCode c (tail ++ after) :=
    readToken_code text stands.code stands.mode stands.depth held braces
  obtain ⟨d, more, same, read⟩ :=
    readCode_spelt (show Word reader.regexpAllowed kind _ from stands.regexp ▸ spelt) stops text
  obtain ⟨rfl, rfl⟩ := List.cons.inj same
  refine ⟨_, _, skipped.trans (dispatched.trans read), rfl, ?_, ?_, ?_⟩
  · simp [reader, settled, Lexer.mark, Lexer.skip, Lexer.cross, rest, stands.fresh, broke]
  · have shorter : (reader.cross (c :: tail).length).rest = after := by
      rw [rest_cross, text, List.drop_left]
    show (reader.cross (c :: tail).length).rest.length < lexer.rest.length
    rw [shorter, rest]
    simp
    omega
  · refine
      { code := stands.code, mode := stands.mode, depth := rfl, regexp := rfl, fresh := rfl,
        blanks := ⟨[], ?_, ?_, rfl, rfl⟩ }
    · show (reader.cross (c :: tail).length).rest = after
      rw [rest_cross, text, List.drop_left]
    · have begun : reader.place = place := by
        simp [reader, settled, Lexer.mark, Lexer.skip, Lexer.cross, rest, at_]
      show reader.place.after (reader.rest.take (c :: tail).length) = _
      rw [text, begun, List.take_left]

end Stands

/-! ## One word -/

section

variable {lexer : Lexer}

/-- Without blanks the token begins at the place. -/
theorem settled_nil (lexer : Lexer) : settled lexer [] = lexer.mark := by
  simp [settled, Lexer.skip, Lexer.cross]

/-- In code, a word at the place of the lexer is the next token, and the lexer is then behind it. A
brace is left out, for it may be counted. -/
theorem next_spelt {kind : TokenKind} {word after : List Char} (code : lexer.mode ≠ .text)
    (rest : lexer.rest = word ++ after) (spelt : Word lexer.regexpAllowed kind word)
    (stops : StopsBefore kind after)
    (unbraced : kind ≠ .punctuation '\x7b' ∧ kind ≠ .punctuation '\x7d') :
    lexer.next =
      (.ok
        { kind
          span := ⟨lexer.place, lexer.place.after word⟩
          afterBreak := lexer.sawBreak
          comments := lexer.comments },
        { lexer with
          rest := after
          place := lexer.place.after word
          start := lexer.place
          sawBreak := false
          regexpAllowed := kind.precedesExpression
          comments := [] }) := by
  obtain ⟨c, tail, rfl, blank, -, braces⟩ := spelt.begins
  have skipped : lexer.next = (settled lexer []).readToken := by
    refine next_of_blanks code rest rfl ?_ (spelt.beginsNoComment stops)
    intro d first
    obtain rfl := Option.some.inj first
    exact blank
  have opening : c ≠ '\x7b' := fun same => unbraced.1 ((braces _ (.inl rfl)).1 same)
  have closing : c ≠ '\x7d' := fun same => unbraced.2 ((braces _ (.inr rfl)).1 same)
  have mode : lexer.mark.mode ≠ .text := code
  have text : lexer.mark.rest = (c :: tail) ++ after := rest
  obtain ⟨d, more, same, read⟩ :=
    readCode_spelt (show Word lexer.mark.regexpAllowed kind _ from spelt) stops text
  obtain ⟨rfl, rfl⟩ := List.cons.inj same
  have dispatched : lexer.mark.readToken = (lexer.mark.cross (c :: tail).length).token kind := by
    rw [← read, Lexer.readToken, text]
    simp [mode, opening, closing]
  rw [skipped, settled_nil, dispatched]
  have crossed : lexer.mark.cross (c :: tail).length
      = { lexer with rest := after, place := lexer.place.after (c :: tail), start := lexer.place } := by
    simp only [Lexer.cross, text, List.drop_left, List.take_left]
    rfl
  rw [crossed]
  rfl

/-- In code, at the end of the text, the next token is the end. -/
theorem next_ended (code : lexer.mode ≠ .text) (rest : lexer.rest = []) :
    ∃ behind, lexer.next =
      (.ok
        { kind := .eof
          span := .point lexer.place
          afterBreak := lexer.sawBreak
          comments := lexer.comments }, behind) := by
  have skipped : lexer.next = (settled lexer []).readToken :=
    next_of_blanks code rest rfl (by simp) (beginsNoComment_of_head (by simp))
  have nothing : lexer.mark.rest = [] := rest
  rw [skipped, settled_nil, Lexer.readToken, nothing]
  exact ⟨_, rfl⟩

end

/-! ## Streams of words -/

/-- The lexer reads the tokens back from a text that spells them, and is then before what stands
behind the text. -/
theorem Spells.streams {s s' : Phase} {faces : List Face} {text : List Char}
    (spelt : Spells s faces text s') {lexer : Lexer} {place : Position} {after : List Char}
    {more : List Face} (stands : Stands lexer s place (text ++ after)) (ends : s'.Admits after)
    (others : ∀ behind, Stands behind s' (place.after text) after → Streams behind more) :
    Streams lexer (faces ++ more) := by
  induction spelt generalizing lexer place with
  | nil => exact others lexer stands
  | blank blank broken rest ih => exact ih (stands.past blank) ends others
  | @word s s' face word faces text spelt admitted held joined unplaced rest ih =>
    rw [List.append_assoc] at stands
    have stops : StopsBefore face.kind (text ++ after) := rest.admits ends _ rfl
    obtain ⟨token, behind, read, kind, broke, shorter, stands⟩ := stands.next spelt held stops
    refine ⟨token, behind, read, ⟨kind, ?_, ?_⟩, .inr shorter, ih stands ends ?_⟩
    · intro known
      rw [broke]
      exact joined known
    · intro p placed
      rw [unplaced] at placed
      exact absurd placed (by simp)
    · intro behind stands
      rw [← Position.after_append] at stands
      exact others behind stands

end Stencil.Lexing

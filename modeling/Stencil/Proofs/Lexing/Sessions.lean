import Mathlib.Tactic.SplitIfs
import Stencil.Proofs.Lexing.Positions
import Stencil.Token.Lexer
/-!
# Positions over a session of calls

A lexer can be asked for tokens, made to read the last one again as a regular expression, kept
and put back, in any order and after errors too. Every position it reports on the way is true of
the normalized text.

What carries the proof is `Lexer.Placed`: the lexer's text is a rest of the whole text, its
place stands where that rest begins, the token in hand began at or before the place, and the
comments it keeps lie in the text. Readers move only by `cross` and `skip`, which go over whole
characters, so one lemma for each of these carries the invariant through every reader and every
error path.
-/

set_option autoImplicit false

namespace Stencil.Lexer

open Stencil.Error (Fault ParseError)
open Stencil.Text

/-! ## Sessions -/

/-- A call on a lexer. -/
inductive Call where
  /-- Read the next token. -/
  | next
  /-- Read the last token again, as a regular expression whose pattern starts with the text. -/
  | reread (lead : String)
  /-- Keep the lexer as it is. -/
  | save
  /-- Put back the lexer that was kept at the given turn. -/
  | restore (turn : Nat)

/-- A lexer in use, with those that were kept of it. -/
structure Session where
  lexer : Lexer
  /-- The lexers kept so far, the first one first. -/
  saved : List Lexer

namespace Session

/-- The session at the start of a source. -/
def start (template : Bool) (source : List Char) : Session :=
  ⟨ofSource template source, []⟩

/-- What a call returns, if it reads, and the session behind it. Only a lexer that was kept can
be put back. -/
def call (session : Session) : Call → Option (Except ParseError Token) × Session
  | .next => (some session.lexer.next.1, { session with lexer := session.lexer.next.2 })
  | .reread lead =>
    (some (session.lexer.rereadRegexp lead).1,
      { session with lexer := (session.lexer.rereadRegexp lead).2 })
  | .save => (none, { session with saved := session.saved ++ [session.lexer] })
  | .restore turn => (none, { session with lexer := session.saved[turn]?.getD session.lexer })

/-- What a sequence of calls returns, and the session behind them. -/
def run (session : Session) : List Call → List (Except ParseError Token) × Session
  | [] => ([], session)
  | call :: calls =>
    let behind := (session.call call).2.run calls
    ((session.call call).1.toList ++ behind.1, behind.2)

/-- The tokens and errors that a sequence of calls on a new lexer returns. -/
def answers (template : Bool) (source : List Char) (calls : List Call) :
    List (Except ParseError Token) :=
  ((start template source).run calls).1

/-- The lexer behind a sequence of calls on a new lexer. -/
def behind (template : Bool) (source : List Char) (calls : List Call) : Lexer :=
  ((start template source).run calls).2.lexer

end Session

/-- The spans in what a call returns. -/
def spansOf : Except ParseError Token → List Span
  | .ok token => token.span :: token.comments.map (·.span)
  | .error e => e.span :: e.related.toList

/-! ## The invariant -/

/-- The lexer stands in the text where its counts say, and so does what it keeps. -/
structure Placed (text : List Char) (lexer : Lexer) : Prop where
  /-- The token in hand goes from its beginning to the place; the rest follows. -/
  token : ∃ before piece, text = before ++ piece ++ lexer.rest ∧
    lexer.span = Span.around before piece
  /-- The comments since the last token lie in the text. -/
  comments : ∀ comment ∈ lexer.comments, comment.span.LiesIn text

/-- What a step reports lies in the text, and the lexer behind it is placed. -/
structure Reports (text : List Char) (step : Step) : Prop where
  spans : ∀ span ∈ spansOf step.1, span.LiesIn text
  behind : Placed text step.2

variable {text : List Char} {lexer : Lexer}

/-- A lexer at the start of a text is placed. -/
theorem placed_ofText (template : Bool) (text : List Char) :
    Placed text (ofText template text) where
  token := ⟨[], [], by simp [ofText], rfl⟩
  comments := by simp [ofText]

/-- The invariant speaks of the rest, the token in hand and the comments only. -/
theorem Placed.of_same (placed : Placed text lexer) {other : Lexer}
    (rest : other.rest = lexer.rest) (span : other.span = lexer.span)
    (comments : other.comments = lexer.comments) : Placed text other where
  token := by simpa only [rest, span] using placed.token
  comments := by simpa only [comments] using placed.comments

/-- The token in hand lies in the text. -/
theorem Placed.span (placed : Placed text lexer) : lexer.span.LiesIn text := by
  obtain ⟨before, piece, eq, span⟩ := placed.token
  exact ⟨before, piece, lexer.rest, eq, span⟩

/-- The place stands where the rest begins. -/
theorem Placed.place (placed : Placed text lexer) :
    ∃ before, text = before ++ lexer.rest ∧ lexer.place = Position.origin.after before := by
  obtain ⟨before, piece, eq, span⟩ := placed.token
  exact ⟨before ++ piece, eq, congrArg Span.stop span⟩

/-- Crossing characters prolongs the token in hand by them. -/
theorem Placed.cross (placed : Placed text lexer) (count : Nat) :
    Placed text (lexer.cross count) where
  token := by
    obtain ⟨before, piece, eq, span⟩ := placed.token
    refine ⟨before, piece ++ lexer.rest.take count, ?_, ?_⟩
    · simp [Lexer.cross, eq]
    · have start : lexer.start = Position.origin.after before := congrArg Span.start span
      have place : lexer.place = Position.origin.after (before ++ piece) :=
        congrArg Span.stop span
      simp only [Lexer.span, Lexer.cross, Span.around, start, place, ← Position.after_append,
        List.append_assoc]
  comments := placed.comments

/-- Skipping is crossing, but for the note of line breaks. -/
theorem Placed.skip (placed : Placed text lexer) (count : Nat) :
    Placed text (lexer.skip count) :=
  (placed.cross count).of_same rfl rfl rfl

/-- A token that is begun is empty. -/
theorem Placed.mark (placed : Placed text lexer) : Placed text lexer.mark where
  token := by
    obtain ⟨before, eq, place⟩ := placed.place
    exact ⟨before, [], by simpa [Lexer.mark] using eq, by simp [Lexer.mark, Lexer.span, Span.around, place]⟩
  comments := placed.comments

/-- A comment is kept with the span of the token in hand. -/
theorem Placed.addComment (placed : Placed text lexer) (kind : CommentKind)
    (written : List Char) : Placed text (lexer.addComment kind written) where
  token := placed.token
  comments := by
    intro comment mem
    rcases List.mem_append.1 mem with mem | mem
    · exact placed.comments comment mem
    · rw [List.mem_singleton.1 mem]
      exact placed.span

/-- Ending a token reports the token in hand and the comments before it. -/
theorem Placed.reportsToken (placed : Placed text lexer) (kind : TokenKind) :
    Reports text (lexer.token kind) where
  spans := by
    intro span mem
    rcases List.mem_cons.1 mem with rfl | mem
    · exact placed.span
    · obtain ⟨comment, kept, rfl⟩ := List.mem_map.1 mem
      exact placed.comments comment kept
  behind := { token := placed.token, comments := by simp [Lexer.token] }

/-- A fault is reported at the token in hand. -/
theorem Placed.reportsFault (placed : Placed text lexer) (cause : Fault) :
    Reports text (lexer.fault cause) where
  spans := by
    intro span mem
    obtain rfl : span = lexer.span := by simpa [spansOf, Lexer.fault, ParseError.ofFault] using mem
    exact placed.span
  behind := placed

/-- A reader's result is reported behind what it went over, and so is its fault. -/
theorem Placed.accept {α : Type} (placed : Placed text lexer) (scan : Scan α)
    (kind : α → TokenKind) : Reports text (lexer.accept scan kind) := by
  unfold Lexer.accept
  cases scan.outcome with
  | ok result => exact (placed.cross scan.width).reportsToken (kind result)
  | error cause => exact (placed.cross scan.width).reportsFault cause

/-! ## Readers -/

/-- Entering code reports the marker. -/
theorem Placed.enter (placed : Placed text lexer) (mode : Mode) (marker : Marker) :
    Reports text (lexer.enter mode marker) := by
  unfold Lexer.enter
  apply Placed.reportsToken
  exact (placed.skip _).of_same rfl rfl rfl

/-- A verbatim block is reported, complete or not. -/
theorem Placed.readVerbatim (placed : Placed text lexer) : Reports text lexer.readVerbatim := by
  unfold Lexer.readVerbatim
  dsimp only
  split
  · split
    · exact (((placed.skip _).skip _).skip 2).reportsFault _
    · exact ((((placed.skip _).skip _).skip 2).skip _).reportsToken _
  · exact ((placed.skip _).skip _).reportsFault _

/-- Text and markers are reported. -/
theorem Placed.readText (placed : Placed text lexer) : Reports text lexer.readText := by
  unfold Lexer.readText
  split
  · exact placed.enter _ _
  · split
    · exact placed.readVerbatim
    · exact placed.enter _ _
    · exact placed.enter _ _
    · exact (placed.skip _).reportsToken _

/-- The end of a command or an echo is reported. -/
theorem Placed.closeCode (placed : Placed text lexer) : Reports text lexer.closeCode := by
  unfold Lexer.closeCode
  dsimp only
  split
  · split
    · apply Placed.reportsToken
      exact ((placed.skip 1).skip 1).of_same rfl rfl rfl
    · exact (placed.skip 1).reportsFault _
  · apply Placed.reportsToken
    exact (placed.skip 1).of_same rfl rfl rfl

/-- A token of code is reported. -/
theorem Placed.readCode (placed : Placed text lexer) (c : Char) (following : List Char) :
    Reports text (lexer.readCode c following) := by
  unfold Lexer.readCode
  dsimp only
  split_ifs
  · exact placed.accept _ _
  · exact (placed.cross 1).accept _ _
  · exact (placed.cross 1).reportsToken _
  · exact (placed.cross 1).accept _ _
  · exact placed.accept _ _
  · exact placed.accept _ _
  · exact placed.accept _ _
  · exact placed.accept _ _
  · exact (placed.cross 1).reportsToken _
  · exact placed.accept _ _
  · exact placed.reportsFault _

/-- The token at the place is reported, in every mode. -/
theorem Placed.readToken (placed : Placed text lexer) : Reports text lexer.readToken := by
  unfold Lexer.readToken
  split
  · exact placed.reportsToken .eof
  · split_ifs
    · exact placed.readText
    · apply Placed.readCode
      exact placed.of_same rfl rfl rfl
    · exact placed.closeCode
    · apply Placed.readCode
      exact placed.of_same rfl rfl rfl
    · exact placed.readCode _ _

/-- Blanks are crossed. -/
theorem Placed.skipBlanks (placed : Placed text lexer) : Placed text lexer.skipBlanks :=
  placed.skip _

/-- Behind a comment, and behind the opening of one that does not end, the lexer is placed. -/
theorem Placed.comment? (placed : Placed text lexer) {outcome : Except Fault Unit × Lexer}
    (read : lexer.comment? = some outcome) : Placed text outcome.2 := by
  unfold Lexer.comment? at read
  dsimp only at read
  split at read
  · split at read
    · split at read
      · cases read
        exact placed.skip 3
      · cases read
        exact (((placed.skip 3).skip _).addComment _ _).of_same rfl rfl rfl
    · cases read
  · split at read
    · cases read
      exact ((placed.skip 2).skip _).addComment _ _
    · split at read
      · cases read
        exact placed.skip 2
      · cases read
        exact ((placed.skip 2).skip _).addComment _ _
    · cases read

/-- Moving across blanks and comments keeps the lexer placed, also when a comment does not
end: by induction on the bound of the comments. -/
theorem Placed.skipTriviaWithin (placed : Placed text lexer) (n : Nat) :
    Placed text (lexer.skipTriviaWithin n).2 := by
  induction n generalizing lexer with
  | zero => exact placed.mark
  | succ n ih =>
    have marked : Placed text (if lexer.mode = .text then lexer else lexer.skipBlanks).mark := by
      split
      · exact placed.mark
      · exact placed.skipBlanks.mark
    unfold Lexer.skipTriviaWithin
    dsimp only
    split
    · next behind read => exact ih (marked.comment? read)
    · next cause behind read => exact marked.comment? read
    · exact marked

/-- The next token or error is reported. -/
theorem Placed.next (placed : Placed text lexer) : Reports text lexer.next := by
  have moved : Placed text lexer.skipTrivia.2 := placed.skipTriviaWithin _
  unfold Lexer.next
  split
  · next skipped eq =>
    rw [eq] at moved
    exact moved.readToken
  · next cause skipped eq =>
    rw [eq] at moved
    exact moved.reportsFault cause

/-- Reading again as a regular expression is reported. -/
theorem Placed.rereadRegexp (placed : Placed text lexer) (lead : String) :
    Reports text (lexer.rereadRegexp lead) :=
  placed.accept _ _

/-! ## Every call of a session -/

/-- Everything a session holds is placed. -/
structure Session.Placed (text : List Char) (session : Session) : Prop where
  lexer : Lexer.Placed text session.lexer
  saved : ∀ kept ∈ session.saved, Lexer.Placed text kept

variable {session : Session}

/-- The session at the start of a source. -/
theorem Session.placed_start (template : Bool) (source : List Char) :
    (start template source).Placed (normalize source) :=
  ⟨placed_ofText template (normalize source), by simp [start]⟩

/-- One call keeps the session placed. -/
theorem Session.Placed.call (placed : session.Placed text) (call : Call) :
    (session.call call).2.Placed text := by
  cases call with
  | next => exact ⟨placed.lexer.next.behind, placed.saved⟩
  | reread lead => exact ⟨(placed.lexer.rereadRegexp lead).behind, placed.saved⟩
  | save =>
    refine ⟨placed.lexer, ?_⟩
    intro kept mem
    rcases List.mem_append.1 mem with mem | mem
    · exact placed.saved kept mem
    · rw [List.mem_singleton.1 mem]
      exact placed.lexer
  | restore turn =>
    refine ⟨?_, placed.saved⟩
    show Lexer.Placed text (session.saved[turn]?.getD session.lexer)
    cases found : session.saved[turn]? with
    | none => exact placed.lexer
    | some kept => exact placed.saved kept (List.mem_of_getElem? found)

/-- What a sequence of calls returns, a lexer returned that is placed in the text: by induction on the
calls, each of which keeps the session placed. -/
theorem Session.Placed.mem_run (placed : session.Placed text) {calls : List Call}
    {answer : Except ParseError Token} (listed : answer ∈ (session.run calls).1) :
    ∃ lexer : Lexer, Lexer.Placed text lexer ∧
      (answer = lexer.next.1 ∨ ∃ lead, answer = (lexer.rereadRegexp lead).1) := by
  induction calls generalizing session with
  | nil => exact absurd listed List.not_mem_nil
  | cons call calls ih =>
    rcases List.mem_append.1 listed with listed | listed
    · refine ⟨session.lexer, placed.lexer, ?_⟩
      cases call with
      | next => exact .inl (by simpa [Session.call] using listed)
      | reread lead => exact .inr ⟨lead, by simpa [Session.call] using listed⟩
      | save => simp [Session.call] at listed
      | restore turn => simp [Session.call] at listed
    · exact ih (placed.call call) listed

/-- A sequence of calls keeps the session placed. -/
theorem Session.Placed.behind (placed : session.Placed text) (calls : List Call) :
    (session.run calls).2.Placed text := by
  induction calls generalizing session with
  | nil => exact placed
  | cons call calls ih => exact ih (placed.call call)

/-- A sequence of calls: what it returns lies in the text, and the session stays placed. -/
theorem Session.Placed.run (placed : session.Placed text) (calls : List Call) :
    (∀ answer ∈ (session.run calls).1, ∀ span ∈ spansOf answer, span.LiesIn text) ∧
      (session.run calls).2.Placed text := by
  refine ⟨?_, placed.behind calls⟩
  intro answer listed
  obtain ⟨lexer, placed, rfl | ⟨lead, rfl⟩⟩ := placed.mem_run listed
  · exact placed.next.spans
  · exact (placed.rereadRegexp lead).spans

/-- The bytes of the whole text between two places ahead of a lexer are those of the characters
between them, and both places are boundaries of characters. -/
theorem Placed.slice (placed : Placed text lexer) {first last : Nat} (ordered : first ≤ last) :
    (lexer.cross first).place.TrueIn text ∧ (lexer.cross last).place.TrueIn text ∧
      (String.ofList text).toByteArray.extract
          (lexer.cross first).place.byte (lexer.cross last).place.byte
        = (String.ofList ((lexer.rest.drop first).take (last - first))).toByteArray := by
  obtain ⟨before, eq, place⟩ := placed.place
  have cut : lexer.rest.take last
      = lexer.rest.take first ++ (lexer.rest.drop first).take (last - first) := by
    rw [← List.take_add, Nat.add_sub_cancel' ordered]
  have whole : text = before ++ lexer.rest.take first
      ++ (lexer.rest.drop first).take (last - first) ++ lexer.rest.drop last := by
    rw [List.append_assoc before, ← cut, List.append_assoc, List.take_append_drop, eq]
  have around : Span.around (before ++ lexer.rest.take first)
      ((lexer.rest.drop first).take (last - first))
        = ⟨(lexer.cross first).place, (lexer.cross last).place⟩ := by
    simp only [Span.around, Lexer.cross, place, ← Position.after_append, List.append_assoc, ← cut]
  have lies : Span.LiesIn text ⟨(lexer.cross first).place, (lexer.cross last).place⟩ :=
    ⟨_, _, _, whole, around.symm⟩
  refine ⟨lies.start, lies.stop, ?_⟩
  have slice := extract_around (before ++ lexer.rest.take first)
    ((lexer.rest.drop first).take (last - first)) (lexer.rest.drop last)
  rwa [← whole, around] at slice

/-- Whatever is called on a lexer, in whatever order and after whatever error: the positions in
every token, comment and error it returns are boundaries of characters of the normalized text
and count the bytes, the line feeds and the characters since the last line feed before them, and
no span ends before it starts. Wherever the lexer then stands, the text cut at any two places it
can read up to is cut at boundaries of characters, and is the characters between them. -/
theorem positions_true (template : Bool) (source : List Char) (calls : List Call) :
    (∀ answer ∈ Session.answers template source calls, ∀ span ∈ spansOf answer,
      span.start.TrueIn (normalize source) ∧ span.stop.TrueIn (normalize source) ∧
        span.start.byte ≤ span.stop.byte ∧
        String.Pos.Raw.IsValid (String.ofList (normalize source)) ⟨span.start.byte⟩ ∧
        String.Pos.Raw.IsValid (String.ofList (normalize source)) ⟨span.stop.byte⟩) ∧
    ∀ first last : Nat, first ≤ last →
      let lexer := Session.behind template source calls
      let text := String.ofList (normalize source)
      String.Pos.Raw.IsValid text ⟨(lexer.cross first).place.byte⟩ ∧
        String.Pos.Raw.IsValid text ⟨(lexer.cross last).place.byte⟩ ∧
        text.toByteArray.extract (lexer.cross first).place.byte (lexer.cross last).place.byte
          = (String.ofList ((lexer.rest.drop first).take (last - first))).toByteArray := by
  have placed : (Session.start template source).Placed (normalize source) :=
    ⟨placed_ofText template (normalize source), by simp [Session.start]⟩
  obtain ⟨reported, behind⟩ := placed.run calls
  refine ⟨?_, ?_⟩
  · intro answer mem span inside
    have lies := reported answer mem span inside
    exact ⟨lies.start, lies.stop, lies.ordered, lies.start.boundary, lies.stop.boundary⟩
  · intro first last ordered
    obtain ⟨start, stop, slice⟩ := behind.lexer.slice ordered
    exact ⟨start.boundary, stop.boundary, slice⟩

end Stencil.Lexer

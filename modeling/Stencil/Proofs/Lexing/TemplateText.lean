import Stencil.Proofs.Lexing.Breaks
/-!
# The text of templates

`Tells` relates a text that begins outside of markers to the tokens the lexer reads from it, with
the places where they begin. It is built up from the end of the text: plain text before a marker,
a verbatim block, or code between two markers is put before a text that is told already.
-/

set_option autoImplicit false

namespace Stencil.Lexing

open Stencil.Text

/-! ## Finding markers -/

/-- Whether plain text may end before a text: nothing follows, or a marker. -/
def BeginsMarker (text : List Char) : Prop := text = [] ∨ startsMarker text = true

/-- A marker begins with two braces or with a dollar sign and a brace. -/
theorem BeginsMarker.cases {text : List Char} (begins : BeginsMarker text) :
    text = [] ∨ (∃ rest, text = '$' :: '\x7b' :: rest) ∨ ∃ rest, text = '\x7b' :: '\x7b' :: rest := by
  rcases begins with rfl | begins
  · exact .inl rfl
  unfold startsMarker at begins
  split at begins
  · exact .inr (.inl ⟨_, rfl⟩)
  unfold CommandMarker.at? at begins
  split at begins
  · exact .inr (.inr ⟨_, rfl⟩)
  · exact .inr (.inr ⟨_, rfl⟩)
  · exact absurd begins (by simp)

/-- Before a marker there may be neither a further character of a command nor one that ends it. -/
theorem BeginsMarker.head {text : List Char} (begins : BeginsMarker text) :
    ∀ c, text.head? = some c → CommandMarker.isNameChar c = false ∧
      CommandMarker.isFollower c = false ∧ c ≠ '/' := by
  intro c first
  rcases begins.cases with rfl | ⟨rest, rfl⟩ | ⟨rest, rfl⟩
  · exact absurd first (by simp)
  · obtain rfl := Option.some.inj first
    decide
  · obtain rfl := Option.some.inj first
    decide

/-- The command named at the beginning of a text: the name, and the character behind it. -/
theorem named?_eq {name rest : List Char} (closing : Bool)
    (all : ∀ c ∈ name, CommandMarker.isNameChar c = true)
    (ends : ∀ c, rest.head? = some c → CommandMarker.isNameChar c = false) :
    CommandMarker.named? closing (name ++ rest) =
      rest.head?.bind fun follower => (Command.ofSpelling? name).bind fun command =>
        if CommandMarker.isFollower follower && (!closing || command.isBlock) then
          some ⟨closing, command⟩
        else none := by
  have taken : (name ++ rest).takeWhile CommandMarker.isNameChar = name := by
    rw [List.takeWhile_append_of_pos all]
    cases rest with
    | nil => simp
    | cons c rest => simp [ends c rfl]
  unfold CommandMarker.named?
  simp only [taken, List.drop_left]
  cases rest with
  | nil => rfl
  | cons c rest =>
    cases Command.ofSpelling? name with
    | none => rfl
    | some command => rfl

/-- Which command a text names does not depend on a marker behind it. -/
theorem named?_append {text after : List Char} (begins : BeginsMarker after) (closing : Bool) :
    CommandMarker.named? closing (text ++ after) = CommandMarker.named? closing text := by
  have parts := List.takeWhile_append_dropWhile (p := CommandMarker.isNameChar) (l := text)
  have all : ∀ c ∈ text.takeWhile CommandMarker.isNameChar, CommandMarker.isNameChar c = true :=
    List.all_eq_true.1 List.all_takeWhile
  have ends : ∀ c, (text.dropWhile CommandMarker.isNameChar).head? = some c →
      CommandMarker.isNameChar c = false := by
    intro c first
    have := List.head?_dropWhile_not CommandMarker.isNameChar text
    rw [first] at this
    simpa using this
  generalize text.takeWhile CommandMarker.isNameChar = name at parts all
  generalize text.dropWhile CommandMarker.isNameChar = rest at parts ends
  subst parts
  cases rest with
  | nil =>
    -- A marker does not begin with a character that may follow a name.
    rw [List.append_nil, named?_eq closing all fun c first => (begins.head c first).1]
    have bare := @named?_eq _ [] closing all (by simp)
    rw [List.append_nil] at bare
    rw [bare]
    cases after with
    | nil => rfl
    | cons c after =>
      cases Command.ofSpelling? name with
      | none => rfl
      | some command => simp [(begins.head c rfl).2.1]
  | cons c rest =>
    rw [List.append_assoc, named?_eq closing all ends,
      @named?_eq _ (c :: rest ++ after) closing all fun d first => ends d first]
    rfl

/-- Two braces without a slash behind them begin the marker of a command. -/
theorem at?_command {rest : List Char} (other : rest.head? ≠ some '/') :
    CommandMarker.at? ('\x7b' :: '\x7b' :: rest) = CommandMarker.named? false rest := by
  unfold CommandMarker.at?
  split
  · rename_i same
    obtain rfl := (List.cons.inj (List.cons.inj same).2).2
    exact absurd rfl other
  · rename_i same
    obtain rfl := (List.cons.inj (List.cons.inj same).2).2
    rfl
  · rename_i apart
    exact absurd rfl (apart _)

/-- The characters of commands, and those that may follow them. -/
theorem command_chars (command : Command) :
    (∀ c ∈ command.spelling.toList, CommandMarker.isNameChar c = true ∧ c ≠ '/') ∧
      Command.ofSpelling? command.spelling.toList = some command := by
  have table : ∀ command ∈ Command.all,
      (∀ c ∈ command.spelling.toList, CommandMarker.isNameChar c = true ∧ c ≠ '/') ∧
        Command.ofSpelling? command.spelling.toList = some command := by
    decide
  exact table command (by cases command <;> decide)

/-- What may follow the name of a command is no part of it. -/
theorem isNameChar_follower {c : Char} (follower : CommandMarker.isFollower c = true) :
    CommandMarker.isNameChar c = false := by
  simp only [CommandMarker.isFollower, Bool.or_eq_true, decide_eq_true_eq] at follower
  rcases follower with (rfl | rfl) | rfl <;> decide

/-- The marker that opens a command. -/
theorem at?_opening (command : Command) {follower : Char}
    (follows : CommandMarker.isFollower follower = true) (rest : List Char) :
    CommandMarker.at? ('\x7b' :: '\x7b' :: (command.spelling.toList ++ follower :: rest)) =
      some ⟨false, command⟩ := by
  obtain ⟨chars, known⟩ := command_chars command
  have other : (command.spelling.toList ++ follower :: rest).head? ≠ some '/' := by
    cases same : command.spelling.toList with
    | nil => exact absurd same (by cases command <;> decide)
    | cons c more =>
      intro first
      exact (chars c (by rw [same]; simp)).2 (Option.some.inj first)
  rw [at?_command other, named?_eq false (fun c listed => (chars c listed).1) (by
    intro c first
    obtain rfl := Option.some.inj first
    exact isNameChar_follower follows), known]
  simp [follows]

/-- The marker that closes a block. -/
theorem at?_closing {command : Command} (block : command.isBlock = true) {follower : Char}
    (follows : CommandMarker.isFollower follower = true) (rest : List Char) :
    CommandMarker.at? ('\x7b' :: '\x7b' :: '/' :: (command.spelling.toList ++ follower :: rest)) =
      some ⟨true, command⟩ := by
  obtain ⟨chars, known⟩ := command_chars command
  show CommandMarker.named? true _ = _
  rw [named?_eq true (fun c listed => (chars c listed).1) (by
    intro c first
    obtain rfl := Option.some.inj first
    exact isNameChar_follower follows), known]
  simp [follows, block]

/-- Every command marker begins with two braces. -/
theorem at?_eq_none {text : List Char} (apart : ∀ rest, text ≠ '\x7b' :: '\x7b' :: rest) :
    CommandMarker.at? text = none := by
  unfold CommandMarker.at?
  split
  · exact absurd rfl (apart _)
  · exact absurd rfl (apart _)
  · rfl

/-- Whether a text begins with a command marker does not depend on a marker behind it. -/
theorem at?_append {text after : List Char} (begins : BeginsMarker after) (nonempty : text ≠ []) :
    CommandMarker.at? (text ++ after) = CommandMarker.at? text := by
  by_cases braced : ∃ rest, text = '\x7b' :: '\x7b' :: rest
  · obtain ⟨rest, rfl⟩ := braced
    by_cases slash : ∃ more, rest = '/' :: more
    · obtain ⟨more, rfl⟩ := slash
      exact named?_append begins true
    · have other : rest.head? ≠ some '/' := by
        intro first
        cases rest with
        | nil => exact absurd first (by simp)
        | cons c more => exact slash ⟨more, by rw [Option.some.inj first]⟩
      have other' : (rest ++ after).head? ≠ some '/' := by
        cases rest with
        | nil => exact fun first => (begins.head '/' first).2.2 rfl
        | cons c more => exact other
      rw [at?_command other]
      exact (at?_command other').trans (named?_append begins false)
  · rw [at?_eq_none fun rest same => braced ⟨rest, same⟩]
    match text, nonempty with
    | [c], _ =>
      rcases begins.cases with rfl | ⟨rest, rfl⟩ | ⟨rest, rfl⟩
      · exact at?_eq_none (by simp)
      · exact at?_eq_none (by simp)
      · by_cases brace : c = '\x7b'
        · subst brace
          exact (at?_command (by simp)).trans
            (@named?_eq [] ('\x7b' :: rest) false (by simp) (by simp; decide))
        · exact at?_eq_none (by simp [brace])
    | c :: d :: rest, _ =>
      apply at?_eq_none
      intro more same
      simp only [List.cons_append, List.cons.injEq] at same
      exact braced ⟨rest, by rw [same.1, same.2.1]⟩

/-- A text that does not begin with a dollar sign and a brace begins at most with the marker of a
command. -/
theorem startsMarker_eq {text : List Char} (other : ∀ rest, text ≠ '$' :: '\x7b' :: rest) :
    startsMarker text = (CommandMarker.at? text).isSome := by
  unfold startsMarker
  split
  · exact absurd rfl (other _)
  · rfl

/-- Whether a text begins with a marker does not depend on a marker behind it, if the text does not
end in a dollar sign. -/
theorem startsMarker_append {text after : List Char} (begins : BeginsMarker after)
    (nonempty : text ≠ []) (last : text.getLast? ≠ some '$') :
    startsMarker (text ++ after) = startsMarker text := by
  by_cases echo : ∃ rest, text = '$' :: '\x7b' :: rest
  · obtain ⟨rest, rfl⟩ := echo
    rfl
  · have other : ∀ rest, text ++ after ≠ '$' :: '\x7b' :: rest := by
      intro rest same
      match text, nonempty with
      | [c], _ =>
        simp only [List.cons_append, List.cons.injEq] at same
        exact last (by simp [same.1])
      | c :: d :: more, _ =>
        simp only [List.cons_append, List.cons.injEq] at same
        exact echo ⟨more, by rw [same.1, same.2.1]⟩
    rw [startsMarker_eq other, startsMarker_eq fun rest same => echo ⟨rest, same⟩,
      at?_append begins nonempty]

/-- Before a marker no further plain text is read. -/
theorem BeginsMarker.plainText {text : List Char} (begins : BeginsMarker text) :
    plainText text = [] := by
  cases text with
  | nil => rfl
  | cons c text =>
    have starts : startsMarker (c :: text) = true := by simpa [BeginsMarker] using begins
    rw [Stencil.plainText, if_pos starts]

/-- Text that holds no marker and does not end in a dollar sign is read up to the next marker. -/
theorem plainText_append {text after : List Char} (plain : plainText text = text)
    (last : text.getLast? ≠ some '$') (begins : BeginsMarker after) :
    plainText (text ++ after) = text := by
  induction text with
  | nil => exact begins.plainText
  | cons c text ih =>
    have same := startsMarker_append begins (List.cons_ne_nil c text) last
    rw [Stencil.plainText] at plain
    split at plain
    · exact absurd plain (by simp)
    · rename_i unmarked
      rw [← same] at unmarked
      have last' : text.getLast? ≠ some '$' := by
        intro final
        apply last
        cases text with
        | nil => exact absurd final (by simp)
        | cons d text => exact final
      rw [List.cons_append] at unmarked ⊢
      rw [Stencil.plainText, if_neg unmarked, ih (List.cons.inj plain).2 last']

/-! ## Finding the end of a verbatim block -/

/-- The end of a verbatim block. -/
def verbatimEnd : List Char := "\x7b\x7b/verbatim\x7d\x7d".toList

/-- The end of a verbatim block does not begin within another one. -/
theorem verbatimEnd_alone {text after : List Char} (nonempty : text ≠ [])
    (apart : ¬verbatimEnd <+: text) : ¬verbatimEnd <+: text ++ (verbatimEnd ++ after) := by
  intro begins
  have table : ∀ k ∈ List.range 13, k ≠ 0 → verbatimEnd.drop k ≠ verbatimEnd.take (13 - k) := by
    decide
  have length : verbatimEnd.length = 13 := by decide
  have short : text.length < 13 := by
    apply Nat.lt_of_not_le
    intro long
    exact apart (List.prefix_of_prefix_length_le begins (List.prefix_append _ _) (length ▸ long))
  refine table text.length (List.mem_range.2 short) (by simpa using nonempty) ?_
  obtain ⟨rest, same⟩ := begins
  have taken := congrArg (fun cs => (cs.drop text.length).take (13 - text.length)) same
  simp only [List.drop_left] at taken
  rw [List.drop_append_of_le_length (by omega), List.take_append_of_le_length (by simp [length]),
    List.take_of_length_le (by simp [length]), List.take_append_of_le_length (by omega)] at taken
  exact taken

/-- A text that does not hold the end of a verbatim block is read up to it. -/
theorem findPattern_verbatimEnd {text after : List Char}
    (unclosed : findPattern verbatimEnd text = none) :
    findPattern verbatimEnd (text ++ (verbatimEnd ++ after)) = some text.length := by
  induction text with
  | nil => rfl
  | cons c text ih =>
    rw [findPattern] at unclosed
    split at unclosed
    · exact absurd unclosed (by simp)
    · rename_i apart
      rw [Option.map_eq_none_iff] at unclosed
      have apart' := @verbatimEnd_alone _ after (List.cons_ne_nil c text)
        fun begins => apart (List.isPrefixOf_iff_prefix.2 begins)
      rw [List.cons_append, findPattern, if_neg, ih unclosed]
      · rfl
      · exact fun begins => apart' (List.isPrefixOf_iff_prefix.1 begins)

/-! ## The lexer outside of markers -/

/-- The lexer is outside of markers, at a place before a text. -/
structure Rests (lexer : Lexer) (place : Position) (text : List Char) : Prop where
  mode : lexer.mode = .text
  rest : lexer.rest = text
  place : lexer.place = place

section Rests

variable {lexer : Lexer} {place : Position} {text : List Char}

/-- Outside of markers nothing but a comment is skipped. -/
theorem Rests.next (rests : Rests lexer place text)
    (noComment : CommandMarker.at? text ≠ some ⟨false, .remark⟩) :
    lexer.next = lexer.mark.readToken := by
  have none_ : lexer.mark.comment? = none := by
    unfold Lexer.comment?
    rw [if_pos (show lexer.mark.mode = .text from rests.mode)]
    split
    · rename_i same
      exact absurd (rests.rest ▸ same) noComment
    · rfl
  unfold Lexer.next Lexer.skipTrivia Lexer.skipTriviaWithin
  simp only [if_pos rests.mode, none_]

/-- Outside of markers text or a marker is read. -/
theorem Rests.readText (rests : Rests lexer place text) (nonempty : text ≠ [])
    (noComment : CommandMarker.at? text ≠ some ⟨false, .remark⟩) :
    lexer.next = lexer.mark.readText := by
  rw [rests.next noComment, Lexer.readToken]
  obtain ⟨c, rest, rfl⟩ := List.exists_cons_of_ne_nil nonempty
  rw [show lexer.mark.rest = c :: rest from rests.rest]
  simp only [if_pos (show lexer.mark.mode = .text from rests.mode)]

/-- The token of a piece of text, and where it begins, if that matters. -/
def textFace (start : Option Position) (text : String) : Face := { kind := .html text, start }

/-- Plain text is read up to the next marker. -/
theorem Rests.plain {after : List Char} (rests : Rests lexer place (text ++ after))
    (nonempty : text ≠ []) (plain : plainText text = text) (last : text.getLast? ≠ some '$')
    (begins : BeginsMarker after) :
    ∃ token behind, lexer.next = (.ok token, behind) ∧ token.kind = .html (String.ofList text) ∧
      token.span.start = place ∧ behind.rest.length < lexer.rest.length ∧
      Rests behind (place.after text) after := by
  have unmarked : startsMarker (text ++ after) = false := by
    rw [startsMarker_append begins nonempty last, ← Bool.not_eq_true]
    intro starts
    obtain ⟨c, rest, rfl⟩ := List.exists_cons_of_ne_nil nonempty
    rw [plainText, if_pos starts] at plain
    exact absurd plain (by simp)
  have echo : ∀ rest, text ++ after ≠ '$' :: '\x7b' :: rest := by
    intro rest same
    rw [same] at unmarked
    exact absurd unmarked (by simp [startsMarker])
  have none_ : CommandMarker.at? (text ++ after) = none := by
    rw [startsMarker_eq echo] at unmarked
    simpa using unmarked
  have whole : plainText (text ++ after) = text := plainText_append plain last begins
  have read : lexer.next = (lexer.mark.skip text.length).token (.html (String.ofList text)) := by
    rw [rests.readText (by simp [nonempty]) (by simp [none_]), Lexer.readText,
      show lexer.mark.rest = text ++ after from rests.rest]
    split
    · rename_i same
      exact absurd same (echo _)
    · simp only [none_, whole]
  have shorter : (lexer.mark.skip text.length).rest = after := by
    simp [Lexer.skip, Lexer.cross, Lexer.mark, rests.rest]
  refine ⟨_, _, read, rfl, rests.place, ?_, ⟨rests.mode, shorter, ?_⟩⟩
  · show (lexer.mark.skip text.length).rest.length < lexer.rest.length
    rw [shorter, rests.rest, List.length_append]
    have := List.length_pos_iff.2 nonempty
    omega
  · show lexer.place.after (lexer.rest.take text.length) = _
    rw [rests.rest, List.take_left, rests.place]

/-- The beginning of a verbatim block. -/
def verbatimStart : List Char := "\x7b\x7bverbatim\x7d\x7d".toList

/-- How a verbatim block begins. -/
theorem verbatimStart_eq :
    verbatimStart = '\x7b' :: '\x7b' :: (Command.verbatim.spelling.toList ++ ['\x7d', '\x7d']) := by
  decide

/-- The text of a verbatim block is read up to the end of the block. -/
theorem Rests.verbatim {after : List Char}
    (rests : Rests lexer place (verbatimStart ++ (text ++ (verbatimEnd ++ after))))
    (unclosed : findPattern verbatimEnd text = none) :
    ∃ token behind, lexer.next = (.ok token, behind) ∧ token.kind = .html (String.ofList text) ∧
      token.span.start = place ∧ behind.rest.length < lexer.rest.length ∧
      Rests behind (place.after (verbatimStart ++ (text ++ verbatimEnd))) after := by
  have marker : CommandMarker.at? (verbatimStart ++ (text ++ (verbatimEnd ++ after))) =
      some ⟨false, .verbatim⟩ := by
    rw [verbatimStart_eq, List.cons_append, List.cons_append, List.append_assoc]
    exact at?_opening .verbatim (by decide) _
  have dispatched : lexer.next = lexer.mark.readVerbatim := by
    rw [rests.readText (by rw [verbatimStart_eq]; simp) (by rw [marker]; decide), Lexer.readText,
      show lexer.mark.rest = _ from rests.rest]
    split
    · rename_i same
      exact absurd same (by rw [verbatimStart_eq]; simp)
    · simp only [marker]
  let body : Lexer := (lexer.mark.skip 10).skip 0 |>.skip 2
  have inside : body.rest = text ++ (verbatimEnd ++ after) := by
    have start : verbatimStart.length = 12 := by decide
    show ((lexer.rest.drop 10).drop 0).drop 2 = _
    rw [List.drop_drop, List.drop_drop, rests.rest]
    exact List.drop_left' start
  have found := @findPattern_verbatimEnd _ after unclosed
  rw [← inside] at found
  have read : lexer.next =
      (body.skip (text.length + verbatimEnd.length)).token (.html (String.ofList text)) := by
    have width : "\x7b\x7bverbatim".length = 10 := by decide
    have named : (lexer.mark.skip 10).rest = '\x7d' :: '\x7d' :: (text ++ (verbatimEnd ++ after)) := by
      show lexer.rest.drop 10 = _
      rw [rests.rest, verbatimStart_eq, List.cons_append, List.cons_append, List.append_assoc,
        List.drop_succ_cons, List.drop_succ_cons]
      exact List.drop_left' (by decide)
    have blanks : ((lexer.mark.skip 10).rest.takeWhile (· = ' ')).length = 0 := by
      rw [named]
      rfl
    have closed : "\x7d\x7d".toList.isPrefixOf ((lexer.mark.skip 10).skip 0).rest = true := by
      show "\x7d\x7d".toList.isPrefixOf (lexer.mark.skip 10).rest = true
      rw [named]
      rfl
    rw [dispatched, Lexer.readVerbatim]
    simp only [width, blanks, closed, if_true]
    rw [show findPattern "\x7b\x7b/verbatim\x7d\x7d".toList body.rest = some text.length from found]
    show (body.skip _).token (.html (String.ofList (body.rest.take text.length))) = _
    rw [inside, List.take_left]
    rfl
  have length : (text ++ verbatimEnd).length = text.length + verbatimEnd.length :=
    List.length_append
  have behind : (body.skip (text.length + verbatimEnd.length)).rest = after := by
    show body.rest.drop _ = after
    rw [inside, ← length, ← List.append_assoc, List.drop_left]
  have crossed : body.place = place.after verbatimStart := by
    have place_ : body.place = ((lexer.cross 10).cross 2).place := rfl
    rw [place_, cross_cross]
    show lexer.place.after (lexer.rest.take 12) = _
    rw [rests.place, rests.rest, List.take_left' (by decide)]
  refine ⟨_, _, read, rfl, rests.place, ?_, ⟨rests.mode, behind, ?_⟩⟩
  · show (body.skip (text.length + verbatimEnd.length)).rest.length < lexer.rest.length
    rw [behind, rests.rest, verbatimStart_eq]
    simp only [List.cons_append, List.length_cons, List.length_append]
    omega
  · show body.place.after (body.rest.take _) = _
    rw [inside, ← length, ← List.append_assoc, List.take_left, crossed,
      Position.after_append, Position.after_append, Position.after_append]

/-- The phase behind a marker that opens code. -/
def entered (mode : Mode) (marker : Marker) : Phase where
  mode := mode
  depth := 0
  regexp := false
  broke := false
  last := some (.marker marker)
  returns := false

/-- The token of a marker, and where it begins, if that matters. -/
def markerFace (start : Option Position) (marker : Marker) : Face :=
  { kind := .marker marker, start }

/-- Behind a marker that opens code the lexer reads the code. -/
theorem Rests.enter {mode : Mode} {marker : Marker} {code : List Char}
    (rests : Rests lexer place (marker.spelling.toList ++ code)) (inside : mode ≠ .text)
    (read : lexer.next = lexer.mark.enter mode marker) :
    ∃ token behind, lexer.next = (.ok token, behind) ∧ token.kind = .marker marker ∧
      token.span.start = place ∧ behind.rest.length < lexer.rest.length ∧
      Stands behind (entered mode marker) (place.after marker.spelling.toList) code := by
  have width : marker.spelling.length = marker.spelling.toList.length := String.length_toList.symm
  have shorter : lexer.rest.drop marker.spelling.length = code := by
    rw [rests.rest, width, List.drop_left]
  refine ⟨_, _, read, rfl, rests.place, ?_, ?_⟩
  · show (lexer.rest.drop marker.spelling.length).length < _
    rw [shorter, rests.rest, List.length_append]
    have : 0 < marker.spelling.toList.length := by cases marker <;> decide
    omega
  · refine ⟨inside, rfl, rfl, rfl, rfl, [], shorter, ?_, rfl, rfl⟩
    show lexer.place.after (lexer.rest.take marker.spelling.length) = _
    rw [rests.rest, width, List.take_left, rests.place]

/-- The marker that ends code of the kind. -/
def closer (mode : Mode) : Marker := if mode = .command then .commandClose else .echoClose

/-- At the brace that ends the code, the code is left. -/
theorem Stands.leave {s : Phase} {after : List Char}
    (stands : Stands lexer s place ('\x7d' :: after)) (counts : s.counts = true)
    (level : s.depth = 0) :
    ∃ reader : Lexer, lexer.next = reader.closeCode ∧ reader.mode = s.mode ∧
      reader.rest = '\x7d' :: after ∧ reader.place = place ∧
      after.length < lexer.rest.length := by
  obtain ⟨blanks, rest, at_, all, -⟩ := stands.blanks
  have skipped : lexer.next = (settled lexer blanks).readToken := by
    apply next_of_blanks (stands.mode ▸ stands.code) rest all
    · intro c first
      obtain rfl := Option.some.inj first
      decide
    · exact beginsNoComment_of_head (by simp)
  have text_ : (settled lexer blanks).rest = '\x7d' :: after := by
    simp [settled, Lexer.mark, Lexer.skip, Lexer.cross, rest]
  have counting : (settled lexer blanks).countsBraces = true := by
    rw [Lexer.countsBraces, show (settled lexer blanks).mode = s.mode from stands.mode]
    exact counts
  have closing : (settled lexer blanks).readToken = (settled lexer blanks).closeCode := by
    unfold Lexer.readToken
    rw [text_]
    simp only [if_neg (show (settled lexer blanks).mode ≠ .text from stands.mode ▸ stands.code),
      counting, if_pos (show (settled lexer blanks).depth = 0 from stands.depth.trans level)]
    simp
  refine ⟨settled lexer blanks, skipped.trans closing, stands.mode, text_, ?_, ?_⟩
  · simp [settled, Lexer.mark, Lexer.skip, Lexer.cross, rest, at_]
  · rw [rest]
    simp
    omega

/-- Behind the marker that ends the code there is template text again. -/
theorem Stands.close {s : Phase} {after : List Char}
    (stands : Stands lexer s place ((closer s.mode).spelling.toList ++ after))
    (counts : s.counts = true) (level : s.depth = 0) :
    ∃ token behind, lexer.next = (.ok token, behind) ∧ token.kind = .marker (closer s.mode) ∧
      behind.rest.length < lexer.rest.length ∧
      Rests behind (place.after (closer s.mode).spelling.toList) after := by
  by_cases command : s.mode = .command
  · have marker : closer s.mode = .commandClose := if_pos command
    rw [marker] at stands ⊢
    obtain ⟨reader, read, mode, rest, at_, shorter⟩ :=
      @Stands.leave _ _ _ ('\x7d' :: after) stands counts level
    have closed : (reader.skip 1).rest = '\x7d' :: after := by
      simp [Lexer.skip, Lexer.cross, rest]
    have same : reader.closeCode =
        ({ (reader.skip 1).skip 1 with mode := .text }).token (.marker .commandClose) := by
      unfold Lexer.closeCode
      simp only [mode, command, if_true, closed]
    refine ⟨_, _, read.trans same, rfl, ?_, ⟨rfl, ?_, ?_⟩⟩
    · show ((reader.skip 1).rest.drop 1).length < lexer.rest.length
      rw [closed]
      exact Nat.lt_of_succ_lt shorter
    · show (reader.skip 1).rest.drop 1 = after
      rw [closed]
      rfl
    · show (reader.place.after (reader.rest.take 1)).after ((reader.skip 1).rest.take 1) = _
      rw [closed, rest, at_]
      rfl
  · have marker : closer s.mode = .echoClose := if_neg command
    rw [marker] at stands ⊢
    obtain ⟨reader, read, mode, rest, at_, shorter⟩ :=
      @Stands.leave _ _ _ after stands counts level
    have same : reader.closeCode =
        ({ reader.skip 1 with mode := .text }).token (.marker .echoClose) := by
      unfold Lexer.closeCode
      simp only [mode, if_neg command]
    refine ⟨_, _, read.trans same, rfl, ?_, ⟨rfl, ?_, ?_⟩⟩
    · show (reader.rest.drop 1).length < lexer.rest.length
      rw [rest]
      exact shorter
    · show reader.rest.drop 1 = after
      rw [rest]
      rfl
    · show reader.place.after (reader.rest.take 1) = _
      rw [rest, at_]
      rfl

/-- A dollar sign and a brace open an echo. -/
theorem Rests.echo {code : List Char} (rests : Rests lexer place ('$' :: '\x7b' :: code)) :
    lexer.next = lexer.mark.enter .echo .echoOpen := by
  rw [rests.readText (by simp) (by rw [at?_eq_none (by simp)]; simp), Lexer.readText,
    show lexer.mark.rest = _ from rests.rest]
  rfl

/-- The name of a command that is no verbatim block or comment opens the command. -/
theorem Rests.command {command : Command} {code : List Char}
    (rests : Rests lexer place ('\x7b' :: '\x7b' :: code))
    (marker : CommandMarker.at? ('\x7b' :: '\x7b' :: code) = some ⟨false, command⟩)
    (other : command ≠ .verbatim ∧ command ≠ .remark) :
    lexer.next = lexer.mark.enter .command .commandOpen := by
  rw [rests.readText (by simp) (by simp [marker, other.2]), Lexer.readText,
    show lexer.mark.rest = _ from rests.rest]
  split
  · rename_i same
    simp at same
  · simp only [marker]
    split
    · rename_i same
      simp only [Option.some.injEq, CommandMarker.mk.injEq, true_and] at same
      exact absurd same other.1
    · rename_i same
      simp at same
    · rfl
    · rename_i same
      simp at same

/-- The name of a block behind a slash opens its closing marker. -/
theorem Rests.closer {command : Command} {code : List Char}
    (rests : Rests lexer place ('\x7b' :: '\x7b' :: '/' :: code))
    (marker : CommandMarker.at? ('\x7b' :: '\x7b' :: '/' :: code) = some ⟨true, command⟩) :
    lexer.next = lexer.mark.enter .command .closerOpen := by
  rw [rests.readText (by simp) (by simp [marker]), Lexer.readText,
    show lexer.mark.rest = _ from rests.rest]
  split
  · rename_i same
    simp at same
  · simp only [marker]

end Rests
/-! ## Texts that tell their tokens -/

/-- Outside of markers, from the place on, the text tells the tokens up to its end. -/
structure Tells (place : Position) (faces : List Face) (text : List Char) : Prop where
  unbroken : ∀ c ∈ text, isForeignBreak c = false
  streams : ∀ lexer, Rests lexer place text → Streams lexer faces

namespace Tells

variable {place : Position} {start : Option Position} {faces : List Face} {text after : List Char}

/-- A token looks like a face that begins where the token does, if that matters. -/
theorem fits_of_place {token : Token} {kind : TokenKind} (same : token.kind = kind)
    (at_ : token.span.start = place) (placed : ∀ p, start = some p → p = place) :
    Face.Fits { kind, start } token :=
  ⟨same, by simp, fun p known => by rw [at_, placed p known]⟩

/-- The end of the text. -/
theorem done : Tells place [endOfText] [] where
  unbroken := by simp
  streams lexer rests := by
    have read : lexer.next = lexer.mark.token .eof := by
      rw [rests.next (by simp [CommandMarker.at?]), Lexer.readToken,
        show lexer.mark.rest = [] from rests.rest]
    exact ⟨_, _, read, ⟨rfl, by simp [endOfText], by simp [endOfText]⟩, .inl rfl, trivial⟩

/-- Plain text before a marker. -/
theorem plain (nonempty : text ≠ []) (plain : plainText text = text)
    (last : text.getLast? ≠ some '$') (unbroken : ∀ c ∈ text, isForeignBreak c = false)
    (begins : BeginsMarker after) (placed : ∀ p, start = some p → p = place)
    (tells : Tells (place.after text) faces after) :
    Tells place (textFace start (String.ofList text) :: faces) (text ++ after) where
  unbroken c listed := (List.mem_append.1 listed).elim (unbroken c) (tells.unbroken c)
  streams lexer rests := by
    obtain ⟨token, behind, read, kind, at_, shorter, rests⟩ :=
      rests.plain nonempty plain last begins
    exact ⟨token, behind, read, fits_of_place kind at_ placed, .inr shorter,
      tells.streams behind rests⟩

/-- A verbatim block. -/
theorem verbatim (unclosed : findPattern verbatimEnd text = none)
    (unbroken : ∀ c ∈ text, isForeignBreak c = false) (placed : ∀ p, start = some p → p = place)
    (tells : Tells (place.after (verbatimStart ++ (text ++ verbatimEnd))) faces after) :
    Tells place (textFace start (String.ofList text) :: faces)
      (verbatimStart ++ (text ++ (verbatimEnd ++ after))) where
  unbroken c listed := by
    have start : ∀ c ∈ verbatimStart, isForeignBreak c = false := by decide
    have stop : ∀ c ∈ verbatimEnd, isForeignBreak c = false := by decide
    simp only [List.mem_append] at listed
    rcases listed with listed | listed | listed | listed
    · exact start c listed
    · exact unbroken c listed
    · exact stop c listed
    · exact tells.unbroken c listed
  streams lexer rests := by
    obtain ⟨token, behind, read, kind, at_, shorter, rests⟩ := rests.verbatim unclosed
    exact ⟨token, behind, read, fits_of_place kind at_ placed, .inr shorter,
      tells.streams behind rests⟩

/-- Code between two markers. -/
theorem code {mode : Mode} {marker : Marker} {code : List Char} {inner : List Face} {s : Phase}
    (counts : (entered mode marker).counts = true)
    (read : ∀ lexer, Rests lexer place (marker.spelling.toList ++ (code ++
      ((closer mode).spelling.toList ++ after))) → lexer.next = lexer.mark.enter mode marker)
    (spelt : Spells (entered mode marker) inner code s) (same : s.mode = mode) (level : s.depth = 0)
    (ends : s.Admits ['\x7d']) (placed : ∀ p, start = some p → p = place)
    (tells : Tells (place.after (marker.spelling.toList ++ (code ++ (closer mode).spelling.toList)))
      faces after) :
    Tells place (markerFace start marker :: (inner ++ markerFace none (closer mode) :: faces))
      (marker.spelling.toList ++ (code ++ ((closer mode).spelling.toList ++ after))) where
  unbroken c listed := by
    have markers : ∀ marker : Marker, ∀ c ∈ marker.spelling.toList, isForeignBreak c = false := by
      intro marker
      cases marker <;> decide
    simp only [List.mem_append] at listed
    rcases listed with listed | listed | listed | listed
    · exact markers marker c listed
    · exact spelt.unbroken rfl c listed
    · exact markers _ c listed
    · exact tells.unbroken c listed
  streams lexer rests := by
    have inside : mode ≠ .text := by
      rintro rfl
      simp [Phase.counts, entered] at counts
    obtain ⟨token, behind, read, kind, at_, shorter, stands⟩ :=
      rests.enter inside (read lexer rests)
    refine ⟨token, behind, read, fits_of_place kind at_ placed, .inr shorter, ?_⟩
    have begins : ∃ rest, (closer mode).spelling.toList ++ after = '\x7d' :: rest := by
      by_cases command : mode = .command
      · rw [closer, if_pos command]
        exact ⟨_, rfl⟩
      · rw [closer, if_neg command]
        exact ⟨_, rfl⟩
    refine spelt.streams stands ?_ ?_
    · obtain ⟨rest, begins⟩ := begins
      rw [begins]
      exact fun kind last c first => ends kind last c first
    · intro behind stands
      subst same
      have counting : s.counts = true := counts
      obtain ⟨token, next, read, kind, shorter, rests⟩ := stands.close counting level
      rw [← Position.after_append, ← Position.after_append] at rests
      exact ⟨token, next, read, fits_of_place kind rfl (by simp), .inr shorter,
        tells.streams next rests⟩

/-- An echo. -/
theorem echo {value : List Char} {inner : List Face} {s : Phase}
    (spelt : Spells (entered .echo .echoOpen) inner value s) (same : s.mode = .echo)
    (level : s.depth = 0) (ends : s.Admits ['\x7d']) (placed : ∀ p, start = some p → p = place)
    (tells : Tells (place.after ('$' :: '\x7b' :: (value ++ ['\x7d']))) faces after) :
    Tells place (markerFace start .echoOpen :: (inner ++ markerFace none .echoClose :: faces))
      ('$' :: '\x7b' :: (value ++ '\x7d' :: after)) :=
  @Tells.code place start faces after _ .echoOpen _ _ _ rfl (fun _ rests => rests.echo) spelt same
    level ends placed tells

/-- A command. -/
theorem command {command : Command} {code : List Char} {inner : List Face} {s : Phase}
    (other : command ≠ .verbatim ∧ command ≠ .remark) {follower : Char} {more : List Char}
    (text_ : code ++ ['\x7d'] = command.spelling.toList ++ follower :: more)
    (follows : CommandMarker.isFollower follower = true)
    (spelt : Spells (entered .command .commandOpen) inner code s) (same : s.mode = .command)
    (level : s.depth = 0) (ends : s.Admits ['\x7d']) (placed : ∀ p, start = some p → p = place)
    (tells : Tells (place.after ('\x7b' :: '\x7b' :: (code ++ ['\x7d', '\x7d']))) faces after) :
    Tells place
      (markerFace start .commandOpen :: (inner ++ markerFace none .commandClose :: faces))
      ('\x7b' :: '\x7b' :: (code ++ '\x7d' :: '\x7d' :: after)) := by
  refine @Tells.code place start faces after _ .commandOpen _ _ _ rfl ?_ spelt same level ends placed
    tells
  intro lexer rests
  have whole : code ++ '\x7d' :: '\x7d' :: after =
      command.spelling.toList ++ follower :: (more ++ '\x7d' :: after) := by
    have := congrArg (· ++ '\x7d' :: after) text_
    simpa using this
  have rests' : Rests lexer place
      ('\x7b' :: '\x7b' :: (command.spelling.toList ++ follower :: (more ++ '\x7d' :: after))) :=
    whole ▸ rests
  exact rests'.command (at?_opening command follows _) other

/-- A closing marker. -/
theorem closing {command : Command} (block : command.isBlock = true) {inner : List Face} {s : Phase}
    (spelt : Spells (entered .command .closerOpen) inner command.spelling.toList s)
    (same : s.mode = .command) (level : s.depth = 0) (ends : s.Admits ['\x7d'])
    (tells : Tells (place.after ('\x7b' :: '\x7b' :: '/' ::
      (command.spelling.toList ++ ['\x7d', '\x7d']))) faces after) :
    Tells place
      (markerFace none .closerOpen :: (inner ++ markerFace none .commandClose :: faces))
      ('\x7b' :: '\x7b' :: '/' :: (command.spelling.toList ++ '\x7d' :: '\x7d' :: after)) := by
  refine @Tells.code place none faces after _ .closerOpen _ _ _ rfl ?_ spelt same level ends (by simp) tells
  intro lexer rests
  exact rests.closer (@at?_closing _ block '\x7d' (by decide) _)

end Tells

end Stencil.Lexing

import Stencil.Proofs.Printing.Faces
/-!
# Joining texts that spell tokens

How the text of a construct is put together from the texts of its parts: word by word, across a
blank, between brackets, and with commas between the items of a list.
-/

set_option autoImplicit false

namespace Stencil.Print

open Stencil.Lexing
open Stencil.Text

variable {s s' : Phase} {faces : List Face} {text : List Char}

/-! ## Word by word -/

/-- A blank before a text. -/
theorem spells_gap (rest : Spells (s.past ' ') faces text s') :
    Spells s faces (' ' :: text) s' :=
  .blank (by decide) (by simp) rest

/-- A bracket or separator before a text. -/
theorem spells_mark {c : Char} (known : isPunctuation c = true) (admits : s.Admits [c])
    (held : s.Holds (.punctuation c)) (rest : Spells (s.behind (.punctuation c)) faces text s') :
    Spells s (mark c :: faces) (c :: text) s' :=
  show Spells s (mark c :: faces) ([c] ++ text) s' from
    .word (.punctuation known) admits held (by simp [mark]) rfl rest

/-- A token that is no brace closes none. -/
theorem holds_of_ne (s : Phase) {kind : TokenKind} (plain : kind ≠ .punctuation '\x7d') :
    s.Holds kind := by
  unfold Phase.Holds
  split
  · exact absurd rfl plain
  · trivial

/-- A separator before a text. -/
theorem spells_separator {c : Char} (known : c ∈ ",;:()[]".toList) (admits : s.Admits [c])
    (rest : Spells (s.closed (.punctuation c)) faces text s') :
    Spells s (mark c :: faces) (c :: text) s' := by
  have table : ∀ c ∈ ",;:()[]".toList, isPunctuation c = true ∧ c ≠ '\x7b' ∧ c ≠ '\x7d' := by decide
  obtain ⟨listed, opening, closing⟩ := table c known
  refine spells_mark listed admits (holds_of_ne s (by simpa using closing)) ?_
  rw [Phase.behind_eq_closed s (by simpa using ⟨opening, closing⟩)]
  exact rest

/-- A word before a text. -/
theorem spells_word {name : String} {face : Face} (spelt : IsNameText name.toList)
    (kind : face.kind = wordKind name) (joined : face.joined = true → s.broke = false)
    (unplaced : face.start = none) (admits : s.Admits name.toList)
    (rest : Spells (s.closed (wordKind name)) faces text s') :
    Spells s (face :: faces) (name.toList ++ text) s' := by
  have plain := wordKind_ne_punctuation name
  refine .word (kind ▸ .name spelt) admits ?_ joined unplaced ?_
  · rw [kind]
    exact holds_of_ne s (plain _)
  · rw [kind, Phase.behind_eq_closed s ⟨plain _, plain _⟩]
    exact rest

/-- A plain word before a text. -/
theorem spells_plainWord {name : String} (spelt : isName name.toList = true)
    (admits : s.Admits name.toList) (rest : Spells (s.closed (wordKind name)) faces text s') :
    Spells s (word name :: faces) (name.toList ++ text) s' :=
  spells_word (.inl spelt) rfl (by simp [word]) rfl admits rest

/-- A keyword is a plain word. -/
theorem keyword_plain (k : Keyword) :
    isName k.spelling.toList = true ∧ wordKind k.spelling = .keyword k := by
  have table : ∀ k ∈ Keyword.all, isName k.spelling.toList = true ∧
      wordOperators.contains k.spelling = false := by
    decide
  obtain ⟨plain, operator⟩ := table k (by cases k <;> decide)
  refine ⟨plain, ?_⟩
  rw [wordKind, if_neg (by rw [operator]; decide), Keyword.ofSpelling?_spelling]

/-- A keyword before a text. -/
theorem spells_keyword (k : Keyword) (admits : s.Admits k.spelling.toList)
    (rest : Spells (s.closed (.keyword k)) faces text s') :
    Spells s (keyword k :: faces) (k.spelling.toList ++ text) s' := by
  obtain ⟨plain, kind⟩ := keyword_plain k
  exact spells_word (.inl plain) kind.symm (by simp [keyword]) rfl admits (kind.symm ▸ rest)

/-- A name before a text. -/
theorem spells_named {name : String} (spelt : IsNameText name.toList)
    (kind : wordKind name = .name name) (admits : s.Admits name.toList)
    (rest : Spells (s.closed (.name name)) faces text s') :
    Spells s (named name :: faces) (name.toList ++ text) s' :=
  spells_word spelt kind.symm (by simp [named]) rfl admits (kind.symm ▸ rest)

/-- A symbolic operator before a text. -/
theorem spells_symbol {symbol : String} {face : Face} (kind : face.kind = .operator symbol)
    (known : symbol ∈ symbolOperators)
    (divides : symbol.toList.head? = some '/' → s.regexp = false)
    (joined : face.joined = true → s.broke = false) (unplaced : face.start = none)
    (admits : s.Admits symbol.toList) (rest : Spells (s.closed (.operator symbol)) faces text s') :
    Spells s (face :: faces) (symbol.toList ++ text) s' := by
  refine .word (kind ▸ .symbol known divides) admits ?_ joined unplaced ?_
  · rw [kind]
    exact holds_of_ne s (by simp)
  · rw [kind, Phase.behind_eq_closed s (by simp)]
    exact rest

/-! ## Brackets -/

/-- The phase behind a bracket. -/
theorem admits_behind_mark {c : Char} (plain : c ≠ '.') :
    (s.behind (.punctuation c)).Open := by
  intro text last same d first
  obtain rfl := Option.some.inj same
  simp [stopsAt, plain]

/-- The pairs of brackets. -/
def brackets : List (Char × Char) := [('(', ')'), ('[', ']'), ('\x7b', '\x7d')]

/-- A text in brackets. -/
theorem spells_between {opening closing : Char} (pair : (opening, closing) ∈ brackets)
    (admits : s.Admits [opening]) {inner : Phase}
    (inside : Spells (s.behind (.punctuation opening)) faces text inner)
    (same : inner.mode = s.mode ∧ inner.returns = s.returns)
    (depth : inner.depth = s.depthBehind (.punctuation opening))
    (ends : inner.Admits [closing]) :
    Spells s (mark opening :: (faces ++ [mark closing])) (opening :: (text ++ [closing]))
      (s.closed (.punctuation closing)) := by
  have table : ∀ pair ∈ brackets, isPunctuation pair.1 = true ∧ isPunctuation pair.2 = true ∧
      pair.1 ≠ '\x7d' := by
    decide
  obtain ⟨first, second, noClosing⟩ := table _ pair
  have counts : inner.counts = s.counts := by rw [Phase.counts, same.1, Phase.counts]
  have held : inner.Holds (.punctuation closing) := by
    by_cases brace : closing = '\x7d'
    · subst brace
      have : opening = '\x7b' := by simpa [brackets] using pair
      subst this
      intro counting
      rw [depth, Phase.depthBehind, ← counts, counting]
      simp
    · exact holds_of_ne inner (by simpa using brace)
  have last : inner.behind (.punctuation closing) = s.closed (.punctuation closing) := by
    have level : inner.depthBehind (.punctuation closing) = s.depth := by
      simp only [brackets, List.mem_cons, Prod.mk.injEq, List.not_mem_nil, or_false] at pair
      rcases pair with ⟨rfl, rfl⟩ | ⟨rfl, rfl⟩ | ⟨rfl, rfl⟩
      · exact depth
      · exact depth
      · simp only [Phase.depthBehind, counts] at depth ⊢
        rw [depth]
        split <;> simp
    unfold Phase.behind Phase.closed
    rw [level, same.1, same.2]
  refine spells_mark first admits (holds_of_ne s (by simpa using noClosing)) ?_
  refine inside.append (spells_mark second ends held ?_)
  rw [last]
  exact .nil

/-! ## Lists -/

/-- The characters behind an expression in a list or statement. -/
def separators : List Char := " ,)]\x7d;:".toList

/-- Whether a token ends before every separator. -/
def EndsItem (kind : TokenKind) : Prop := ∀ c ∈ separators, stopsAt kind c = true

/-- Whether a phase can be reached by a list from the given one: the list is empty, or its last
token ends before every separator. -/
def ReachedByList (s s' : Phase) : Prop :=
  s' = s ∨ ∃ kind, s' = s.closed kind ∧ EndsItem kind

/-- Behind a list there may be a separator. -/
theorem ReachedByList.admits (reached : ReachedByList s s') (opened : s.Open) {c : Char}
    (separator : c ∈ separators) {rest : List Char} : s'.Admits (c :: rest) := by
  rcases reached with rfl | ⟨kind, rfl, ends⟩
  · exact opened _
  · exact Phase.admits_closed (ends c separator)

/-- A list leaves mode and open braces as they are. -/
theorem ReachedByList.same (reached : ReachedByList s s') :
    (s'.mode = s.mode ∧ s'.returns = s.returns) ∧ s'.depth = s.depth := by
  rcases reached with rfl | ⟨kind, rfl, -⟩
  · exact ⟨⟨rfl, rfl⟩, rfl⟩
  · exact ⟨⟨rfl, rfl⟩, rfl⟩

/-- The text of a list, behind its first item. -/
theorem commaSeparated_cons (first second : String) (rest : List String) :
    (commaSeparated (first :: second :: rest)).toList
      = first.toList ++ ',' :: ' ' :: (commaSeparated (second :: rest)).toList := by
  simp [commaSeparated, String.toList_intercalate]

/-- Items with commas between them. -/
theorem spells_items {α : Type} (faces : α → List Face) (text : α → String) (rest : List α) :
    ∀ (first : α),
      (∀ a ∈ first :: rest, ∀ s : Phase, s.Open →
        ∃ kind, Spells s (faces a) (text a).toList (s.closed kind) ∧ EndsItem kind) →
      ∀ s : Phase, s.Open →
        ∃ kind, Spells s (commaFaces ((first :: rest).map faces))
            (commaSeparated ((first :: rest).map text)).toList (s.closed kind) ∧
          EndsItem kind := by
  induction rest with
  | nil =>
    intro first each s opened
    obtain ⟨kind, item, ends⟩ := each first (by simp) s opened
    refine ⟨kind, ?_, ends⟩
    simpa [commaFaces, commaSeparated] using item
  | cons second rest ih =>
    intro first each s opened
    obtain ⟨kind, item, ends⟩ := each first (by simp) s opened
    have comma : (s.closed kind).Admits [','] := Phase.admits_closed (ends ',' (by decide))
    obtain ⟨last, list, ends⟩ :=
      ih second (fun a listed => each a (List.mem_cons_of_mem _ listed))
        (((s.closed kind).closed (.punctuation ',')).past ' ') (Phase.open_past _ _)
    refine ⟨last, ?_, ends⟩
    simp only [List.map_cons] at list ⊢
    rw [commaFaces, commaSeparated_cons]
    exact item.append (spells_separator (by decide) comma (spells_gap list))

/-- Items with commas between them, if there are any. -/
theorem spells_commas {α : Type} (faces : α → List Face) (text : α → String) (items : List α)
    (each : ∀ a ∈ items, ∀ s : Phase, s.Open →
      ∃ kind, Spells s (faces a) (text a).toList (s.closed kind) ∧ EndsItem kind)
    (s : Phase) (opened : s.Open) :
    ∃ s', Spells s (commaFaces (items.map faces)) (commaSeparated (items.map text)).toList s' ∧
      ReachedByList s s' := by
  cases items with
  | nil =>
    refine ⟨s, ?_, .inl rfl⟩
    simpa [commaFaces, commaSeparated] using Spells.nil
  | cons first rest =>
    obtain ⟨kind, list, ends⟩ := spells_items faces text rest first each s opened
    exact ⟨_, list, .inr ⟨kind, rfl, ends⟩⟩

/-- A list in brackets. -/
theorem spells_list {α : Type} {opening closing : Char} (pair : (opening, closing) ∈ brackets)
    (faces : α → List Face) (text : α → String) (items : List α)
    (each : ∀ a ∈ items, ∀ s : Phase, s.Open →
      ∃ kind, Spells s (faces a) (text a).toList (s.closed kind) ∧ EndsItem kind)
    {s : Phase} (admits : s.Admits [opening]) :
    Spells s (mark opening :: (commaFaces (items.map faces) ++ [mark closing]))
      (opening :: ((commaSeparated (items.map text)).toList ++ [closing]))
      (s.closed (.punctuation closing)) := by
  have table : ∀ pair ∈ brackets, pair.1 ≠ '.' ∧ pair.2 ∈ separators := by decide
  obtain ⟨noPoint, separator⟩ := table _ pair
  have opened : (s.behind (.punctuation opening)).Open := admits_behind_mark noPoint
  obtain ⟨s', list, reached⟩ :=
    spells_commas faces text items each (s.behind (.punctuation opening)) opened
  exact spells_between pair admits list reached.same.1 reached.same.2
    (reached.admits opened separator)

end Stencil.Print

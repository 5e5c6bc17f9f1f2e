import Stencil.Proofs.Parsing.Run
/-!
# Running rules before known tokens

A cursor shows a sequence of faces when its token and the tokens behind it look like them. Before
known tokens a rule is followed step by step: consuming a token leaves the cursor before the next
one, and a loop has room for all tokens that are shown.
-/

set_option autoImplicit false

namespace Stencil.Grammar

open Stencil.Lexing
open Stencil.Syntax

variable {α β σ : Type}

/-- The current token and those behind it look like the faces. -/
def Cursor.Shows (c : Cursor) : List Face → Prop
  | [] => True
  | face :: faces => face.Fits c.token ∧ Streams c.lexer faces

/-- No failure is possible. -/
def Never (_ : Failure) : Prop := False

section Shown

variable {o : Options} {c : Cursor} {x y : Face} {faces : List Face}

/-- The kind of the current token. -/
theorem Cursor.Shows.kind (shows : c.Shows (x :: faces)) : c.token.kind = x.kind := shows.1.kind

/-- The next token is read without an error, and the cursor behind the current one shows it. -/
theorem Cursor.Shows.next (shows : c.Shows (x :: y :: faces)) :
    ∃ token lexer, c.lexer.next = (.ok token, lexer) ∧ y.Fits token ∧
      (behindToken c token lexer).Shows (y :: faces) := by
  obtain ⟨token, lexer, read, fits, -, others⟩ := shows.2
  exact ⟨token, lexer, read, fits, fits, others⟩

/-- Consuming a token leaves the cursor before the next one. -/
theorem advance_shown {good : Unit → Cursor → Prop} {bad : Failure → Prop}
    (some_ : faces ≠ []) (shows : c.Shows (x :: faces)) (then_ : ∀ c', c'.Shows faces → good () c') :
    Ends Parser.advance o c good bad := by
  obtain ⟨y, faces, rfl⟩ := List.exists_cons_of_ne_nil some_
  obtain ⟨token, lexer, read, -, shows⟩ := shows.next
  rw [ends_advance, read]
  exact then_ _ shows

/-- Looking one token ahead. -/
theorem following_shown {good : Token → Cursor → Prop} {bad : Failure → Prop}
    (shows : c.Shows (x :: y :: faces)) (then_ : ∀ token, token.kind = y.kind → good token c) :
    Ends Parser.following o c good bad := by
  obtain ⟨token, lexer, read, fits, -⟩ := shows.next
  rw [ends_following, read]
  exact then_ token fits.kind

/-- Consuming given punctuation. -/
theorem expectPunctuation_shown {char : Char} {good : Unit → Cursor → Prop}
    {bad : Failure → Prop} (some_ : faces ≠ []) (shows : c.Shows (x :: faces))
    (kind : x.kind = .punctuation char) (then_ : ∀ c', c'.Shows faces → good () c') :
    Ends (Parser.expectPunctuation char) o c good bad := by
  have here : c.token.isPunctuation char = true := by
    simp [Token.isPunctuation, shows.kind, kind]
  simp only [Parser.expectPunctuation, ends_bind, ends_current, here, if_true]
  exact advance_shown some_ shows then_

/-- Consuming a given marker. -/
theorem expectMarker_shown {marker : Marker} {good : Unit → Cursor → Prop}
    {bad : Failure → Prop} (some_ : faces ≠ []) (shows : c.Shows (x :: faces))
    (kind : x.kind = .marker marker) (then_ : ∀ c', c'.Shows faces → good () c') :
    Ends (Parser.expectMarker marker) o c good bad := by
  have here : c.token.isMarker marker = true := by simp [Token.isMarker, shows.kind, kind]
  simp only [Parser.expectMarker, ends_bind, ends_current, here, if_true]
  exact advance_shown some_ shows then_

/-- The semicolon at the end of a statement. -/
theorem semicolon_shown {good : Unit → Cursor → Prop} {bad : Failure → Prop}
    (some_ : faces ≠ []) (shows : c.Shows (x :: faces)) (kind : x.kind = .punctuation ';')
    (then_ : ∀ c', c'.Shows faces → good () c') :
    Ends Parser.semicolon o c good bad := by
  have here : c.token.isPunctuation ';' = true := by
    simp [Token.isPunctuation, shows.kind, kind]
  simp only [Parser.semicolon, ends_bind, ends_atPunctuation, here, if_true]
  exact advance_shown some_ shows then_

/-! ## Loops -/

/-- One step of a loop. -/
theorem ends_loopWithin {step : σ → Parser (σ ⊕ α)} (k : Nat) (state : σ)
    {good : α → Cursor → Prop} {bad : Failure → Prop} :
    Ends (Parser.loopWithin step (k + 1) state) o c good bad ↔
      Ends (step state) o c
        (fun outcome c' =>
          match outcome with
          | .inl state => Ends (Parser.loopWithin step k state) o c' good bad
          | .inr result => good result c') bad := by
  rw [Parser.loopWithin, ends_bind]
  constructor <;> refine fun ends => ends.mono (fun outcome c' fine => ?_) fun _ fine => fine
  · cases outcome <;> exact fine
  · cases outcome <;> exact fine

/-- A loop has room for all tokens that are shown. -/
theorem loop_shown {step : σ → Parser (σ ⊕ α)} {state : σ} {good : α → Cursor → Prop}
    {bad : Failure → Prop} (shows : c.Shows faces)
    (run : ∀ k, faces.length ≤ k → Ends (Parser.loopWithin step k state) o c good bad) :
    Ends (Parser.loop step state) o c good bad := by
  rw [Parser.loop, ends_bind, ends_get]
  apply run
  cases faces with
  | nil => simp
  | cons x faces =>
    have room := shows.2.length_le
    simp only [List.length_cons]
    omega

/-- A loop that gathers items: each step adds what it reads of one item. What is gathered already
may be known to have a property that it keeps. -/
theorem gather_shown {ι γ : Type} {step : List α → Parser (List α ⊕ List α)} {itemFaces : ι → List Face}
    {before : ι → γ} {after : α → γ} {Next : List Face → Prop} {rest : List Face}
    (Held : List α → Prop) (grown : ∀ done a, Held (done ++ [a]))
    (nonempty : ∀ i, itemFaces i ≠ []) (todo : List ι)
    (each : ∀ i ∈ todo, ∀ done more c, Held done → Next more → c.Shows (itemFaces i ++ more) →
      Ends (step done) o c
        (fun outcome c' => ∃ a, outcome = .inl (done ++ [a]) ∧ after a = before i ∧ c'.Shows more)
        Never)
    (again : ∀ i ∈ todo, ∀ more, Next (itemFaces i ++ more)) (last : Next rest) (some_ : rest ≠ [])
    (stop : ∀ done c, Held done → c.Shows rest →
      Ends (step done) o c (fun outcome c' => outcome = .inr done ∧ c'.Shows rest) Never) :
    ∀ (done : List α) (k : Nat) (c : Cursor), Held done → c.Shows (todo.flatMap itemFaces ++ rest) →
      (todo.flatMap itemFaces ++ rest).length ≤ k →
      Ends (Parser.loopWithin step k done) o c
        (fun items c' => ∃ more, items = done ++ more ∧ more.map after = todo.map before ∧
          c'.Shows rest) Never := by
  have left := List.length_pos_iff.2 some_
  induction todo with
  | nil =>
    intro done k c held shows room
    rw [List.flatMap_nil, List.nil_append] at shows room
    obtain ⟨k, rfl⟩ := Nat.exists_eq_succ_of_ne_zero (Nat.ne_of_gt (Nat.lt_of_lt_of_le left room))
    rw [ends_loopWithin]
    refine (stop done c held shows).mono ?_ fun _ bad => bad
    rintro _ c' ⟨rfl, shows⟩
    exact ⟨[], by simp, rfl, shows⟩
  | cons i todo ih =>
    intro done k c held shows room
    have shorter := List.length_pos_iff.2 (nonempty i)
    rw [List.flatMap_cons, List.append_assoc] at shows room
    rw [List.length_append] at room
    obtain ⟨k, rfl⟩ := Nat.exists_eq_succ_of_ne_zero (n := k) (by omega)
    rw [ends_loopWithin]
    have next : Next (todo.flatMap itemFaces ++ rest) := by
      cases todo with
      | nil => exact last
      | cons j todo =>
        rw [List.flatMap_cons, List.append_assoc]
        exact again j (by simp) _
    refine (each i (by simp) done _ c held next shows).mono ?_ fun _ bad => bad
    rintro _ c' ⟨a, rfl, same, shows⟩
    refine (ih (fun j listed => each j (List.mem_cons_of_mem _ listed))
      (fun j listed => again j (List.mem_cons_of_mem _ listed)) (done ++ [a]) k c'
      (grown done a) shows (by omega)).mono ?_ fun _ bad => bad
    rintro items c' ⟨more, rfl, others, shows⟩
    exact ⟨a :: more, by simp, by simp [same, others], shows⟩

end Shown

end Stencil.Grammar

import Stencil.Proofs.Parsing.Bounds
import Stencil.Proofs.Parsing.Shown
/-!
# Blocks that are open

Reading a template, the parser stands inside a stack of open blocks: `Inside` says which, by what
was read so far, be it whole chunks, the openings of blocks or the markers of their branches. From
there on the rest of the text is read by the innermost block, and an error that it gives is the
error of the whole template, at whatever depth it is given (`parse_refuses`).

So a closer of another block, and the end of the text, are reported for the innermost block, at the
closer and with the place of the block's opening; what stands behind the closer's name is not read.
-/

set_option autoImplicit false

namespace Stencil.Grammar

open Stencil.Error (Fault ParseError)
open Stencil.Syntax
open Stencil.Text (Position Span)
open Stencil.Grammar.Parser

variable {α β : Type}

/-! ## Open blocks -/

/-- A block whose closer has not been read: the place of the braces that opened it and, for a
conditional, whether its default branch has begun. -/
inductive OpenBlock where
  | each (opening : Span)
  | cond (opening : Span) (defaulted : Bool)

namespace OpenBlock

/-- The name that closes the block. -/
def name : OpenBlock → String
  | each _ => "each"
  | cond .. => "if"

/-- The place of the braces that opened the block. -/
def opening : OpenBlock → Span
  | each opening => opening
  | cond opening _ => opening

/-- Whether `{{else}}` belongs to the block. -/
def branches : OpenBlock → Bool
  | each _ => false
  | cond .. => true

end OpenBlock

namespace Parser

/-- Reads the opening of an iteration: all that stands before its body. -/
def eachOpening (rules : Rules) : Parser Unit := do
  expectMarker .commandOpen
  match ← currentKind with
  | .name "each" =>
    advance
    let _ ← eachHead rules
    expectMarker .commandClose
  | _ => unexpected

/-- Reads the opening of a conditional. -/
def ifOpening (rules : Rules) : Parser Unit := do
  expectMarker .commandOpen
  match ← currentKind with
  | .keyword .if =>
    advance
    let _ ← commandExpression rules
  | _ => unexpected

/-- Reads `{{else`, and what the branch begins with behind it. -/
def branchOpening (condition : Parser Unit) : Parser Unit := do
  expectMarker .commandOpen
  if !(← atKeyword .else) then unexpected
  advance
  condition

/-- Reads `{{else}}`. -/
def defaultOpening : Parser Unit := branchOpening (expectMarker .commandClose)

/-- Reads `{{else` and a condition. -/
def elseIfOpening (rules : Rules) : Parser Unit :=
  branchOpening do
    if ← atMarker .commandClose then unexpected
    let _ ← commandExpression rules

end Parser

/-- A rule reads from one cursor to another, with the bound that a whole text is read with. -/
def Reads (o : Options) (rule : Rules → Parser α) (c : Cursor) (result : α) (behind : Cursor) :
    Prop :=
  rule (Rules.upTo (c.lexer.rest.length + 2)) o c = .ok (result, behind)

/-- The text of a source up to a cursor is read, as chunks inside a stack of open blocks, the
innermost first. -/
inductive Inside (o : Options) (source : List Char) : List OpenBlock → Cursor → Prop where
  | start {c : Cursor} (begun : Cursor.ofSource true source = .ok c) : Inside o source [] c
  | chunk {stack : List OpenBlock} {c behind : Cursor} {read : Chunk}
      (inside : Inside o source stack c) (reads : Reads o Parser.chunk c read behind) : Inside o source stack behind
  | each {stack : List OpenBlock} {c behind : Cursor} (inside : Inside o source stack c)
      (reads : Reads o eachOpening c () behind) :
      Inside o source (.each c.token.span :: stack) behind
  | cond {stack : List OpenBlock} {c behind : Cursor} (inside : Inside o source stack c)
      (reads : Reads o ifOpening c () behind) :
      Inside o source (.cond c.token.span false :: stack) behind
  | elseIf {stack : List OpenBlock} {opening : Span} {c behind : Cursor}
      (inside : Inside o source (.cond opening false :: stack) c)
      (reads : Reads o elseIfOpening c () behind) :
      Inside o source (.cond opening false :: stack) behind
  | default {stack : List OpenBlock} {opening : Span} {c behind : Cursor}
      (inside : Inside o source (.cond opening false :: stack) c)
      (reads : Reads o (fun _ => defaultOpening) c () behind) :
      Inside o source (.cond opening true :: stack) behind

/-! ## The loops that read blocks -/

/-- One step of reading a template. -/
def templateStep (rules : Rules) (chunks : List Chunk) : Parser (List Chunk ⊕ List Chunk) := do
  if (← current).isEof then return .inr chunks
  return .inl (chunks ++ [← chunk rules])

/-- One step of reading the body of a block. -/
def bodyStep (rules : Rules) (block : OpenBlock) (chunks : List Chunk) :
    Parser (List Chunk ⊕ List Chunk) := do
  let token ← current
  if token.isEof then
    refuse
      { ParseError.ofFault (.openBlock block.name) token.span with
        related := some block.opening
        help := some ("Close with \x7b\x7b/" ++ block.name ++ "\x7d\x7d") }
  if token.isMarker .closerOpen then return .inr chunks
  if block.branches && token.isMarker .commandOpen then
    if (← following).isKeyword .else then return .inr chunks
  return .inl (chunks ++ [← rules.chunk])

/-- Reads the rest of a branch, from behind the word `else`. -/
def branchBody (rules : Rules) (opening elseSpan : Span)
    (state : List ElseIf × Option (List Chunk)) :
    Parser ((List ElseIf × Option (List Chunk)) ⊕ (List ElseIf × Option (List Chunk))) := do
  if ← atMarker .commandClose then
    if state.2.isSome then refuse (.ofFault .secondElse elseSpan)
    advance
    let body ← blockBody rules "if" opening true
    return .inl (state.1, some body)
  else
    if state.2.isSome then refuse (.ofFault .lateElse elseSpan)
    let condition ← commandExpression rules
    let body ← blockBody rules "if" opening true
    return .inl (state.1 ++ [.mk condition body], state.2)

/-- One step of reading the branches of a conditional. -/
def branchStep (rules : Rules) (opening : Span) (state : List ElseIf × Option (List Chunk)) :
    Parser ((List ElseIf × Option (List Chunk)) ⊕ (List ElseIf × Option (List Chunk))) := do
  if !(← atMarker .commandOpen) then return .inr (state.1, state.2)
  advance
  let elseSpan := (← current).span
  advance
  branchBody rules opening elseSpan state

theorem template_eq (rules : Rules) :
    template rules = (do return ⟨← loop (templateStep rules) []⟩) := rfl

theorem blockBody_eq (rules : Rules) (block : OpenBlock) :
    blockBody rules block.name block.opening block.branches = loop (bodyStep rules block) [] := by
  cases block <;> rfl

theorem elseBranches_eq (rules : Rules) (opening : Span) :
    elseBranches rules opening = loop (branchStep rules opening) ([], none) := rfl

/-! ## Before a chunk -/

section

variable {o : Options} {c : Cursor} {R : Rules}

/-- A rule that has given a result. -/
theorem ends_of_read {p : Parser α} {result : α} {behind : Cursor}
    (read : p o c = .ok (result, behind)) :
    Ends p o c (fun a b => a = result ∧ b = behind) Never := by
  unfold Ends
  rw [read]
  exact ⟨rfl, rfl⟩

/-- The cursor is before what may be a chunk: not at the end of the text, at a closer or at a
branch. -/
structure Cursor.BeforeChunk (c : Cursor) : Prop where
  going : c.token.isEof = false
  open_ : c.token.isMarker .closerOpen = false
  inside : c.token.isMarker .commandOpen = true →
    ∃ token lexer, c.lexer.next = (.ok token, lexer) ∧ token.isKeyword .else = false

/-- The marker that a token is. -/
theorem kind_of_isMarker {token : Token} {marker : Marker} (here : token.isMarker marker = true) :
    token.kind = .marker marker := by
  unfold Token.isMarker at here
  split at here
  · next other kind => rw [kind, of_decide_eq_true here]
  · cases here

/-- Braces that another word than `else` follows begin a chunk. -/
theorem beforeChunk_of_open (marker : c.token.isMarker .commandOpen = true)
    (word : Ends advance o c (fun _ behind => behind.token.isKeyword .else = false) Never) :
    c.BeforeChunk := by
  have kind := kind_of_isMarker marker
  refine ⟨going_of_marker marker, by simp [Token.isMarker, kind], fun _ => ?_⟩
  rw [ends_advance] at word
  split at word
  · next token lexer read => exact ⟨token, lexer, read, word⟩
  · exact word.elim

/-- A chunk is read behind what may be one. -/
theorem beforeChunk_of_chunk {good : Chunk → Cursor → Prop} (ends : Ends (chunk R) o c good Never) :
    c.BeforeChunk := by
  unfold chunk at ends
  rw [ends_bind, ends_current] at ends
  dsimp only at ends
  split at ends
  · next kind =>
    refine ⟨going_of_kind kind (by simp), by simp [Token.isMarker, kind], ?_⟩
    simp [Token.isMarker, kind]
  · next kind =>
    refine ⟨going_of_kind kind (by simp), by simp [Token.isMarker, kind], ?_⟩
    simp [Token.isMarker, kind]
  · next kind =>
    rw [ends_bind] at ends
    refine beforeChunk_of_open (by simp [Token.isMarker, kind]) (ends.mono ?_ fun _ never => never)
    intro _ behind inner
    unfold command at inner
    rw [ends_bind, ends_currentKind] at inner
    cases other : behind.token.isKeyword .else with
    | false => rfl
    | true =>
      have kind : behind.token.kind = .keyword .else := by
        unfold Token.isKeyword at other
        split at other
        · next keyword kind => rw [kind, of_decide_eq_true other]
        · cases other
      rw [kind] at inner
      exact inner.elim
  · exact ends.elim

/-! ## Openings -/

variable {bad : Failure → Prop}

/-- What a rule that does not fail goes on to. -/
theorem Ends.onto {p : Parser α} {good better : α → Cursor → Prop} (ends : Ends p o c good Never)
    (onward : ∀ a behind, good a behind → better a behind) : Ends p o c better bad :=
  ends.mono onward fun _ never => never.elim

theorem ends_expectMarker {marker : Marker} {good : Unit → Cursor → Prop}
    (ends : Ends (expectMarker marker) o c good Never) :
    c.token.kind = .marker marker ∧ Ends advance o c good Never := by
  simp only [expectMarker, ends_bind, ends_current, ends_ite] at ends
  split_ifs at ends with here
  · exact ⟨kind_of_isMarker here, ends⟩
  · exact ends.elim

/-- The opening of an iteration begins a chunk, which fails as its body and its closer do. -/
theorem chunk_each {behind : Cursor} (read : eachOpening R o c = .ok ((), behind)) :
    c.BeforeChunk ∧ ∀ bad : Failure → Prop,
      Ends (blockBody R "each" c.token.span false) o behind
          (fun _ last => Ends (closeBlock "each" c.token.span) o last (fun _ _ => False) bad) bad →
        Ends (chunk R) o c (fun _ _ => False) bad := by
  have ends := ends_of_read read
  unfold eachOpening at ends
  rw [ends_bind] at ends
  obtain ⟨kind, ends⟩ := ends_expectMarker ends
  refine ⟨beforeChunk_of_open (by simp [Token.isMarker, kind]) (ends.onto ?_), fun bad body => ?_⟩
  · intro _ named inner
    rw [ends_bind, ends_currentKind] at inner
    split at inner
    · next word => simp [Token.isKeyword, word]
    · exact inner.elim
  · unfold chunk
    rw [ends_bind, ends_current, kind]
    dsimp only
    rw [ends_bind]
    refine ends.onto fun _ named inner => ?_
    rw [ends_bind, ends_currentKind] at inner
    split at inner
    · next word =>
      unfold command eachBlock
      rw [ends_bind, ends_currentKind, word]
      simp only [ends_bind] at inner ⊢
      refine inner.onto fun _ listed inner => inner.onto fun head closing inner => ?_
      refine inner.onto fun _ begun same => ?_
      obtain rfl : begun = behind := same.2
      exact body.mono (fun _ last closes => closes.mono (fun _ _ never => never.elim) fun _ w => w)
        fun _ w => w
    · exact inner.elim

/-- So does that of a conditional, as its bodies do. -/
theorem chunk_if {behind : Cursor} (read : ifOpening R o c = .ok ((), behind)) :
    c.BeforeChunk ∧ ∀ bad : Failure → Prop,
      Ends (blockBody R "if" c.token.span true) o behind
          (fun _ first => Ends (elseBranches R c.token.span) o first
            (fun _ last =>
              Ends (closeBlock "if" c.token.span) o last (fun _ _ => False) bad) bad) bad →
        Ends (chunk R) o c (fun _ _ => False) bad := by
  have ends := ends_of_read read
  unfold ifOpening at ends
  rw [ends_bind] at ends
  obtain ⟨kind, ends⟩ := ends_expectMarker ends
  refine ⟨beforeChunk_of_open (by simp [Token.isMarker, kind]) (ends.onto ?_), fun bad body => ?_⟩
  · intro _ named inner
    rw [ends_bind, ends_currentKind] at inner
    split at inner
    · next word => simp [Token.isKeyword, word]
    · exact inner.elim
  · unfold chunk
    rw [ends_bind, ends_current, kind]
    dsimp only
    rw [ends_bind]
    refine ends.onto fun _ named inner => ?_
    rw [ends_bind, ends_currentKind] at inner
    split at inner
    · next word =>
      unfold command ifBlock
      rw [ends_bind, ends_currentKind, word]
      simp only [ends_bind] at inner ⊢
      refine inner.onto fun _ conditioned inner => inner.onto fun condition begun same => ?_
      obtain rfl : begun = behind := same.2
      refine body.mono (fun _ first more => more.mono (fun _ last closes => ?_) fun _ w => w)
        fun _ w => w
      exact closes.mono (fun _ _ never => never.elim) fun _ w => w
    · exact inner.elim

/-- The opening of a branch: braces, the word and what the branch begins with. -/
theorem ends_branchOpening {condition : Parser Unit} {behind : Cursor}
    (read : branchOpening condition o c = .ok ((), behind)) :
    c.token.kind = .marker .commandOpen ∧
      Ends advance o c (fun _ named => named.token.isKeyword .else = true ∧
        Ends advance o named
          (fun _ after => Ends condition o after (fun _ last => last = behind) Never)
          Never) Never := by
  have ends := ends_of_read read
  unfold branchOpening at ends
  rw [ends_bind] at ends
  obtain ⟨marker, ends⟩ := ends_expectMarker ends
  refine ⟨marker, ends.onto fun _ named inner => ?_⟩
  simp only [ends_bind, ends_atKeyword, ends_ite] at inner
  split_ifs at inner with other
  · exact inner.elim
  · exact ⟨by simpa using other,
      inner.onto fun _ after inner => inner.onto fun _ last same => same.2⟩

end

/-! ## Openings and bounds -/

section

variable {o : Options} {c : Cursor} {k : Nat} {R S : Rules} (agree : Rules.Agree k R S)

include agree

theorem consumes_eachOpening (room : c.ahead ≤ k) :
    Consumes o c (eachOpening R) (eachOpening S) := by
  unfold eachOpening
  refine (takes_expectMarker _).followed fun _ _ _ shorter => ?_
  have room := Nat.lt_of_lt_of_le shorter room
  simp only [same_currentKind]
  split
  · exact same_advance.bind fun _ _ leads => (same_eachHead agree (leads.lt room)).bind
      fun _ _ _ => (takes_expectMarker _).same
  · exact same_unexpected

theorem consumes_ifOpening (room : c.ahead ≤ k) : Consumes o c (ifOpening R) (ifOpening S) := by
  unfold ifOpening
  refine (takes_expectMarker _).followed fun _ _ _ shorter => ?_
  have room := Nat.lt_of_lt_of_le shorter room
  simp only [same_currentKind]
  split
  · exact same_advance.bind fun _ _ leads => (same_commandExpression agree (leads.lt room)).bind
      fun _ _ _ => same_pure _
  · exact same_unexpected

omit agree in
theorem consumes_branchOpening {condition other : Parser Unit}
    (same : ∀ behind, behind.ahead < c.ahead → Same o behind condition other) :
    Consumes o c (branchOpening condition) (branchOpening other) := by
  unfold branchOpening
  refine (takes_expectMarker _).followed fun _ _ _ shorter => ?_
  simp only [same_atKeyword, same_ite]
  split
  · exact same_fails rfl
  · exact same_advance.bind fun _ behind leads => same behind (leads.lt shorter)

theorem consumes_elseIfOpening (room : c.ahead ≤ k) :
    Consumes o c (elseIfOpening R) (elseIfOpening S) := by
  refine consumes_branchOpening fun behind shorter => ?_
  have room := Nat.lt_of_lt_of_le shorter room
  simp only [same_atMarker, same_ite]
  split
  · exact same_fails rfl
  · exact (same_commandExpression agree room).bind fun _ _ _ => same_pure _

end

/-- What lies ahead of a cursor is less than the bound that a whole text is read with. -/
theorem Cursor.ahead_le (c : Cursor) : c.ahead ≤ c.lexer.rest.length + 1 := by
  unfold ahead
  split <;> omega

/-- What a rule reads with the bound of a whole text it reads with every bound that is large
enough, and the cursor behind it has less ahead. -/
theorem Reads.with {rule : Rules → Parser α} {o : Options} {c behind : Cursor} {result : α}
    (reads : Reads o rule c result behind)
    (consumes : ∀ {k : Nat} {R S : Rules}, Rules.Agree k R S → c.ahead ≤ k →
      Consumes o c (rule R) (rule S)) :
    (∀ n, c.ahead ≤ n → rule (Rules.upTo n) o c = .ok (result, behind)) ∧ c.Leads behind ∧
      behind.ahead < c.ahead := by
  have enough : c.ahead ≤ c.lexer.rest.length + 2 := Nat.le_succ_of_le c.ahead_le
  refine ⟨fun n room => ?_, ?_⟩
  · rw [(consumes (agree_upTo room enough) (Nat.le_refl _)).eq]
    exact reads
  · have takes := (consumes (agree_upTo enough enough) (Nat.le_refl _)).takes
    unfold Takes Ends at takes
    rw [reads] at takes
    exact takes

/-- What is read of a default branch does not depend on rules. -/
theorem consumes_defaultOpening {o : Options} {c : Cursor} :
    Consumes o c defaultOpening defaultOpening :=
  consumes_branchOpening fun _ _ => (takes_expectMarker _).same

/-- A bound that exceeds something is a successor. -/
theorem exists_succ_of_lt {m n : Nat} (less : m < n) : ∃ k, n = k + 1 :=
  Nat.exists_eq_succ_of_ne_zero (Nat.ne_of_gt (Nat.lt_of_le_of_lt m.zero_le less))

/-! ## The failure of the innermost block -/

section

variable {o : Options} {c behind : Cursor} {bad : Failure → Prop} {stack : List OpenBlock}

/-- What a rule gives has both of two properties. -/
theorem Ends.and {p : Parser α} {good better : α → Cursor → Prop} (first : Ends p o c good bad)
    (second : Ends p o c better fun _ => True) :
    Ends p o c (fun a last => good a last ∧ better a last) bad := by
  unfold Ends at *
  split at first
  · next read =>
    rw [read] at second
    exact ⟨first, second⟩
  · exact first

/-- One step of reading what is innermost: a template, or the body of a block. -/
def innerStep (rules : Rules) : List OpenBlock → List Chunk → Parser (List Chunk ⊕ List Chunk)
  | [] => templateStep rules
  | block :: _ => bodyStep rules block

/-- Behind the body of a block, what completes the block fails. -/
def FailsBehind (o : Options) (bad : Failure → Prop) (rules : Rules) (c : Cursor) :
    List OpenBlock → Prop
  | [] => False
  | .each opening :: _ => Ends (closeBlock "each" opening) o c (fun _ _ => False) bad
  | .cond opening defaulted :: _ => ∀ j state, state.2.isSome = defaulted → c.ahead < j →
      Ends (loopWithin (branchStep rules opening) j state) o c
        (fun _ last => Ends (closeBlock "if" opening) o last (fun _ _ => False) bad) bad

/-- From the cursor on, what is innermost fails, with every bound that is large enough. -/
def Fails (o : Options) (bad : Failure → Prop) (stack : List OpenBlock) (c : Cursor) : Prop :=
  ∀ n k chunks, c.ahead < n → c.ahead < k →
    Ends (loopWithin (innerStep (Rules.upTo n) stack) k chunks) o c
      (fun _ behind => FailsBehind o bad (Rules.upTo n) behind stack) bad

/-- A step at what may be a chunk reads one. -/
theorem innerStep_chunk (before : c.BeforeChunk) {n : Nat} (room : c.ahead < n)
    (chunks : List Chunk) (stack : List OpenBlock) :
    ∃ m, c.ahead ≤ m ∧ ∀ good : List Chunk ⊕ List Chunk → Cursor → Prop,
      Ends (chunk (Rules.upTo m)) o c (fun read => good (.inl (chunks ++ [read]))) bad →
        Ends (innerStep (Rules.upTo n) stack chunks) o c good bad := by
  cases stack with
  | nil =>
    refine ⟨n, Nat.le_of_lt room, fun good ends => ?_⟩
    show Ends (templateStep _ _) o c good bad
    simp only [templateStep, ends_bind, ends_current, before.going, Bool.false_eq_true, if_false]
    exact ends
  | cons block stack =>
    obtain ⟨m, rfl⟩ := exists_succ_of_lt room
    refine ⟨m, Nat.le_of_lt_succ room, fun good ends => ?_⟩
    show Ends (bodyStep _ _ _) o c good bad
    have reads : Ends (do return .inl (chunks ++ [← (Rules.upTo (m + 1)).chunk])) o c good bad :=
      ends_bind.2 ends
    simp only [bodyStep, ends_bind, ends_current, before.going, before.open_, Bool.false_eq_true,
      if_false]
    split_ifs with branch
    · rw [Bool.and_eq_true] at branch
      obtain ⟨token, lexer, next, other⟩ := before.inside branch.2
      rw [ends_bind, ends_following, next]
      simp only [other, Bool.false_eq_true, if_false]
      exact reads
    · exact reads

/-- If no chunk can be read where one may be, what is innermost fails. -/
theorem fails_of_chunk (before : c.BeforeChunk)
    (chunk : ∀ m, c.ahead ≤ m → Ends (chunk (Rules.upTo m)) o c (fun _ _ => False) bad) :
    Fails o bad stack c := by
  intro n k chunks roomy long
  obtain ⟨k, rfl⟩ := exists_succ_of_lt long
  obtain ⟨m, room, step⟩ := innerStep_chunk before roomy chunks stack
  rw [ends_loopWithin]
  exact step _ ((chunk m room).mono (fun _ _ never => never.elim) fun _ w => w)

/-- What is innermost fails before a chunk if it does behind it. -/
theorem fails_chunk {read : Chunk} (reads : Reads o Parser.chunk c read behind)
    (fails : Fails o bad stack behind) : Fails o bad stack c := by
  obtain ⟨reads, -, shorter⟩ := reads.with consumes_chunk
  have before : c.BeforeChunk :=
    beforeChunk_of_chunk (ends_of_read (reads c.ahead (Nat.le_refl _)))
  intro n k chunks roomy long
  obtain ⟨k, rfl⟩ := exists_succ_of_lt long
  obtain ⟨m, room, step⟩ := innerStep_chunk before roomy chunks stack
  rw [ends_loopWithin]
  refine step _ ((ends_of_read (reads m room)).onto ?_)
  rintro _ _ ⟨rfl, rfl⟩
  exact fails n k _ (Nat.lt_trans shorter roomy) (by omega)

/-- The body of a block fails as it does from its beginning. -/
theorem ends_blockBody (block : OpenBlock) (fails : Fails o bad (block :: stack) c) {n : Nat}
    (room : c.ahead < n) :
    Ends (blockBody (Rules.upTo n) block.name block.opening block.branches) o c
      (fun _ last => FailsBehind o bad (Rules.upTo n) last (block :: stack) ∧ last.ahead ≤ c.ahead)
      bad := by
  have leads := (same_blockBody (agree_upTo (Nat.le_refl n) (Nat.le_refl n)) room block.name
    block.opening block.branches (o := o)).leads
  refine Ends.and ?_ (leads.mono (fun _ _ leads => leads.ahead) fun _ _ => trivial)
  rw [blockBody_eq, loop, ends_bind, ends_get]
  exact fails n _ [] room (Nat.lt_succ_of_le c.ahead_le)

/-- An iteration fails as its body does. -/
theorem fails_each (reads : Reads o eachOpening c () behind)
    (fails : Fails o bad (.each c.token.span :: stack) behind) : Fails o bad stack c := by
  obtain ⟨reads, -, shorter⟩ := reads.with consumes_eachOpening
  refine fails_of_chunk (chunk_each (reads _ (Nat.le_refl _))).1 fun m room => ?_
  refine (chunk_each (reads m room)).2 bad ?_
  exact (ends_blockBody _ fails (Nat.lt_of_lt_of_le shorter room)).mono
    (fun _ _ closes => closes.1) fun _ w => w

/-- A conditional fails as its first branch does. -/
theorem fails_cond (reads : Reads o ifOpening c () behind)
    (fails : Fails o bad (.cond c.token.span false :: stack) behind) : Fails o bad stack c := by
  obtain ⟨reads, -, shorter⟩ := reads.with consumes_ifOpening
  refine fails_of_chunk (chunk_if (reads _ (Nat.le_refl _))).1 fun m room => ?_
  refine (chunk_if (reads m room)).2 bad ?_
  refine (ends_blockBody _ fails (Nat.lt_of_lt_of_le shorter room)).mono (fun _ first both => ?_)
    fun _ w => w
  rw [elseBranches_eq, loop, ends_bind, ends_get]
  exact both.1 _ _ rfl (Nat.lt_succ_of_le first.ahead_le)

/-- At a branch of a conditional, the body before it ends; the conditional fails as the branch and
what is behind it do. -/
theorem fails_of_branch {opening : Span} {defaulted : Bool} {condition : Nat → Parser Unit}
    (read : ∀ n, c.ahead ≤ n → branchOpening (condition n) o c = .ok ((), behind))
    (branch : ∀ n j after elseSpan state, c.ahead < n → c.ahead ≤ j → state.2.isSome = defaulted →
      Ends (condition n) o after (fun _ last => last = behind) Never →
      Ends (branchBody (Rules.upTo n) opening elseSpan state) o after
        (fun outcome last => ∃ state, outcome = .inl state ∧
          Ends (loopWithin (branchStep (Rules.upTo n) opening) j state) o last
            (fun _ last => Ends (closeBlock "if" opening) o last (fun _ _ => False) bad) bad) bad) :
    Fails o bad (.cond opening defaulted :: stack) c := by
  intro n k chunks roomy long
  obtain ⟨k, rfl⟩ := exists_succ_of_lt long
  obtain ⟨marker, ends⟩ := ends_branchOpening (read n (Nat.le_of_lt roomy))
  have going : c.token.isEof = false := going_of_kind marker (by simp)
  have next := ends
  rw [ends_loopWithin]
  show Ends (bodyStep _ _ _) o c _ bad
  rw [ends_advance] at next
  split at next
  · next token lexer follows =>
    have word : token.isKeyword .else = true := next.1
    simp only [bodyStep, ends_bind, ends_current, going, Token.isMarker, marker, OpenBlock.branches,
      ends_following, follows, word, reduceCtorEq, decide_false, decide_true, Bool.and_self,
      Bool.false_eq_true, if_false, if_true, ends_pure]
    intro j state fresh long
    obtain ⟨j, rfl⟩ := exists_succ_of_lt long
    have here : c.token.isMarker .commandOpen = true := by simp [Token.isMarker, marker]
    rw [ends_loopWithin]
    simp only [branchStep, ends_bind, ends_atMarker, here, Bool.not_true, Bool.false_eq_true,
      if_false]
    refine ends.onto fun _ named inner => ?_
    rw [ends_current]
    refine inner.2.onto fun _ after inner => ?_
    refine (branch n j after _ state roomy (Nat.le_of_lt_succ long) fresh inner).mono ?_
      fun _ w => w
    rintro outcome last ⟨state, rfl, more⟩
    exact more
  · exact next.elim

/-- A conditional fails before its default branch if it does inside. -/
theorem fails_default {opening : Span} (reads : Reads o (fun _ => defaultOpening) c () behind)
    (fails : Fails o bad (.cond opening true :: stack) behind) :
    Fails o bad (.cond opening false :: stack) c := by
  obtain ⟨reads, -, shorter⟩ := reads.with fun _ _ => consumes_defaultOpening
  refine fails_of_branch reads fun n j after elseSpan state roomy long fresh ends => ?_
  obtain ⟨kind, ends⟩ := ends_expectMarker ends
  have close : after.token.isMarker .commandClose = true := by simp [Token.isMarker, kind]
  simp only [branchBody, ends_bind, ends_atMarker, close, if_true, fresh, Bool.false_eq_true,
    if_false]
  refine ends.onto fun _ begun same => ?_
  subst same
  refine (ends_blockBody (.cond opening true) fails (Nat.lt_trans shorter roomy)).mono ?_
    fun _ w => w
  rintro body last ⟨closes, less⟩
  exact ⟨_, rfl, closes j _ rfl (by omega)⟩

/-- So does it before a branch with a condition. -/
theorem fails_elseIf {opening : Span} (reads : Reads o elseIfOpening c () behind)
    (fails : Fails o bad (.cond opening false :: stack) behind) :
    Fails o bad (.cond opening false :: stack) c := by
  obtain ⟨reads, -, shorter⟩ := reads.with consumes_elseIfOpening
  refine fails_of_branch reads fun n j after elseSpan state roomy long fresh ends => ?_
  simp only [branchBody, ends_bind, ends_atMarker, ends_ite, fresh, Bool.false_eq_true,
    if_false] at ends ⊢
  split_ifs at ends ⊢ with close
  · exact ends.elim
  · refine ends.onto fun _ begun same => ?_
    subst same
    refine (ends_blockBody (.cond opening false) fails (Nat.lt_trans shorter roomy)).mono ?_
      fun _ w => w
    rintro body last ⟨closes, less⟩
    exact ⟨_, rfl, closes j _ fresh (by omega)⟩

/-- The whole template fails as what is innermost does: by induction on what was read. -/
theorem Inside.fails {source : List Char} (inside : Inside o source stack c)
    (fails : Fails o bad stack c) :
    ∃ first, Cursor.ofSource true source = .ok first ∧ Fails o bad [] first := by
  induction inside with
  | start begun => exact ⟨_, begun, fails⟩
  | chunk _ reads ih => exact ih (fails_chunk reads fails)
  | each _ reads ih => exact ih (fails_each reads fails)
  | cond _ reads ih => exact ih (fails_cond reads fails)
  | elseIf _ reads ih => exact ih (fails_elseIf reads fails)
  | default _ reads ih => exact ih (fails_default reads fails)

/-- Inside a template, the lexer behind the marker of a closer is before its name. -/
theorem Inside.inCloser {source : List Char} (inside : Inside o source stack c) : c.InCloser := by
  induction inside with
  | start begun =>
    unfold Cursor.ofSource at begun
    split at begun
    · next token lexer read =>
      cases begun
      exact Lexer.next_closer read
    · cases begun
  | chunk _ reads ih => exact (reads.with consumes_chunk).2.1.closer ih
  | each _ reads ih => exact (reads.with consumes_eachOpening).2.1.closer ih
  | cond _ reads ih => exact (reads.with consumes_ifOpening).2.1.closer ih
  | elseIf _ reads ih => exact (reads.with consumes_elseIfOpening).2.1.closer ih
  | default _ reads ih => exact (reads.with fun _ _ => consumes_defaultOpening).2.1.closer ih

/-- An error that what is innermost refuses the text with is the error of the template. -/
theorem Inside.parse_refuses {source : String} {error : ParseError}
    (inside : Inside o source.toList stack c) (fails : Fails o (· = .refused error) stack c) :
    parseTemplate o source = .error error := by
  obtain ⟨first, begun, fails⟩ := inside.fails fails
  have ends : Ends (template (Rules.upTo (first.lexer.rest.length + 2))) o first
      (fun _ _ => False) (· = .refused error) := by
    rw [template_eq, ends_bind, loop, ends_bind, ends_get]
    have long := Nat.lt_succ_of_le first.ahead_le
    exact (fails _ _ [] long long).mono (fun _ _ never => never.elim) fun _ w => w
  unfold Ends at ends
  unfold parseTemplate run
  rw [begun]
  show Except.mapError Failure.toError
    (template (Rules.upTo (first.lexer.rest.length + 2)) o first >>= fun read => pure read.1) = _
  split at ends
  · exact ends.elim
  · next failure failed =>
    rw [failed, ends]
    rfl

/-! ## Closers and the end of the text -/

/-- At the end of the text, the innermost block is reported as never closed. -/
theorem fails_of_end (block : OpenBlock) (ended : c.token.isEof = true) :
    Fails o (· = .refused
      { kind := .unclosedBlock
        message := "This \x7b\x7b" ++ block.name ++ "\x7d\x7d block is never closed."
        span := c.token.span
        related := some block.opening
        help := some ("Close with \x7b\x7b/" ++ block.name ++ "\x7d\x7d") })
      (block :: stack) c := by
  intro n k chunks _ long
  obtain ⟨k, rfl⟩ := exists_succ_of_lt long
  rw [ends_loopWithin]
  show Ends (bodyStep _ _ _) o c _ _
  simp only [bodyStep, ends_bind, ends_current, ended, if_true, ends_refuse]
  rfl

/-- A block fails at the marker of a closer as the rule for its own closer does. -/
theorem fails_of_closer (block : OpenBlock) (marker : c.token.kind = .marker .closerOpen)
    (closes : Ends (closeBlock block.name block.opening) o c (fun _ _ => False) bad) :
    Fails o bad (block :: stack) c := by
  intro n k chunks _ long
  obtain ⟨k, rfl⟩ := exists_succ_of_lt long
  have going : c.token.isEof = false := going_of_kind marker (by simp)
  rw [ends_loopWithin]
  show Ends (bodyStep _ _ _) o c _ _
  simp only [bodyStep, ends_bind, ends_current, going, Token.isMarker, marker, decide_true,
    Bool.false_eq_true, if_false, if_true, ends_pure]
  cases block with
  | each opening => exact closes
  | cond opening defaulted =>
    intro j state _ long
    obtain ⟨j, rfl⟩ := exists_succ_of_lt long
    have other : c.token.isMarker .commandOpen = false := by simp [Token.isMarker, marker]
    rw [ends_loopWithin]
    simp only [branchStep, ends_bind, ends_atMarker, other, Bool.not_false, if_true, ends_pure]
    exact closes

/-- The name of a closer spells what it was written as. -/
theorem spells_wordKind {token : Token} {closer : Command} (block : closer.isBlock = true)
    (kind : token.kind = wordKind closer.spelling) (name : String) :
    spells token name = decide (closer.spelling = name) := by
  have each : wordKind "each" = .name "each" := rfl
  have cond : wordKind "if" = .keyword .if := rfl
  have verbatim : wordKind "verbatim" = .name "verbatim" := rfl
  unfold spells
  rw [kind]
  cases closer with
  | each =>
    rw [Command.spelling, each]
  | «if» =>
    rw [Command.spelling, cond]
    rfl
  | verbatim =>
    rw [Command.spelling, verbatim]
  | _ => cases block

/-- The rule for the closer of a block refuses another name, which is all it reads behind the
marker. -/
theorem closeBlock_refuses {name : String} {opening : Span} {closer : Command} {tail : List Char}
    (marker : c.token.kind = .marker .closerOpen) (before : c.lexer.BeforeCloser closer tail)
    (other : closer.spelling ≠ name) :
    Ends (closeBlock name opening) o c (fun _ _ => False) (· = .refused
      { kind := .mismatchedCloseTag
        message := "Unmatched template tags. expected closing \x7b\x7b/" ++ name ++ "\x7d\x7d here"
        span := ⟨c.lexer.place, c.lexer.place.after closer.spelling.toList⟩
        related := some opening
        label := some "opened here" }) := by
  obtain ⟨token, lexer, next, kind, span⟩ := Lexer.next_closerName before
  have here : c.token.isMarker .closerOpen = true := by simp [Token.isMarker, marker]
  have wrong : spells token name = false := by
    rw [spells_wordKind before.block kind]
    exact decide_eq_false other
  simp only [closeBlock, expectMarker, ends_bind, ends_current, here, if_true, ends_advance, next]
  simp only [behindToken, wrong, Bool.not_false, if_true, ends_bind, ends_refuse, span]
  rfl

/-- Where the text up to a place is read as chunks inside a stack of open blocks, and goes on with
a closer, the closer has a name; if that is not the name of the innermost block, the template is
refused at the name, as a closer of the innermost block is expected, which is shown where its
braces stand. If the text ends there, the template is refused as the innermost block is never
closed. The text behind the closer's name has no part in it. -/
theorem innermost_block_reported {source : String} {block : OpenBlock}
    (inside : Inside o source.toList (block :: stack) c) :
    (c.token.kind = .marker .closerOpen →
      ∃ closer tail, c.lexer.BeforeCloser closer tail ∧
        (closer.spelling ≠ block.name →
          parseTemplate o source = .error
            { kind := .mismatchedCloseTag
              message := "Unmatched template tags. expected closing \x7b\x7b/" ++ block.name ++
                "\x7d\x7d here"
              span := ⟨c.lexer.place, c.lexer.place.after closer.spelling.toList⟩
              related := some block.opening
              label := some "opened here" })) ∧
    (c.token.isEof = true →
      parseTemplate o source = .error
        { kind := .unclosedBlock
          message := "This \x7b\x7b" ++ block.name ++ "\x7d\x7d block is never closed."
          span := c.token.span
          related := some block.opening
          help := some ("Close with \x7b\x7b/" ++ block.name ++ "\x7d\x7d") }) := by
  refine ⟨fun marker => ?_, fun ended => inside.parse_refuses (fails_of_end block ended)⟩
  obtain ⟨closer, tail, before⟩ := inside.inCloser marker
  refine ⟨closer, tail, before, fun other => ?_⟩
  exact inside.parse_refuses (fails_of_closer block marker (closeBlock_refuses marker before other))

/-- The cursor that a rule reads to. -/
def readTo (o : Options) (rule : Rules → Parser α) (c : Cursor) : Option Cursor :=
  (rule (Rules.upTo (c.lexer.rest.length + 2)) o c).toOption.map (·.2)

theorem ok_of_toOption {ε : Type} {result : Except ε α} {value : α}
    (given : result.toOption = some value) : result = .ok value := by
  cases result with
  | error _ => cases given
  | ok _ => rw [← Option.some.inj given]

theorem reads_of_readTo {rule : Rules → Parser α} (read : readTo o rule c = some behind) :
    ∃ result, Reads o rule c result behind := by
  unfold readTo at read
  rw [Option.map_eq_some_iff] at read
  obtain ⟨outcome, given, rfl⟩ := read
  exact ⟨outcome.1, ok_of_toOption given⟩

/-- An iteration in a default branch is closed as if it were a conditional; what stands behind the
name would be an error too. And an iteration is not closed at all. -/
theorem innermost_block_reported_branch :
    parseTemplate {} "\x7b\x7bif x\x7d\x7d\x7b\x7belse\x7d\x7d\x7b\x7beach y\x7d\x7dz\x7b\x7b/if \"" =
        .error
          { kind := .mismatchedCloseTag
            message := "Unmatched template tags. expected closing \x7b\x7b/each\x7d\x7d here"
            span := ⟨⟨30, 0, 30⟩, ⟨32, 0, 32⟩⟩
            related := some ⟨⟨16, 0, 16⟩, ⟨18, 0, 18⟩⟩
            label := some "opened here" } ∧
      parseTemplate {} "\x7b\x7beach y\x7d\x7dz" =
        .error
          { kind := .unclosedBlock
            message := "This \x7b\x7beach\x7d\x7d block is never closed."
            span := ⟨⟨11, 0, 11⟩, ⟨11, 0, 11⟩⟩
            related := some ⟨⟨0, 0, 0⟩, ⟨2, 0, 2⟩⟩
            help := some "Close with \x7b\x7b/each\x7d\x7d" } := by
  constructor
  · have read : ((Cursor.ofSource true
          "\x7b\x7bif x\x7d\x7d\x7b\x7belse\x7d\x7d\x7b\x7beach y\x7d\x7dz\x7b\x7b/if \"".toList).toOption.bind
        fun first => (readTo {} ifOpening first).bind
        fun branch => (readTo {} (fun _ => defaultOpening) branch).bind
        fun block => (readTo {} eachOpening block).bind
        fun text => (readTo {} Parser.chunk text).map
        fun last =>
          (block.token.span, last.token.isMarker .closerOpen, last.lexer.place, last.lexer.rest)) =
          some (⟨⟨16, 0, 16⟩, ⟨18, 0, 18⟩⟩, true, ⟨30, 0, 30⟩, "if \"".toList) := by
      decide +kernel
    simp only [Option.bind_eq_some_iff, Option.map_eq_some_iff, Prod.mk.injEq] at read
    obtain ⟨first, begun, branch, opened, block, defaulted, text, entered, last, shown,
      opening, marker, place, rest⟩ := read
    obtain ⟨_, opened⟩ := reads_of_readTo opened
    obtain ⟨_, defaulted⟩ := reads_of_readTo defaulted
    obtain ⟨_, entered⟩ := reads_of_readTo entered
    obtain ⟨_, shown⟩ := reads_of_readTo shown
    have conditional := (Inside.start (ok_of_toOption begun)).cond opened
    have iteration := (conditional.default defaulted).each entered
    obtain ⟨closer, tail, before, refused⟩ :=
      (innermost_block_reported (iteration.chunk shown)).1 (kind_of_isMarker marker)
    obtain ⟨follower, -, written⟩ := before.rest
    rw [rest] at written
    have named : closer = .if := by
      have block := before.block
      cases closer with
      | «if» => rfl
      | each => simp [Command.spelling] at written
      | verbatim => simp [Command.spelling] at written
      | _ => cases block
    subst named
    have other : Command.if.spelling ≠ "each" := by decide
    rw [refused other, place, OpenBlock.opening, opening]
    rfl
  · have read : ((Cursor.ofSource true "\x7b\x7beach y\x7d\x7dz".toList).toOption.bind
        fun first => (readTo {} eachOpening first).bind
        fun text => (readTo {} Parser.chunk text).map
        fun last => (first.token.span, last.token.isEof, last.token.span)) =
          some (⟨⟨0, 0, 0⟩, ⟨2, 0, 2⟩⟩, true, ⟨⟨11, 0, 11⟩, ⟨11, 0, 11⟩⟩) := by
      decide +kernel
    simp only [Option.bind_eq_some_iff, Option.map_eq_some_iff, Prod.mk.injEq] at read
    obtain ⟨first, begun, text, entered, last, shown, opening, ended, place⟩ := read
    obtain ⟨_, entered⟩ := reads_of_readTo entered
    obtain ⟨_, shown⟩ := reads_of_readTo shown
    have iteration := (Inside.start (ok_of_toOption begun)).each entered
    rw [(innermost_block_reported (iteration.chunk shown)).2 ended, place, OpenBlock.opening,
      opening]
    rfl

end

end Stencil.Grammar

import Stencil.Proofs.Parsing.ExtentRules
import Stencil.Proofs.Parsing.GrammaticalRules
/-!
# What the rules of templates make sure of

The chunks that are read are grammatical, as the trees in them are: a text can stand in a verbatim
block, and a list of variables, or of names that an iteration binds, is not empty. So every template,
script and expression that was read is grammatical (`grammatical_of_template`,
`grammatical_of_script`, `grammatical_of_expression`).

Statements stand in templates only in the functions of expressions.
-/

set_option autoImplicit false
set_option linter.unusedSectionVars false

namespace Stencil.Grammar

open Stencil.Print
open Stencil.Syntax
open Stencil.Text (Position Span)
open Stencil.Grammar.Parser

variable {o : Options} {c : Cursor} {R : Rules}

/-! ## Markers -/

theorem sure_expectMarker (sure : c.Sure) (marker : Marker) :
    Gives o c (expectMarker marker) fun _ behind => behind.Sure := by
  simp only [Gives, expectMarker, ends_bind, ends_current, ends_ite]
  split_ifs
  · exact sure_advance sure
  · trivial

theorem sure_closeBlock (sure : c.Sure) (name : String) (opening : Span) :
    Gives o c (closeBlock name opening) fun _ behind => behind.Sure := by
  simp only [Gives, closeBlock, ends_bind, ends_current, ends_ite]
  refine (sure_expectMarker sure .closerOpen).next fun _ _ opened => ?_
  split_ifs
  · trivial
  · exact (sure_advance opened).next fun _ _ named => sure_expectMarker named .commandClose

/-- A text that is read can stand in a verbatim block. -/
theorem fineText_of_html {text : String} (sure : c.Sure) (kind : c.token.kind = .html text) :
    IsFineText text := by
  have known := sure.kind
  rw [kind] at known
  exact known

/-! ## Chunks -/

/-- The chunks that the rules enter are grammatical too. -/
def Rules.GrammaticalChunks (o : Options) (R : Rules) : Prop :=
  ∀ {c : Cursor}, c.Sure → Gives o c R.chunk (Sound Chunk.parts)

/-- A chunk around what is grammatical. -/
theorem sound_chunkNode {chunk : Chunk} {parts : List Part} {behind : Cursor}
    (own : chunk.parts = .chunk chunk :: parts) (good : GrammaticalChunk chunk) (sure : behind.Sure)
    (below : Everywhere Grammatical parts) : Sound Chunk.parts chunk behind :=
  ⟨sure, own ▸ (everywhere_cons _ _).2 ⟨good, below⟩⟩

/-- A list of chunks with one more. -/
theorem sound_moreChunks {chunks : List Chunk} {chunk : Chunk} {behind later : Cursor}
    (known : Sound partsOfChunks chunks behind) (read : Sound Chunk.parts chunk later) :
    Sound partsOfChunks (chunks ++ [chunk]) later := by
  have listed := known.2
  refine ⟨read.1, ?_⟩
  rw [everywhere_chunks] at listed ⊢
  simpa [or_imp, forall_and] using ⟨listed, read.2⟩

/-- The names that an iteration binds are parts of no tree. If there is a list of them, it is not
empty, and none is a reserved word. -/
def PlainBindings (bindings : Option (List String)) : Prop :=
  ∀ names, bindings = some names → names ≠ [] ∧ ∀ n ∈ names, IsPlainWord n

theorem plainBindings_none : PlainBindings none := by
  simp [PlainBindings]

section Rules

variable (rules : R.Grammatical o) (chunks : R.GrammaticalChunks o)

include rules

theorem sound_commandExpression (sure : c.Sure) :
    Gives o c (commandExpression R) (Sound Expr.parts) := by
  simp only [Gives, commandExpression, ends_bind, ends_pure]
  refine (rules.expression sure true false).next fun value _ read => ?_
  exact (sure_expectMarker read.1 .commandClose).next fun _ _ closed => ⟨closed, read.2⟩

theorem sound_eachHead (sure : c.Sure) :
    Gives o c (eachHead R) fun head behind =>
      PlainBindings head.1 ∧ Sound Expr.parts head.2 behind := by
  simp only [Gives, eachHead, ends_bind, ends_current, ends_atPunctuation]
  split_ifs
  · simp only [ends_bind, ends_atMarker]
    refine (sure_advance sure).next fun _ _ paren => ?_
    refine (sound_expressionList rules paren ')' false false).next fun items _ listed => ?_
    split_ifs
    · rcases items with _ | ⟨collection, _ | ⟨other, others⟩⟩
      · trivial
      · exact ⟨plainBindings_none, listed.1, everywhere_exprs.1 listed.2 collection (by simp)⟩
      · trivial
    · simp only [ends_bind, ends_pure]
      refine (gives_bindingNames _ items).next fun names _ found => ?_
      obtain ⟨rfl, among⟩ := found
      have plain : ∀ n ∈ names, IsPlainWord n := by
        intro n named
        obtain ⟨s, there⟩ := among n named
        exact ((everywhere_cons _ _).1 (everywhere_exprs.1 listed.2 _ there)).1
      refine (rules.expression listed.1 true false).next fun collection _ read => ⟨?_, read⟩
      rintro some_ same
      split_ifs at same with none_
      obtain rfl := Option.some.inj same
      exact ⟨by simpa using none_, plain⟩
  · simp only [ends_bind, ends_pure]
    exact (rules.expression sure true false).next fun collection _ read =>
      ⟨plainBindings_none, read⟩

theorem sound_inclusion (sure : c.Sure) (opening : Span) :
    Gives o c (inclusion R opening) (Sound Chunk.parts) := by
  have named (args : Option (List Expr)) {later : Cursor} (sure : later.Sure)
      (listed : Everywhere Grammatical (partsOfExprs (args.getD []))) :
      Gives o later
        (do
          let name ← commandExpression R
          return .include (← spanFrom opening.start) args name)
        (Sound Chunk.parts) := by
    simp only [Gives, ends_bind, ends_spanFrom, ends_pure]
    exact (sound_commandExpression rules sure).next fun name _ read =>
      sound_chunkNode rfl trivial read.1 ((everywhere_append _ _).2 ⟨listed, read.2⟩)
  rw [Gives, inclusion, ends_bind, ends_atPunctuation]
  split_ifs
  · rw [ends_bind]
    refine (sure_advance sure).next fun _ _ paren => ?_
    rw [ends_bind]
    exact (sound_expressionList rules paren ')' false false).next fun args _ read =>
      named (some args) read.1 read.2
  · exact named none sure everywhere_nil

include chunks

theorem sound_blockBody (sure : c.Sure) (name : String) (opening : Span) (branches : Bool) :
    Gives o c (blockBody R name opening branches) (Sound partsOfChunks) := by
  unfold blockBody
  refine gives_loop (Sound partsOfChunks) ?_ [] ⟨sure, everywhere_nil⟩
  intro body behind known
  have chunk {later : Cursor} (same : later = behind) :
      Gives o later R.chunk fun chunk last => Sound partsOfChunks (body ++ [chunk]) last := by
    subst same
    exact (chunks known.1).next fun _ _ read => sound_moreChunks known read
  simp only [ends_bind, ends_current, ends_ite, ends_pure]
  split
  · trivial
  · split
    · exact known
    · split
      · refine gives_following.next fun _ _ same => ?_
        split
        · exact same ▸ known
        · exact chunk same
      · exact chunk rfl

theorem sound_eachBlock (sure : c.Sure) (opening : Span) :
    Gives o c (eachBlock R opening) (Sound Chunk.parts) := by
  simp only [Gives, eachBlock, ends_bind, ends_spanFrom, ends_pure]
  refine (sound_eachHead rules sure).next fun head _ read => ?_
  obtain ⟨bindings, collection⟩ := head
  obtain ⟨plain, read⟩ := read
  refine (sure_expectMarker read.1 .commandClose).next fun _ _ closed => ?_
  refine (sound_blockBody rules chunks closed "each" opening false).next fun body _ inside => ?_
  refine (sure_closeBlock inside.1 "each" opening).next fun _ _ ended => ?_
  refine sound_chunkNode rfl ?_ ended ((everywhere_append _ _).2 ⟨read.2, inside.2⟩)
  cases bindings with
  | none => trivial
  | some names => exact plain names rfl

/-- The branches that were read so far are grammatical. -/
def SoundBranches (branches : List ElseIf × Option (List Chunk)) (behind : Cursor) : Prop :=
  behind.Sure ∧ Everywhere Grammatical (partsOfElseIfs branches.1) ∧
    ∀ body, branches.2 = some body → Everywhere Grammatical (partsOfChunks body)

theorem sound_elseBranches (sure : c.Sure) (opening : Span) :
    Gives o c (elseBranches R opening) SoundBranches := by
  unfold elseBranches
  refine gives_loop SoundBranches ?_ ([], none) ⟨sure, everywhere_nil, by simp⟩
  rintro ⟨elseIfs, elseBranch⟩ behind known
  simp only [ends_bind, ends_atMarker, ends_ite, ends_pure]
  split_ifs with others last
  · exact known
  · refine (sure_advance known.1).next fun _ _ opened => ?_
    refine (sure_advance opened).next fun _ _ keyword => ?_
    split
    · trivial
    · trivial
  · refine (sure_advance known.1).next fun _ _ opened => ?_
    refine (sure_advance opened).next fun _ _ keyword => ?_
    split
    · refine (sure_advance keyword).next fun _ _ closed => ?_
      exact (sound_blockBody rules chunks closed "if" opening true).next fun body _ inside =>
        ⟨inside.1, known.2.1, by simpa using inside.2⟩
    · refine (sound_commandExpression rules keyword).next fun condition _ tested => ?_
      refine (sound_blockBody rules chunks tested.1 "if" opening true).next fun body _ inside => ?_
      have listed : Everywhere Grammatical (partsOfElseIfs elseIfs) := known.2.1
      refine ⟨inside.1, ?_, known.2.2⟩
      rw [everywhere_elseIfs] at listed ⊢
      simpa [or_imp, forall_and, Grammatical] using ⟨listed, tested.2, inside.2⟩

theorem sound_ifBlock (sure : c.Sure) (opening : Span) :
    Gives o c (ifBlock R opening) (Sound Chunk.parts) := by
  simp only [Gives, ifBlock, ends_bind, ends_spanFrom, ends_pure]
  refine (sound_commandExpression rules sure).next fun condition _ tested => ?_
  refine (sound_blockBody rules chunks tested.1 "if" opening true).next fun body _ chosen => ?_
  refine (sound_elseBranches rules chunks chosen.1 opening).next fun branches _ others => ?_
  refine (sure_closeBlock others.1 "if" opening).next fun _ _ ended => ?_
  exact ⟨ended, everywhere_conditional.2
    ⟨trivial, tested.2, chosen.2, others.2.1, others.2.2⟩⟩

theorem sound_command (sure : c.Sure) (opening : Span) :
    Gives o c (command R opening) (Sound Chunk.parts) := by
  have single {make : Option Span → Expr → Chunk}
      (own : ∀ span value, (make span value).parts = .chunk (make span value) :: value.parts)
      (good : ∀ span value, GrammaticalChunk (make span value)) :
      Gives o c
        (do
          advance
          let value ← commandExpression R
          return make (← spanFrom opening.start) value)
        (Sound Chunk.parts) := by
    simp only [Gives, ends_bind, ends_spanFrom, ends_pure]
    refine (sure_advance sure).next fun _ _ named => ?_
    exact (sound_commandExpression rules named).next fun value _ read =>
      sound_chunkNode (own _ _) (good _ _) read.1 read.2
  rw [Gives, command, ends_bind, ends_currentKind]
  split
  · rw [ends_bind]
    exact (sure_advance sure).next fun _ _ named => sound_eachBlock rules chunks named opening
  · rw [ends_bind]
    exact (sure_advance sure).next fun _ _ named => sound_inclusion rules named opening
  · exact single (fun _ _ => rfl) fun _ _ => trivial
  · exact single (fun _ _ => rfl) fun _ _ => trivial
  · rw [ends_bind]
    exact (sure_advance sure).next fun _ _ named => sound_ifBlock rules chunks named opening
  · simp only [ends_bind, ends_spanFrom, ends_pure]
    refine (sure_advance sure).next fun _ _ named => ?_
    refine (sound_definitions rules named false).next fun defs _ read => ?_
    exact (sure_expectMarker read.1.1 .commandClose).next fun _ _ closed =>
      sound_chunkNode rfl read.2 closed read.1.2
  · exact gives_unexpected

theorem sound_chunk (sure : c.Sure) : Gives o c (chunk R) (Sound Chunk.parts) := by
  simp only [Gives, chunk, ends_bind, ends_current]
  split
  · next text kind =>
    have fine : GrammaticalChunk (.html none text) := fineText_of_html sure kind
    simp only [ends_bind, ends_spanFrom, ends_pure]
    exact (sure_advance sure).next fun _ _ behind => sound_chunkNode rfl fine behind everywhere_nil
  · simp only [ends_bind, ends_spanFrom, ends_pure]
    refine (sure_advance sure).next fun _ _ opened => ?_
    refine (rules.expression opened true false).next fun value _ read => ?_
    exact (sure_expectMarker read.1 .echoClose).next fun _ _ closed =>
      sound_chunkNode rfl trivial closed read.2
  · rw [ends_bind]
    exact (sure_advance sure).next fun _ _ opened => sound_command rules chunks opened _
  · exact gives_unexpected

/-- A whole template. -/
theorem sound_template (sure : c.Sure) : Gives o c (template R) (Sound Template.parts) := by
  simp only [Gives, template, ends_bind, ends_pure]
  refine gives_loop (Sound partsOfChunks) ?_ [] ⟨sure, everywhere_nil⟩
  intro body behind known
  simp only [ends_bind, ends_current, ends_ite, ends_pure]
  split_ifs
  · exact known
  · exact (sound_chunk rules chunks known.1).next fun _ _ read => sound_moreChunks known read

omit chunks in
/-- An expression that is all of a text. -/
theorem sound_wholeExpression (sure : c.Sure) :
    Gives o c (wholeExpression R) (Sound Expr.parts) := by
  simp only [Gives, wholeExpression, ends_bind, ends_current, ends_ite, ends_pure]
  refine (sound_expression rules sure true false).next fun e _ read => ?_
  split_ifs
  · exact read
  · exact gives_unexpected

end Rules

/-- The chunks of every depth are grammatical: by induction on the depth. -/
theorem grammaticalChunks_upTo (o : Options) (depth : Nat) :
    (Rules.upTo depth).GrammaticalChunks o := by
  induction depth with
  | zero =>
    intro c sure
    trivial
  | succ depth ih => exact sound_chunk (grammatical_upTo o depth) ih

end Stencil.Grammar

namespace Stencil

open Stencil.Grammar
open Stencil.Print
open Stencil.Syntax
open Stencil.Text

variable {o : Options} {source : String}

/-- The first token of a source is sure. -/
theorem sure_ofSource {template : Bool} {source : List Char} {c : Cursor}
    (begun : Cursor.ofSource template source = .ok c) : c.Sure := by
  unfold Cursor.ofSource at begun
  split at begun
  · next token lexer read =>
    cases begun
    refine Lexer.sure_next (fun c listed => ?_) read
    exact normalize_free listed
  · cases begun

/-- A template that was read is grammatical. -/
theorem grammatical_of_template {t : Template} (read : parseTemplate o source = .ok t) :
    Everywhere Grammatical t.parts := by
  obtain ⟨_, known⟩ := gives_run
    (fun depth c begun => sound_template (grammatical_upTo o depth)
      (grammaticalChunks_upTo o depth) (sure_ofSource begun)) read
  exact known.2

/-- A script that was read is grammatical, and its jumps have targets. -/
theorem grammatical_of_script {program : Program} (read : parseScript o source = .ok program) :
    Everywhere Grammatical program.parts ∧ scopedStmts .outermost program.body := by
  obtain ⟨_, known, jumps⟩ := gives_run
    (fun depth c begun => sound_program (grammatical_upTo o depth) (sure_ofSource begun)) read
  exact ⟨known.2, jumps⟩

/-- An expression that was read is grammatical. -/
theorem grammatical_of_expression {e : Expr} (read : parseExpression o source = .ok e) :
    Everywhere Grammatical e.parts := by
  obtain ⟨_, known⟩ := gives_run
    (fun depth c begun => sound_wholeExpression (grammatical_upTo o depth) (sure_ofSource begun)) read
  exact known.2

end Stencil

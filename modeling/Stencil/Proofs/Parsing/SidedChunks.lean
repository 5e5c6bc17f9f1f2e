import Stencil.Proofs.Parsing.SidedStmts
/-!
# Templates in two runs

The rules of templates in two runs over one text. Whatever the first run sees the second sees too, the
markers and the place of every token included.
-/

set_option autoImplicit false

namespace Stencil.Grammar

open Stencil.Error (Fault ParseError)
open Stencil.Syntax
open Stencil.Text (Position Span)
open Stencil.Grammar.Parser

variable {α β : Type}

section Looks

variable {S : Sides} {c d : Cursor} {p q : Parser α} {f g : α → Parser β}
  {post : List Part → α → Cursor → Prop} {goal : List Part → β → Cursor → Prop}
  {stops : α → Cursor → Prop} {stalls : β → Cursor → Prop} (whole : S.Whole)

include whole

/-- The second run is at the same cursor. -/
theorem Sides.Whole.here (follows : S.FollowsOn stops c c p q post) :
    S.FollowsOn stops c d p q post := by
  intro a behind stands ran
  obtain ⟨stands, reaches, parts, known, second⟩ := follows a behind stands ran
  refine ⟨stands, reaches, parts, known, fun beside => ?_⟩
  obtain rfl := whole.same beside
  exact second beside

/-- Both runs look, and see the same. -/
theorem follows_seen {look : Parser α} {a : α} (looks : ∀ o, look o c = .ok (a, c))
    (next : S.FollowsOn stalls c c (f a) (g a) goal) :
    S.FollowsOn stalls c d (look >>= f) (look >>= g) goal :=
  whole.here (follows_of_looks (looks _) (looks _) next)

theorem follows_following {f g : Token → Parser β}
    (next : ∀ token, S.FollowsOn stalls c c (f token) (g token) goal) :
    S.FollowsOn stalls c d (following >>= f) (following >>= g) goal := by
  intro b later stands ran
  obtain ⟨token, _, looked, _⟩ := run_bind ran
  obtain ⟨⟨lexer, read⟩, rfl⟩ := following_ok looked
  exact follows_seen whole (fun _ => run_following read) (next token) b later stands ran

omit whole in
/-- Names that are read and not kept do not matter. -/
theorem Sides.FollowsOn.withoutNames
    (follows : S.FollowsOn stops c d p q fun read a behind => ∃ names rest,
      (∀ part ∈ names, ∃ span name, part = .expr (.name span name)) ∧ read ⊆ names ++ rest ∧
        post rest a behind) : S.FollowsOn stops c d p q post := by
  intro a behind stands ran
  obtain ⟨stands, reaches, parts, ⟨names, rest, listed, subset, known⟩, second⟩ :=
    follows a behind stands ran
  exact ⟨stands, reaches, rest, known, fun beside final onward goes admits =>
    second beside final onward goes (S.admits (.refl final) subset (S.names listed admits))⟩

theorem follows_expectMarker (marker : Marker) :
    S.Follows c d (expectMarker marker) (expectMarker marker) (S.Read (fun _ => []) c) := by
  unfold expectMarker
  refine follows_seen whole (fun _ => rfl) ?_
  split_ifs with here
  · exact follows_takeOnly (whole.plain _) (going_of_marker here)
  · exact follows_never fun _ _ ran => by cases ran

theorem follows_closeBlock (name : String) (opening : Span) :
    S.Follows c d (closeBlock name opening) (closeBlock name opening) fun read a _ =>
      S.Holds (fun _ => []) read a := by
  unfold closeBlock
  refine (follows_expectMarker whole _).next fun _ c' _ _ _ => follows_seen whole (fun _ => rfl) ?_
  dsimp only
  split_ifs
  · exact follows_never fun _ _ ran => by cases ran
  · refine follows_advance (whole.plain _) fun _ _ _ _ => ?_
    exact (follows_expectMarker whole _).mono fun _ _ _ known => known.1

end Looks

section Rules

variable {S : Sides} {R R' : Rules} {c d : Cursor} (whole : S.Whole) (sided : R.Sided S R')

include whole sided

theorem follows_commandExpression :
    S.Follows c d (commandExpression R) (commandExpression R') (S.Read Expr.parts c) := by
  unfold commandExpression
  exact (sided.expression true false).then fun e _ _ good _ =>
    (follows_expectMarker whole _).next fun _ _ _ _ _ => follows_pure [] ⟨by simp, good⟩

omit whole sided in
theorem partsOfChunks_append (chunks : List Chunk) (chunk : Chunk) :
    partsOfChunks (chunks ++ [chunk]) = partsOfChunks chunks ++ chunk.parts := by
  induction chunks with
  | nil => simp [partsOfChunks]
  | cons _ _ ih => simp [partsOfChunks, ih]

theorem follows_blockBody (block : OpenBlock) :
    S.Follows c d (blockBody R block.name block.opening block.branches)
      (blockBody R' block.name block.opening block.branches)
      fun read chunks _ => S.Holds partsOfChunks read chunks := by
  rw [blockBody_eq, blockBody_eq]
  refine Sides.FollowsOn.mono (follows_loopOnly partsOfChunks partsOfChunks
    (consuming_bodyStep sided.settling block) (fun _ _ => Nat.le_refl _)
    (fun chunks c' d' good _ => ?_) (by simp [partsOfChunks])) fun _ _ _ known => known.2
  have more {d' : Cursor} :
      S.Follows c' d' (do return .inl (chunks ++ [← R.chunk]) : Parser (List Chunk ⊕ List Chunk))
        (do return .inl (chunks ++ [← R'.chunk]))
        fun read outcome _ => S.Grows partsOfChunks partsOfChunks chunks read outcome :=
    (sided.chunk whole).next fun chunk _ _ known _ => follows_pure []
      (Sides.Grows.snoc (partsOfChunks_append chunks chunk) good ⟨by simp, known⟩)
  have ended {d' : Cursor} :
      S.Follows c' d' (pure (.inr chunks) : Parser (List Chunk ⊕ List Chunk)) (pure (.inr chunks))
        fun read outcome _ => S.Grows partsOfChunks partsOfChunks chunks read outcome :=
    follows_pure [] ⟨List.Subset.refl _, by simp, good⟩
  unfold bodyStep
  refine follows_seen whole (fun _ => rfl) ?_
  dsimp only
  split
  · exact follows_never fun _ _ ran => by cases ran
  · split
    · exact ended
    · split
      · refine follows_following whole fun token => ?_
        split
        · exact ended
        · exact more
      · exact more

/-! ## Iterations -/

omit whole sided in
/-- The names that an iteration binds are read without their parts. -/
theorem follows_bindingNames (listSpan : Span) (items : List Expr) :
    S.Follows c d (bindingNames listSpan items) (bindingNames listSpan items) fun read _ _ =>
      read = [] ∧ ∀ part ∈ partsOfExprs items, ∃ span name, part = .expr (.name span name) := by
  induction items with
  | nil => exact follows_pure [] ⟨rfl, by simp [partsOfExprs]⟩
  | cons item rest ih =>
    cases item with
    | name span name =>
      refine Sides.FollowsOn.bind ih fun read names _ _ known _ => follows_pure [] ?_
      refine ⟨by simp [known.1], ?_⟩
      simpa [partsOfExprs] using known.2
    | _ => exact follows_never fun _ _ ran => by cases ran

theorem follows_eachHead :
    S.Follows c d (eachHead R) (eachHead R') fun read head _ =>
      S.Holds (fun head => head.2.parts) read head := by
  refine Sides.FollowsOn.withoutNames ?_
  have plain {read : List Part} {head : Option (List String) × Expr}
      (known : S.Holds (fun head => head.2.parts) read head) : ∃ names rest,
      (∀ part ∈ names, ∃ span name, part = .expr (.name span name)) ∧ read ⊆ names ++ rest ∧
        S.Holds (fun head => head.2.parts) rest head :=
    ⟨[], read, by simp, by simp, known⟩
  unfold eachHead
  refine follows_seen whole (fun _ => rfl) (follows_atPunctuation (fun here => ?_) fun _ => ?_)
  · refine follows_takePunctuation here fun _ _ _ =>
      (follows_expressionList sided (by decide) id).onward fun items behind _ good _ =>
        follows_seen whole (fun _ => rfl) ?_
    split_ifs
    · split
      · next collection =>
        refine follows_pure [] (plain ⟨by simp [partsOfExprs], ?_⟩)
        simpa [partsOfExprs] using good
      · exact follows_never fun _ _ ran => by cases ran
    · refine Sides.FollowsOn.bind (follows_bindingNames _ items) fun read names _ _ known _ => ?_
      refine (sided.expression true false).next fun collection _ _ good' _ => follows_pure [] ?_
      exact ⟨partsOfExprs items, collection.parts, known.2, by simp [known.1], ⟨by simp, good'⟩⟩
  · exact (sided.expression true false).next fun collection _ _ good' _ =>
      follows_pure [] (plain ⟨by simp, good'⟩)

theorem follows_eachBlock (opening : Span) :
    S.Follows c d (eachBlock R opening) (eachBlock R' opening) fun read chunk _ =>
      S.Holds Chunk.parts read chunk := by
  unfold eachBlock
  refine (follows_eachHead whole sided).onward fun head _ _ good _ => ?_
  refine (follows_expectMarker whole _).next fun _ _ _ _ _ =>
    (follows_blockBody whole sided (.each opening)).onward fun body _ _ good' _ =>
      (follows_closeBlock whole _ _).onward fun _ _ _ _ _ =>
        follows_spanFrom (fun _ => rfl) (follows_pure [] ⟨by simp, by simp [good, good', S.others]⟩)

/-! ## Conditionals -/

omit whole sided in
/-- The parts of the branches that a conditional has so far. -/
def partsOfBranches (state : List ElseIf × Option (List Chunk)) : List Part :=
  partsOfElseIfs state.1 ++ partsOfChunks (state.2.getD [])

omit whole sided in
theorem partsOfElseIfs_append (branches : List ElseIf) (branch : ElseIf) :
    partsOfElseIfs (branches ++ [branch]) = partsOfElseIfs branches ++ branch.parts := by
  induction branches with
  | nil => simp [partsOfElseIfs]
  | cons _ _ ih => simp [partsOfElseIfs, ih]

theorem follows_branchBody (opening elseSpan : Span) (state : List ElseIf × Option (List Chunk))
    (good : Everywhere S.Good (partsOfBranches state)) :
    S.Follows c d (branchBody R opening elseSpan state) (branchBody R' opening elseSpan state)
      fun read outcome _ => S.Grows partsOfBranches partsOfBranches state read outcome := by
  have body {c d : Cursor} : S.Follows c d (blockBody R "if" opening true)
      (blockBody R' "if" opening true) fun read chunks _ => S.Holds partsOfChunks read chunks :=
    follows_blockBody whole sided (.cond opening true)
  unfold branchBody
  refine follows_seen whole (fun _ => rfl) ?_
  dsimp only
  split_ifs with _ default
  · exact follows_never fun _ _ ran => by cases ran
  · refine follows_advance (whole.plain _) fun _ _ _ _ => body.onward fun chunks _ _ good' _ =>
      follows_pure [] ⟨?_, ?_, ?_⟩
    · have none_ : state.2 = none := by simpa using default
      simp [partsOfBranches, none_, partsOfChunks]
    · simp [partsOfBranches]
    · simp only [partsOfBranches, everywhere_append] at good
      simp [partsOfBranches, good.1, good']
  · exact follows_never fun _ _ ran => by cases ran
  · refine (follows_commandExpression whole sided).next fun condition _ _ good₁ _ =>
      body.onward fun chunks _ _ good₂ _ => follows_pure [] ⟨?_, ?_, ?_⟩
    · exact fun _ listed => by
        simp only [partsOfBranches, partsOfElseIfs_append, List.mem_append] at listed ⊢
        exact listed.imp_left .inl
    · exact fun part listed => by
        have among : part ∈ (ElseIf.mk condition chunks).parts := by
          simpa using .inr (by simpa using listed)
        simp only [partsOfBranches, partsOfElseIfs_append, List.mem_append]
        exact .inl (.inr among)
    · simp only [partsOfBranches, everywhere_append] at good
      simp [partsOfBranches, partsOfElseIfs_append, good, good₁, good₂, S.others]

theorem follows_elseBranches (opening : Span) :
    S.Follows c d (elseBranches R opening) (elseBranches R' opening) fun read branches _ =>
      S.Holds partsOfBranches read branches := by
  rw [elseBranches_eq, elseBranches_eq]
  refine Sides.FollowsOn.mono (follows_loopOnly partsOfBranches partsOfBranches
    (consuming_branchStep sided.settling opening) (fun _ _ => Nat.le_refl _)
    (fun state c' d' good _ => ?_) (by simp [partsOfBranches, partsOfElseIfs, partsOfChunks]))
      fun _ _ _ known => known.2
  unfold branchStep
  refine follows_seen whole (fun _ => rfl) ?_
  split_ifs
  · exact follows_pure [] ⟨List.Subset.refl _, by simp, good⟩
  · exact follows_advance (whole.plain _) fun _ _ _ _ => follows_seen whole (fun _ => rfl)
      (follows_advance (whole.plain _) fun _ _ _ _ => follows_branchBody whole sided _ _ state good)

theorem follows_ifBlock (opening : Span) :
    S.Follows c d (ifBlock R opening) (ifBlock R' opening) fun read chunk _ =>
      S.Holds Chunk.parts read chunk := by
  unfold ifBlock
  refine (follows_commandExpression whole sided).next fun condition _ _ good₁ _ =>
    (follows_blockBody whole sided (.cond opening true)).onward fun thenBranch _ _ good₂ _ =>
      (follows_elseBranches whole sided opening).onward fun branches _ _ good₃ _ => ?_
  obtain ⟨elseIfs, elseBranch⟩ := branches
  simp only [partsOfBranches, everywhere_append] at good₃
  refine (follows_closeBlock whole _ _).onward fun _ _ _ _ _ =>
    follows_spanFrom (fun _ => rfl) (follows_pure [] ⟨?_, ?_⟩)
  · cases elseBranch with
    | none => simp [partsOfBranches, partsOfChunks]
    | some body => simp [partsOfBranches]
  · refine everywhere_conditional.2 ⟨S.others _ (by simp), good₁, good₂, good₃.1, ?_⟩
    rintro body rfl
    exact good₃.2

/-! ## Chunks -/

theorem follows_inclusion (opening : Span) :
    S.Follows c d (inclusion R opening) (inclusion R' opening) fun read chunk _ =>
      S.Holds Chunk.parts read chunk := by
  have behind {c d : Cursor} (args : Option (List Expr))
      (good : Everywhere S.Good (partsOfExprs (args.getD []))) :
      S.Follows c d (do let name ← commandExpression R; return .include (← spanFrom opening.start) args name)
        (do let name ← commandExpression R'; return .include (← spanFrom opening.start) args name)
        fun read chunk _ => S.Holds Chunk.parts (partsOfExprs (args.getD []) ++ read) chunk :=
    (follows_commandExpression whole sided).next fun name _ _ good' _ =>
      follows_spanFrom (fun _ => rfl) (follows_pure [] ⟨by simp, by simp [good, good', S.others]⟩)
  unfold inclusion
  refine follows_atPunctuation (fun here => ?_) fun _ => ?_
  · refine follows_takePunctuation here fun _ _ _ =>
      (follows_expressionList sided (by decide) id).onward fun args _ _ good _ => ?_
    exact behind (some args) good
  · exact (behind none (by simp [partsOfExprs])).mono fun _ _ _ known => by
      simpa [partsOfExprs] using known

theorem follows_command (opening : Span) :
    S.Follows c d (command R opening) (command R' opening) fun read chunk _ =>
      S.Holds Chunk.parts read chunk := by
  have single {c d : Cursor} (make : Option Span → Expr → Chunk)
      (parts : ∀ span e, (make span e).parts = .chunk (make span e) :: e.parts) :
      S.Follows c d
        (do advance; let value ← commandExpression R; return make (← spanFrom opening.start) value)
        (do advance; let value ← commandExpression R'; return make (← spanFrom opening.start) value)
        fun read chunk _ => S.Holds Chunk.parts read chunk :=
    follows_advance (whole.plain _) fun _ _ _ _ =>
      (follows_commandExpression whole sided).next fun e _ _ good _ => follows_spanFrom (fun _ => rfl)
        (follows_pure [] ⟨by simp [parts], by simp [parts, good, S.others]⟩)
  unfold command
  refine follows_seen whole (fun _ => rfl) ?_
  split
  · exact follows_advance (whole.plain _) fun _ _ _ _ => follows_eachBlock whole sided opening
  · exact follows_advance (whole.plain _) fun _ _ _ _ => follows_inclusion whole sided opening
  · exact single _ (by simp)
  · exact single _ (by simp)
  · exact follows_advance (whole.plain _) fun _ _ _ _ => follows_ifBlock whole sided opening
  · exact follows_advance (whole.plain _) fun _ _ _ _ =>
      (follows_definitions sided false).onward fun defs _ _ good _ =>
        (follows_expectMarker whole _).next fun _ _ _ _ _ =>
          follows_spanFrom (fun _ => rfl) (follows_pure [] ⟨by simp, by simp [good, S.others]⟩)
  · exact follows_unexpected

theorem follows_chunk :
    S.Follows c d (Parser.chunk R) (Parser.chunk R') (S.Read Chunk.parts c) := by
  unfold Parser.chunk
  refine follows_seen whole (fun _ => rfl) ?_
  dsimp only
  split
  · next kind =>
    exact follows_take (whole.plain _) (going_of_kind kind (by simp)) fun _ _ _ =>
      follows_spanFrom (fun _ => rfl) (follows_pure [] ⟨by simp, by simp [S.others]⟩)
  · next kind =>
    exact follows_take (whole.plain _) (going_of_kind kind (by simp)) fun _ _ _ =>
      (sided.expression true false).next fun e _ _ good _ =>
        (follows_expectMarker whole _).next fun _ _ _ _ _ =>
          follows_spanFrom (fun _ => rfl) (follows_pure [] ⟨by simp, by simp [good, S.others]⟩)
  · next kind =>
    exact follows_take (whole.plain _) (going_of_kind kind (by simp)) fun _ _ _ =>
      follows_command whole sided _
  · exact follows_unexpected

theorem follows_template :
    S.Follows c d (template R) (template R') fun read t _ => S.Holds Template.parts read t := by
  rw [template_eq, template_eq]
  refine Sides.FollowsOn.bind (follows_loopOnly partsOfChunks partsOfChunks
    (consuming_templateStep sided.settling) (fun _ _ => Nat.le_refl _) (fun chunks c' d' good _ => ?_)
    (by simp [partsOfChunks])) fun read chunks _ _ known _ => follows_pure [] ?_
  · unfold templateStep
    refine follows_seen whole (fun _ => rfl) ?_
    split_ifs
    · exact follows_pure [] ⟨List.Subset.refl _, by simp, good⟩
    · exact (follows_chunk whole sided).next fun chunk _ _ known _ => follows_pure []
        (Sides.Grows.snoc (partsOfChunks_append chunks chunk) good ⟨by simp, known⟩)
  · obtain ⟨-, within, good⟩ := known
    rw [List.append_nil]
    exact ⟨within, good⟩

omit sided in
/-- An expression that is all of a text. -/
theorem follows_wholeExpression
    (sequence : S.Follows c d (expression R true false) (expression R' true false)
      (S.Read Expr.parts c)) :
    S.Follows c d (wholeExpression R) (wholeExpression R') fun read e _ =>
      S.Holds Expr.parts read e := by
  unfold wholeExpression
  refine sequence.next fun e _ _ good _ => follows_seen whole (fun _ => rfl) ?_
  split_ifs
  · exact follows_pure [] ⟨by simp, good⟩
  · exact follows_unexpected

end Rules

/-! ## All depths -/

section Depths

variable {S : Sides} {R R' : Rules} (all : ∀ part, S.Good part)

include all

/-- Unfolded once more, the rules of the two runs follow each other. -/
theorem sided_unfold (sided : R.SidedExprs S R') : R.unfold.SidedExprs S R'.unfold where
  settling := settling_unfold sided.settling
  expression commas noIn := follows_expression all sided commas noIn
  begins := begins_expression
  statement around := follows_statement sided.toSided (follows_expression all sided true false) around
  chunk whole := follows_chunk whole sided.toSided
  assignment noIn := follows_assignment all sided noIn
  operators placed := follows_operators all sided placed
  unary calls := follows_unary all sided calls
  primary calls := follows_primary all sided calls

/-- A first run up to some depth is followed by one up to a larger depth: by induction on the first. -/
theorem sided_upTo {n m : Nat} (deeper : n ≤ m) : (Rules.upTo n).SidedExprs S (Rules.upTo m) := by
  induction n generalizing m with
  | zero =>
    exact
      { settling := settling_upTo m
        expression := fun _ _ => follows_fails .exhausted rfl
        begins := fun ran => by cases ran
        statement := fun _ => follows_fails .exhausted rfl
        chunk := fun _ => follows_fails .exhausted rfl
        assignment := fun _ => follows_fails .exhausted rfl
        operators := fun _ => follows_fails .exhausted rfl
        unary := fun _ => follows_fails .exhausted rfl
        primary := fun _ => follows_fails .exhausted rfl }
  | succ n ih =>
    obtain ⟨m, rfl⟩ := Nat.exists_eq_succ_of_ne_zero (Nat.ne_of_gt (Nat.lt_of_lt_of_le n.succ_pos deeper))
    exact sided_unfold all (ih (Nat.le_of_succ_le_succ deeper))

end Depths

end Stencil.Grammar

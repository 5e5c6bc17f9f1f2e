import Stencil.Proofs.Parsing.Spanless
import Stencil.Proofs.Printing.Unmarked
import Stencil.Proofs.Rendering.Mirrors
import Stencil.Proofs.Syntax.Induction
/-!
# Rendering a tree with spans and without

Rendering a tree and rendering the erased tree mirror each other, construct by construct: spans are
saved for error reports, handed to the frames that a construct opens, and kept with the name of a
layout, and that is all that is done with them. The messages that quote a tree quote its text, which
does not depend on spans.

Parsing a source with positions and without gives trees of which the second is the first one erased,
or errors that are worded alike, so whole renderings mirror each other too.
-/

set_option autoImplicit false

namespace Stencil.Render

open Stencil.Error (Kind)
open Stencil.Stream (Item)
open Stencil.Syntax
open Stencil.Text (Span)

/-- What templates do not evaluate does not depend on spans. -/
theorem restriction_eraseSpans (e : Expr) : Restriction.of? e.eraseSpans = Restriction.of? e := by
  cases e <;> rfl

namespace RenderM

variable {α β γ δ : Type} {settings settings' : Settings}

theorem mirrors_unsupported (what : String) {rel : α → β → Prop} :
    Mirrors rel (unsupported settings what) (unsupported settings' what) :=
  mirrors_fail _ _

/-! ## Names and members -/

theorem mirrors_resolveIn (name : String) {frames frames' : List Frame}
    (same : frames'.map Frame.unplaced = frames.map Frame.unplaced) :
    Mirrors Eq (resolveIn settings name frames) (resolveIn settings' name frames') := by
  induction frames generalizing frames' with
  | nil =>
    rw [List.map_eq_nil_iff.1 same]
    exact mirrors_fail _ _
  | cons frame outer ih =>
    cases frames' with
    | nil => cases same
    | cons frame' outer' =>
      obtain ⟨inner, rest⟩ := List.cons.inj same
      have inner : frame.SameButPlaces frame' := inner
      have known : frame'.local? name = frame.local? name :=
        congrArg (Table.get? · name) inner.locals
      rw [resolveIn, resolveIn, known, inner.data]
      split
      · exact mirrors_pure rfl
      · split
        · apply (mirrors_ask rfl).then
          intro answer
          apply (mirrors_accept answer).then
          intro value
          split_ifs
          · exact ih rest
          · exact mirrors_pure rfl
        · split
          · exact mirrors_pure rfl
          · exact ih rest

theorem mirrors_resolve (name : String) :
    Mirrors Eq (resolve settings name) (resolve settings' name) :=
  mirrors_scope.bind fun _ _ same => mirrors_resolveIn name same

theorem mirrors_member (base : Value) (key : String) :
    Mirrors Eq (member settings base key) (member settings' base key) := by
  unfold member
  split
  · exact mirrors_fail _ _
  · exact mirrors_fail _ _
  · exact ((mirrors_ask rfl).keeping [_]).then fun answer => mirrors_accept answer
  · exact mirrors_pure rfl

/-- Applying a value. What is no function is named by the text of the expression. -/
theorem mirrors_apply (function : Value) (callee : Expr) (args : List Value) :
    Mirrors Eq (apply settings function callee args)
      (apply settings' function callee.eraseSpans args) := by
  unfold apply
  split
  · exact (mirrors_ask rfl).then fun answer => mirrors_accept answer
  · rw [Print.ofExpr_eraseSpans]
    exact mirrors_fail _ _

/-! ## Expressions -/

theorem mirrors_guarded (e : Expr) {body body' : RenderM Value} (inner : Mirrors Eq body body') :
    Mirrors Eq (guarded settings e body) (guarded settings' e.eraseSpans body') := by
  unfold guarded
  apply (mirrors_saveToken _ _).then
  intro _
  rw [restriction_eraseSpans]
  split
  · exact mirrors_fail _ _
  · exact inner

theorem mirrors_applyUnary (op : UnaryOp) (operand : Value) :
    Mirrors Eq (applyUnary settings op operand) (applyUnary settings' op operand) := by
  unfold applyUnary
  split
  · exact mirrors_pure rfl
  · exact mirrors_pure rfl
  · exact mirrors_pure rfl
  · exact mirrors_unsupported _

theorem mirrors_applyBinary (op : BinaryOp) (left right : Value) :
    Mirrors Eq (applyBinary settings op left right) (applyBinary settings' op left right) := by
  unfold applyBinary
  split
  · exact mirrors_pure rfl
  · exact mirrors_unsupported _

/-- The two operands of an operator, the second of which is evaluated where the first decides. -/
theorem mirrors_binary (op : BinaryOp) {left left' right right' : RenderM Value}
    (first : Mirrors Eq left left') (second : Mirrors Eq right right') :
    Mirrors Eq
      (do
        let first ← left
        match op with
        | .and => if first.truthy then keeping [first] right else return first
        | .or => if first.truthy then return first else keeping [first] right
        | op => applyBinary settings op first (← keeping [first] right))
      (do
        let first ← left'
        match op with
        | .and => if first.truthy then keeping [first] right' else return first
        | .or => if first.truthy then return first else keeping [first] right'
        | op => applyBinary settings' op first (← keeping [first] right')) := by
  apply first.then
  intro value
  split
  · split_ifs
    · exact second.keeping [value]
    · exact mirrors_pure rfl
  · split_ifs
    · exact mirrors_pure rfl
    · exact second.keeping [value]
  · exact (second.keeping [value]).then fun other => mirrors_applyBinary op value other

variable (settings settings')

mutual

/-- Evaluating an expression with spans and without. -/
theorem mirrors_evaluate : ∀ e : Expr,
    Mirrors Eq (evaluate settings e) (evaluate settings' e.eraseSpans)
  | .num s value => mirrors_guarded (.num s value) (mirrors_pure rfl)
  | .string s text => mirrors_guarded (.string s text) (mirrors_pure rfl)
  | .atom s atom => mirrors_guarded (.atom s atom) (mirrors_pure rfl)
  | .name s name => mirrors_guarded (.name s name) (mirrors_resolve name)
  | .array s items => by
    apply mirrors_guarded (.array s items)
    apply (mirrors_evaluateAll items).then
    intro values
    exact mirrors_freshIdentity.then fun _ => mirrors_pure rfl
  | .object s properties => by
    apply mirrors_guarded (.object s properties)
    apply (mirrors_evaluateProperties [] properties).then
    intro entries
    exact mirrors_freshIdentity.then fun _ => mirrors_pure rfl
  | .dot s target property => by
    apply mirrors_guarded (.dot s target property)
    exact (mirrors_evaluate target).then fun base => mirrors_member base property
  | .sub s target index => by
    apply mirrors_guarded (.sub s target index)
    apply (mirrors_evaluate target).then
    intro base
    exact ((mirrors_evaluate index).keeping [base]).then fun key => mirrors_member base key.display
  | .call s callee args => by
    apply mirrors_guarded (.call s callee args)
    apply (mirrors_evaluate callee).then
    intro function
    apply ((mirrors_evaluateAll args).keeping [function]).then
    intro values
    exact (mirrors_saveToken _ _).then fun _ => mirrors_apply function callee values
  | .prefixOp s op operand => by
    apply mirrors_guarded (.prefixOp s op operand)
    exact (mirrors_evaluate operand).then fun value => mirrors_applyUnary op value
  | .binary s op left right => by
    apply mirrors_guarded (.binary s op left right)
    exact mirrors_binary op (mirrors_evaluate left) (mirrors_evaluate right)
  | .conditional s test yes no => by
    apply mirrors_guarded (.conditional s test yes no)
    apply (mirrors_evaluate test).then
    intro value
    split_ifs
    · exact mirrors_evaluate yes
    · exact mirrors_evaluate no
  | .regexp s pattern flags => mirrors_guarded (.regexp s pattern flags) (mirrors_unsupported _)
  | .new s callee args => mirrors_guarded (.new s callee args) (mirrors_unsupported _)
  | .postfixOp s op operand => mirrors_guarded (.postfixOp s op operand) (mirrors_unsupported _)
  | .assign s op target value => mirrors_guarded (.assign s op target value) (mirrors_unsupported _)
  | .seq s first rest => mirrors_guarded (.seq s first rest) (mirrors_unsupported _)
  | .function s fn => mirrors_guarded (.function s fn) (mirrors_unsupported _)

/-- Evaluating the expressions of a list. -/
theorem mirrors_evaluateAll : ∀ items : List Expr,
    Mirrors Eq (evaluateAll settings items) (evaluateAll settings' (eraseExprs items))
  | [] => mirrors_pure rfl
  | e :: rest => by
    apply (mirrors_evaluate e).then
    intro value
    exact ((mirrors_evaluateAll rest).keeping [value]).then fun _ => mirrors_pure rfl

/-- Evaluating the properties of an object literal. -/
theorem mirrors_evaluateProperties (entries : List (String × Value)) : ∀ properties : List Property,
    Mirrors Eq (evaluateProperties settings entries properties)
      (evaluateProperties settings' entries (eraseProperties properties))
  | [] => mirrors_pure rfl
  | .init key value :: rest => by
    apply ((mirrors_evaluate value).keeping (entries.map (·.2))).then
    intro value
    exact mirrors_evaluateProperties (Table.put entries key value) rest
  | .getter .. :: _ => mirrors_fail _ _
  | .setter .. :: _ => mirrors_fail _ _

end

variable {settings settings'}

/-! ## Iterations -/

theorem mirrors_collectionOf (value : Value) :
    Mirrors Eq (collectionOf settings value) (collectionOf settings' value) := by
  unfold collectionOf
  split
  · exact (mirrors_ask rfl).then fun answer => mirrors_accept answer
  · exact mirrors_pure rfl

theorem mirrors_openCollection (collection : Value) :
    Mirrors Eq (openCollection settings collection) (openCollection settings' collection) := by
  unfold openCollection
  apply mirrors_freshIdentity.then
  intro number
  split
  · exact mirrors_pure rfl
  · exact (mirrors_ask rfl).then fun _ => mirrors_pure rfl
  · apply (mirrors_ask rfl).then
    intro taken
    cases taken with
    | true => exact mirrors_pure rfl
    | false => exact mirrors_fail _ _
  · exact mirrors_fail _ _

theorem mirrors_sourceOf (value : Value) :
    Mirrors Eq (sourceOf settings value) (sourceOf settings' value) :=
  (mirrors_collectionOf value).then fun collection => mirrors_openCollection collection

theorem mirrors_nextItem (source : Source) :
    Mirrors Eq (nextItem settings source) (nextItem settings' source) := by
  cases source with
  | items array rest =>
    apply (mirrors_ask rfl).then
    intro _
    cases rest with
    | nil => exact mirrors_pure rfl
    | cons => exact mirrors_pure rfl
  | external source =>
    apply (mirrors_ask rfl).then
    intro answer
    exact (mirrors_accept answer).then fun item => mirrors_pure rfl

/-- The frame of an item does not depend on the place of the iteration, but for the place. -/
theorem itemFrame_sameButPlaces (bindings : Option (List String)) (origin origin' : Option Span)
    (index : Nat) (item : Item) :
    (itemFrame bindings origin index item).SameButPlaces (itemFrame bindings origin' index item) :=
  rfl

/-- The rounds of an iteration, by induction on the bound on their number. -/
theorem mirrors_forEach {frame frame' : Nat → Item → Frame} {body body' : RenderM String}
    (frames : ∀ index item, (frame index item).SameButPlaces (frame' index item))
    (inner : Mirrors Eq body body') (n : Nat) (source : Source) (index : Nat) (text : String) :
    Mirrors Eq (forEach settings frame body n source index text)
      (forEach settings' frame' body' n source index text) := by
  induction n generalizing source index text with
  | zero => exact mirrors_exhausted
  | succ n ih =>
    rw [forEach, forEach]
    apply (mirrors_nextItem source).then
    intro item?
    cases item? with
    | none => exact mirrors_pure rfl
    | some given =>
      obtain ⟨item, source⟩ := given
      exact (inner.within (frames index item)).then fun more => ih source (index + 1) (text ++ more)

/-! ## Chunks -/

theorem mirrors_templateName (what : String) (value : Value) :
    Mirrors Eq (templateName settings what value) (templateName settings' what value) := by
  unfold templateName
  split
  · exact mirrors_pure rfl
  · exact mirrors_fail _ _

theorem mirrors_evaluateEach (items : List Expr) :
    Mirrors Eq (evaluateEach settings items)
      (evaluateEach settings' (items.map Expr.eraseSpans)) := by
  induction items with
  | nil => exact mirrors_pure rfl
  | cons e rest ih => exact (mirrors_evaluate settings settings' e).then fun _ => ih

theorem mirrors_includeData (items : List Expr) :
    Mirrors Eq (includeData settings items)
      (includeData settings' (items.map Expr.eraseSpans)) := by
  cases items with
  | nil => exact mirrors_freshIdentity.then fun _ => mirrors_pure rfl
  | cons first others =>
    apply (mirrors_evaluate settings settings' first).then
    intro data
    exact ((mirrors_evaluateEach others).keeping [data]).then fun _ => mirrors_pure rfl

theorem mirrors_initialValue (value : Option Expr) :
    Mirrors Eq (initialValue settings value) (initialValue settings' (eraseOptional value)) := by
  cases value with
  | none => exact mirrors_pure rfl
  | some value => exact mirrors_evaluate settings settings' value

theorem mirrors_setVariables (defs : List VarDef) :
    Mirrors Eq (setVariables settings defs)
      (setVariables settings' (defs.map VarDef.eraseSpans)) := by
  induction defs with
  | nil => exact mirrors_pure rfl
  | cons d rest ih =>
    obtain ⟨name, initial⟩ := d
    apply (mirrors_initialValue initial).then
    intro value
    have set : Mirrors Eq (modifyScope (Scope.modifyFrame (Frame.setLocal · name value)))
        (modifyScope (Scope.modifyFrame (Frame.setLocal · name value))) :=
      mirrors_modifyScope fun scope scope' same =>
        same.modifyFrame fun _ _ inner => inner.setLocal name value
    exact set.then fun _ => ih

/-- The frame of a template does not depend on the construct that opens it, but for the place. -/
theorem ofTemplate_sameButPlaces (name : String) (data : Value) (origin origin' : Option Span) :
    ((Frame.ofTemplate name data).openedBy origin).SameButPlaces
      ((Frame.ofTemplate name data).openedBy origin') := rfl

section Chunks

variable (limit : settings'.limit = settings.limit) {template template' : String → RenderM String}
variable (nested : ∀ name, Mirrors Eq (template name) (template' name))

omit limit nested in
/-- Rendering chunks one after the other. -/
theorem mirrors_chunks {chunks : List Chunk}
    (each : ∀ c ∈ chunks, Mirrors Eq (renderChunk settings template c)
      (renderChunk settings' template' c.eraseSpans)) :
    Mirrors Eq (renderChunks settings template chunks)
      (renderChunks settings' template' (chunks.map Chunk.eraseSpans)) := by
  induction chunks with
  | nil => exact mirrors_pure rfl
  | cons chunk rest ih =>
    apply (mirrors_saveToken _ _).then
    intro _
    apply (each chunk (by simp)).then
    intro text
    have rest := ih fun c listed => each c (List.mem_cons_of_mem _ listed)
    exact rest.then fun _ => mirrors_pure rfl

omit limit nested in
/-- Rendering the first conditional branch whose condition holds. -/
theorem mirrors_elseIfs {branches : List ElseIf}
    (each : ∀ condition body, .mk condition body ∈ branches → ∀ c ∈ body,
      Mirrors Eq (renderChunk settings template c) (renderChunk settings' template' c.eraseSpans)) :
    Mirrors Eq (renderElseIfs settings template branches)
      (renderElseIfs settings' template' (branches.map ElseIf.eraseSpans)) := by
  induction branches with
  | nil => exact mirrors_pure rfl
  | cons first rest ih =>
    obtain ⟨condition, body⟩ := first
    rw [List.map_cons, ElseIf.eraseSpans, eraseChunks_eq, renderElseIfs, renderElseIfs]
    apply (mirrors_evaluate settings settings' condition).then
    intro value
    split_ifs
    · exact (mirrors_chunks (each condition body (by simp))).then fun _ => mirrors_pure rfl
    · exact ih fun condition body listed => each condition body (List.mem_cons_of_mem _ listed)

include limit nested

/-- Rendering a chunk with spans and without mirror each other when rendering its parts does, and
rendering the templates it includes. -/
theorem mirrored_steps : ChunkInduction fun c =>
    Mirrors Eq (renderChunk settings template c)
      (renderChunk settings' template' c.eraseSpans) where
  html s text := mirrors_pure rfl
  echo s value := (mirrors_evaluate settings settings' value).then fun _ => mirrors_pure rfl
  rawHtml s value := (mirrors_evaluate settings settings' value).then fun _ => mirrors_pure rfl
  inclusion s args name := by
    have data : Mirrors Eq (includeData settings (args.getD []))
        (includeData settings' ((args.map eraseExprs).getD [])) := by
      cases args with
      | none => exact mirrors_includeData []
      | some args => simpa using mirrors_includeData args
    apply data.then
    intro data
    apply ((mirrors_evaluate settings settings' name).keeping [data]).then
    intro value
    apply (mirrors_templateName _ value).then
    intro name
    exact (nested name).within (ofTemplate_sameButPlaces name data s none)
  each s bindings collection body ih := by
    rw [Chunk.eraseSpans, eraseChunks_eq]
    apply (mirrors_evaluate settings settings' collection).then
    intro value
    apply (mirrors_sourceOf value).then
    intro source
    rw [limit]
    apply Mirrors.releasing
    exact mirrors_forEach (itemFrame_sameButPlaces bindings s none) (mirrors_chunks ih) _ _ _ _
  ifElse s condition thenBranch elseIfs elseBranch ih ih' ih'' := by
    -- The conditions and their bodies; what comes when none of them holds is a parameter.
    have branches {last last' : Option String → RenderM String}
        (mirrors : ∀ text?, Mirrors Eq (last text?) (last' text?)) :
        Mirrors Eq
          (do
            if (← evaluate settings condition).truthy then renderChunks settings template thenBranch
            else last (← renderElseIfs settings template elseIfs))
          (do
            if (← evaluate settings' condition.eraseSpans).truthy then
              renderChunks settings' template' (thenBranch.map Chunk.eraseSpans)
            else last' (← renderElseIfs settings' template' (elseIfs.map ElseIf.eraseSpans))) := by
      apply (mirrors_evaluate settings settings' condition).then
      intro value
      split_ifs
      · exact mirrors_chunks ih
      · exact (mirrors_elseIfs ih').then mirrors
    cases elseBranch with
    | none =>
      rw [Chunk.eraseSpans, eraseChunks_eq, eraseElseIfs_eq]
      apply branches
      rintro (_ | text)
      · exact mirrors_pure rfl
      · exact mirrors_pure rfl
    | some branch =>
      rw [Chunk.eraseSpans, eraseChunks_eq, eraseElseIfs_eq, eraseChunks_eq]
      apply branches
      rintro (_ | text)
      · exact mirrors_chunks (ih'' branch rfl)
      · exact mirrors_pure rfl
  layout s name := by
    apply (mirrors_evaluate settings settings' name).then
    intro value
    apply (mirrors_templateName _ value).then
    intro name
    have declared : Mirrors Eq (modifyScope (Scope.declareLayout · 0 name s))
        (modifyScope (Scope.declareLayout · 0 name none)) :=
      mirrors_modifyScope fun scope scope' same => same.declareLayout name s none
    exact declared.then fun _ => mirrors_pure rfl
  var s defs := by
    rw [Chunk.eraseSpans, eraseVarDefs_eq]
    exact (mirrors_setVariables defs).then fun _ => mirrors_pure rfl

/-- Rendering the chunks of a template. -/
theorem mirrors_renderChunks (chunks : List Chunk) :
    Mirrors Eq (renderChunks settings template chunks)
      (renderChunks settings' template' (eraseChunks chunks)) := by
  rw [eraseChunks_eq]
  exact mirrors_chunks ((mirrored_steps limit nested).chunks chunks)

end Chunks

/-! ## Templates -/

/-- The settings of two renderings that differ in whether templates are parsed with positions, and
perhaps in the directory that error reports name. -/
structure DifferInPositions (settings settings' : Settings) : Prop where
  placed : settings.positions = true
  unplaced : settings'.positions = false
  limit : settings'.limit = settings.limit

/-- A template and the erased one. -/
def Erased (parsed parsed' : Template) : Prop := parsed' = parsed.eraseSpans

variable (differ : DifferInPositions settings settings')

include differ

/-- What was loaded for a name is parsed with positions and without. An error of the text is worded
alike; only the cause says where it is. -/
theorem mirrors_storeLoaded (name : String) (loaded : Except Cause String) :
    Mirrors Erased (storeLoaded settings name loaded) (storeLoaded settings' name loaded) := by
  cases loaded with
  | error cause => exact mirrors_failWith _ _ _ _
  | ok source =>
    have parses := template_differInSpans false source
    simp only [storeLoaded_ok, differ.placed, differ.unplaced]
    cases first : parseTemplate ⟨true, false⟩ source with
    | error error =>
      cases second : parseTemplate ⟨false, false⟩ source with
      | ok parsed' =>
        rw [first, second] at parses
        exact parses.elim
      | error error' =>
        rw [first, second] at parses
        obtain ⟨kind, message⟩ := parses
        apply (mirrors_saveToken _ _).then
        intro _
        rw [kind, message]
        exact mirrors_failWith _ _ _ _
    | ok parsed =>
      cases second : parseTemplate ⟨false, false⟩ source with
      | error error' =>
        rw [first, second] at parses
        exact parses.elim
      | ok parsed' =>
        rw [first, second] at parses
        obtain ⟨rfl, -⟩ := parses
        exact (mirrors_askStore name parsed).bind fun _ _ _ => mirrors_pure rfl

theorem mirrors_parsedTemplate (name : String) :
    Mirrors Erased (parsedTemplate settings name) (parsedTemplate settings' name) := by
  apply (mirrors_askCached name).bind
  rintro parsed? _ rfl
  cases parsed? with
  | some parsed => exact mirrors_pure rfl
  | none => exact (mirrors_ask rfl).then fun loaded => mirrors_storeLoaded differ name loaded

omit differ in
/-- The layouts that are taken have one name. -/
theorem mirrors_takeLayout :
    Mirrors (fun (layout layout' : Option (String × Option Span)) =>
      layout'.map Prod.fst = layout.map Prod.fst) takeLayout takeLayout := by
  apply mirrors_scope.bind
  intro scope scope' same
  have dropped : Mirrors Eq (modifyScope (Scope.modifyFrame Frame.dropLayout))
      (modifyScope (Scope.modifyFrame Frame.dropLayout)) :=
    mirrors_modifyScope fun _ _ same => same.modifyFrame fun _ _ inner => inner.dropLayout
  exact dropped.then fun _ => mirrors_pure same.frame.layout

/-- Rendering a template and its layouts with positions and without, by induction on the bound on
the nesting. -/
theorem mirrors_renderTemplate (n : Nat) (name : String) :
    Mirrors Eq (renderTemplate settings n name) (renderTemplate settings' n name) := by
  induction n generalizing name with
  | zero => exact mirrors_exhausted
  | succ n ih =>
    rw [renderTemplate, renderTemplate]
    apply (mirrors_parsedTemplate differ name).bind
    rintro parsed _ rfl
    apply (mirrors_renderChunks differ.limit ih parsed.chunks).then
    intro text
    apply mirrors_takeLayout.bind
    intro layout? layout?' names
    cases layout? with
    | none =>
      rw [Option.map_none, Option.map_eq_none_iff] at names
      subst names
      exact mirrors_pure rfl
    | some layout =>
      obtain ⟨layout', rfl, same⟩ := Option.map_eq_some_iff.1 names
      obtain ⟨name, origin⟩ := layout
      obtain ⟨name', origin'⟩ := layout'
      cases same
      apply mirrors_scope.bind
      intro scope scope' same
      dsimp only
      rw [same.frame.data]
      exact (ih name).within rfl

end RenderM

end Stencil.Render

import Stencil.Proofs.Rendering.Preloading
import Stencil.Proofs.Rendering.Shape
/-!
# Rendering what was preloaded

A rendering asks for templates where a chunk includes one and where a layout was declared. If all
references of the templates it meets are written as literals, it asks only for names that a
preloaded cache holds, and never comes to ask the loader.

`Stays` says this of a part of a rendering: from a scope whose declared layouts are allowed, it
asks for no template but those the cache gives, and leaves the scope in the same condition. The
parts of a rendering are gone through once, and the nesting of templates is an induction on top.
-/

set_option autoImplicit false
set_option linter.unusedSectionVars false

namespace Stencil.Render

open Stencil.Error (Kind)
open Stencil.Stream (Item)
open Stencil.Syntax
open Stencil.Text (Span)

/-- Whether a request is about a template. -/
def Request.isTemplate : Request → Bool
  | .cached _ | .store .. | .load _ => true
  | _ => false

/-- The process gets every template that it asks for from the cache, which answers from what it
holds, whatever all else is answered: it never asks the loader and stores nothing. What it gives
has a property. -/
inductive Process.ServedBy {α : Type} (cache : Cache) (property : α → Prop) : Process α → Prop where
  | done {result : α} (proper : property result) : ServedBy cache property (done result)
  | cached {holding : Holding} {name : String} {next : Option Template → Process α}
      (more : ServedBy cache property (next (cache.get? name))) :
      ServedBy cache property (ask holding (.cached name) next)
  | other {holding : Holding} {request : Request} {next : request.Answer → Process α}
      (apart : request.isTemplate = false)
      (more : ∀ answer, ServedBy cache property (next answer)) :
      ServedBy cache property (ask holding request next)

/-- One process behind another. -/
theorem Process.ServedBy.bind {α β : Type} {cache : Cache} {property : α → Prop} {goal : β → Prop}
    {process : Process α} {next : α → Process β} (first : process.ServedBy cache property)
    (second : ∀ result, property result → (next result).ServedBy cache goal) :
    (process.bind next).ServedBy cache goal := by
  induction first with
  | done proper => exact second _ proper
  | cached more ih => exact .cached ih
  | other apart more ih => exact .other apart ih

/-- The layouts declared in a scope are allowed. -/
def Scope.Declares (allowed : String → Prop) (scope : Scope) : Prop :=
  ∀ frame ∈ scope.frames, ∀ layout ∈ frame.layout, allowed layout.1

theorem Scope.Declares.push {allowed : String → Prop} {scope : Scope}
    (declares : scope.Declares allowed) {frame : Frame}
    (own : ∀ layout ∈ frame.layout, allowed layout.1) :
    (scope.push frame).Declares allowed := by
  intro other mem
  rcases List.mem_cons.1 mem with rfl | mem
  · exact own
  · exact declares other mem

theorem Scope.Declares.pop {allowed : String → Prop} {scope : Scope}
    (declares : scope.Declares allowed) : scope.pop.Declares allowed := by
  obtain ⟨frame, outer⟩ := scope
  cases outer with
  | nil => exact declares
  | cons next outer => exact fun other mem => declares other (List.mem_cons_of_mem _ mem)

namespace RenderM

variable {settings : Settings} {cache : Cache} {allowed : String → Prop} {α β : Type}

/-- A part of a rendering that is served by the cache, and that declares allowed layouts only. -/
def Stays (cache : Cache) (allowed : String → Prop) (property : α → Prop) (m : RenderM α) : Prop :=
  ∀ state : State, state.scope.Declares allowed →
    (m.start state).ServedBy cache fun behind =>
      behind.2.scope.Declares allowed ∧ ∀ result, behind.1 = .ok result → property result

variable {property : α → Prop} {goal : β → Prop}

/-! ## Pieces -/

theorem stays_pure {result : α} (proper : property result) :
    Stays cache allowed property (pure result) := by
  intro state declares
  refine .done ⟨declares, ?_⟩
  rintro other same
  cases same
  exact proper

theorem stays_throw (failure : Failure) :
    Stays cache allowed property (throw failure : RenderM α) := by
  intro state declares
  exact .done ⟨declares, by simp⟩

theorem Stays.bind {m : RenderM α} {next : α → RenderM β} (first : Stays cache allowed property m)
    (second : ∀ result, property result → Stays cache allowed goal (next result)) :
    Stays cache allowed goal (m >>= next) := by
  intro state declares
  rw [start_bind]
  refine (first state declares).bind ?_
  rintro ⟨result, behind⟩ ⟨declares, proper⟩
  cases result with
  | ok result => exact second result (proper result rfl) behind declares
  | error failure => exact .done ⟨declares, by simp⟩

theorem stays_scope : Stays cache allowed (Scope.Declares allowed) scope := by
  intro state declares
  refine .done ⟨declares, ?_⟩
  rintro other same
  cases same
  exact declares

theorem stays_modifyScope {f : Scope → Scope}
    (keeps : ∀ scope : Scope, scope.Declares allowed → (f scope).Declares allowed) :
    Stays cache allowed (fun _ => True) (modifyScope f) := by
  intro state declares
  exact .done ⟨keeps _ declares, by simp⟩

theorem stays_freshIdentity : Stays cache allowed (fun _ => True) freshIdentity := by
  intro state declares
  exact .done ⟨declares, by simp⟩

theorem stays_ask {request : Request} (apart : request.isTemplate = false) :
    Stays cache allowed (fun _ => True) (ask request) := by
  intro state declares
  exact .other apart fun answer => .done ⟨declares, by simp⟩

theorem stays_cached (name : String) :
    Stays cache allowed (· = cache.get? name) (ask (.cached name)) := by
  intro state declares
  refine .cached (.done ⟨declares, ?_⟩)
  rintro other same
  cases same
  rfl

theorem Stays.within {body : RenderM α} (inner : Stays cache allowed property body) {frame : Frame}
    (own : ∀ layout ∈ frame.layout, allowed layout.1) :
    Stays cache allowed property (within frame body) := by
  intro state declares
  rw [start_within]
  refine (inner _ (declares.push own)).bind ?_
  rintro ⟨result, behind⟩ ⟨declares, proper⟩
  exact .done ⟨declares.pop, proper⟩

theorem Stays.keeping {body : RenderM α} (inner : Stays cache allowed property body)
    (values : List Value) : Stays cache allowed property (keeping values body) := by
  intro state declares
  rw [start_keeping]
  have run := inner { state with inUse := values ++ state.inUse } declares
  refine run.bind ?_
  rintro ⟨result, behind⟩ ⟨declares, proper⟩
  exact .done ⟨declares, proper⟩

theorem Stays.releasing {body : RenderM α} (inner : Stays cache allowed property body)
    (source : Source) : Stays cache allowed property (releasing source body) := by
  cases source with
  | items array rest => exact inner.keeping [array]
  | external source =>
    intro state declares
    rw [start_releasing_external]
    refine (inner _ declares).bind ?_
    rintro ⟨result, behind⟩ ⟨declares, proper⟩
    exact .other rfl fun answer => .done ⟨declares, proper⟩

/-- Changing the innermost frame in a way that leaves its layout. -/
theorem stays_modifyFrame {f : Frame → Frame} (same : ∀ frame, (f frame).layout = frame.layout) :
    Stays cache allowed (fun _ => True) (modifyScope (Scope.modifyFrame f)) := by
  refine stays_modifyScope fun scope declares other mem => ?_
  rcases List.mem_cons.1 mem with rfl | mem
  · show ∀ layout ∈ (f scope.frame).layout, allowed layout.1
    rw [same]
    exact declares scope.frame (by simp [Scope.frames])
  · exact declares other (List.mem_cons_of_mem _ mem)

theorem stays_saveToken (span : Option Span) :
    Stays cache allowed (fun _ => True) (saveToken span) :=
  stays_modifyFrame fun _ => rfl

theorem stays_failWith (kind : Kind) (message : String) (cause : Option String) :
    Stays cache allowed property (failWith settings kind message cause : RenderM α) :=
  stays_scope.bind fun _ _ => stays_throw _

theorem stays_fail (kind : Kind) (message : String) :
    Stays cache allowed property (fail settings kind message : RenderM α) :=
  stays_failWith kind message none

theorem stays_accept (answer : Except Cause α) :
    Stays cache allowed (fun _ => True) (accept settings answer) := by
  cases answer with
  | ok result => exact stays_pure trivial
  | error cause => exact stays_failWith _ _ _

/-! ## Expressions -/

theorem stays_resolveIn (name : String) (frames : List Frame) :
    Stays cache allowed (fun _ => True) (resolveIn settings name frames) := by
  induction frames with
  | nil => exact stays_fail _ _
  | cons frame outer ih =>
    rw [resolveIn]
    split
    · exact stays_pure trivial
    · split
      · refine (stays_ask rfl).bind fun answer _ => (stays_accept answer).bind fun value _ => ?_
        split
        · exact ih
        · exact stays_pure trivial
      · split
        · exact stays_pure trivial
        · exact ih

theorem stays_member (base : Value) (key : String) :
    Stays cache allowed (fun _ => True) (member settings base key) := by
  unfold member
  split
  · exact stays_fail _ _
  · exact stays_fail _ _
  · exact ((stays_ask rfl).keeping _).bind fun answer _ => stays_accept answer
  · exact stays_pure trivial

theorem stays_call (handle : Nat) (args : List Value) :
    Stays cache allowed (fun _ => True) (do accept settings (← ask (.call handle args))) :=
  (stays_ask rfl).bind fun answer _ => stays_accept answer

theorem stays_apply (function : Value) (callee : Expr) (args : List Value) :
    Stays cache allowed (fun _ => True) (apply settings function callee args) := by
  unfold apply
  split
  · exact stays_call _ _
  · exact stays_fail _ _

theorem stays_applyUnary (op : UnaryOp) (operand : Value) :
    Stays cache allowed (fun _ => True) (applyUnary settings op operand) := by
  unfold applyUnary
  split
  · exact stays_pure trivial
  · exact stays_pure trivial
  · exact stays_pure trivial
  · exact stays_fail _ _

theorem stays_applyBinary (op : BinaryOp) (left right : Value) :
    Stays cache allowed (fun _ => True) (applyBinary settings op left right) := by
  unfold applyBinary
  split
  · exact stays_pure trivial
  · exact stays_fail _ _

theorem stays_guarded {e : Expr} {property : Value → Prop} {body : RenderM Value}
    (inner : Stays cache allowed property body) :
    Stays cache allowed property (guarded settings e body) := by
  refine (stays_saveToken _).bind fun _ _ => ?_
  split
  · exact stays_fail _ _
  · exact inner

/-- A string literal has its text as its value. -/
theorem stays_string (s : Option Span) (text : String) :
    Stays cache allowed (· = .string text) (evaluate settings (.string s text)) := by
  rw [evaluate]
  exact stays_guarded (stays_pure rfl)

mutual

theorem stays_evaluate : ∀ e : Expr, Stays cache allowed (fun _ => True) (evaluate settings e)
  | .num .. | .string .. | .atom .. => by
    rw [evaluate]
    exact stays_guarded (stays_pure trivial)
  | .name s name => by
    rw [evaluate]
    exact stays_guarded (stays_scope.bind fun scope _ => stays_resolveIn name scope.frames)
  | .array s items => by
    rw [evaluate]
    exact stays_guarded ((stays_evaluateAll items).bind fun _ _ =>
      stays_freshIdentity.bind fun _ _ => stays_pure trivial)
  | .object s properties => by
    rw [evaluate]
    exact stays_guarded ((stays_evaluateProperties properties []).bind fun _ _ =>
      stays_freshIdentity.bind fun _ _ => stays_pure trivial)
  | .dot s target property => by
    rw [evaluate]
    exact stays_guarded ((stays_evaluate target).bind fun base _ => stays_member base property)
  | .sub s target index => by
    rw [evaluate]
    exact stays_guarded ((stays_evaluate target).bind fun base _ =>
      ((stays_evaluate index).keeping _).bind fun key _ => stays_member base key.display)
  | .call s callee args => by
    rw [evaluate]
    exact stays_guarded ((stays_evaluate callee).bind fun function _ =>
      ((stays_evaluateAll args).keeping _).bind fun values _ =>
        (stays_saveToken _).bind fun _ _ => stays_apply function callee values)
  | .prefixOp s op operand => by
    rw [evaluate]
    exact stays_guarded ((stays_evaluate operand).bind fun value _ => stays_applyUnary op value)
  | .binary s op left right => by
    rw [evaluate]
    refine stays_guarded ((stays_evaluate left).bind fun first _ => ?_)
    have second := (stays_evaluate right).keeping [first]
    split
    · split
      · exact second
      · exact stays_pure trivial
    · split
      · exact stays_pure trivial
      · exact second
    · exact second.bind fun value _ => stays_applyBinary _ first value
  | .conditional s test yes no => by
    rw [evaluate]
    refine stays_guarded ((stays_evaluate test).bind fun value _ => ?_)
    split
    · exact stays_evaluate yes
    · exact stays_evaluate no
  | .regexp .. | .new .. | .postfixOp .. | .assign .. | .seq .. | .function .. => by
    rw [evaluate]
    exact stays_guarded (stays_fail _ _)

theorem stays_evaluateAll : ∀ items : List Expr,
    Stays cache allowed (fun _ => True) (evaluateAll settings items)
  | [] => stays_pure trivial
  | e :: rest => by
    rw [evaluateAll]
    exact (stays_evaluate e).bind fun _ _ =>
      ((stays_evaluateAll rest).keeping _).bind fun _ _ => stays_pure trivial

theorem stays_evaluateProperties : ∀ (properties : List Property) (entries : List (String × Value)),
    Stays cache allowed (fun _ => True) (evaluateProperties settings entries properties)
  | [], entries => stays_pure trivial
  | .init key value :: rest, entries => by
    rw [evaluateProperties]
    exact ((stays_evaluate value).keeping _).bind fun value _ =>
      stays_evaluateProperties rest (Table.put entries key value)
  | .getter .. :: _, _ | .setter .. :: _, _ => by
    rw [evaluateProperties]
    exact stays_fail _ _

end

/-! ## Chunks -/

theorem stays_collectionOf (value : Value) :
    Stays cache allowed (fun _ => True) (collectionOf settings value) := by
  unfold collectionOf
  split
  · exact stays_call _ _
  · exact stays_pure trivial

theorem stays_openCollection (collection : Value) :
    Stays cache allowed (fun _ => True) (openCollection settings collection) := by
  refine stays_freshIdentity.bind fun number _ => ?_
  split
  · exact stays_pure trivial
  · exact (stays_ask rfl).bind fun _ _ => stays_pure trivial
  · refine (stays_ask rfl).bind fun answer _ => ?_
    split
    · exact stays_pure trivial
    · exact stays_fail _ _
  · exact stays_fail _ _

theorem stays_sourceOf (value : Value) :
    Stays cache allowed (fun _ => True) (sourceOf settings value) :=
  (stays_collectionOf value).bind fun collection _ => stays_openCollection collection

theorem stays_nextItem (source : Source) :
    Stays cache allowed (fun _ => True) (nextItem settings source) := by
  cases source with
  | items array rest =>
    refine (stays_ask rfl).bind fun _ _ => ?_
    cases rest with
    | nil => exact stays_pure trivial
    | cons value rest => exact stays_pure trivial
  | external source =>
    exact (stays_ask rfl).bind fun answer _ => (stays_accept answer).bind fun item _ =>
      stays_pure trivial

/-- The rounds of an iteration: by induction on their bound. -/
theorem stays_forEach {frame : Nat → Item → Frame} {body : RenderM String}
    (bare : ∀ index item, (frame index item).layout = none)
    (inner : Stays cache allowed (fun _ => True) body) (n : Nat) :
    ∀ (source : Source) (index : Nat) (written : String),
      Stays cache allowed (fun _ => True) (forEach settings frame body n source index written) := by
  induction n with
  | zero => exact fun _ _ _ => stays_throw _
  | succ n ih =>
    intro source index written
    rw [forEach]
    refine (stays_nextItem source).bind fun next _ => ?_
    split
    · exact stays_pure trivial
    · next item source =>
      exact (inner.within (by simp [bare])).bind fun text _ => ih source (index + 1) _

theorem stays_evaluateEach (items : List Expr) :
    Stays cache allowed (fun _ => True) (evaluateEach settings items) := by
  induction items with
  | nil => exact stays_pure trivial
  | cons e rest ih => exact (stays_evaluate e).bind fun _ _ => ih

theorem stays_includeData (args : List Expr) :
    Stays cache allowed (fun _ => True) (includeData settings args) := by
  cases args with
  | nil => exact stays_freshIdentity.bind fun _ _ => stays_pure trivial
  | cons first others =>
    exact (stays_evaluate first).bind fun data _ =>
      ((stays_evaluateEach others).keeping _).bind fun _ _ => stays_pure trivial

theorem stays_setVariables (defs : List VarDef) :
    Stays cache allowed (fun _ => True) (setVariables settings defs) := by
  induction defs with
  | nil => exact stays_pure trivial
  | cons def_ rest ih =>
    obtain ⟨name, initial⟩ := def_
    have value : Stays cache allowed (fun _ => True) (initialValue settings initial) := by
      cases initial with
      | none => exact stays_pure trivial
      | some e => exact stays_evaluate e
    refine value.bind fun result _ => ?_
    have set : Stays cache allowed (fun _ => True)
        (modifyScope (Scope.modifyFrame (Frame.setLocal · name result))) :=
      stays_modifyFrame fun _ => rfl
    exact set.bind fun _ _ => ih

/-- The name that a text gives is that text. -/
theorem stays_templateName {what text : String} {value : Value} (same : value = .string text) :
    Stays cache allowed (· = text) (templateName settings what value) := by
  subst same
  exact stays_pure rfl

/-- Declaring an allowed layout. -/
theorem declares_declareLayout {scope : Scope} (declares : scope.Declares allowed) {name : String}
    (known : allowed name) (span : Option Span) :
    (scope.declareLayout 0 name span).Declares allowed := by
  have declared (frame : Frame) :
      ∀ layout ∈ (frame.setLayout name span).layout, allowed layout.1 := by
    simp [Frame.setLayout, known]
  have outer (frames : List Frame)
      (own : ∀ frame ∈ frames, ∀ layout ∈ frame.layout, allowed layout.1) :
      ∀ frame ∈ Scope.modifyTemplateFrames (Frame.setLayout · name span) frames,
        ∀ layout ∈ frame.layout, allowed layout.1 := by
    induction frames with
    | nil => exact own
    | cons first rest ih =>
      rw [List.forall_mem_cons] at own
      rw [Scope.modifyTemplateFrames]
      split
      · exact List.forall_mem_cons.2 ⟨declared first, own.2⟩
      · exact List.forall_mem_cons.2 ⟨own.1, ih own.2⟩
  unfold Scope.Declares Scope.frames at declares
  rw [List.forall_mem_cons] at declares
  unfold Scope.declareLayout
  dsimp only
  split
  · exact List.forall_mem_cons.2 ⟨declared scope.frame, declares.2⟩
  · exact List.forall_mem_cons.2 ⟨declares.1, outer scope.outer declares.2⟩

/-- The chunks refer to allowed names only, each written as a literal. -/
def RefersWithin (allowed : String → Prop) (chunks : List Chunk) : Prop :=
  ∀ chunk, Chunk.Occurs chunk chunks → ∀ e, chunk.reference? = some e →
    ∃ span name, e = .string span name ∧ allowed name

section

variable {template : String → RenderM String}
  (templates : ∀ name, allowed name → Stays cache allowed (fun _ => True) (template name))

include templates

mutual

theorem stays_renderChunk : ∀ chunk : Chunk, RefersWithin allowed [chunk] →
    Stays cache allowed (fun _ => True) (renderChunk settings template chunk)
  | .html _ text, _ => stays_pure trivial
  | .echo _ value, _ | .rawHtml _ value, _ => by
    rw [renderChunk]
    exact (stays_evaluate value).bind fun _ _ => stays_pure trivial
  | .include span args name, within => by
    obtain ⟨s, text, rfl, known⟩ := within _ (.here (List.mem_singleton_self _)) name rfl
    rw [renderChunk]
    refine (stays_includeData (args.getD [])).bind fun data _ =>
      ((stays_string s text).keeping _).bind fun value same => ?_
    refine (stays_templateName same).bind fun name same => ?_
    subst same
    exact (templates name known).within (by simp [Frame.ofTemplate, Frame.openedBy, Frame.setLocal])
  | .each span bindings collection body, within => by
    rw [renderChunk]
    have inner := stays_renderChunks body fun c occurs =>
      within c (.each (List.mem_singleton_self _) occurs)
    exact (stays_evaluate collection).bind fun value _ => (stays_sourceOf value).bind fun source _ =>
      (stays_forEach (fun _ _ => rfl) inner _ _ _ _).releasing source
  | .ifElse _ condition thenBranch elseIfs none, within => by
    rw [renderChunk]
    have first := stays_renderChunks thenBranch fun c occurs =>
      within c (.thenBranch (List.mem_singleton_self _) occurs)
    have others := stays_renderElseIfs elseIfs fun test body mem c occurs =>
      within c (.elseIf (List.mem_singleton_self _) mem occurs)
    refine (stays_evaluate condition).bind fun value _ => ?_
    split
    · exact first
    · refine others.bind fun text _ => ?_
      cases text with
      | some text => exact stays_pure trivial
      | none => exact stays_pure trivial
  | .ifElse _ condition thenBranch elseIfs (some branch), within => by
    rw [renderChunk]
    have first := stays_renderChunks thenBranch fun c occurs =>
      within c (.thenBranch (List.mem_singleton_self _) occurs)
    have others := stays_renderElseIfs elseIfs fun test body mem c occurs =>
      within c (.elseIf (List.mem_singleton_self _) mem occurs)
    have last := stays_renderChunks branch fun c occurs =>
      within c (.elseBranch (List.mem_singleton_self _) occurs)
    refine (stays_evaluate condition).bind fun value _ => ?_
    split
    · exact first
    · refine others.bind fun text _ => ?_
      cases text with
      | some text => exact stays_pure trivial
      | none => exact last
  | .layout span name, within => by
    obtain ⟨s, text, rfl, known⟩ := within _ (.here (List.mem_singleton_self _)) name rfl
    rw [renderChunk]
    refine (stays_string s text).bind fun value same => ?_
    refine (stays_templateName same).bind fun name same => ?_
    subst same
    exact (stays_modifyScope fun scope declares => declares_declareLayout declares known span).bind
      fun _ _ => stays_pure trivial
  | .var _ defs, _ => by
    rw [renderChunk]
    exact (stays_setVariables defs).bind fun _ _ => stays_pure trivial

theorem stays_renderChunks : ∀ chunks : List Chunk, RefersWithin allowed chunks →
    Stays cache allowed (fun _ => True) (renderChunks settings template chunks)
  | [], _ => stays_pure trivial
  | chunk :: rest, within => by
    rw [renderChunks]
    have first := stays_renderChunk chunk fun c occurs => within c (occurs.mono (by simp))
    have others := stays_renderChunks rest fun c occurs =>
      within c (occurs.mono fun _ mem => List.mem_cons_of_mem _ mem)
    exact (stays_saveToken _).bind fun _ _ => first.bind fun text _ => others.bind fun _ _ =>
      stays_pure trivial

theorem stays_renderElseIfs : ∀ branches : List ElseIf,
    (∀ test body, .mk test body ∈ branches → RefersWithin allowed body) →
    Stays cache allowed (fun _ => True) (renderElseIfs settings template branches)
  | [], _ => stays_pure trivial
  | .mk condition body :: rest, within => by
    rw [renderElseIfs]
    have first := stays_renderChunks body (within condition body (by simp))
    have others := stays_renderElseIfs rest fun test body mem =>
      within test body (List.mem_cons_of_mem _ mem)
    refine (stays_evaluate condition).bind fun value _ => ?_
    split
    · exact first.bind fun _ _ => stays_pure trivial
    · exact others

end

end

/-! ## Templates -/

/-- A template that the cache holds is gotten from it. -/
theorem stays_parsedTemplate {name : String} {t : Template} (found : cache.get? name = some t) :
    Stays cache allowed (· = t) (parsedTemplate settings name) := by
  refine (stays_cached name).bind fun answer same => ?_
  rw [found] at same
  subst same
  exact stays_pure rfl

/-- The layout that is taken is an allowed one. -/
theorem stays_takeLayout :
    Stays cache allowed (fun layout => ∀ declared ∈ layout, allowed declared.1) takeLayout := by
  refine stays_scope.bind fun scope declares => ?_
  have dropped : Stays cache allowed (fun _ => True)
      (modifyScope (Scope.modifyFrame Frame.dropLayout)) := by
    refine stays_modifyScope fun scope declares =>
      List.forall_mem_cons.2 ⟨by simp [Frame.dropLayout, Scope.modifyFrame], ?_⟩
    exact (List.forall_mem_cons.1 declares).2
  exact dropped.bind fun _ _ => stays_pure (List.forall_mem_cons.1 declares).1

/-- The rendering of an allowed template, if the cache holds all allowed ones and they refer to
each other only. By induction on the bound of the nesting. -/
theorem stays_renderTemplate
    (held : ∀ name, allowed name → ∃ t, cache.get? name = some t ∧ RefersWithin allowed t.chunks)
    (n : Nat) : ∀ name, allowed name →
      Stays cache allowed (fun _ => True) (renderTemplate settings n name) := by
  induction n with
  | zero => exact fun _ _ => stays_throw _
  | succ n ih =>
    intro name known
    obtain ⟨t, found, refers⟩ := held name known
    rw [renderTemplate]
    refine (stays_parsedTemplate found).bind fun parsed same => ?_
    subst same
    refine (stays_renderChunks ih parsed.chunks refers).bind fun text _ => ?_
    refine stays_takeLayout.bind fun layout known => ?_
    split
    · exact stays_pure trivial
    · next layout origin =>
      exact stays_scope.bind fun scope _ => (ih layout (known _ rfl)).within
        (by simp [Frame.ofTemplate, Frame.openedBy, Frame.setLocal])

end RenderM

/-- A rendering by name is served by a cache that holds the template, and all that it leads to. -/
theorem render_servedBy {settings : Settings} {cache : Cache} {allowed : String → Prop}
    (held : ∀ name, allowed name →
      ∃ t, cache.get? name = some t ∧ RenderM.RefersWithin allowed t.chunks)
    {name : String} (known : allowed name) (data : Value) (fresh : Nat) :
    (render settings name data fresh).ServedBy cache fun _ => True := by
  have bare : Scope.Declares allowed { frame := Frame.ofTemplate name data } := by
    simp [Scope.Declares, Scope.frames, Frame.ofTemplate, Frame.setLocal]
  exact (RenderM.stays_renderTemplate held settings.limit name known
    { scope := { frame := Frame.ofTemplate name data }, fresh } bare).bind fun _ _ => .done trivial

/-! ## Preloading, then listing and rendering -/

variable {templates : String → Option Template} {before cache : Cache} {name : String}

/-- What can be reached is the same by the templates and by a cache that holds all that can be
reached by them. -/
theorem leadsTo_iff (sound : ∀ other t, cache.get? other = some t → templates other = some t)
    (held : ∀ other, LeadsTo templates name other → ∃ t, cache.get? other = some t)
    (other : String) : LeadsTo cache.get? name other ↔ LeadsTo templates name other := by
  constructor
  · intro reaches
    refine Relation.ReflTransGen.mono ?_ _ _ reaches
    rintro first second ⟨t, found, refersTo⟩
    exact ⟨t, sound first t found, refersTo⟩
  · intro reaches
    induction reaches with
    | refl => exact .refl
    | @tail first second reaches refers ih =>
      obtain ⟨t, found, refersTo⟩ := refers
      obtain ⟨t', there⟩ := held first reaches
      obtain rfl : t' = t := by
        have := sound first t' there
        rw [found] at this
        exact (Option.some.inj this).symm
      exact ih.tail ⟨t', there, refersTo⟩

/-- A part of a rendering runs, as a process, from its own frame. -/
theorem RenderM.alone_of_process {α : Type} {body : RenderM α} {frame : Frame} {fresh : Nat}
    {load : String → Except Cause String} {result : Except Failure α} {after : Cache}
    (run : (body.process frame fresh).alone load before = (result, after)) :
    ∃ state, (body.start { scope := { frame }, fresh }).alone load before
      = ((result, state), after) := by
  have bound : (body.process frame fresh).alone load before
      = (((body.start { scope := { frame }, fresh }).alone load before).1.1,
        ((body.start { scope := { frame }, fresh }).alone load before).2) :=
    Process.alone_bind ..
  rw [bound] at run
  cases run
  exact ⟨_, rfl⟩

/-- A preload that ends with a number has walked over as many names, and each is in the cache. -/
theorem preload_walked {settings : Settings} {load : String → Except Cause String}
    {count : Nat} {after : Cache}
    (run : (preload settings name).alone load before = (.ok count, after)) :
    ∃ names, Walked (templateOf settings load before) name names [] ∧ names.length = count ∧
      Cache.Extends (templateOf settings load before) before after ∧
      ∀ other ∈ names, ∃ t, after.get? other = some t := by
  have start : Cache.Extends (templateOf settings load before) before before :=
    ⟨fun other t found => by simp [templateOf, found], fun _ _ found => found⟩
  obtain ⟨state, run⟩ := RenderM.alone_of_process run
  exact RenderM.alone_preloadFrom (Walked.start _ name) start (by simp) run

/-- A preload that ends with a number has brought exactly the templates that can be reached from
the name along fixed references into the cache, and the number is how many they are. Listing the
cache lists each of them once, with what it refers to. If all their references are fixed, then
rendering the name, with whatever data, and from every cache that still holds them, asks the
loader for nothing. -/
theorem preload_complete {settings : Settings} {load : String → Except Cause String}
    {before after : Cache} {name : String} {count : Nat}
    (run : (preload settings name).alone load before = (.ok count, after)) :
    ∃ names : List String,
      names.Nodup ∧ names.length = count ∧
      (∀ other, other ∈ names ↔ LeadsTo (templateOf settings load before) name other) ∧
      (∀ other ∈ names, ∃ t, templateOf settings load before other = some t ∧
        after.get? other = some t) ∧
      (Table.keys (after.listing name)).Perm names ∧
      (∀ entry ∈ after.listing name, ∃ t, after.get? entry.1 = some t ∧ entry.2 = t.dependencies) ∧
      ((∀ other ∈ names, ∀ t, templateOf settings load before other = some t → t.IsStatic) →
        ∀ later : Cache, (∀ other ∈ names, later.get? other = after.get? other) →
          ∀ data fresh, (render settings name data fresh).ServedBy later fun _ => True) := by
  obtain ⟨names, walked, length, extends_, held⟩ := preload_walked run
  have reached := walked.complete
  have reachable (other : String) : LeadsTo after.get? name other ↔ other ∈ names := by
    rw [reached, leadsTo_iff extends_.sound fun other reaches => held other ((reached other).2 reaches)]
  have holds (other : String) (reaches : LeadsTo after.get? name other) :
      ∃ t, after.get? other = some t := held other ((reachable other).1 reaches)
  obtain ⟨once, listed, told⟩ := Cache.listing_complete holds
  refine ⟨names, walked.once, length, reached, fun other mem => ?_, ?_, fun entry mem => ?_, ?_⟩
  · obtain ⟨t, there⟩ := held other mem
    exact ⟨t, extends_.sound other t there, there⟩
  · refine (List.perm_ext_iff_of_nodup once walked.once).2 fun other => ?_
    rw [listed, reachable]
  · obtain ⟨t, there, same⟩ := Option.map_eq_some_iff.1 (told entry mem)
    exact ⟨t, there, same.symm⟩
  · intro fixed later still data fresh
    have closed : ∀ other, other ∈ names →
        ∃ t, later.get? other = some t ∧ RenderM.RefersWithin (· ∈ names) t.chunks := by
      intro other mem
      obtain ⟨t, there⟩ := held other mem
      have known := extends_.sound other t there
      refine ⟨t, (still other mem).trans there, fun chunk occurs e reference => ?_⟩
      obtain ⟨span, next, rfl⟩ := fixed other mem t known chunk occurs e reference
      have refers : Refers (templateOf settings load before) other next :=
        ⟨t, known, chunk, occurs, span, reference⟩
      exact ⟨span, next, rfl, (reached next).2 (((reached other).1 mem).tail refers)⟩
    exact render_servedBy closed ((reached name).2 .refl) data fresh

/-- Two templates, one with the other inside its blocks, which has it as a layout. -/
def loadPair : String → Except Cause String
  | "page" =>
    .ok ("\x7b\x7beach xs\x7d\x7d\x7b\x7bif x\x7d\x7d\x7b\x7btmpl \"row\"\x7d\x7d" ++
      "\x7b\x7b/if\x7d\x7d\x7b\x7b/each\x7d\x7d")
  | "row" => .ok "\x7b\x7blayout \"page\"\x7d\x7d"
  | _ => .error { text := "no such template" }

/-- Preloading two templates that lead to each other ends, and rendering asks for neither. -/
theorem preload_complete_pair :
    ∃ after : Cache,
      (preload {} "page").alone loadPair .empty = (.ok 2, after) ∧
      (Table.keys (after.listing "page")).length = 2 ∧
      ∀ data fresh, (render {} "page" data fresh).ServedBy after fun _ => True := by
  have count : ((preload {} "page").alone loadPair .empty).1.toOption = some 2 := by decide +kernel
  have fixed (other : String) (t : Template) (found : templateOf {} loadPair .empty other = some t) :
      t.IsStatic := by
    have page : ∀ t ∈ templateOf {} loadPair .empty "page", t.IsStatic := by decide +kernel
    have row : ∀ t ∈ templateOf {} loadPair .empty "row", t.IsStatic := by decide +kernel
    by_cases first : other = "page"
    · exact page t (first ▸ found)
    · by_cases second : other = "row"
      · exact row t (second ▸ found)
      · have missing : templateOf {} loadPair .empty other = none := by
          simp [templateOf, loadPair, Cache.get?, Cache.empty, Table.get?]
        rw [missing] at found
        cases found
  cases ended : (preload {} "page").alone loadPair .empty with
  | mk result after =>
    rw [ended] at count
    cases result with
    | error failure => cases count
    | ok number =>
      obtain rfl : number = 2 := Option.some.inj count
      obtain ⟨names, -, length, -, -, listed, -, served⟩ := preload_complete ended
      exact ⟨after, rfl, listed.length_eq.trans length,
        served (fun other _ t found => fixed other t found) after fun _ _ => rfl⟩

end Stencil.Render

import Stencil.Proofs.Rendering.Effects
/-!
# Nested rendering leaves the enclosing frames alone

Including a template changes no frame that was there before: its local variables and its declared
layout stay. An iteration keeps the local variables too, and at most replaces the layout of the
nearest frame that renders a template (`nested_rendering_undisturbing`). This holds of every outcome,
errors included.

`LeavesScope` says what a part of a rendering leaves of a scope. Rendering chunks leaves the scope as it
is up to the place and the variables of the innermost frame and the layout of the nearest template
(`Scope.bare`); a frame of its own hides the first two from the frames below it, and a template's
frame all three.
-/

set_option autoImplicit false

namespace Stencil.Render

open Stencil.Error (Kind)
open Stencil.Stream (Item)
open Stencil.Syntax
open Stencil.Text (Span)

/-! ## What is looked at of a scope -/

/-- The frame without the place that it keeps. -/
def Frame.dropToken (frame : Frame) : Frame := { frame with lastToken := none }

/-- The frame without local variables. -/
def Frame.dropLocals (frame : Frame) : Frame := { frame with locals := [] }

namespace Scope

/-- The frames, but for the place of the innermost one. -/
def calm (scope : Scope) : List Frame := scope.frames.modifyHead Frame.dropToken

/-- The frames, but for the place of the innermost one and the layout that is declared in the nearest
template. -/
def undeclared (scope : Scope) : List Frame := modifyTemplateFrames Frame.dropLayout scope.calm

/-- The frames, but for the place and the variables of the innermost one and the layout that is
declared in the nearest template. -/
def bare (scope : Scope) : List Frame :=
  modifyTemplateFrames Frame.dropLayout (scope.calm.modifyHead Frame.dropLocals)

/-- Only the nearest frame that renders a template is changed. -/
theorem modifyTemplateFrames_eq (f : Frame → Frame) (frames : List Frame) :
    modifyTemplateFrames f frames = frames.modify (frames.findIdx (·.template.isSome)) f := by
  induction frames with
  | nil => rfl
  | cons frame rest ih =>
    rw [modifyTemplateFrames, List.findIdx_cons]
    cases frame.template.isSome with
    | true => rfl
    | false => simpa using ih

/-- Two changes of frames do not matter to each other, if one of them is a change of the innermost
frame that keeps its template. -/
theorem modifyTemplateFrames_modifyHead {f g : Frame → Frame} (apart : ∀ frame, f (g frame) = g (f frame))
    (template : ∀ frame, (g frame).template = frame.template) (frames : List Frame) :
    modifyTemplateFrames f (frames.modifyHead g) = (modifyTemplateFrames f frames).modifyHead g := by
  cases frames with
  | nil => rfl
  | cons frame rest =>
    simp only [List.modifyHead_cons, modifyTemplateFrames, template, apart]
    split <;> rfl

/-- Without a template of its own, a frame leaves the change to the frames around it. -/
theorem modifyTemplateFrames_item {frame : Frame} (item : frame.template = none)
    (f : Frame → Frame) (outer : List Frame) :
    modifyTemplateFrames f (frame :: outer) = frame :: modifyTemplateFrames f outer := by
  simp [modifyTemplateFrames, item]

/-- With a template of its own, a frame takes the change. -/
theorem modifyTemplateFrames_template {frame : Frame} (template : frame.template.isSome = true)
    (f : Frame → Frame) (outer : List Frame) :
    modifyTemplateFrames f (frame :: outer) = f frame :: outer := by
  simp [modifyTemplateFrames, template]

/-- Changing frames keeps their number. -/
theorem modifyTemplateFrames_eq_nil {f : Frame → Frame} {frames : List Frame} :
    modifyTemplateFrames f frames = [] ↔ frames = [] := by
  rw [modifyTemplateFrames_eq]
  exact List.modify_eq_nil_iff

/-- Without its innermost frame a scope has the frames around it. -/
theorem frames_pop {scope : Scope} (inner : scope.outer ≠ []) : scope.pop.frames = scope.outer := by
  obtain ⟨frame, outer⟩ := scope
  cases outer with
  | nil => exact absurd rfl inner
  | cons next rest => rfl

/-- What a change keeps of a frame, it keeps of all frames. -/
theorem map_modifyTemplateFrames {α : Type} {view : Frame → α} {f : Frame → Frame}
    (keeps : ∀ frame, view (f frame) = view frame) (frames : List Frame) :
    (modifyTemplateFrames f frames).map view = frames.map view := by
  induction frames with
  | nil => rfl
  | cons frame rest ih =>
    rw [modifyTemplateFrames]
    split
    · simp [keeps]
    · simp [ih]

/-- What a change of the innermost frame keeps of it, it keeps of all frames. -/
theorem map_modifyHead {α : Type} {view : Frame → α} {f : Frame → Frame}
    (keeps : ∀ frame, view (f frame) = view frame) (frames : List Frame) :
    (frames.modifyHead f).map view = frames.map view := by
  cases frames with
  | nil => rfl
  | cons frame rest => simp [keeps]

theorem map_calm {α : Type} {view : Frame → α}
    (token : ∀ frame : Frame, view frame.dropToken = view frame) (scope : Scope) :
    scope.calm.map view = scope.frames.map view :=
  map_modifyHead token scope.frames

theorem map_undeclared {α : Type} {view : Frame → α}
    (token : ∀ frame : Frame, view frame.dropToken = view frame)
    (layout : ∀ frame : Frame, view frame.dropLayout = view frame) (scope : Scope) :
    scope.undeclared.map view = scope.frames.map view :=
  (map_modifyTemplateFrames layout _).trans (map_calm token scope)

/-- The templates of the frames are among what is looked at. -/
theorem map_template_bare (scope : Scope) :
    scope.bare.map Frame.template = scope.frames.map Frame.template := by
  rw [bare, map_modifyTemplateFrames (f := Frame.dropLayout) fun _ => rfl,
    map_modifyHead (f := Frame.dropLocals) fun _ => rfl, map_calm fun _ => rfl]

/-- Of two changes of the nearest frame that renders a template, the later one may hide the other. -/
theorem modifyTemplateFrames_twice {f g : Frame → Frame} (hides : ∀ frame, f (g frame) = f frame)
    (template : ∀ frame, (g frame).template = frame.template) (frames : List Frame) :
    modifyTemplateFrames f (modifyTemplateFrames g frames) = modifyTemplateFrames f frames := by
  induction frames with
  | nil => rfl
  | cons frame rest ih =>
    cases own : frame.template with
    | none =>
      rw [modifyTemplateFrames_item own g, modifyTemplateFrames_item own f,
        modifyTemplateFrames_item own f, ih]
    | some name =>
      have here : frame.template.isSome = true := by simp [own]
      have there : (g frame).template.isSome = true := by rw [template, here]
      rw [modifyTemplateFrames_template here g, modifyTemplateFrames_template there f,
        modifyTemplateFrames_template here f, hides]

/-- A layout is declared in the nearest frame that renders a template. -/
theorem frames_declareLayout (scope : Scope) (name : String) (span : Option Span) :
    (scope.declareLayout 0 name span).frames =
      modifyTemplateFrames (Frame.setLayout · name span) scope.frames := by
  simp only [declareLayout, frames, modifyTemplateFrames]
  split <;> rfl

/-- The layout does not matter to the place of the innermost frame. -/
theorem undeclared_eq (scope : Scope) :
    scope.undeclared =
      (modifyTemplateFrames Frame.dropLayout scope.frames).modifyHead Frame.dropToken :=
  modifyTemplateFrames_modifyHead (f := Frame.dropLayout) (g := Frame.dropToken)
    (fun _ => rfl) (fun _ => rfl) scope.frames

/-- The nearest frame that renders a template is found by the templates alone. -/
theorem findIdx_template (frames : List Frame) :
    frames.findIdx (·.template.isSome) = (frames.map Frame.template).findIdx Option.isSome := by
  rw [List.findIdx_map]
  rfl

/-- All layouts but that of the nearest template are among what is looked at. -/
theorem layout_undeclared {scope : Scope} {i : Nat}
    (other : i ≠ scope.frames.findIdx (·.template.isSome)) :
    (scope.undeclared.map Frame.layout)[i]? = (scope.frames.map Frame.layout)[i]? := by
  have nearest : scope.calm.findIdx (·.template.isSome) =
      scope.frames.findIdx (·.template.isSome) := by
    rw [findIdx_template, findIdx_template, map_calm fun _ => rfl]
  rw [undeclared, modifyTemplateFrames_eq, nearest, List.getElem?_map,
    List.getElem?_modify_ne _ _ other.symm, ← List.getElem?_map, map_calm fun _ => rfl]

/-- What is looked at when the innermost frame renders no template. -/
theorem bare_item {scope : Scope} (item : scope.frame.template = none) :
    scope.bare = scope.frame.dropToken.dropLocals
      :: modifyTemplateFrames Frame.dropLayout scope.outer :=
  modifyTemplateFrames_item (show scope.frame.dropToken.dropLocals.template = none from item) _ _

/-- What is looked at when the innermost frame renders a template. -/
theorem bare_template {scope : Scope} (template : scope.frame.template.isSome = true) :
    scope.bare = scope.frame.dropToken.dropLocals.dropLayout :: scope.outer :=
  modifyTemplateFrames_template
    (show scope.frame.dropToken.dropLocals.template.isSome = true from template) _ _

end Scope

/-! ## What is left of a scope -/

/-- What a process always gives has every weaker property. -/
theorem Process.Always.mono {α : Type} {property weaker : α → Prop} {process : Process α}
    (always : process.Always property) (weaken : ∀ result, property result → weaker result) :
    process.Always weaker := by
  rw [← Process.bind_pure_right process]
  exact Process.always_bind always weaken

namespace RenderM

/-- A part of a rendering leaves, whatever it is answered and however it ends, a scope that is related
to the one it started in. -/
def LeavesScope {α : Type} (relation : Scope → Scope → Prop) (m : RenderM α) : Prop :=
  ∀ state, (m.start state).Always fun (_, behind) => relation state.scope behind.scope

/-- A relation between scopes that holds behind each piece when it holds behind one, and that places
do not matter to. -/
structure Lasting (relation : Scope → Scope → Prop) : Prop where
  refl : ∀ scope, relation scope scope
  trans : ∀ {first second third}, relation first second → relation second third →
    relation first third
  token : ∀ scope span, relation scope (scope.modifyFrame (Frame.saveToken · span))

variable {settings : Settings} {places : Places} {relation : Scope → Scope → Prop} {α β : Type}

theorem LeavesScope.mono {weaker : Scope → Scope → Prop} {m : RenderM α} (leaves : LeavesScope relation m)
    (weaken : ∀ before after, relation before after → weaker before after) : LeavesScope weaker m :=
  fun state => (leaves state).mono fun _ holds => weaken _ _ holds

theorem LeavesScope.bind (lasting : Lasting relation) {m : RenderM α} {next : α → RenderM β}
    (first : LeavesScope relation m) (rest : ∀ result, LeavesScope relation (next result)) :
    LeavesScope relation (m >>= next) := by
  intro state
  rw [start_bind]
  refine Process.always_bind (first state) ?_
  rintro ⟨result, behind⟩ holds
  cases result with
  | error failure => exact holds
  | ok result =>
    rw [onward_ok]
    exact (rest result behind).mono fun result more => lasting.trans holds more

theorem leaves_modifyScope {f : Scope → Scope} (holds : ∀ scope, relation scope (f scope)) :
    LeavesScope relation (modifyScope f) :=
  fun state => holds state.scope

theorem LeavesScope.keeping {values : List Value} {body : RenderM α} (inner : LeavesScope relation body) :
    LeavesScope relation (keeping values body) := by
  intro state
  rw [start_keeping]
  exact Process.always_bind (inner { state with inUse := values ++ state.inUse })
    fun result holds => holds

theorem LeavesScope.releasing {source : Source} {body : RenderM α} (inner : LeavesScope relation body) :
    LeavesScope relation (releasing source body) := by
  cases source with
  | items array rest => exact inner.keeping
  | external source =>
    intro state
    rw [start_releasing_external]
    exact Process.always_bind (inner state) fun result holds _ => holds

/-- A frame of its own is left behind it. -/
theorem LeavesScope.within {inside : Scope → Scope → Prop} {frame : Frame} {body : RenderM α}
    (inner : LeavesScope inside body)
    (holds : ∀ before after, inside (before.push frame) after → relation before after.pop) :
    LeavesScope relation (within frame body) := by
  intro state
  rw [start_within]
  exact Process.always_bind (inner { state with scope := state.scope.push frame })
    fun result inside => holds _ _ inside

/-- Evaluating leaves the scope as it is, but for places. -/
theorem Evaluates.leaves (lasting : Lasting relation) {m : RenderM α}
    (evaluates : Evaluates settings places m) : LeavesScope relation m := by
  induction evaluates with
  | pure result => exact fun state => lasting.refl _
  | failWith kind message cause => exact fun state => lasting.refl _
  | bind _ _ first rest => exact first.bind lasting rest
  | scope => exact fun state => lasting.refl _
  | saveToken known => exact leaves_modifyScope fun scope => lasting.token scope _
  | freshIdentity => exact fun state => lasting.refl _
  | ask apart => exact fun state answer => lasting.refl _
  | keeping values _ inner => exact inner.keeping

/-! ## The relations -/

/-- Scopes that differ in the place of the innermost frame only. -/
def Calm (before after : Scope) : Prop := after.calm = before.calm

/-- Scopes that differ in the place of the innermost frame and the layout of the nearest template. -/
def Undeclared (before after : Scope) : Prop := after.undeclared = before.undeclared

/-- Scopes that differ also in the variables of the innermost frame. -/
def Bare (before after : Scope) : Prop := after.bare = before.bare

/-- Scopes that differ as `Bare` scopes do, if the innermost frame renders a template. -/
def BareInTemplate (before after : Scope) : Prop :=
  before.frame.template.isSome = true → Bare before after

theorem Undeclared.bare {before after : Scope} (same : Undeclared before after) :
    Bare before after := by
  unfold Bare Scope.bare
  have apart (frames : List Frame) :=
    Scope.modifyTemplateFrames_modifyHead (f := Frame.dropLayout) (g := Frame.dropLocals)
      (fun _ => rfl) (fun _ => rfl) frames
  rw [apart, apart]
  exact congrArg (List.modifyHead Frame.dropLocals) same

theorem BareInTemplate.of_bare {before after : Scope} (bare : Bare before after) :
    BareInTemplate before after :=
  fun _ => bare

theorem Bare.template {before after : Scope} (bare : Bare before after) :
    after.frame.template = before.frame.template := by
  have all : after.frames.map Frame.template = before.frames.map Frame.template := by
    rw [← Scope.map_template_bare, ← Scope.map_template_bare, bare]
  exact (List.cons.inj all).1

theorem lasting_calm : Lasting Calm where
  refl _ := rfl
  trans first second := second.trans first
  token _ _ := rfl

theorem lasting_undeclared : Lasting Undeclared where
  refl _ := rfl
  trans first second := second.trans first
  token _ _ := rfl

theorem lasting_bare : Lasting Bare where
  refl _ := rfl
  trans first second := second.trans first
  token _ _ := rfl

theorem lasting_bareInTemplate : Lasting BareInTemplate where
  refl _ _ := rfl
  trans first second template := by
    have bare := first template
    exact (second (bare.template ▸ template)).trans bare
  token _ _ _ := rfl

/-! ## Frames of their own -/

/-- Behind the frame of an item, the frames around it are as before, but for the layout of the nearest
template. -/
theorem undeclared_of_item {before after : Scope} {frame : Frame} (item : frame.template = none)
    (bare : Bare (before.push frame) after) : Undeclared before after.pop := by
  have within_ : after.frame.template = none := bare.template.trans item
  have both : after.bare = (before.push frame).bare := bare
  rw [Scope.bare_item within_,
    Scope.bare_item (show (before.push frame).frame.template = none from item)] at both
  have around : Scope.modifyTemplateFrames Frame.dropLayout after.outer =
      Scope.modifyTemplateFrames Frame.dropLayout before.frames := (List.cons.inj both).2
  have inner : after.outer ≠ [] := by
    intro none_
    rw [none_, eq_comm, Scope.modifyTemplateFrames_eq_nil.2 rfl,
      Scope.modifyTemplateFrames_eq_nil] at around
    cases around
  unfold Undeclared
  rw [Scope.undeclared_eq, Scope.undeclared_eq, Scope.frames_pop inner, around]

/-- Behind the frame of a template, the frames around it are as before. -/
theorem eq_of_template {before after : Scope} {frame : Frame} (template : frame.template.isSome = true)
    (bare : BareInTemplate (before.push frame) after) : after.pop = before := by
  have both : after.bare = (before.push frame).bare := bare template
  have within_ : after.frame.template.isSome = true := by
    rw [Bare.template both]
    exact template
  rw [Scope.bare_template within_,
    Scope.bare_template (show (before.push frame).frame.template.isSome = true from template)]
    at both
  have around : after.outer = before.frames := (List.cons.inj both).2
  unfold Scope.pop
  rw [around]
  rfl

/-! ## Chunks and templates -/

variable {n : Nat}

/-- Including a template leaves the scope as it was. -/
theorem leaves_included (templates : ∀ name, LeavesScope BareInTemplate (renderTemplate settings n name))
    (name : String) (data : Value) (span : Option Span) :
    LeavesScope (fun before after => after = before)
      (within ((Frame.ofTemplate name data).openedBy span) (renderTemplate settings n name)) :=
  (templates name).within fun _ _ bare => eq_of_template rfl bare

/-- Rendering an item leaves the scope as it was, but for the layout of the nearest template. -/
theorem leaves_item {bindings : Option (List String)} {span : Option Span} {index : Nat} {item : Item}
    {body : RenderM String} (inner : LeavesScope Bare body) :
    LeavesScope Undeclared (within (itemFrame bindings span index item) body) :=
  inner.within fun _ _ bare => undeclared_of_item rfl bare

/-- Declaring a layout changes the layout of the nearest template only. -/
theorem undeclared_declareLayout (scope : Scope) (name : String) (span : Option Span) :
    Undeclared scope (scope.declareLayout 0 name span) := by
  unfold Undeclared
  rw [Scope.undeclared_eq, Scope.undeclared_eq, Scope.frames_declareLayout,
    Scope.modifyTemplateFrames_twice (f := Frame.dropLayout) (g := (Frame.setLayout · name span))
      (fun _ => rfl) fun _ => rfl]

/-- Rendering chunks leaves the scope as it was, but for the place and the variables of the innermost
frame and the layout of the nearest template. -/
theorem Renders.leaves (templates : ∀ name, LeavesScope BareInTemplate (renderTemplate settings n name))
    {m : RenderM α} (renders : Renders settings n places m) : LeavesScope Bare m := by
  induction renders with
  | evaluates inner => exact inner.leaves lasting_bare
  | exhausted => exact fun state => rfl
  | bind _ _ first rest => exact first.bind lasting_bare rest
  | releasing source _ inner => exact inner.releasing
  | setLocal name value => exact leaves_modifyScope fun scope => rfl
  | declareLayout name known =>
    exact leaves_modifyScope fun scope => (undeclared_declareLayout scope name _).bare
  | item bindings known index item _ inner => exact (leaves_item inner).mono fun _ _ => Undeclared.bare
  | included name data known =>
    exact (leaves_included templates name data _).mono fun _ _ same => same ▸ lasting_bare.refl _

/-- Taking the layout of a template changes nothing else. -/
theorem leaves_takeLayout : LeavesScope BareInTemplate takeLayout := by
  intro state template
  show (state.scope.modifyFrame Frame.dropLayout).bare = state.scope.bare
  have same : (state.scope.modifyFrame Frame.dropLayout).frame.template.isSome = true := template
  rw [Scope.bare_template same, Scope.bare_template template]
  rfl

/-- Getting a parsed template leaves the scope as it is, but for places. -/
theorem leaves_parsedTemplate (lasting : Lasting relation) (name : String) :
    LeavesScope relation (parsedTemplate settings name) := by
  have asked (request : Request) : LeavesScope relation (ask request) :=
    fun state answer => lasting.refl _
  have failed {α : Type} (kind : Kind) (message : String) (cause : Option String) :
      LeavesScope relation (failWith settings kind message cause : RenderM α) :=
    fun state => lasting.refl _
  refine (asked _).bind lasting fun found => ?_
  split
  · exact fun state => lasting.refl _
  · refine (asked _).bind lasting fun loaded => ?_
    cases loaded with
    | error cause => exact failed _ _ _
    | ok source =>
      rw [storeLoaded_ok]
      split
      · exact (leaves_modifyScope fun scope => lasting.token scope _).bind lasting
          fun _ => failed _ _ _
      · exact (asked _).bind lasting fun _ state => lasting.refl _

/-- Rendering a template leaves the frames around it as they were. -/
theorem leaves_renderTemplate (n : Nat) :
    ∀ name, LeavesScope BareInTemplate (renderTemplate settings n name) := by
  induction n with
  | zero => exact fun _ state => lasting_bareInTemplate.refl _
  | succ n ih =>
    intro name
    rw [renderTemplate]
    refine (leaves_parsedTemplate lasting_bareInTemplate name).bind lasting_bareInTemplate
      fun parsed => ?_
    have chunks : LeavesScope Bare (renderChunks settings (renderTemplate settings n) parsed.chunks) :=
      (renders_renderChunks parsed.chunks fun part _ => Places.all_have part).leaves ih
    refine (chunks.mono fun _ _ => BareInTemplate.of_bare).bind lasting_bareInTemplate fun text => ?_
    refine leaves_takeLayout.bind lasting_bareInTemplate fun layout => ?_
    split
    · exact fun state => lasting_bareInTemplate.refl _
    · refine LeavesScope.bind lasting_bareInTemplate (fun state => lasting_bareInTemplate.refl _)
        fun scope => ?_
      exact (ih _).within fun _ _ bare =>
        eq_of_template rfl bare ▸ lasting_bareInTemplate.refl _

/-- A chunk that includes a template leaves the scope as it was, but for places. -/
theorem leaves_include (span : Option Span) (args : Option (List Expr)) (name : Expr) :
    LeavesScope Calm (renderChunk settings (renderTemplate settings n) (.include span args name)) := by
  have everywhere (parts : List Part) : Everywhere Places.all.Have parts :=
    fun part _ => Places.all_have part
  rw [renderChunk]
  refine ((evaluates_includeData (everywhere _)).leaves lasting_calm).bind lasting_calm
    fun data => ?_
  have named : LeavesScope Calm (evaluate settings name) :=
    (evaluates_evaluate name (everywhere _)).leaves lasting_calm
  refine named.keeping.bind lasting_calm fun value => ?_
  have string : Evaluates settings .all
      (templateName settings "\x7b\x7btmpl\x7d\x7d template name" value) :=
    evaluates_templateName _ value
  refine (string.leaves lasting_calm).bind lasting_calm fun name => ?_
  exact (leaves_included (leaves_renderTemplate n) name data span).mono
    fun _ _ same => same ▸ lasting_calm.refl _

/-- The rounds of an iteration leave the scope as it was, but for the layout of the nearest
template. -/
theorem leaves_forEach {bindings : Option (List String)} {span : Option Span} {body : RenderM String}
    (inner : LeavesScope Bare body) :
    ∀ (rounds : Nat) (source : Source) (index : Nat) (written : String),
      LeavesScope Undeclared (forEach settings (itemFrame bindings span) body rounds source index written)
  | 0, _, _, _ => fun state => lasting_undeclared.refl _
  | rounds + 1, source, index, written => by
    rw [forEach]
    have taken : Evaluates settings .all (nextItem settings source) := evaluates_nextItem source
    refine (taken.leaves lasting_undeclared).bind lasting_undeclared fun next => ?_
    split
    · exact fun state => lasting_undeclared.refl _
    · exact (leaves_item inner).bind lasting_undeclared fun text =>
        leaves_forEach inner rounds _ _ _

/-- An iteration leaves the scope as it was, but for places and for the layout of the nearest
template. -/
theorem leaves_each (span : Option Span) (bindings : Option (List String)) (collection : Expr)
    (body : List Chunk) :
    LeavesScope Undeclared
      (renderChunk settings (renderTemplate settings n) (.each span bindings collection body)) := by
  have everywhere (parts : List Part) : Everywhere Places.all.Have parts :=
    fun part _ => Places.all_have part
  rw [renderChunk]
  refine ((evaluates_evaluate collection (everywhere _)).leaves lasting_undeclared).bind
    lasting_undeclared fun value => ?_
  have opened : Evaluates settings .all (sourceOf settings value) := evaluates_sourceOf value
  refine (opened.leaves lasting_undeclared).bind lasting_undeclared fun source => ?_
  exact (leaves_forEach ((renders_renderChunks body (everywhere _)).leaves
    (leaves_renderTemplate n)) _ _ _ _).releasing

/-! ## What stays of the enclosing frames -/

/-- What places do not matter to stays in calm scopes. -/
theorem Calm.map {γ : Type} {before after : Scope} (calm : Calm before after) {view : Frame → γ}
    (token : ∀ frame : Frame, view frame.dropToken = view frame) :
    after.frames.map view = before.frames.map view := by
  rw [← Scope.map_calm token, ← Scope.map_calm token, calm]

/-- What neither places nor layouts matter to stays. -/
theorem Undeclared.map {γ : Type} {before after : Scope} (same : Undeclared before after)
    {view : Frame → γ} (token : ∀ frame : Frame, view frame.dropToken = view frame)
    (layout : ∀ frame : Frame, view frame.dropLayout = view frame) :
    after.frames.map view = before.frames.map view := by
  rw [← Scope.map_undeclared token layout, ← Scope.map_undeclared token layout, same]

/-- All layouts stay but that of the nearest template. -/
theorem Undeclared.layout {before after : Scope} (same : Undeclared before after) {i : Nat}
    (other : i ≠ before.frames.findIdx (·.template.isSome)) :
    (after.frames.map Frame.layout)[i]? = (before.frames.map Frame.layout)[i]? := by
  have nearest : after.frames.findIdx (·.template.isSome) =
      before.frames.findIdx (·.template.isSome) := by
    rw [Scope.findIdx_template, Scope.findIdx_template, same.map (fun _ => rfl) fun _ => rfl]
  rw [← Scope.layout_undeclared other, ← Scope.layout_undeclared (nearest ▸ other), same]

/-- Nested rendering does not disturb the frames that enclose it, whatever it renders, whatever it is
answered, and however it ends: a chunk that includes a template leaves the local variables and the
layouts of all frames as they were, and an iteration leaves the local variables as they were and all
layouts but that of the nearest frame that renders a template. -/
theorem nested_rendering_undisturbing (settings : Settings) (n : Nat) (state : State) :
    (∀ (span : Option Span) (args : Option (List Expr)) (name : Expr),
      (start (renderChunk settings (renderTemplate settings n) (.include span args name)) state).Always
        fun (_, behind) =>
          behind.scope.frames.map Frame.locals = state.scope.frames.map Frame.locals ∧
            behind.scope.frames.map Frame.layout = state.scope.frames.map Frame.layout) ∧
    ∀ (span : Option Span) (bindings : Option (List String)) (collection : Expr) (body : List Chunk),
      (start (renderChunk settings (renderTemplate settings n) (.each span bindings collection body))
          state).Always
        fun (_, behind) =>
          behind.scope.frames.map Frame.locals = state.scope.frames.map Frame.locals ∧
            ∀ i, i ≠ state.scope.frames.findIdx (·.template.isSome) →
              (behind.scope.frames.map Frame.layout)[i]? =
                (state.scope.frames.map Frame.layout)[i]? := by
  refine ⟨fun span args name => ?_, fun span bindings collection body => ?_⟩
  · exact (leaves_include span args name state).mono fun _ calm =>
      ⟨calm.map fun _ => rfl, calm.map fun _ => rfl⟩
  · exact (leaves_each span bindings collection body state).mono fun _ same =>
      ⟨same.map (fun _ => rfl) fun _ => rfl, fun _ other => same.layout other⟩

end RenderM

end Stencil.Render

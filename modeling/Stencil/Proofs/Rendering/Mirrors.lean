import Stencil.Proofs.Rendering.Running
import Stencil.Syntax.Erase
import Mathlib.Data.List.Basic
import Mathlib.Tactic.SplitIfs
/-!
# Renderings of trees that differ in spans

Two processes mirror each other when they ask for the same, hold on to the same values, and end with
related results, as long as they are answered alike. Only parsed templates may differ: where the one
process gets a template, or puts one into the cache, the other has the erased one.

Two parts of renderings mirror each other when they do so from any two states that differ only in
the places that their frames keep for error reports. Places are kept in three ways: as the construct
that was evaluated last, as the construct that opened a frame, and with the name of a layout. None
of them is looked at except for the span and the stack of an error.
-/

set_option autoImplicit false

namespace Stencil.Render

open Stencil.Error (Kind)
open Stencil.Syntax
open Stencil.Text (Span)

variable {α β γ δ : Type}

/-! ## Processes -/

/-- Whether a request neither asks for a parsed template nor gives one. -/
def Request.isPlain : Request → Bool
  | .cached _ | .store _ _ => false
  | _ => true

namespace Process

/-- Two processes ask for the same and hold on to the same, up to the spans of templates, and end
with related results. -/
inductive Mirrors (rel : α → β → Prop) : Process α → Process β → Prop
  | done {result : α} {result' : β} (related : rel result result') :
    Mirrors rel (.done result) (.done result')
  | ask {holding holding' : Holding} {request : Request} {next : request.Answer → Process α}
    {next' : request.Answer → Process β} (plain : request.isPlain = true)
    (held : holding'.all = holding.all)
    (goes : ∀ answer, Mirrors rel (next answer) (next' answer)) :
    Mirrors rel (.ask holding request next) (.ask holding' request next')
  | cached {holding holding' : Holding} {name : String} {next : Option Template → Process α}
    {next' : Option Template → Process β} (held : holding'.all = holding.all)
    (goes : ∀ parsed, Mirrors rel (next parsed) (next' (parsed.map Template.eraseSpans))) :
    Mirrors rel (.ask holding (.cached name) next) (.ask holding' (.cached name) next')
  | store {holding holding' : Holding} {name : String} {parsed : Template}
    {next : Unit → Process α} {next' : Unit → Process β} (held : holding'.all = holding.all)
    (goes : Mirrors rel (next ()) (next' ())) :
    Mirrors rel (.ask holding (.store name parsed) next)
      (.ask holding' (.store name parsed.eraseSpans) next')

namespace Mirrors

variable {rel : α → β → Prop} {goal : γ → δ → Prop} {p : Process α} {p' : Process β}

/-- Going on with related results. -/
theorem bind (mirrors : Mirrors rel p p') {next : α → Process γ} {next' : β → Process δ}
    (goes : ∀ result result', rel result result' → Mirrors goal (next result) (next' result')) :
    Mirrors goal (p.bind next) (p'.bind next') := by
  induction mirrors with
  | done related => exact goes _ _ related
  | ask plain held _ ih => exact .ask plain held ih
  | cached held _ ih => exact .cached held ih
  | store held _ ih => exact .store held ih

/-- Processes that mirror each other hold on to the same values. -/
theorem held (mirrors : Mirrors rel p p') : p'.held = p.held := by
  cases mirrors with
  | done => rfl
  | ask _ held => exact held
  | cached held => exact held
  | store held => exact held

end Mirrors

end Process

/-! ## Places -/

/-- The frame without the places that it keeps. -/
def Frame.unplaced (frame : Frame) : Frame :=
  { frame with
    layout := frame.layout.map fun declared => (declared.1, none)
    lastToken := none
    origin := none }

/-- Two frames differ in the places that they keep only. -/
def Frame.SameButPlaces (frame frame' : Frame) : Prop := frame'.unplaced = frame.unplaced

/-- The frames of two scopes differ in the places that they keep only. -/
def Scope.SameButPlaces (scope scope' : Scope) : Prop :=
  scope'.frames.map Frame.unplaced = scope.frames.map Frame.unplaced

/-- Two states differ in the places that their frames keep only. -/
structure State.SameButPlaces (state state' : State) : Prop where
  scope : state.scope.SameButPlaces state'.scope
  fresh : state'.fresh = state.fresh
  inUse : state'.inUse = state.inUse

namespace Frame.SameButPlaces

variable {frame frame' : Frame}

theorem data (same : frame.SameButPlaces frame') : frame'.data = frame.data :=
  congrArg (·.data) (show frame'.unplaced = frame.unplaced from same)

theorem locals (same : frame.SameButPlaces frame') : frame'.locals = frame.locals :=
  congrArg (·.locals) (show frame'.unplaced = frame.unplaced from same)

theorem template (same : frame.SameButPlaces frame') : frame'.template = frame.template :=
  congrArg (·.template) (show frame'.unplaced = frame.unplaced from same)

/-- The layouts that two frames declare have one name. -/
theorem layout (same : frame.SameButPlaces frame') :
    frame'.layout.map Prod.fst = frame.layout.map Prod.fst := by
  have names := congrArg (fun frame : Frame => frame.layout.map Prod.fst)
    (show frame'.unplaced = frame.unplaced from same)
  simpa [Frame.unplaced, Function.comp_def] using names

theorem intro (data : frame'.data = frame.data) (locals : frame'.locals = frame.locals)
    (template : frame'.template = frame.template)
    (layout : frame'.layout.map Prod.fst = frame.layout.map Prod.fst) :
    frame.SameButPlaces frame' := by
  have declared (frame : Frame) :
      (frame.layout.map fun declared => (declared.1, (none : Option Span))) =
        (frame.layout.map Prod.fst).map fun name => (name, none) := by
    rw [Option.map_map]
    rfl
  unfold Frame.SameButPlaces Frame.unplaced
  rw [declared, declared, data, locals, template, layout]

theorem values (same : frame.SameButPlaces frame') : frame'.values = frame.values := by
  unfold Frame.values
  rw [same.data, same.locals]

theorem setLocal (same : frame.SameButPlaces frame') (name : String) (value : Value) :
    (frame.setLocal name value).SameButPlaces (frame'.setLocal name value) :=
  intro same.data (congrArg (Table.put · name value) same.locals) same.template same.layout

theorem saveToken (same : frame.SameButPlaces frame') (span span' : Option Span) :
    (frame.saveToken span).SameButPlaces (frame'.saveToken span') :=
  intro same.data same.locals same.template same.layout

theorem setLayout (same : frame.SameButPlaces frame') (name : String)
    (origin origin' : Option Span) :
    (frame.setLayout name origin).SameButPlaces (frame'.setLayout name origin') :=
  intro same.data same.locals same.template rfl

theorem dropLayout (same : frame.SameButPlaces frame') :
    frame.dropLayout.SameButPlaces frame'.dropLayout :=
  intro same.data same.locals same.template rfl

end Frame.SameButPlaces

namespace Scope.SameButPlaces

variable {scope scope' : Scope}

theorem frame (same : scope.SameButPlaces scope') : scope.frame.SameButPlaces scope'.frame :=
  (List.cons.inj same).1

theorem outer (same : scope.SameButPlaces scope') :
    scope'.outer.map Frame.unplaced = scope.outer.map Frame.unplaced := (List.cons.inj same).2

theorem intro (frame : scope.frame.SameButPlaces scope'.frame)
    (outer : scope'.outer.map Frame.unplaced = scope.outer.map Frame.unplaced) :
    scope.SameButPlaces scope' := congrArg₂ List.cons frame outer

theorem push (same : scope.SameButPlaces scope') {frame frame' : Frame}
    (inner : frame.SameButPlaces frame') : (scope.push frame).SameButPlaces (scope'.push frame') :=
  congrArg₂ List.cons inner same

theorem pop (same : scope.SameButPlaces scope') : scope.pop.SameButPlaces scope'.pop := by
  obtain ⟨frame, outer⟩ := scope
  obtain ⟨frame', outer'⟩ := scope'
  have outers := same.outer
  cases outer with
  | nil =>
    cases outer' with
    | nil => exact same
    | cons => cases outers
  | cons first rest =>
    cases outer' with
    | nil => cases outers
    | cons => exact outers

theorem modifyFrame (same : scope.SameButPlaces scope') {f f' : Frame → Frame}
    (keeps : ∀ frame frame' : Frame, frame.SameButPlaces frame' →
      (f frame).SameButPlaces (f' frame')) :
    (scope.modifyFrame f).SameButPlaces (scope'.modifyFrame f') :=
  intro (keeps _ _ same.frame) same.outer

/-- The frames of two scopes have the same values. -/
theorem values (same : scope.SameButPlaces scope') :
    scope'.frames.flatMap Frame.values = scope.frames.flatMap Frame.values := by
  have forgotten (frames : List Frame) :
      (frames.map Frame.unplaced).flatMap Frame.values = frames.flatMap Frame.values :=
    List.flatMap_map ..
  rw [← forgotten, ← forgotten scope.frames, same]

/-- Declaring a layout in the first frames that render a template. -/
theorem modifyTemplateFrames {frames frames' : List Frame}
    (same : frames'.map Frame.unplaced = frames.map Frame.unplaced) {f f' : Frame → Frame}
    (keeps : ∀ frame frame' : Frame, frame.SameButPlaces frame' →
      (f frame).SameButPlaces (f' frame')) :
    (Scope.modifyTemplateFrames f' frames').map Frame.unplaced =
      (Scope.modifyTemplateFrames f frames).map Frame.unplaced := by
  induction frames generalizing frames' with
  | nil =>
    rw [List.map_eq_nil_iff.1 same]
    rfl
  | cons frame outer ih =>
    cases frames' with
    | nil => cases same
    | cons frame' outer' =>
      obtain ⟨inner, rest⟩ := List.cons.inj same
      have inner : frame.SameButPlaces frame' := inner
      unfold Scope.modifyTemplateFrames
      rw [inner.template]
      split_ifs
      · exact congrArg₂ List.cons (keeps _ _ inner) rest
      · exact congrArg₂ List.cons inner (ih rest)

theorem declareLayout (same : scope.SameButPlaces scope') (name : String)
    (origin origin' : Option Span) :
    (scope.declareLayout 0 name origin).SameButPlaces (scope'.declareLayout 0 name origin') := by
  have keeps (frame frame' : Frame) (inner : frame.SameButPlaces frame') :=
    inner.setLayout name origin origin'
  unfold Scope.declareLayout
  dsimp only
  rw [same.frame.template]
  split_ifs
  · exact same.modifyFrame keeps
  · exact intro same.frame (modifyTemplateFrames same.outer keeps)

end Scope.SameButPlaces

/-- States that differ in places hold on to the same values. -/
theorem State.SameButPlaces.held {state state' : State} (same : state.SameButPlaces state') :
    state'.holding.all = state.holding.all := by
  unfold Holding.all State.holding
  dsimp only
  rw [same.scope.values, same.inUse]

/-! ## Parts of renderings -/

/-- Two failures are reported with one kind and one message, or the bound was reached twice. -/
def Failure.ReportedAlike : Failure → Failure → Prop
  | .failed error, .failed error' => error.kind = error'.kind ∧ error.message = error'.message
  | .exhausted, .exhausted => True
  | _, _ => False

/-- Two parts of renderings end with related results, or with failures that are reported alike. -/
def EndsAlike (rel : α → β → Prop) : Except Failure α → Except Failure β → Prop
  | .ok result, .ok result' => rel result result'
  | .error failure, .error failure' => failure.ReportedAlike failure'
  | _, _ => False

/-- Two parts of renderings end alike, in states that differ in places only. -/
def EndsAlikeIn (rel : α → β → Prop) (out : Except Failure α × State)
    (out' : Except Failure β × State) : Prop :=
  EndsAlike rel out.1 out'.1 ∧ out.2.SameButPlaces out'.2

/-- Two parts of renderings mirror each other from any states that differ in places only. -/
def RenderM.Mirrors (rel : α → β → Prop) (m : RenderM α) (m' : RenderM β) : Prop :=
  ∀ state state' : State, state.SameButPlaces state' →
    (m.start state).Mirrors (EndsAlikeIn rel) (m'.start state')

namespace RenderM

variable {rel : α → β → Prop} {goal : γ → δ → Prop} {m : RenderM α} {m' : RenderM β}

/-- One part behind another. -/
theorem Mirrors.bind {next : α → RenderM γ} {next' : β → RenderM δ} (first : Mirrors rel m m')
    (rest : ∀ result result', rel result result' → Mirrors goal (next result) (next' result')) :
    Mirrors goal (m >>= next) (m' >>= next') := by
  intro state state' same
  rw [start_bind, start_bind]
  apply (first state state' same).bind
  rintro ⟨out, behind⟩ ⟨out', behind'⟩ ⟨alike, same⟩
  cases out with
  | ok result =>
    cases out' with
    | ok result' => exact rest result result' alike behind behind' same
    | error failure' => exact alike.elim
  | error failure =>
    cases out' with
    | ok result' => exact alike.elim
    | error failure' => exact .done ⟨alike, same⟩

/-- One part behind another that gives the same result twice. -/
theorem Mirrors.then {m m' : RenderM α} {next : α → RenderM γ} {next' : α → RenderM δ}
    (first : Mirrors Eq m m') (rest : ∀ result, Mirrors goal (next result) (next' result)) :
    Mirrors goal (m >>= next) (m' >>= next') :=
  first.bind fun result _ same => same ▸ rest result

theorem mirrors_pure {result : α} {result' : β} (related : rel result result') :
    Mirrors rel (pure result) (pure result') :=
  fun _ _ same => .done ⟨related, same⟩

theorem mirrors_exhausted : Mirrors rel (throw .exhausted) (throw .exhausted) :=
  fun _ _ same => .done ⟨trivial, same⟩

/-- A question that is about no template. -/
theorem mirrors_ask {request : Request} (plain : request.isPlain = true) :
    Mirrors Eq (ask request) (ask request) :=
  fun _ _ same => .ask plain same.held fun _ => .done ⟨rfl, same⟩

/-- Asking for a template that may be in the cache. -/
theorem mirrors_askCached (name : String) :
    Mirrors (fun (parsed parsed' : Option Template) => parsed' = parsed.map Template.eraseSpans)
      (ask (.cached name)) (ask (.cached name)) :=
  fun _ _ same => .cached same.held fun _ => .done ⟨rfl, same⟩

/-- Putting a template into the cache. -/
theorem mirrors_askStore (name : String) (parsed : Template) :
    Mirrors (fun (_ _ : Unit) => True) (ask (.store name parsed))
      (ask (.store name parsed.eraseSpans)) :=
  fun _ _ same => .store same.held (.done ⟨trivial, same⟩)

theorem mirrors_scope : Mirrors Scope.SameButPlaces scope scope :=
  fun _ _ same => .done ⟨same.scope, same⟩

theorem mirrors_modifyScope {f f' : Scope → Scope}
    (keeps : ∀ scope scope' : Scope, scope.SameButPlaces scope' →
      (f scope).SameButPlaces (f' scope')) :
    Mirrors Eq (modifyScope f) (modifyScope f') :=
  fun _ _ same => .done ⟨rfl, keeps _ _ same.scope, same.fresh, same.inUse⟩

/-- The constructs whose places are kept may differ. -/
theorem mirrors_saveToken (span span' : Option Span) :
    Mirrors Eq (saveToken span) (saveToken span') := by
  apply mirrors_modifyScope
  intro scope scope' same
  exact same.modifyFrame fun _ _ inner => inner.saveToken span span'

theorem mirrors_freshIdentity : Mirrors Eq freshIdentity freshIdentity :=
  fun _ _ same => .done ⟨same.fresh.symm, same.scope, congrArg (· + 1) same.fresh, same.inUse⟩

/-- Parts in frames of their own. -/
theorem Mirrors.within {frame frame' : Frame} (inner : frame.SameButPlaces frame')
    (body : Mirrors rel m m') : Mirrors rel (within frame m) (within frame' m') := by
  intro state state' same
  rw [start_within, start_within]
  have entered : State.SameButPlaces { state with scope := state.scope.push frame }
      { state' with scope := state'.scope.push frame' } :=
    ⟨same.scope.push inner, same.fresh, same.inUse⟩
  apply (body _ _ entered).bind
  rintro ⟨out, behind⟩ ⟨out', behind'⟩ ⟨alike, left⟩
  exact .done ⟨alike, left.scope.pop, left.fresh, left.inUse⟩

/-- Parts behind which the same values are still used. -/
theorem Mirrors.keeping (values : List Value) (body : Mirrors rel m m') :
    Mirrors rel (keeping values m) (keeping values m') := by
  intro state state' same
  rw [start_keeping, start_keeping]
  have used : State.SameButPlaces { state with inUse := values ++ state.inUse }
      { state' with inUse := values ++ state'.inUse } :=
    ⟨same.scope, same.fresh, congrArg (values ++ ·) same.inUse⟩
  apply (body _ _ used).bind
  rintro ⟨out, behind⟩ ⟨out', behind'⟩ ⟨alike, left⟩
  exact .done ⟨alike, left.scope, left.fresh, same.inUse⟩

/-- Parts behind which a source is given back. -/
theorem Mirrors.releasing (source : Source) (body : Mirrors rel m m') :
    Mirrors rel (releasing source m) (releasing source m') := by
  cases source with
  | items array rest => exact body.keeping [array]
  | external source =>
    intro state state' same
    rw [start_releasing_external, start_releasing_external]
    apply (body state state' same).bind
    rintro ⟨out, behind⟩ ⟨out', behind'⟩ ⟨alike, left⟩
    exact .ask rfl left.held fun _ => .done ⟨alike, left⟩

/-! ## Failures and answers -/

variable {settings settings' : Settings}

/-- Two failures of one kind and one message, whatever caused them. -/
theorem mirrors_failWith (kind : Kind) (message : String) (cause cause' : Option String) :
    Mirrors rel (failWith settings kind message cause : RenderM α)
      (failWith settings' kind message cause' : RenderM β) :=
  fun _ _ same => .done ⟨⟨rfl, rfl⟩, same⟩

theorem mirrors_fail (kind : Kind) (message : String) :
    Mirrors rel (fail settings kind message : RenderM α)
      (fail settings' kind message : RenderM β) :=
  mirrors_failWith kind message none none

theorem mirrors_accept (answer : Except Cause α) :
    Mirrors Eq (accept settings answer) (accept settings' answer) := by
  cases answer with
  | ok result => exact mirrors_pure rfl
  | error cause => exact mirrors_failWith _ _ _ _

end RenderM

end Stencil.Render

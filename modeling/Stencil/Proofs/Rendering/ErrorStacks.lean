import Stencil.Proofs.Parsing.SpanTrees
import Stencil.Proofs.Rendering.Failing
import Stencil.Proofs.Rendering.Nesting
/-!
# Error stacks tell the truth

The stack of an error has one entry for every frame that was open where the rendering failed, innermost
first. Each names the template that was rendered there, and a place where a chunk or an expression of
that template starts; only the innermost entry may lack a place, or have the place at which its
template failed to parse.

`Truthful` is what the frames of a scope keep for this: the place that is kept in a frame, and the place
of the layout that is declared in it, are places of its template, and the place by which a frame was
opened is one of the template around it.
-/

set_option autoImplicit false

namespace Stencil.Render

open Stencil.Error (Kind)
open Stencil.Stream (Item)
open Stencil.Syntax
open Stencil.Text (Span)

/-! ## Scopes that keep true places -/

section

variable (spot starts : String → Span → Prop)

/-- What a frame keeps around others is true of the template that is rendered in it: the place kept
last is a spot of it, and where its layout was declared something of it starts. It was opened where
something of the template around it starts. -/
structure Frame.Truthful (name : String) (outer : List Frame) (frame : Frame) : Prop where
  named : Scope.templateName? (frame :: outer) = some name
  token : ∀ span ∈ frame.lastToken, spot name span
  layout : ∀ layout ∈ frame.layout, ∃ span ∈ layout.2, starts name span
  origin : outer ≠ [] → ∃ span ∈ frame.origin, ∀ around ∈ Scope.templateName? outer, starts around span

/-- All frames keep what is true. -/
def TruthfulFrames : List Frame → Prop
  | [] => True
  | frame :: outer => (∃ name, frame.Truthful spot starts name outer) ∧ TruthfulFrames outer

/-- All frames of a scope keep what is true, and a template is rendered in the innermost one. -/
structure Scope.Truthful (name : String) (scope : Scope) : Prop where
  named : Scope.templateName? scope.frames = some name
  frames : TruthfulFrames spot starts scope.frames

/-- The places of a tree that a template was parsed to. -/
def placesOf (name : String) : Places where
  token span? := ∀ span ∈ span?, starts name span
  origin span? := ∃ span ∈ span?, starts name span

end

section

variable {spot starts : String → Span → Prop} {name : String}

theorem templateName?_template {frame : Frame} (own : frame.template = some name)
    (outer : List Frame) : Scope.templateName? (frame :: outer) = some name := by
  rw [Scope.templateName?, List.findSome?_cons, own]

theorem templateName?_item {frame : Frame} (item : frame.template = none) (outer : List Frame) :
    Scope.templateName? (frame :: outer) = Scope.templateName? outer := by
  rw [Scope.templateName?, List.findSome?_cons, item]
  rfl

/-- The template that is rendered is found by the templates of the frames alone. -/
theorem templateName?_congr {frames frames' : List Frame}
    (same : frames'.map Frame.template = frames.map Frame.template) :
    Scope.templateName? frames' = Scope.templateName? frames := by
  have found (frames : List Frame) :
      Scope.templateName? frames = (frames.map Frame.template).findSome? id := by
    rw [List.findSome?_map]
    rfl
  rw [found, found, same]

theorem TruthfulFrames.mono {wider : String → Span → Prop} {frames : List Frame}
    (truthful : TruthfulFrames spot starts frames)
    (widen : ∀ name span, spot name span → wider name span) :
    TruthfulFrames wider starts frames := by
  induction frames with
  | nil => exact trivial
  | cons frame outer ih =>
    obtain ⟨⟨name, here⟩, others⟩ := truthful
    exact ⟨⟨name, { here with token := fun span kept => widen name span (here.token span kept) }⟩,
      ih others⟩

namespace Scope.Truthful

variable {scope : Scope}

theorem mono {wider : String → Span → Prop} (truthful : scope.Truthful spot starts name)
    (widen : ∀ name span, spot name span → wider name span) : scope.Truthful wider starts name :=
  ⟨truthful.named, truthful.frames.mono widen⟩

/-- What the innermost frame keeps. -/
theorem innermost (truthful : scope.Truthful spot starts name) :
    scope.frame.Truthful spot starts name scope.outer := by
  obtain ⟨⟨other, here⟩, -⟩ := truthful.frames
  obtain rfl := Option.some.inj (here.named.symm.trans truthful.named)
  exact here

/-- Another innermost frame that keeps what is true. -/
theorem modifyFrame {f : Frame → Frame} (truthful : scope.Truthful spot starts name)
    (here : scope.frame.Truthful spot starts name scope.outer →
      (f scope.frame).Truthful spot starts name scope.outer) :
    (scope.modifyFrame f).Truthful spot starts name := by
  have there := here truthful.innermost
  exact ⟨there.named, ⟨name, there⟩, truthful.frames.2⟩

theorem saveToken (truthful : scope.Truthful spot starts name) {span : Option Span}
    (known : ∀ known ∈ span, spot name known) :
    (scope.modifyFrame (Frame.saveToken · span)).Truthful spot starts name := by
  refine truthful.modifyFrame fun here => { here with token := fun kept same => ?_ }
  cases span with
  | none => exact here.token kept same
  | some span => exact known kept same

theorem setLocal (truthful : scope.Truthful spot starts name) (local_ : String) (value : Value) :
    (scope.modifyFrame (Frame.setLocal · local_ value)).Truthful spot starts name :=
  truthful.modifyFrame fun here => { here with }

theorem dropLayout (truthful : scope.Truthful spot starts name) :
    (scope.modifyFrame Frame.dropLayout).Truthful spot starts name :=
  truthful.modifyFrame fun here => { here with layout := nofun }

/-- A frame is entered that was opened where something starts. -/
theorem push {around : String} (truthful : scope.Truthful spot starts around) {frame : Frame}
    (named : Scope.templateName? (frame :: scope.frames) = some name) (fresh : frame.lastToken = none)
    (undeclared : frame.layout = none) (origin : ∃ span ∈ frame.origin, starts around span) :
    (scope.push frame).Truthful spot starts name := by
  refine ⟨named, ⟨name, named, fun _ kept => ?_, fun _ declared => ?_, fun _ => ?_⟩, truthful.frames⟩
  · exact nomatch fresh.symm.trans kept
  · exact nomatch undeclared.symm.trans declared
  · obtain ⟨span, kept, known⟩ := origin
    refine ⟨span, kept, fun other same => ?_⟩
    obtain rfl := Option.some.inj (truthful.named.symm.trans same)
    exact known

/-- The innermost frame is left for one around it. -/
theorem pop {around : String} {before : Scope} {frame : Frame}
    (truthful : scope.Truthful spot starts name) (outside : before.Truthful spot starts around)
    (same : scope.frames.map Frame.template = (before.push frame).frames.map Frame.template) :
    scope.pop.frames.map Frame.template = before.frames.map Frame.template ∧
      scope.pop.Truthful spot starts around := by
  obtain ⟨inner, outer⟩ := scope
  have tail : outer.map Frame.template = before.frames.map Frame.template := (List.cons.inj same).2
  cases outer with
  | nil => exact nomatch tail
  | cons next rest =>
    exact ⟨tail, (templateName?_congr tail).trans outside.named, truthful.frames.2⟩

/-- A layout is declared where something starts. -/
theorem declareLayout (truthful : scope.Truthful spot starts name) (layout : String)
    {span : Option Span} (known : ∃ known ∈ span, starts name known) :
    (scope.declareLayout 0 layout span).Truthful spot starts name := by
  have templates (frames : List Frame) :
      (modifyTemplateFrames (Frame.setLayout · layout span) frames).map Frame.template =
        frames.map Frame.template :=
    map_modifyTemplateFrames (f := (Frame.setLayout · layout span)) (fun _ => rfl) frames
  have changed (frames : List Frame) (named : templateName? frames = some name)
      (truthful : TruthfulFrames spot starts frames) :
      TruthfulFrames spot starts (modifyTemplateFrames (Frame.setLayout · layout span) frames) := by
    induction frames with
    | nil => exact trivial
    | cons frame outer ih =>
      obtain ⟨⟨other, here⟩, others⟩ := truthful
      obtain rfl := Option.some.inj (here.named.symm.trans named)
      cases own : frame.template with
      | some own_ =>
        rw [modifyTemplateFrames_template (by rw [own]; rfl)]
        refine ⟨⟨other, { here with layout := ?_ }⟩, others⟩
        rintro _ ⟨⟩
        exact known
      | none =>
        rw [templateName?_item own] at named
        rw [modifyTemplateFrames_item own]
        refine ⟨⟨other, ?_, here.token, here.layout, fun inner => ?_⟩, ih named others⟩
        · rw [templateName?_item own, templateName?_congr (templates outer), named]
        · rw [templateName?_congr (templates outer)]
          exact here.origin fun none_ => inner (modifyTemplateFrames_eq_nil.2 none_)
  constructor
  · rw [frames_declareLayout, templateName?_congr (templates _), truthful.named]
  · rw [frames_declareLayout]
    exact changed scope.frames truthful.named truthful.frames

end Scope.Truthful

end

/-! ## The stack of a truthful scope -/

section

variable {spot starts : String → Span → Prop}

/-- An entry of a stack names the template that is rendered in some frames, and if it has a place, this
is where something known of the template starts. -/
structure StackEntry.Truthful (known : String → Span → Prop) (frames : List Frame)
    (entry : StackEntry) : Prop where
  named : Scope.templateName? frames = some entry.template
  place : ∀ place ∈ entry.place, ∃ span, known entry.template span ∧ placeOf span = place

theorem stackEntry_truthful {known : String → Span → Prop} {root name : String} {frames : List Frame}
    {span? : Option Span} (named : Scope.templateName? frames = some name)
    (spot : ∀ span ∈ span?, known name span) :
    (stackEntry root frames span?).Truthful known frames := by
  have template : (stackEntry root frames span?).template = name := by
    unfold stackEntry
    rw [named]
    rfl
  refine ⟨named.trans (congrArg some template.symm), ?_⟩
  rw [template]
  intro place placed
  obtain ⟨span, kept, rfl⟩ := Option.map_eq_some_iff.1 placed
  exact ⟨span, spot span kept, rfl⟩

/-- The entries behind the innermost one: one for each frame around it, with a place. -/
theorem outerEntries_truthful (root : String) {inner : Frame} {outer : List Frame}
    (truthful : TruthfulFrames spot starts (inner :: outer)) :
    (outerEntries root inner outer).length = outer.length ∧
      ∀ (i : Nat) (entry : StackEntry), (outerEntries root inner outer)[i]? = some entry →
        entry.Truthful starts (outer.drop i) ∧ entry.place ≠ none := by
  induction outer generalizing inner with
  | nil => exact ⟨rfl, fun i entry found => nomatch found⟩
  | cons frame rest ih =>
    obtain ⟨⟨name, here⟩, around⟩ := truthful
    obtain ⟨span, opened, known⟩ := here.origin (List.cons_ne_nil _ _)
    obtain ⟨count, entries⟩ := ih around
    obtain ⟨other, next⟩ := around.1
    have same : outerEntries root inner (frame :: rest) =
        stackEntry root (frame :: rest) (some span) :: outerEntries root frame rest := by
      rw [outerEntries, Option.mem_def.1 opened]
    rw [same]
    refine ⟨congrArg (· + 1) count, fun i entry found => ?_⟩
    cases i with
    | zero =>
      obtain rfl : stackEntry root (frame :: rest) (some span) = entry := by simpa using found
      refine ⟨stackEntry_truthful next.named ?_, nofun⟩
      rintro _ ⟨⟩
      exact known other next.named
    | succ i => exact entries i entry (by simpa using found)

/-- The stack of a truthful scope has an entry for each of its frames, which is true, and all but the
innermost one have places where something starts. -/
theorem stackOf_truthful (root : String) {name : String} {scope : Scope}
    (truthful : scope.Truthful spot starts name) :
    (stackOf root scope).length = scope.frames.length ∧
      ∀ (i : Nat) (entry : StackEntry), (stackOf root scope)[i]? = some entry →
        i = 0 ∧ entry.Truthful spot scope.frames ∨
          i ≠ 0 ∧ entry.Truthful starts (scope.frames.drop i) ∧ entry.place ≠ none := by
  obtain ⟨count, entries⟩ := outerEntries_truthful root truthful.frames
  refine ⟨congrArg (· + 1) count, fun i entry found => ?_⟩
  cases i with
  | zero =>
    obtain rfl : stackEntry root scope.frames scope.frame.lastToken = entry := by
      simpa [stackOf] using found
    exact .inl ⟨rfl, stackEntry_truthful truthful.named truthful.innermost.token⟩
  | succ i =>
    exact .inr ⟨Nat.succ_ne_zero i, entries i entry (by simpa [stackOf] using found)⟩

end

/-! ## What renderings keep -/

section

variable (settings : Settings) (starts broken : String → Span → Prop)

/-- The templates that an exchange brings have their places where something of them starts, and what it
brings of sources that cannot be parsed has its errors where they are known. -/
def Exchange.Supplies : Exchange → Prop
  | ⟨.cached name, answer⟩ => ∀ parsed, answer = some parsed →
    Everywhere (placesOf starts name).Have parsed.parts
  | ⟨.load name, answer⟩ => ∀ source : String, answer = .ok source →
    (∀ parsed, parseTemplate ⟨settings.positions, false⟩ source = .ok parsed →
      Everywhere (placesOf starts name).Have parsed.parts) ∧
    ∀ e, parseTemplate ⟨settings.positions, false⟩ source = .error e → broken name e.span
  | _ => True

namespace RenderM

variable {α β : Type}

/-- A part of a rendering that begins in a truthful scope and gives a result has kept it truthful, with
the same templates in its frames. -/
def Keeps (name : String) (m : RenderM α) : Prop :=
  ∀ (state behind : State) (history : List Exchange) (result : α),
    Ends m state history (.ok result) behind →
      (∀ exchange ∈ history, exchange.Supplies settings starts broken) →
        state.scope.Truthful starts starts name →
          behind.scope.frames.map Frame.template = state.scope.frames.map Frame.template ∧
            behind.scope.Truthful starts starts name

/-- A part of a rendering that opens no frames, begins in a truthful scope and fails does so with the
stack of the scope it leaves, which is truthful but for the place of an error of parsing. -/
def Reports (name : String) (m : RenderM α) : Prop :=
  ∀ (state behind : State) (history : List Exchange) (error : RenderError),
    Ends m state history (.error (.failed error)) behind →
      (∀ exchange ∈ history, exchange.Supplies settings starts broken) →
        state.scope.Truthful starts starts name →
          behind.scope.Truthful (fun name span => starts name span ∨ broken name span) starts name ∧
            error.stack = stackOf settings.root behind.scope

/-- A part of a rendering that opens no frames tells the truth, whether or not it fails. -/
structure Tells (name : String) (m : RenderM α) : Prop where
  keeps : Keeps settings starts broken name m
  reports : Reports settings starts broken name m

end RenderM

end

namespace RenderM

variable {settings : Settings} {starts broken : String → Span → Prop} {name : String} {α β : Type}

theorem Keeps.bind {m : RenderM α} {next : α → RenderM β}
    (first : Keeps settings starts broken name m)
    (rest : ∀ result, Keeps settings starts broken name (next result)) :
    Keeps settings starts broken name (m >>= next) := by
  intro state behind history result ends supplied truthful
  rcases ends.bind_inv with ⟨failure, same, -⟩ | ⟨_, _, value, middle, rfl, begun, ends⟩
  · exact nomatch same
  · rw [List.forall_mem_append] at supplied
    obtain ⟨same, truthful⟩ := first _ _ _ _ begun supplied.1 truthful
    obtain ⟨same', truthful⟩ := rest value _ _ _ _ ends supplied.2 truthful
    exact ⟨same'.trans same, truthful⟩

theorem Tells.bind {m : RenderM α} {next : α → RenderM β}
    (first : Tells settings starts broken name m)
    (rest : ∀ result, Tells settings starts broken name (next result)) :
    Tells settings starts broken name (m >>= next) where
  keeps := first.keeps.bind fun result => (rest result).keeps
  reports := by
    intro state behind history error ends supplied truthful
    rcases ends.bind_inv with ⟨failure, same, fails⟩ | ⟨_, _, value, middle, rfl, begun, ends⟩
    · cases same
      exact first.reports _ _ _ _ fails supplied truthful
    · rw [List.forall_mem_append] at supplied
      obtain ⟨-, truthful⟩ := first.keeps _ _ _ _ begun supplied.1 truthful
      exact (rest value).reports _ _ _ _ ends supplied.2 truthful

/-- A part that asks nothing and gives a result. -/
theorem tells_done {m : RenderM α} {given : State → α} {after : State → State}
    (same : ∀ state, m.start state = .done (.ok (given state), after state))
    (keeps : ∀ state : State, state.scope.Truthful starts starts name →
      (after state).scope.frames.map Frame.template = state.scope.frames.map Frame.template ∧
        (after state).scope.Truthful starts starts name) :
    Tells settings starts broken name m := by
  constructor
  · intro state behind history result ends supplied truthful
    obtain ⟨-, -, rfl⟩ := ends.done_inv (same state)
    exact keeps state truthful
  · intro state behind history error ends
    exact nomatch (ends.done_inv (same state)).2.1

theorem tells_pure (result : α) : Tells settings starts broken name (pure result : RenderM α) :=
  tells_done (fun _ => start_pure _ _) fun _ truthful => ⟨rfl, truthful⟩

theorem tells_failWith (kind : Kind) (message : String) (cause : Option String) :
    Tells settings starts broken name (failWith settings kind message cause : RenderM α) := by
  constructor
  · intro state behind history result ends
    exact nomatch (ends.done_inv (start_failWith settings kind message cause state)).2.1
  · intro state behind history error ends supplied truthful
    obtain ⟨-, same, rfl⟩ := ends.done_inv (start_failWith settings kind message cause state)
    cases same
    exact ⟨truthful.mono fun _ _ => .inl, rfl⟩

theorem tells_ask {request : Request} : Tells settings starts broken name (ask request) := by
  constructor
  · intro state behind history result ends supplied truthful
    obtain ⟨_, -, -, rfl⟩ := ends.ask_inv
    exact ⟨rfl, truthful⟩
  · intro state behind history error ends
    obtain ⟨_, -, same, -⟩ := ends.ask_inv
    exact nomatch same

theorem Tells.keeping {values : List Value} {body : RenderM α}
    (inner : Tells settings starts broken name body) :
    Tells settings starts broken name (keeping values body) := by
  constructor
  · intro state behind history result ends supplied truthful
    obtain ⟨after, inside, rfl⟩ := ends.keeping_inv
    have kept := inner.keeps _ _ _ _ inside supplied truthful
    exact kept
  · intro state behind history error ends supplied truthful
    obtain ⟨after, inside, rfl⟩ := ends.keeping_inv
    have reported := inner.reports _ _ _ _ inside supplied truthful
    exact reported

/-! ## Expressions -/

/-- Evaluating keeps the scope truthful, and a failure is reported with its stack. -/
theorem Evaluates.tells {m : RenderM α} (evaluates : Evaluates settings (placesOf starts name) m) :
    Tells settings starts broken name m := by
  induction evaluates with
  | pure result => exact tells_pure result
  | failWith kind message cause => exact tells_failWith kind message cause
  | bind _ _ first rest => exact first.bind rest
  | scope => exact tells_done (fun _ => start_scope _) fun _ truthful => ⟨rfl, truthful⟩
  | saveToken known =>
    exact tells_done (fun _ => start_saveToken _ _) fun _ truthful => ⟨rfl, truthful.saveToken known⟩
  | freshIdentity =>
    exact tells_done (fun _ => start_freshIdentity _) fun _ truthful => ⟨rfl, truthful⟩
  | ask apart => exact tells_ask
  | keeping values _ inner => exact inner.keeping

theorem tells_setLocal (local_ : String) (value : Value) :
    Tells settings starts broken name (modifyScope (Scope.modifyFrame (Frame.setLocal · local_ value))) :=
  tells_done (fun _ => start_modifyScope _ _) fun _ truthful => ⟨rfl, truthful.setLocal local_ value⟩

theorem tells_declareLayout (layout : String) {span : Option Span}
    (known : ∃ known ∈ span, starts name known) :
    Tells settings starts broken name (modifyScope (Scope.declareLayout · 0 layout span)) := by
  refine tells_done (fun _ => start_modifyScope _ _) fun state truthful => ⟨?_, ?_⟩
  · show (state.scope.declareLayout 0 layout span).frames.map Frame.template = _
    rw [Scope.frames_declareLayout]
    exact Scope.map_modifyTemplateFrames (f := (Frame.setLayout · layout span)) (fun _ => rfl) _
  · exact truthful.declareLayout layout known

/-! ## Templates and chunks -/

/-- A part in a frame of its own, which is left behind it. -/
theorem Keeps.within {inner : String} {frame : Frame} {body : RenderM α}
    (kept : Keeps settings starts broken inner body)
    (entered : ∀ scope : Scope, scope.Truthful starts starts name →
      (scope.push frame).Truthful starts starts inner) :
    Keeps settings starts broken name (within frame body) := by
  intro state behind history result ends supplied truthful
  obtain ⟨after, inside, rfl⟩ := ends.within_inv
  obtain ⟨same, within_⟩ := kept _ _ _ _ inside supplied (entered _ truthful)
  exact within_.pop truthful same

theorem Keeps.releasing {source : Source} {body : RenderM α}
    (inner : Keeps settings starts broken name body) :
    Keeps settings starts broken name (releasing source body) := by
  intro state behind history result ends supplied truthful
  obtain ⟨inside, after, rfl, ends, left_⟩ := ends.releasing_inv
  rw [left_]
  have opened : (source.opened state).scope = state.scope := by
    cases source <;> rfl
  have kept := inner _ _ _ _ ends (fun exchange listed => supplied _ (List.mem_append_left _ listed))
  rw [opened] at kept
  exact kept truthful

/-- A frame of an item stands in the template around it. -/
theorem truthful_item {scope : Scope} {bindings : Option (List String)} {span : Option Span}
    {index : Nat} {item : Item} (known : ∃ known ∈ span, starts name known)
    (truthful : scope.Truthful starts starts name) :
    (scope.push (itemFrame bindings span index item)).Truthful starts starts name :=
  truthful.push ((templateName?_item rfl _).trans truthful.named) rfl rfl known

/-- A frame of a template stands in this one. -/
theorem truthful_included {scope : Scope} {template : String} {data : Value} {span : Option Span}
    (known : ∃ known ∈ span, starts name known) (truthful : scope.Truthful starts starts name) :
    (scope.push ((Frame.ofTemplate template data).openedBy span)).Truthful starts starts template :=
  truthful.push (templateName?_template rfl _) rfl rfl known

/-- So does a frame of a layout. -/
theorem truthful_layout {scope : Scope} {layout text : String} {data : Value} {span : Option Span}
    (known : ∃ known ∈ span, starts name known) (truthful : scope.Truthful starts starts name) :
    (scope.push (((Frame.ofTemplate layout data).setLocal "body" (.string text)).openedBy span)).Truthful
      starts starts layout :=
  truthful.push (templateName?_template rfl _) rfl rfl known

variable {n : Nat}

/-- Rendering chunks keeps the scope truthful. -/
theorem Renders.keeps {m : RenderM α}
    (templates : ∀ name, Keeps settings starts broken name (renderTemplate settings n name))
    (renders : Renders settings n (placesOf starts name) m) :
    Keeps settings starts broken name m := by
  induction renders with
  | evaluates inner => exact inner.tells.keeps
  | exhausted =>
    intro state behind history result ends
    exact nomatch (ends.done_inv (start_throw _ _)).2.1
  | bind _ _ first rest => exact first.bind rest
  | releasing source _ inner => exact inner.releasing
  | setLocal local_ value => exact (tells_setLocal local_ value).keeps
  | declareLayout layout known => exact (tells_declareLayout layout known).keeps
  | item bindings known index item _ inner => exact inner.within fun _ => truthful_item known
  | included template data known =>
    exact (templates template).within fun _ => truthful_included known

/-- What is got for the name of a template, when it is got: the tree of its source. -/
theorem parsedTemplate_inv {state behind : State} {history : List Exchange} {parsed : Template}
    {template : String}
    (ends : Ends (parsedTemplate settings template) state history (.ok parsed) behind)
    (supplied : ∀ exchange ∈ history, exchange.Supplies settings starts broken) :
    behind.scope = state.scope ∧ Everywhere (placesOf starts template).Have parsed.parts := by
  obtain ⟨found, _, rfl, cached⟩ := Ends.behind_ask ends
  rw [List.forall_mem_cons] at supplied
  obtain ⟨held, supplied⟩ := supplied
  cases found with
  | some found =>
    obtain ⟨-, same, rfl⟩ := cached.done_inv (start_pure _ _)
    cases same
    exact ⟨rfl, held _ rfl⟩
  | none =>
    obtain ⟨loaded, _, rfl, stored⟩ := cached.behind_ask
    rw [List.forall_mem_cons] at supplied
    cases loaded with
    | error cause => cases (stored.done_inv (start_failWith _ _ _ _ _)).2.1
    | ok source =>
      rw [storeLoaded_ok] at stored
      split at stored
      · have failed := stored.behind_done (start_saveToken _ _)
        cases (failed.done_inv (start_failWith _ _ _ _ _)).2.1
      · next parses =>
        obtain ⟨_, _, rfl, given⟩ := stored.behind_ask
        obtain ⟨-, same, rfl⟩ := given.done_inv (start_pure _ _)
        cases same
        exact ⟨rfl, (supplied.1 source rfl).1 _ parses⟩

/-- A template that is not got is reported: where its source cannot be parsed, at the place of the
error. -/
theorem reports_parsedTemplate :
    Reports settings starts broken name (parsedTemplate settings name) := by
  intro state behind history error ends supplied truthful
  obtain ⟨found, _, rfl, cached⟩ := Ends.behind_ask ends
  rw [List.forall_mem_cons] at supplied
  obtain ⟨held, supplied⟩ := supplied
  cases found with
  | some found => exact nomatch (cached.done_inv (start_pure _ _)).2.1
  | none =>
    obtain ⟨loaded, _, rfl, stored⟩ := cached.behind_ask
    cases loaded with
    | error cause =>
      exact (tells_failWith _ _ _).reports _ _ _ _ stored (List.forall_mem_cons.1 supplied).2 truthful
    | ok source =>
      rw [storeLoaded_ok] at stored
      split at stored
      · next e refused =>
        have failed := stored.behind_done (start_saveToken _ _)
        obtain ⟨-, same, rfl⟩ := failed.done_inv (start_failWith _ _ _ _ _)
        cases same
        refine ⟨(truthful.mono fun _ _ => .inl).saveToken ?_, rfl⟩
        rintro _ ⟨⟩
        exact .inr (((List.forall_mem_cons.1 supplied).1 source rfl).2 e refused)
      · obtain ⟨_, _, rfl, given⟩ := stored.behind_ask
        exact nomatch (given.done_inv (start_pure _ _)).2.1

/-- Rendering a template, in a frame of this, keeps the scope truthful: by induction on the nesting of
templates. -/
theorem keeps_renderTemplate (n : Nat) :
    ∀ name, Keeps settings starts broken name (renderTemplate settings n name) := by
  induction n with
  | zero =>
    intro name state behind history result ends
    cases (ends.done_inv (start_throw _ _)).2.1
  | succ n ih =>
    intro name state behind history result ends supplied truthful
    rw [renderTemplate] at ends
    rcases ends.bind_inv with ⟨failure, same, -⟩ | ⟨_, _, parsed, middle, rfl, got, ends⟩
    · cases same
    rw [List.forall_mem_append] at supplied
    obtain ⟨unchanged, have_⟩ := parsedTemplate_inv got supplied.1
    rcases ends.bind_inv with ⟨failure, same, -⟩ | ⟨_, _, text, after, rfl, rendered, ends⟩
    · cases same
    rw [List.forall_mem_append] at supplied
    have chunks : Keeps settings starts broken name
        (renderChunks settings (renderTemplate settings n) parsed.chunks) :=
      (renders_renderChunks parsed.chunks have_).keeps ih
    obtain ⟨templates, truthful⟩ := chunks _ _ _ _ rendered supplied.2.1 (unchanged ▸ truthful)
    rw [unchanged] at templates
    have taken := ends.behind_done (start_takeLayout _)
    split at taken
    · obtain ⟨-, -, rfl⟩ := taken.done_inv (start_pure _ _)
      exact ⟨templates, truthful.dropLayout⟩
    · next layout span declared =>
      have nested := taken.behind_done (start_scope _)
      have known : ∃ known ∈ span, starts name known := truthful.innermost.layout _ declared
      obtain ⟨same, kept⟩ := (ih layout).within (fun _ => truthful_layout known) _ _ _ _ nested
        supplied.2.2 truthful.dropLayout
      exact ⟨same.trans templates, kept⟩

theorem keeps_renderChunks {chunks : List Chunk}
    (known : Everywhere (placesOf starts name).Have (partsOfChunks chunks)) :
    Keeps settings starts broken name (renderChunks settings (renderTemplate settings n) chunks) :=
  (renders_renderChunks chunks known).keeps (keeps_renderTemplate n)

/-! ## Failures -/

variable {places : Places}

/-- Picking a branch evaluates conditions. -/
theorem evaluates_pickBranch {branches : List ElseIf}
    (known : Everywhere places.Have (partsOfElseIfs branches)) :
    Evaluates settings places (pickBranch settings branches) := by
  induction branches with
  | nil => exact .pure _
  | cons branch rest ih =>
    obtain ⟨condition, body⟩ := branch
    rw [pickBranch]
    simp only [partsOfElseIfs, ElseIf.parts, everywhere_append, everywhere_cons] at known
    refine .bind (evaluates_evaluate condition known.1.2.1) fun value => ?_
    split
    · exact .pure _
    · exact ih known.2

theorem tells_setVariables {defs : List VarDef}
    (known : Everywhere (placesOf starts name).Have (partsOfVarDefs defs)) :
    Tells settings starts broken name (setVariables settings defs) := by
  induction defs with
  | nil => exact tells_pure ()
  | cons def_ rest ih =>
    obtain ⟨variable_, initial⟩ := def_
    simp only [partsOfVarDefs, VarDef.parts, everywhere_append, everywhere_cons] at known
    exact (evaluates_initialValue known.1.2).tells.bind fun value =>
      (tells_setLocal variable_ value).bind fun _ => ih known.2

/-- What a chunk does in its own frame. -/
theorem tells_head : ∀ {chunk : Chunk}, Everywhere (placesOf starts name).Have chunk.parts →
    Tells settings starts broken name (head settings chunk)
  | .html _ text, _ => tells_pure _
  | .echo _ value, known | .rawHtml _ value, known => by
    simp only [Chunk.parts, everywhere_cons] at known
    exact (evaluates_evaluate value known.2).tells.bind fun _ => tells_pure _
  | .include _ args template, known => by
    simp only [Chunk.parts, everywhere_cons, everywhere_append] at known
    obtain ⟨-, onArgs, onName⟩ := known
    exact (evaluates_includeData onArgs).tells.bind fun _ =>
      (evaluates_evaluate template onName).tells.keeping.bind fun value =>
        (evaluates_templateName _ value).tells.bind fun _ => tells_pure _
  | .each _ _ collection _, known => by
    simp only [Chunk.parts, everywhere_cons, everywhere_append] at known
    exact (evaluates_evaluate collection known.2.1).tells.bind fun value =>
      (evaluates_sourceOf value).tells.bind fun _ => tells_pure _
  | .ifElse _ condition _ elseIfs _, known => by
    obtain ⟨-, onCondition, -, onElseIfs, -⟩ := everywhere_conditional.1 known
    refine (evaluates_evaluate condition onCondition).tells.bind fun value => ?_
    split
    · exact tells_pure _
    · exact (evaluates_pickBranch onElseIfs).tells.bind fun _ => tells_pure _
  | .layout _ template, known => by
    simp only [Chunk.parts, everywhere_cons] at known
    exact (evaluates_evaluate template known.2).tells.bind fun value =>
      (evaluates_templateName _ value).tells.bind fun _ =>
        (tells_declareLayout _ known.1.2).bind fun _ => tells_pure _
  | .var _ defs, known => by
    simp only [Chunk.parts, everywhere_cons] at known
    exact (tells_setVariables known.2).bind fun _ => tells_pure _

variable (starts name) in
/-- What a chunk has come to has its places where something of the template starts. -/
def Next.Placed : Next → Prop
  | .text _ => True
  | .chunks branch => Everywhere (placesOf starts name).Have (partsOfChunks branch)
  | .template _ _ span => (placesOf starts name).origin span
  | .items span _ body _ =>
    (placesOf starts name).origin span ∧ Everywhere (placesOf starts name).Have (partsOfChunks body)

theorem yields_head : ∀ {chunk : Chunk}, Everywhere (placesOf starts name).Have chunk.parts →
    Yields (Next.Placed starts name) (head settings chunk)
  | .html .., _ => yields_pure trivial
  | .echo .., _ | .rawHtml .., _ => yields_bind fun _ => yields_pure trivial
  | .include .., known => by
    simp only [Chunk.parts, everywhere_cons] at known
    exact yields_bind fun _ => yields_bind fun _ => yields_bind fun _ => yields_pure known.1.2
  | .each _ _ _ body, known => by
    simp only [Chunk.parts, everywhere_cons, everywhere_append] at known
    exact yields_bind fun _ => yields_bind fun _ => yields_pure ⟨known.1.2, known.2.2⟩
  | .ifElse _ _ thenBranch elseIfs elseBranch, known => by
    obtain ⟨-, -, onThen, onElseIfs, onElse⟩ := everywhere_conditional.1 known
    refine yields_bind fun value => ?_
    split
    · exact yields_pure onThen
    · refine (yields_pickBranch elseIfs).bind fun picked among => yields_pure ?_
      cases picked with
      | some branch =>
        obtain ⟨test, listed⟩ := among branch rfl
        have inside := everywhere_elseIfs.1 onElseIfs _ listed
        simp only [ElseIf.parts, everywhere_cons, everywhere_append] at inside
        exact inside.2.2
      | none =>
        cases elseBranch with
        | none => exact everywhere_nil
        | some branch => exact onElse branch rfl
  | .layout .., _ => yields_bind fun _ => yields_bind fun _ => yields_bind fun _ => yields_pure trivial
  | .var .., _ => yields_bind fun _ => yields_pure trivial

variable (starts name) in
/-- What is rendered has its places where something of the template starts. -/
def Work.Placed : Work → Prop
  | .template rendered => rendered = name
  | .chunks body => Everywhere (placesOf starts name).Have (partsOfChunks body)
  | .chunk c => Everywhere (placesOf starts name).Have c.parts
  | .next come => come.Placed starts name
  | .rounds span _ body _ _ _ =>
    (placesOf starts name).origin span ∧ Everywhere (placesOf starts name).Have (partsOfChunks body)

/-- The scope of a failure is truthful, but for the place of an error of parsing, and the error has its
stack: by induction on where the rendering fails. -/
theorem FailsIn.truthful {work : Work} {state : State} {history : List Exchange} {scope : Scope}
    {error : RenderError} (fails : FailsIn settings n work state history scope error)
    (placed : work.Placed starts name)
    (supplied : ∀ exchange ∈ history, exchange.Supplies settings starts broken)
    (truthful : state.scope.Truthful starts starts name) :
    (∃ innermost, scope.Truthful (fun name span => starts name span ∨ broken name span) starts
      innermost) ∧ error.stack = stackOf settings.root scope := by
  induction fails generalizing name with
  | head fails =>
    obtain ⟨kept, stack⟩ := (tells_head placed).reports _ _ _ _ fails supplied truthful
    exact ⟨⟨name, kept⟩, stack⟩
  | next comes _ ih =>
    rw [List.forall_mem_append] at supplied
    obtain ⟨-, kept⟩ := (tells_head placed).keeps _ _ _ _ comes supplied.1 truthful
    exact ih (yields_head placed _ _ _ _ comes) supplied.2 kept
  | branch _ ih => exact ih placed supplied truthful
  | included _ ih => exact ih rfl supplied (truthful_included placed truthful)
  | @items _ _ _ _ source state _ _ _ _ ih =>
    have opened : (source.opened state).scope = state.scope := by
      cases source <;> rfl
    exact ih placed (fun exchange listed => supplied _ (List.mem_append_left _ listed))
      (opened ▸ truthful)
  | first _ ih =>
    simp only [Work.Placed, partsOfChunks, everywhere_append] at placed
    exact ih placed.1 supplied (truthful.saveToken (placed.1 _ (Chunk.mem_parts _)).1)
  | later rendered _ ih =>
    simp only [Work.Placed, partsOfChunks, everywhere_append] at placed
    rw [List.forall_mem_append] at supplied
    have known := (placed.1 _ (Chunk.mem_parts _)).1
    obtain ⟨-, kept⟩ := ((renders_renderChunk _ placed.1).keeps (keeps_renderTemplate _)) _ _ _ _
      rendered supplied.1 (truthful.saveToken known)
    exact ih placed.2 supplied.2 kept
  | drawing fails =>
    obtain ⟨kept, stack⟩ := (evaluates_nextItem _).tells.reports _ _ _ _ fails supplied truthful
    exact ⟨⟨name, kept⟩, stack⟩
  | item drawn _ ih =>
    rw [List.forall_mem_append] at supplied
    obtain ⟨-, kept⟩ := (evaluates_nextItem _).tells.keeps _ _ _ _ drawn supplied.1 truthful
    exact ih placed.2 supplied.2 (truthful_item placed.1 kept)
  | others drawn rendered _ ih =>
    rw [List.forall_mem_append, List.forall_mem_append] at supplied
    obtain ⟨-, kept⟩ := (evaluates_nextItem _).tells.keeps _ _ _ _ drawn supplied.1 truthful
    obtain ⟨-, kept⟩ := (keeps_renderChunks placed.2).within (fun _ => truthful_item placed.1)
      _ _ _ _ rendered supplied.2.1 kept
    exact ih placed supplied.2.2 kept
  | parsing fails =>
    obtain rfl := placed
    obtain ⟨kept, stack⟩ := reports_parsedTemplate _ _ _ _ fails supplied truthful
    exact ⟨⟨_, kept⟩, stack⟩
  | body got _ ih =>
    obtain rfl := placed
    rw [List.forall_mem_append] at supplied
    obtain ⟨unchanged, have_⟩ := parsedTemplate_inv got supplied.1
    exact ih have_ supplied.2 (unchanged ▸ truthful)
  | layout got rendered declared _ ih =>
    obtain rfl := placed
    rw [List.forall_mem_append, List.forall_mem_append] at supplied
    obtain ⟨unchanged, have_⟩ := parsedTemplate_inv got supplied.1
    obtain ⟨-, kept⟩ := keeps_renderChunks have_ _ _ _ _ rendered supplied.2.1 (unchanged ▸ truthful)
    exact ih rfl supplied.2.2 (truthful_layout (kept.innermost.layout _ declared) kept.dropLayout)

end RenderM

/-! ## Renderings that fail -/

section

variable (settings : Settings) (history : List Exchange) (name : String)

/-- The tree of a template that a rendering got: from the cache, or by parsing what was loaded. -/
def Got (parsed : Template) : Prop :=
  ⟨.cached name, some parsed⟩ ∈ history ∨
    ∃ source : String, ⟨.load name, (.ok source : Except Cause String)⟩ ∈ history ∧
      parseTemplate ⟨settings.positions, false⟩ source = .ok parsed

/-- A chunk or an expression of the template that a rendering got has a span. -/
def StartsAt (span : Span) : Prop :=
  ∃ parsed, Got settings history name parsed ∧
    ((∃ c, Part.chunk c ∈ parsed.parts ∧ c.span = some span) ∨
      ∃ e, Part.expr e ∈ parsed.parts ∧ e.span = some span)

/-- What was loaded for a template could not be parsed, and the error has a span. -/
def RefusedAt (span : Span) : Prop :=
  ∃ (source : String) (e : Error.ParseError),
    ⟨.load name, (.ok source : Except Cause String)⟩ ∈ history ∧
      parseTemplate ⟨settings.positions, false⟩ source = .error e ∧ e.span = span

end

section

variable {settings : Settings} {history : List Exchange}

/-- A tree that was parsed with positions has its places. -/
theorem Got.have_ {name : String} {parsed : Template} (got : Got settings history name parsed)
    {source : String} (read : parseTemplate ⟨true, false⟩ source = .ok parsed) :
    Everywhere (placesOf (StartsAt settings history) name).Have parsed.parts := by
  intro part listed
  have spanned := template_spanned read part listed
  cases part with
  | expr e => exact fun span own => ⟨parsed, got, .inr ⟨e, listed, own⟩⟩
  | chunk c =>
    obtain missing | ⟨span, own⟩ := spanned rfl
    · exact nomatch missing
    · have starts : StartsAt settings history name span := ⟨parsed, got, .inl ⟨c, listed, own⟩⟩
      refine ⟨fun other same => ?_, span, own, starts⟩
      obtain rfl := Option.some.inj (own.symm.trans same)
      exact starts
  | _ => exact trivial

/-- A history in which all templates of the cache were parsed with positions brings true places. -/
theorem supplies_of_parsed (positions : settings.positions = true)
    (filled : ∀ name parsed, ⟨.cached name, some parsed⟩ ∈ history →
      ∃ source, parseTemplate ⟨true, false⟩ source = .ok parsed) :
    ∀ exchange ∈ history,
      exchange.Supplies settings (StartsAt settings history) (RefusedAt settings history) := by
  rintro ⟨request, answer⟩ listed
  cases request with
  | cached name =>
    rintro parsed rfl
    obtain ⟨source, read⟩ := filled name parsed listed
    exact Got.have_ (.inl listed) read
  | load name =>
    rintro source rfl
    refine ⟨fun parsed read => ?_, fun e refused => ⟨source, e, listed, refused, rfl⟩⟩
    exact Got.have_ (.inr ⟨source, listed, read⟩) (positions ▸ read)
  | _ => exact trivial

end

/-- Error stacks tell the truth. When a rendering with positions fails, and all templates that the cache
gave were parsed with positions, the stack of the error has one entry for each frame that is open where
the rendering fails (there is one scope in which it does), innermost first. Each names the template that is rendered in its frame. Only the
innermost one may lack a place. A place is where the span of a chunk or an expression of the template
starts, or, for the innermost entry only, where the template failed to parse. -/
theorem error_stacks_true {settings : Settings} (positions : settings.positions = true)
    {name : String} {data : Value} {fresh : Nat} {history : List Exchange} {error : RenderError}
    (filled : ∀ name parsed, ⟨.cached name, some parsed⟩ ∈ history →
      ∃ source, parseTemplate ⟨true, false⟩ source = .ok parsed)
    (fails : (render settings name data fresh).Passes history (.done (.error (.failed error)))) :
    ∃ scope : Scope,
      (∀ (other : Scope) (failure : RenderError),
        RenderM.FailsIn settings settings.limit (.template name)
            { scope := { frame := .ofTemplate name data }, fresh } history other failure ↔
          other = scope ∧ failure = error) ∧
      error.stack.length = scope.frames.length ∧
      ∀ (i : Nat) (entry : StackEntry), error.stack[i]? = some entry →
        Scope.templateName? (scope.frames.drop i) = some entry.template ∧
        (entry.place = none → i = 0) ∧
        ∀ place ∈ entry.place, ∃ span, placeOf span = place ∧
          (StartsAt settings history entry.template span ∨
            i = 0 ∧ RefusedAt settings history entry.template span) := by
  obtain ⟨behind, ends⟩ : ∃ behind, RenderM.Ends
      (RenderM.renderTemplate settings settings.limit name)
      { scope := { frame := .ofTemplate name data }, fresh } history (.error (.failed error))
      behind := by
    obtain ⟨front, back, ⟨result, behind⟩, rfl, ends, same⟩ := Process.Passes.bind_done fails
    obtain ⟨rfl, same⟩ := Process.Passes.of_done same
    cases same
    rw [List.append_nil]
    exact ⟨behind, ends⟩
  obtain ⟨scope, located⟩ := RenderM.failsIn_of_ends settings settings.limit name _ _ _ _ ends
  have begun : Scope.Truthful (StartsAt settings history) (StartsAt settings history) name
      { frame := .ofTemplate name data } :=
    ⟨rfl, ⟨name, rfl, nofun, nofun, fun inner => absurd rfl inner⟩, trivial⟩
  obtain ⟨⟨innermost, truthful⟩, stack⟩ :=
    located.truthful rfl (supplies_of_parsed positions filled) begun
  obtain ⟨count, entries⟩ := stackOf_truthful settings.root truthful
  rw [← stack] at count entries
  refine ⟨scope, fun other failure => ⟨fun fails => located.unique fails rfl, ?_⟩, count,
    fun i entry found => ?_⟩
  · rintro ⟨rfl, rfl⟩
    exact located
  rcases entries i entry found with ⟨rfl, named, placed⟩ | ⟨inner, ⟨named, placed⟩, place⟩
  · refine ⟨named, fun _ => rfl, fun place here => ?_⟩
    obtain ⟨span, known, same⟩ := placed place here
    exact ⟨span, same, known.imp_right fun refused => ⟨rfl, refused⟩⟩
  · refine ⟨named, fun none_ => absurd none_ place, fun place here => ?_⟩
    obtain ⟨span, known, same⟩ := placed place here
    exact ⟨span, same, .inl known⟩

/-- Answers to a rendering of data that holds values only: a template includes another for every item
of an array, and nothing is in the cache. -/
def rowAnswer : (request : Request) → request.Answer
  | .cached _ => none
  | .load name =>
    if name = "page" then
      .ok "<p>\x7b\x7beach rows\x7d\x7d\n \x7b\x7btmpl \"row\"\x7d\x7d\x7b\x7b/each\x7d\x7d"
    else .ok "$\x7b (a).b.c \x7d"
  | .store .. | .iterate .. | .release _ | .pause => ()
  | .lookup .. | .call .. => .ok .undefined
  | .take .. => false
  | .pull _ => .ok none

/-- A host that gives these answers gives no others. -/
theorem answer_of_mem_exchanges {α : Type} {p : Process α} {exchange : Exchange}
    (listed : exchange ∈ p.exchanges ⟨fun _ request () => (.ready (rowAnswer request), ())⟩ 0 ()) :
    exchange.answer = rowAnswer exchange.request := by
  induction p with
  | done result => exact nomatch listed
  | ask holding request next ih =>
    rcases List.mem_cons.1 listed with rfl | listed
    · rfl
    · exact ih _ listed

/-- The templates and places of the stack of a failure. -/
def stackPlaces? : Except Failure String → Option (List (String × Option (Nat × Nat)))
  | .error (.failed error) => some (error.stack.map fun entry => (entry.template, entry.place))
  | _ => none

theorem failed_of_stackPlaces? {result : Except Failure String}
    {places : List (String × Option (Nat × Nat))} (found : stackPlaces? result = some places) :
    ∃ error, result = .error (.failed error) ∧
      error.stack.map (fun entry => (entry.template, entry.place)) = places := by
  unfold stackPlaces? at found
  split at found
  · next error => exact ⟨error, rfl, Option.some.inj found⟩
  · cases found

/-- A member of what is absent is read in the included template. -/
theorem error_stacks_true_row :
    let data : Value := .object 0 [("rows", .array 1 [.null]), ("a", .object 2 [])]
    ∃ (history : List Exchange) (error : RenderError),
      (render {} "page" data 3).Passes history (.done (.error (.failed error))) ∧
      error.stack.map (fun entry => (entry.template, entry.place)) =
        [("row", some (1, 5)), ("page", some (2, 2)), ("page", some (1, 4))] ∧
      (∀ name parsed, ⟨.cached name, some parsed⟩ ∉ history) ∧
      ∃ scope : Scope,
        (∀ (other : Scope) (failure : RenderError),
          RenderM.FailsIn {} ({} : Settings).limit (.template "page")
              { scope := { frame := .ofTemplate "page" data }, fresh := 3 } history other failure ↔
            other = scope ∧ failure = error) ∧
        error.stack.length = scope.frames.length ∧
        ∀ (i : Nat) (entry : StackEntry), error.stack[i]? = some entry →
          Scope.templateName? (scope.frames.drop i) = some entry.template ∧
          (entry.place = none → i = 0) ∧
          ∀ place ∈ entry.place, ∃ span, placeOf span = place ∧
            (StartsAt {} history entry.template span ∨
              i = 0 ∧ RefusedAt {} history entry.template span) := by
  intro data
  let host : Host Unit := ⟨fun _ request () => (.ready (rowAnswer request), ())⟩
  have found : (((render {} "page" data 3).poll host 0 ()).1.result?.bind stackPlaces?) =
      some [("row", some (1, 5)), ("page", some (2, 2)), ("page", some (1, 4))] := by
    decide +kernel
  have passes := (render {} "page" data 3).passes_exchanges host 0 ()
  obtain ⟨result, ended, stack⟩ := Option.bind_eq_some_iff.1 found
  generalize ((render {} "page" data 3).poll host 0 ()).1 = last at passes ended
  cases last with
  | ask => cases ended
  | done result' =>
    cases ended
    obtain ⟨error, rfl, places⟩ := failed_of_stackPlaces? stack
    have empty : ∀ name parsed,
        ⟨.cached name, some parsed⟩ ∉ (render {} "page" data 3).exchanges host 0 () := by
      intro name parsed listed
      cases answer_of_mem_exchanges listed
    exact ⟨_, error, passes, places, empty,
      error_stacks_true rfl (fun name parsed listed => absurd listed (empty name parsed)) passes⟩

end Stencil.Render

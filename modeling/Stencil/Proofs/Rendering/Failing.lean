import Stencil.Proofs.Rendering.Effects
import Stencil.Proofs.Rendering.Histories
import Stencil.Proofs.Syntax.Induction
/-!
# Where renderings fail

A frame is left also when what was rendered in it fails, so the state behind a failure does not tell
which frames were open. `FailsIn` does: it follows a failing run into the template, the item or the
chunk that failed, and gives the scope at that place. What a chunk does before it renders anything else
(`head`) opens no frame, so where that fails, the scope is the one behind it. Every rendering that ends
with an error fails in a scope (`failsIn_of_ends`).
-/

set_option autoImplicit false

namespace Stencil.Render

open Stencil.Stream (Item)
open Stencil.Syntax
open Stencil.Text (Span)

namespace RenderM

variable {α β : Type} {settings : Settings} {state behind : State} {history : List Exchange}

/-! ## Runs that have ended -/

/-- A part of a rendering, begun in a state, has ended with a result in another state, by what it asked
and was answered. -/
def Ends (m : RenderM α) (state : State) (history : List Exchange) (result : Except Failure α)
    (behind : State) : Prop :=
  (m.start state).Passes history (.done (result, behind))

namespace Ends

/-- A part that asks nothing ends at once. -/
theorem done_inv {m : RenderM α} {result given : Except Failure α} {after : State}
    (ends : Ends m state history result behind) (same : m.start state = .done (given, after)) :
    history = [] ∧ result = given ∧ behind = after := by
  unfold Ends at ends
  rw [same] at ends
  obtain ⟨empty, same⟩ := Process.Passes.of_done ends
  cases same
  exact ⟨empty, rfl, rfl⟩

/-- A part behind another fails with the first, or goes on with its result. -/
theorem bind_inv {m : RenderM α} {next : α → RenderM β} {result : Except Failure β}
    (ends : Ends (m >>= next) state history result behind) :
    (∃ failure, result = .error failure ∧ Ends m state history (.error failure) behind) ∨
      ∃ first second value middle, history = first ++ second ∧
        Ends m state first (.ok value) middle ∧ Ends (next value) middle second result behind := by
  unfold Ends at ends
  rw [start_bind] at ends
  obtain ⟨first, second, ⟨given, middle⟩, rfl, inner, later⟩ := ends.bind_done
  cases given with
  | ok value => exact .inr ⟨first, second, value, middle, rfl, inner, later⟩
  | error failure =>
    obtain ⟨rfl, same⟩ := Process.Passes.of_done later
    cases same
    rw [List.append_nil]
    exact .inl ⟨failure, rfl, inner⟩

/-- A part behind one that asks nothing goes on with what that one gives. -/
theorem behind_done {m : RenderM α} {next : α → RenderM β} {result : Except Failure β} {value : α}
    {middle : State} (ends : Ends (m >>= next) state history result behind)
    (same : m.start state = .done (.ok value, middle)) :
    Ends (next value) middle history result behind := by
  unfold Ends at ends
  rwa [start_bind, same] at ends

/-- A part behind a question goes on with the answer. -/
theorem behind_ask {request : Request} {next : request.Answer → RenderM β}
    {result : Except Failure β} (ends : Ends (ask request >>= next) state history result behind) :
    ∃ answer rest, history = ⟨request, answer⟩ :: rest ∧
      Ends (next answer) state rest result behind := by
  unfold Ends at ends
  rw [start_bind] at ends
  cases ends with
  | more later => exact ⟨_, _, rfl, later⟩

theorem ask_inv {request : Request} {result : Except Failure request.Answer}
    (ends : Ends (ask request) state history result behind) :
    ∃ answer, history = [⟨request, answer⟩] ∧ result = .ok answer ∧ behind = state := by
  cases ends with
  | more later =>
    obtain ⟨rfl, same⟩ := Process.Passes.of_done later
    cases same
    exact ⟨_, rfl, rfl, rfl⟩

theorem within_inv {frame : Frame} {body : RenderM α} {result : Except Failure α}
    (ends : Ends (within frame body) state history result behind) :
    ∃ inner, Ends body { state with scope := state.scope.push frame } history result inner ∧
      behind = { inner with scope := inner.scope.pop } := by
  unfold Ends at ends
  rw [start_within] at ends
  obtain ⟨first, second, ⟨given, inner⟩, rfl, inside, later⟩ := ends.bind_done
  obtain ⟨rfl, same⟩ := Process.Passes.of_done later
  cases same
  rw [List.append_nil]
  exact ⟨inner, inside, rfl⟩

theorem keeping_inv {values : List Value} {body : RenderM α} {result : Except Failure α}
    (ends : Ends (keeping values body) state history result behind) :
    ∃ inner, Ends body { state with inUse := values ++ state.inUse } history result inner ∧
      behind = { inner with inUse := state.inUse } := by
  unfold Ends at ends
  rw [start_keeping] at ends
  obtain ⟨first, second, ⟨given, inner⟩, rfl, inside, later⟩ := ends.bind_done
  obtain ⟨rfl, same⟩ := Process.Passes.of_done later
  cases same
  rw [List.append_nil]
  exact ⟨inner, inside, rfl⟩

/-- A part behind another fails with the first. -/
theorem bind_error {m : RenderM α} {failure : Failure}
    (fails : Ends m state history (.error failure) behind) (next : α → RenderM β) :
    Ends (m >>= next) state history (.error failure) behind := by
  have both := (Process.Passes.bind fails (onward next)).append (.here _)
  rwa [List.append_nil, ← start_bind] at both

/-- A part behind one that asks nothing. -/
theorem of_done {m : RenderM α} {next : α → RenderM β} {value : α} {middle : State}
    {result : Except Failure β} (same : m.start state = .done (.ok value, middle))
    (rest : Ends (next value) middle history result behind) :
    Ends (m >>= next) state history result behind := by
  unfold Ends
  rwa [start_bind, same]

/-- A part behind another goes on with its result. -/
theorem bind {m : RenderM α} {next : α → RenderM β} {value : α} {middle : State}
    {later : List Exchange} {result : Except Failure β} (first : Ends m state history (.ok value) middle)
    (rest : Ends (next value) middle later result behind) :
    Ends (m >>= next) state (history ++ later) result behind := by
  have both := (Process.Passes.bind first (onward next)).append rest
  rwa [← start_bind] at both

theorem within {frame : Frame} {body : RenderM α} {result : Except Failure α}
    (inner : Ends body { state with scope := state.scope.push frame } history result behind) :
    Ends (within frame body) state history result { behind with scope := behind.scope.pop } := by
  unfold Ends
  rw [start_within]
  exact Process.Passes.bind inner _

theorem keeping {values : List Value} {body : RenderM α} {result : Except Failure α}
    (inner : Ends body { state with inUse := values ++ state.inUse } history result behind) :
    Ends (keeping values body) state history result { behind with inUse := state.inUse } := by
  unfold Ends
  rw [start_keeping]
  exact Process.Passes.bind inner _

end Ends

/-- Whatever a part of a rendering gives is good. -/
def Yields (good : α → Prop) (m : RenderM α) : Prop :=
  ∀ (state behind : State) (history : List Exchange) (result : α),
    Ends m state history (.ok result) behind → good result

section

variable {good : α → Prop} {goal : β → Prop}

theorem yields_pure {result : α} (proper : good result) : Yields good (pure result) := by
  intro state behind history given ends
  cases (ends.done_inv (start_pure _ _)).2.1
  exact proper

/-- What a part gives is up to the last of its pieces. -/
theorem yields_bind {m : RenderM α} {next : α → RenderM β} (rest : ∀ value, Yields goal (next value)) :
    Yields goal (m >>= next) := by
  intro state behind history result ends
  rcases ends.bind_inv with ⟨failure, same, -⟩ | ⟨_, _, value, middle, rfl, -, ends⟩
  · exact nomatch same
  · exact rest value _ _ _ _ ends

/-- What a part gives is made of what its first piece gives. -/
theorem Yields.bind {m : RenderM α} {next : α → RenderM β} (first : Yields good m)
    (rest : ∀ value, good value → Yields goal (next value)) : Yields goal (m >>= next) := by
  intro state behind history result ends
  rcases ends.bind_inv with ⟨failure, same, -⟩ | ⟨_, _, value, middle, rfl, begun, ends⟩
  · exact nomatch same
  · exact rest value (first _ _ _ _ begun) _ _ _ _ ends

end

/-- The state in which the items of a source are rendered: an array is in use as a whole. -/
def Source.opened (state : State) : Source → State
  | .items array _ => { state with inUse := [array] ++ state.inUse }
  | .external _ => state

/-- What is asked when a source is given back. -/
def Source.returned : Source → List Exchange
  | .items .. => []
  | .external source => [⟨.release source, ()⟩]

theorem Ends.releasing_inv {source : Source} {body : RenderM α} {result : Except Failure α}
    (ends : Ends (releasing source body) state history result behind) :
    ∃ inside inner, history = inside ++ source.returned ∧
      Ends body (source.opened state) inside result inner ∧ behind.scope = inner.scope := by
  cases source with
  | items array rest =>
    obtain ⟨inner, inside, rfl⟩ := Ends.keeping_inv ends
    exact ⟨history, inner, (List.append_nil _).symm, inside, rfl⟩
  | external source =>
    unfold Ends at ends
    rw [start_releasing_external] at ends
    obtain ⟨first, second, ⟨given, inner⟩, rfl, inside, later⟩ := ends.bind_done
    cases later with
    | more later =>
      obtain ⟨rfl, same⟩ := Process.Passes.of_done later
      cases same
      exact ⟨first, behind, rfl, inside, rfl⟩

theorem Ends.releasing {source : Source} {body : RenderM α} {result : Except Failure α}
    (inner : Ends body (source.opened state) history result behind) :
    ∃ after, Ends (releasing source body) state (history ++ source.returned) result after := by
  cases source with
  | items array rest =>
    rw [Source.returned, List.append_nil]
    exact ⟨_, Ends.keeping inner⟩
  | external source =>
    have both := Process.Passes.bind inner fun outcome =>
      .ask outcome.2.holding (.release source) fun _ => .done outcome
    have returned : Process.Passes _ (history ++ [⟨.release source, ()⟩]) (.done (result, behind)) :=
      both.concat ()
    exact ⟨behind, returned⟩

/-! ## What a chunk does in its own frame -/

/-- What a chunk comes to when it has done what it does in the frame it stands in. -/
inductive Next where
  /-- It has given its text. -/
  | text (written : String)
  /-- It renders chunks in the same frame. -/
  | chunks (branch : List Chunk)
  /-- It renders a template in a frame of its own. -/
  | template (name : String) (data : Value) (span : Option Span)
  /-- It renders chunks for each item of a source, in a frame of its own. -/
  | items (span : Option Span) (bindings : Option (List String)) (body : List Chunk) (source : Source)

section

variable (settings : Settings) (template : String → RenderM String)

/-- Renders what a chunk has come to. -/
def Next.render : Next → RenderM String
  | .text written => return written
  | .chunks branch => renderChunks settings template branch
  | .template name data span => within ((Frame.ofTemplate name data).openedBy span) (template name)
  | .items span bindings body source =>
    releasing source
      (forEach settings (itemFrame bindings span) (renderChunks settings template body) settings.limit
        source 0 "")

/-- The first conditional branch whose condition holds. -/
def pickBranch : List ElseIf → RenderM (Option (List Chunk))
  | [] => return none
  | .mk condition body :: rest => do
    if (← evaluate settings condition).truthy then return some body else pickBranch rest

/-- What a chunk does in the frame it stands in, up to where it renders other chunks. -/
def head : Chunk → RenderM Next
  | .html _ text => return .text text
  | .echo _ value => do
    return .text (Text.Entity.escapeText (written (← evaluate settings value)))
  | .rawHtml _ value => do
    return .text (written (← evaluate settings value))
  | .include span args name => do
    let data ← includeData settings (args.getD [])
    let name ←
      templateName settings "\x7b\x7btmpl\x7d\x7d template name"
        (← keeping [data] (evaluate settings name))
    return .template name data span
  | .each span bindings collection body => do
    return .items span bindings body (← sourceOf settings (← evaluate settings collection))
  | .ifElse _ condition thenBranch elseIfs elseBranch => do
    if (← evaluate settings condition).truthy then return .chunks thenBranch
    else return .chunks ((← pickBranch settings elseIfs).getD (elseBranch.getD []))
  | .layout span name => do
    let name ← templateName settings "\x7b\x7blayout\x7d\x7d template" (← evaluate settings name)
    modifyScope (Scope.declareLayout · 0 name span)
    return .text ""
  | .var _ defs => do
    setVariables settings defs
    return .text ""

theorem renderElseIfs_eq (branches : List ElseIf) :
    renderElseIfs settings template branches = (do
      match ← pickBranch settings branches with
      | some branch => return some (← renderChunks settings template branch)
      | none => return none) := by
  induction branches with
  | nil => rfl
  | cons branch rest ih =>
    obtain ⟨condition, body⟩ := branch
    rw [renderElseIfs, pickBranch, bind_assoc]
    refine congrArg _ (funext fun value => ?_)
    split
    · rw [pure_bind]
    · exact ih

/-- A chunk does what it does in its own frame, and then renders what it has come to. -/
theorem renderChunk_eq : ∀ chunk : Chunk, renderChunk settings template chunk =
    head settings chunk >>= Next.render settings template
  | .html .. => rfl
  | .echo .. | .rawHtml .. => by
    rw [renderChunk, head, bind_assoc]
    rfl
  | .include .. | .each .. | .layout .. | .var .. => by
    rw [renderChunk, head]
    simp only [bind_assoc, pure_bind, Next.render]
  | .ifElse _ condition thenBranch elseIfs elseBranch => by
    rw [renderChunk.eq_def, head]
    dsimp only
    rw [bind_assoc]
    refine congrArg _ (funext fun value => ?_)
    split
    · rw [pure_bind, Next.render]
    · rw [renderElseIfs_eq]
      simp only [bind_assoc, pure_bind]
      refine congrArg _ (funext fun branch => ?_)
      cases branch with
      | some branch =>
        simp only [bind_assoc, pure_bind, Option.getD_some, Next.render]
        exact bind_pure _
      | none =>
        rw [pure_bind, Option.getD_none, Next.render]
        cases elseBranch with
        | some branch => rfl
        | none => rw [Option.getD_none, renderChunks]

end

/-! ## The scope of a failure -/

/-- What is rendered. -/
inductive Work where
  | template (name : String)
  | chunks (chunks : List Chunk)
  | chunk (chunk : Chunk)
  | next (next : Next)
  /-- The chunks of an iteration for the items that are left in a source, from the one of an index on.
  The first number bounds how many they are. -/
  | rounds (span : Option Span) (bindings : Option (List String)) (body : List Chunk) (bound : Nat)
    (source : Source) (index : Nat)

/-- What is rendered, with templates nested up to a depth, fails in a scope: begun in a state, and by
what it asks and is answered, it comes to an error while the frames of the scope are open. -/
inductive FailsIn (settings : Settings) :
    Nat → Work → State → List Exchange → Scope → RenderError → Prop
  | head {n : Nat} {chunk : Chunk} {state behind : State} {history : List Exchange}
    {error : RenderError}
    (fails : Ends (head settings chunk) state history (.error (.failed error)) behind) :
    FailsIn settings n (.chunk chunk) state history behind.scope error
  | next {n : Nat} {chunk : Chunk} {next : Next} {state middle : State}
    {history later : List Exchange} {scope : Scope} {error : RenderError}
    (comes : Ends (RenderM.head settings chunk) state history (.ok next) middle)
    (fails : FailsIn settings n (.next next) middle later scope error) :
    FailsIn settings n (.chunk chunk) state (history ++ later) scope error
  | branch {n : Nat} {branch : List Chunk} {state : State} {history : List Exchange} {scope : Scope}
    {error : RenderError} (fails : FailsIn settings n (.chunks branch) state history scope error) :
    FailsIn settings n (.next (.chunks branch)) state history scope error
  | included {n : Nat} {name : String} {data : Value} {span : Option Span} {state : State}
    {history : List Exchange} {scope : Scope} {error : RenderError}
    (fails : FailsIn settings n (.template name)
      { state with scope := state.scope.push ((Frame.ofTemplate name data).openedBy span) }
      history scope error) :
    FailsIn settings n (.next (.template name data span)) state history scope error
  | items {n : Nat} {span : Option Span} {bindings : Option (List String)} {body : List Chunk}
    {source : Source} {state : State} {history : List Exchange} {scope : Scope} {error : RenderError}
    (fails : FailsIn settings n (.rounds span bindings body settings.limit source 0)
      (source.opened state) history scope error) :
    FailsIn settings n (.next (.items span bindings body source)) state (history ++ source.returned)
      scope error
  | first {n : Nat} {chunk : Chunk} {rest : List Chunk} {state : State} {history : List Exchange}
    {scope : Scope} {error : RenderError}
    (fails : FailsIn settings n (.chunk chunk)
      { state with scope := state.scope.modifyFrame (Frame.saveToken · chunk.span) }
      history scope error) :
    FailsIn settings n (.chunks (chunk :: rest)) state history scope error
  | later {n : Nat} {chunk : Chunk} {rest : List Chunk} {state middle : State}
    {history later : List Exchange} {text : String} {scope : Scope} {error : RenderError}
    (rendered : Ends (renderChunk settings (renderTemplate settings n) chunk)
      { state with scope := state.scope.modifyFrame (Frame.saveToken · chunk.span) }
      history (.ok text) middle)
    (fails : FailsIn settings n (.chunks rest) middle later scope error) :
    FailsIn settings n (.chunks (chunk :: rest)) state (history ++ later) scope error
  | drawing {n : Nat} {span : Option Span} {bindings : Option (List String)} {body : List Chunk}
    {bound : Nat} {source : Source} {index : Nat} {state behind : State} {history : List Exchange}
    {error : RenderError}
    (fails : Ends (nextItem settings source) state history (.error (.failed error)) behind) :
    FailsIn settings n (.rounds span bindings body (bound + 1) source index) state history
      behind.scope error
  | item {n : Nat} {span : Option Span} {bindings : Option (List String)} {body : List Chunk}
    {bound : Nat} {source source' : Source} {index : Nat} {item : Item} {state middle : State}
    {history later : List Exchange} {scope : Scope} {error : RenderError}
    (drawn : Ends (nextItem settings source) state history (.ok (some (item, source'))) middle)
    (fails : FailsIn settings n (.chunks body)
      { middle with scope := middle.scope.push (itemFrame bindings span index item) }
      later scope error) :
    FailsIn settings n (.rounds span bindings body (bound + 1) source index) state (history ++ later)
      scope error
  | others {n : Nat} {span : Option Span} {bindings : Option (List String)} {body : List Chunk}
    {bound : Nat} {source source' : Source} {index : Nat} {item : Item}
    {state middle behind : State} {history later last : List Exchange} {text : String} {scope : Scope}
    {error : RenderError}
    (drawn : Ends (nextItem settings source) state history (.ok (some (item, source'))) middle)
    (rendered : Ends (within (itemFrame bindings span index item)
      (renderChunks settings (renderTemplate settings n) body)) middle later (.ok text) behind)
    (fails : FailsIn settings n (.rounds span bindings body bound source' (index + 1)) behind last
      scope error) :
    FailsIn settings n (.rounds span bindings body (bound + 1) source index) state
      (history ++ (later ++ last)) scope error
  | parsing {n : Nat} {name : String} {state behind : State} {history : List Exchange}
    {error : RenderError}
    (fails : Ends (parsedTemplate settings name) state history (.error (.failed error)) behind) :
    FailsIn settings (n + 1) (.template name) state history behind.scope error
  | body {n : Nat} {name : String} {parsed : Template} {state middle : State}
    {history later : List Exchange} {scope : Scope} {error : RenderError}
    (got : Ends (parsedTemplate settings name) state history (.ok parsed) middle)
    (fails : FailsIn settings n (.chunks parsed.chunks) middle later scope error) :
    FailsIn settings (n + 1) (.template name) state (history ++ later) scope error
  | layout {n : Nat} {name : String} {parsed : Template} {state middle behind : State}
    {history later last : List Exchange} {text layout : String} {span : Option Span} {scope : Scope}
    {error : RenderError}
    (got : Ends (parsedTemplate settings name) state history (.ok parsed) middle)
    (rendered : Ends (renderChunks settings (renderTemplate settings n) parsed.chunks) middle later
      (.ok text) behind)
    (declared : behind.scope.frame.layout = some (layout, span))
    (fails : FailsIn settings n (.template layout)
      { behind with
        scope := (behind.scope.modifyFrame Frame.dropLayout).push
          (((Frame.ofTemplate layout behind.scope.frame.data).setLocal "body" (.string text)).openedBy
            span) }
      last scope error) :
    FailsIn settings (n + 1) (.template name) state (history ++ (later ++ last)) scope error

/-! ## Every failure has a scope -/

variable {n : Nat} {error : RenderError}

/-- What is rendered fails in a scope when its run ends with an error. -/
def Located (settings : Settings) (n : Nat) (work : Work) (m : RenderM String) : Prop :=
  ∀ (state behind : State) (history : List Exchange) (error : RenderError),
    Ends m state history (.error (.failed error)) behind →
      ∃ scope, FailsIn settings n work state history scope error

/-- The branch that is picked is one of those there are. -/
theorem yields_pickBranch (branches : List ElseIf) :
    Yields (fun picked => ∀ branch ∈ picked, ∃ condition, ElseIf.mk condition branch ∈ branches)
      (pickBranch settings branches) := by
  induction branches with
  | nil => exact yields_pure nofun
  | cons first rest ih =>
    obtain ⟨condition, body⟩ := first
    rw [pickBranch]
    refine yields_bind fun value => ?_
    split
    · refine yields_pure ?_
      rintro branch ⟨⟩
      exact ⟨condition, List.mem_cons_self⟩
    · intro state behind history picked ends branch same
      obtain ⟨other, listed⟩ := ih state behind history picked ends branch same
      exact ⟨other, List.mem_cons_of_mem _ listed⟩

theorem located_chunks {chunks : List Chunk}
    (each : ∀ chunk ∈ chunks, Located settings n (.chunk chunk)
      (renderChunk settings (renderTemplate settings n) chunk)) :
    Located settings n (.chunks chunks)
      (renderChunks settings (renderTemplate settings n) chunks) := by
  induction chunks with
  | nil =>
    intro state behind history error ends
    rw [renderChunks] at ends
    exact nomatch (ends.done_inv (start_pure _ _)).2.1
  | cons chunk rest ih =>
    intro state behind history error ends
    rw [renderChunks] at ends
    rcases (ends.behind_done (start_saveToken _ _)).bind_inv with
      ⟨failure, same, here⟩ | ⟨first, _, text, _, rfl, rendered, ends⟩
    · cases same
      obtain ⟨scope, fails⟩ := each chunk List.mem_cons_self _ _ _ _ here
      exact ⟨scope, .first fails⟩
    · rcases ends.bind_inv with ⟨failure, same, others⟩ | ⟨_, _, _, _, rfl, -, last⟩
      · cases same
        obtain ⟨scope, fails⟩ :=
          ih (fun chunk listed => each chunk (List.mem_cons_of_mem _ listed)) _ _ _ _ others
        exact ⟨scope, .later rendered fails⟩
      · exact nomatch (last.done_inv (start_pure _ _)).2.1

/-- The rounds of an iteration, by induction on the bound of their number. -/
theorem located_rounds {span : Option Span} {bindings : Option (List String)} {body : List Chunk}
    (located : Located settings n (.chunks body)
      (renderChunks settings (renderTemplate settings n) body)) (bound : Nat) :
    ∀ (source : Source) (index : Nat) (written : String),
      Located settings n (.rounds span bindings body bound source index)
        (forEach settings (itemFrame bindings span)
          (renderChunks settings (renderTemplate settings n) body) bound source index written) := by
  induction bound with
  | zero =>
    intro source index written state behind history error ends
    cases (ends.done_inv (start_throw _ _)).2.1
  | succ bound ih =>
    intro source index written state behind history error ends
    rw [forEach] at ends
    rcases ends.bind_inv with ⟨failure, same, drawing⟩ | ⟨_, _, drawn, _, rfl, taken, ends⟩
    · cases same
      exact ⟨_, .drawing drawing⟩
    · obtain _ | ⟨item, source'⟩ := drawn
      · cases (ends.done_inv (start_pure _ _)).2.1
      · rcases ends.bind_inv with ⟨failure, same, failed⟩ | ⟨_, _, text, _, rfl, rendered, others⟩
        · cases same
          obtain ⟨inner, inside, -⟩ := failed.within_inv
          obtain ⟨scope, fails⟩ := located _ _ _ _ inside
          exact ⟨scope, .item taken fails⟩
        · obtain ⟨scope, fails⟩ := ih _ _ _ _ _ _ _ others
          exact ⟨scope, .others taken rendered fails⟩

/-- A chunk fails in its own frame, or in what it has come to. -/
theorem located_chunk {chunk : Chunk}
    (next : Yields (fun next : Next => Located settings n (.next next)
      (next.render settings (renderTemplate settings n))) (head settings chunk)) :
    Located settings n (.chunk chunk) (renderChunk settings (renderTemplate settings n) chunk) := by
  intro state behind history error ends
  rw [renderChunk_eq] at ends
  rcases ends.bind_inv with ⟨failure, same, here⟩ | ⟨_, _, come, middle, rfl, comes, ends⟩
  · cases same
    exact ⟨_, .head here⟩
  · obtain ⟨scope, fails⟩ := next _ _ _ _ comes _ _ _ _ ends
    exact ⟨scope, .next comes fails⟩

theorem located_text (written : String) :
    Located settings n (.next (.text written))
      (Next.render settings (renderTemplate settings n) (.text written)) := by
  intro state behind history error ends
  exact nomatch (ends.done_inv (start_pure _ _)).2.1

theorem located_branch {branch : List Chunk}
    (each : ∀ chunk ∈ branch, Located settings n (.chunk chunk)
      (renderChunk settings (renderTemplate settings n) chunk)) :
    Located settings n (.next (.chunks branch))
      (Next.render settings (renderTemplate settings n) (.chunks branch)) := by
  intro state behind history error ends
  obtain ⟨scope, fails⟩ := located_chunks each _ _ _ _ ends
  exact ⟨scope, .branch fails⟩

theorem located_items {span : Option Span} {bindings : Option (List String)} {body : List Chunk}
    {source : Source}
    (each : ∀ chunk ∈ body, Located settings n (.chunk chunk)
      (renderChunk settings (renderTemplate settings n) chunk)) :
    Located settings n (.next (.items span bindings body source))
      (Next.render settings (renderTemplate settings n) (.items span bindings body source)) := by
  intro state behind history error ends
  obtain ⟨inside, inner, rfl, ends, -⟩ := Ends.releasing_inv ends
  obtain ⟨scope, fails⟩ := located_rounds (located_chunks each) settings.limit _ _ _ _ _ _ _ ends
  exact ⟨scope, .items fails⟩

section

variable (templates : ∀ name, Located settings n (.template name) (renderTemplate settings n name))

include templates

theorem located_included (name : String) (data : Value) (span : Option Span) :
    Located settings n (.next (.template name data span))
      (Next.render settings (renderTemplate settings n) (.template name data span)) := by
  intro state behind history error ends
  obtain ⟨inner, inside, -⟩ := Ends.within_inv ends
  obtain ⟨scope, fails⟩ := templates name _ _ _ _ inside
  exact ⟨scope, .included fails⟩

theorem located_chunkSteps : ChunkInduction fun chunk =>
    Located settings n (.chunk chunk)
      (renderChunk settings (renderTemplate settings n) chunk) where
  html s text := located_chunk (yields_pure (located_text _))
  echo s value := located_chunk (yields_bind fun _ => yields_pure (located_text _))
  inclusion s args name := located_chunk (yields_bind fun _ => yields_bind fun _ => yields_bind fun _ =>
    yields_pure (located_included templates _ _ _))
  each s bindings collection body ih := located_chunk (yields_bind fun _ => yields_bind fun _ =>
    yields_pure (located_items ih))
  ifElse s condition thenBranch elseIfs elseBranch ih ih' ih'' := by
    refine located_chunk (yields_bind fun value => ?_)
    split
    · exact yields_pure (located_branch ih)
    · refine (yields_pickBranch elseIfs).bind fun picked among => yields_pure (located_branch ?_)
      cases picked with
      | some branch =>
        obtain ⟨test, listed⟩ := among branch rfl
        exact ih' test branch listed
      | none =>
        cases elseBranch with
        | none => exact nofun
        | some branch => exact ih'' branch rfl
  rawHtml s value := located_chunk (yields_bind fun _ => yields_pure (located_text _))
  layout s name := located_chunk (yields_bind fun _ => yields_bind fun _ => yields_bind fun _ =>
    yields_pure (located_text _))
  var s defs := located_chunk (yields_bind fun _ => yields_pure (located_text _))

end

theorem start_takeLayout (state : State) :
    start takeLayout state = .done (.ok state.scope.frame.layout,
      { state with scope := state.scope.modifyFrame Frame.dropLayout }) := rfl

/-- The rendering of every template fails in a scope when it ends with an error: by induction on the
nesting of templates. -/
theorem failsIn_of_ends (settings : Settings) (n : Nat) :
    ∀ name, Located settings n (.template name) (renderTemplate settings n name) := by
  induction n with
  | zero =>
    intro name state behind history error ends
    cases (ends.done_inv (start_throw _ _)).2.1
  | succ n ih =>
    intro name state behind history error ends
    rw [renderTemplate] at ends
    rcases ends.bind_inv with ⟨failure, same, parsing⟩ | ⟨_, _, parsed, _, rfl, got, ends⟩
    · cases same
      exact ⟨_, .parsing parsing⟩
    rcases ends.bind_inv with ⟨failure, same, failed⟩ | ⟨_, _, text, middle, rfl, rendered, ends⟩
    · cases same
      obtain ⟨scope, fails⟩ :=
        located_chunks (fun chunk _ => (located_chunkSteps ih).chunk chunk) _ _ _ _ failed
      exact ⟨scope, .body got fails⟩
    have taken := ends.behind_done (start_takeLayout _)
    split at taken
    · cases (taken.done_inv (start_pure _ _)).2.1
    · next layout span declared =>
      obtain ⟨inner, inside, -⟩ := (taken.behind_done (start_scope _)).within_inv
      obtain ⟨scope, fails⟩ := ih layout _ _ _ _ inside
      exact ⟨scope, .layout got rendered declared fails⟩

/-! ## Every scope is that of a failure -/

/-- What is rendered, behind what an iteration has written. -/
def Work.render (settings : Settings) (n : Nat) (written : String) : Work → RenderM String
  | .template name => renderTemplate settings n name
  | .chunks body => renderChunks settings (renderTemplate settings n) body
  | .chunk c => renderChunk settings (renderTemplate settings n) c
  | .next come => come.render settings (renderTemplate settings n)
  | .rounds span bindings body bound source index =>
    forEach settings (itemFrame bindings span) (renderChunks settings (renderTemplate settings n) body)
      bound source index written

/-- What fails in a scope ends with the error. -/
theorem FailsIn.ends {work : Work} {scope : Scope}
    (fails : FailsIn settings n work state history scope error) :
    ∀ written, ∃ behind,
      Ends (work.render settings n written) state history (.error (.failed error)) behind := by
  induction fails with
  | @head n chunk state behind history error fails =>
    intro written
    refine ⟨behind, ?_⟩
    rw [Work.render, renderChunk_eq]
    exact fails.bind_error _
  | next comes _ ih =>
    intro written
    obtain ⟨behind, ends⟩ := ih written
    refine ⟨behind, ?_⟩
    rw [Work.render, renderChunk_eq]
    exact comes.bind ends
  | branch _ ih => exact ih
  | included _ ih =>
    intro written
    obtain ⟨behind, ends⟩ := ih written
    exact ⟨_, ends.within⟩
  | items _ ih =>
    intro written
    obtain ⟨behind, ends⟩ := ih ""
    exact ends.releasing
  | first _ ih =>
    intro written
    obtain ⟨behind, ends⟩ := ih written
    refine ⟨behind, ?_⟩
    rw [Work.render, renderChunks]
    exact .of_done (start_saveToken _ _) (ends.bind_error _)
  | later rendered _ ih =>
    intro written
    obtain ⟨behind, ends⟩ := ih written
    refine ⟨behind, ?_⟩
    rw [Work.render, renderChunks]
    exact .of_done (start_saveToken _ _) (rendered.bind (ends.bind_error _))
  | @drawing _ _ _ _ _ _ _ _ behind _ _ fails =>
    intro written
    refine ⟨behind, ?_⟩
    rw [Work.render, forEach]
    exact fails.bind_error _
  | item drawn _ ih =>
    intro written
    obtain ⟨behind, ends⟩ := ih written
    refine ⟨{ behind with scope := behind.scope.pop }, ?_⟩
    rw [Work.render, forEach]
    exact drawn.bind (ends.within.bind_error _)
  | others drawn rendered _ ih =>
    intro written
    obtain ⟨behind, ends⟩ := ih _
    refine ⟨behind, ?_⟩
    rw [Work.render, forEach]
    exact drawn.bind (rendered.bind ends)
  | @parsing _ _ _ behind _ _ fails =>
    intro written
    refine ⟨behind, ?_⟩
    rw [Work.render, renderTemplate]
    exact fails.bind_error _
  | body got _ ih =>
    intro written
    obtain ⟨behind, ends⟩ := ih written
    refine ⟨behind, ?_⟩
    rw [Work.render, renderTemplate]
    exact got.bind (ends.bind_error _)
  | layout got rendered declared _ ih =>
    intro written
    obtain ⟨behind, ends⟩ := ih written
    refine ⟨{ behind with scope := behind.scope.pop }, ?_⟩
    rw [Work.render, renderTemplate]
    refine got.bind (rendered.bind (.of_done (start_takeLayout _) ?_))
    rw [declared]
    exact .of_done (start_scope _) ends.within

/-- A part that has ended by a history has ended in one way. -/
theorem Ends.unique {m : RenderM α} {result result' : Except Failure α} {behind' : State}
    {history' rest rest' : List Exchange} (first : Ends m state history result behind)
    (second : Ends m state history' result' behind') (same : history ++ rest = history' ++ rest') :
    history = history' ∧ result = result' ∧ behind = behind' ∧ rest = rest' := by
  obtain ⟨histories, results, rests⟩ := first.done_unique second same
  cases results
  exact ⟨histories, rfl, rfl, rests⟩

/-- By one history, what is rendered fails in one scope: the one of the failure. -/
theorem FailsIn.unique {work : Work} {scope : Scope}
    (first : FailsIn settings n work state history scope error) :
    ∀ {history' : List Exchange} {scope' : Scope} {error' : RenderError},
      FailsIn settings n work state history' scope' error' → history' = history →
        scope' = scope ∧ error' = error := by
  -- A part that has failed has not given a result by the beginning of its history.
  have apart {γ : Type} {m : RenderM γ} {state behind behind' : State} {failure : Failure} {value : γ}
      {failed given rest : List Exchange} (fails : Ends m state failed (.error failure) behind)
      (gives : Ends m state given (.ok value) behind') (same : given ++ rest = failed) : False :=
    nomatch (gives.unique fails (same.trans (List.append_nil failed).symm)).2.1
  induction first with
  | head fails =>
    intro history' scope' error' second same
    cases second with
    | head fails' =>
      obtain ⟨-, failures, states, -⟩ := fails.unique fails' (congrArg (· ++ []) same.symm)
      cases failures
      exact ⟨congrArg State.scope states.symm, rfl⟩
    | next comes' _ => exact (apart fails comes' same).elim
  | next comes _ ih =>
    intro history' scope' error' second same
    cases second with
    | head fails' => exact (apart fails' comes same.symm).elim
    | next comes' fails' =>
      obtain ⟨rfl, results, rfl, rfl⟩ := comes.unique comes' same.symm
      cases results
      exact ih fails' rfl
  | branch _ ih =>
    intro history' scope' error' second same
    cases second with
    | branch fails' => exact ih fails' same
  | included _ ih =>
    intro history' scope' error' second same
    cases second with
    | included fails' => exact ih fails' same
  | items _ ih =>
    intro history' scope' error' second same
    cases second with
    | items fails' => exact ih fails' (List.append_cancel_right same)
  | first fails ih =>
    intro history' scope' error' second same
    cases second with
    | first fails' => exact ih fails' same
    | later rendered' _ =>
      obtain ⟨behind, ends⟩ := fails.ends ""
      exact (apart ends rendered' same).elim
  | later rendered _ ih =>
    intro history' scope' error' second same
    cases second with
    | first fails' =>
      obtain ⟨behind, ends⟩ := fails'.ends ""
      exact (apart ends rendered same.symm).elim
    | later rendered' fails' =>
      obtain ⟨rfl, results, rfl, rfl⟩ := rendered.unique rendered' same.symm
      exact ih fails' rfl
  | drawing fails =>
    intro history' scope' error' second same
    cases second with
    | drawing fails' =>
      obtain ⟨-, failures, states, -⟩ := fails.unique fails' (congrArg (· ++ []) same.symm)
      cases failures
      exact ⟨congrArg State.scope states.symm, rfl⟩
    | item drawn' _ => exact (apart fails drawn' same).elim
    | others drawn' _ _ => exact (apart fails drawn' same).elim
  | item drawn fails ih =>
    intro history' scope' error' second same
    cases second with
    | drawing fails' => exact (apart fails' drawn same.symm).elim
    | item drawn' fails' =>
      obtain ⟨rfl, results, rfl, rfl⟩ := drawn.unique drawn' same.symm
      cases results
      exact ih fails' rfl
    | others drawn' rendered' _ =>
      obtain ⟨rfl, results, rfl, rest⟩ := drawn.unique drawn' same.symm
      cases results
      obtain ⟨behind, ends⟩ := fails.ends ""
      exact (apart ends.within rendered' rest.symm).elim
  | others drawn rendered _ ih =>
    intro history' scope' error' second same
    cases second with
    | drawing fails' => exact (apart fails' drawn same.symm).elim
    | item drawn' fails' =>
      obtain ⟨rfl, results, rfl, rest⟩ := drawn.unique drawn' same.symm
      cases results
      obtain ⟨behind, ends⟩ := fails'.ends ""
      exact (apart ends.within rendered rest).elim
    | others drawn' rendered' fails' =>
      obtain ⟨rfl, results, rfl, rest⟩ := drawn.unique drawn' same.symm
      cases results
      obtain ⟨rfl, results, rfl, rfl⟩ := rendered.unique rendered' rest
      exact ih fails' rfl
  | parsing fails =>
    intro history' scope' error' second same
    cases second with
    | parsing fails' =>
      obtain ⟨-, failures, states, -⟩ := fails.unique fails' (congrArg (· ++ []) same.symm)
      cases failures
      exact ⟨congrArg State.scope states.symm, rfl⟩
    | body got' _ => exact (apart fails got' same).elim
    | layout got' _ _ _ => exact (apart fails got' same).elim
  | body got fails ih =>
    intro history' scope' error' second same
    cases second with
    | parsing fails' => exact (apart fails' got same.symm).elim
    | body got' fails' =>
      obtain ⟨rfl, results, rfl, rfl⟩ := got.unique got' same.symm
      cases results
      exact ih fails' rfl
    | layout got' rendered' _ _ =>
      obtain ⟨rfl, results, rfl, rest⟩ := got.unique got' same.symm
      cases results
      obtain ⟨behind, ends⟩ := fails.ends ""
      exact (apart ends rendered' rest.symm).elim
  | layout got rendered declared _ ih =>
    intro history' scope' error' second same
    cases second with
    | parsing fails' => exact (apart fails' got same.symm).elim
    | body got' fails' =>
      obtain ⟨rfl, results, rfl, rest⟩ := got.unique got' same.symm
      cases results
      obtain ⟨behind, ends⟩ := fails'.ends ""
      exact (apart ends rendered rest).elim
    | layout got' rendered' declared' fails' =>
      obtain ⟨rfl, results, rfl, rest⟩ := got.unique got' same.symm
      cases results
      obtain ⟨rfl, results, rfl, rfl⟩ := rendered.unique rendered' rest
      cases results
      cases declared.symm.trans declared'
      exact ih fails' rfl

end RenderM

end Stencil.Render
